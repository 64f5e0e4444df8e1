import ZxSpectrum.Proofs.Frames
import ZxSpectrum.Proofs.ScreenRace

/-!
# Resets and loads forget the past

Whatever a machine goes through, its ROM stays and its settings are those that were last made (`settings_perform`,
`rom_perform`). A reset, and the load of a snapshot, keep these and nothing else (`reset_eq_iff`, `restore_eq_iff`): two
machines with the same ROM are in the same state afterwards exactly if their settings are the same (`restart_forgets`).
-/

namespace ZxSpectrum

/-- What a reset leaves as it is, beside the ROM. -/
structure Settings where
  acceleratedLoad : Bool
  tapeNoise : Bool
  accurate : Bool
  frameRate : FrameRate
  tapeEar : Option Bool
deriving DecidableEq

/-- What can happen to a machine. -/
inductive Operation where
  | frame
  | reset
  | load (snapshot : Snapshot)
  | press (key : Key)
  | release (key : Key)
  | joystick (bits : UInt8)
  | tapeEar (ear : Option Bool)
  | acceleratedLoad (accelerated : Bool)
  | accurate (accurate : Bool)
  | frameRate (rate : FrameRate)

/-- The settings after an operation. -/
def Settings.adjust (settings : Settings) : Operation → Settings
  | .tapeEar ear => { settings with tapeEar := ear }
  | .acceleratedLoad accelerated => { settings with acceleratedLoad := accelerated }
  | .accurate accurate => { settings with accurate := accurate }
  | .frameRate rate => { settings with frameRate := rate.effective }
  | _ => settings

/-- The settings of a new machine, to which no tape is connected. -/
def Config.settings (config : Config) : Settings :=
  { acceleratedLoad := config.acceleratedLoad, tapeNoise := config.tapeNoise, accurate := config.accurateUla
    frameRate := config.frameRate.effective, tapeEar := none }

namespace Machine

def settings (machine : Machine) : Settings :=
  { acceleratedLoad := machine.board.ports.acceleratedLoad
    tapeNoise := machine.board.ports.tapeNoise
    accurate := machine.board.shadow.accurate
    frameRate := machine.frameRate
    tapeEar := machine.board.ports.tapeEar }

/-- The machine after an operation. A snapshot that cannot be taken changes nothing. -/
def perform (machine : Machine) : Operation → Machine
  | .frame => machine.renderFrame
  | .reset => machine.reset
  | .load snapshot =>
    match machine.loadSnapshot snapshot with
    | .ok loaded => loaded
    | .error _ => machine
  | .press key => machine.pressKey key
  | .release key => machine.releaseKey key
  | .joystick bits => machine.setJoystick bits
  | .tapeEar ear => machine.setTapeEar ear
  | .acceleratedLoad accelerated => machine.setAcceleratedLoad accelerated
  | .accurate accurate => machine.setAccurate accurate
  | .frameRate rate => machine.setFrameRate rate

end Machine

/-! ## Settings -/

namespace Ports

/-- The settings that the ports know. -/
def switches (ports : Ports) : Bool × Bool × Option Bool := (ports.acceleratedLoad, ports.tapeNoise, ports.tapeEar)

theorem switches_read (ports : Ports) (port : UInt16) (time : Nat) :
    (ports.read port time).2.switches = ports.switches := by
  simp only [read, noteRead]
  repeat' split
  all_goals rfl

theorem switches_write (ports : Ports) (port : UInt16) (value : UInt8) (time : Nat) :
    (ports.write port value time).switches = ports.switches := by
  unfold write
  split <;> rfl

end Ports

namespace Board

/-- A program has no influence on the settings. -/
theorem keeps_switches (accurate : Bool) (switches : Bool × Bool × Option Bool) :
    Keeps fun board : Board => board.shadow.accurate = accurate ∧ board.ports.switches = switches where
  idle _ h := h
  contend _ _ h := h
  poke {board} address value h := by
    have haccurate : (board.poke address value).shadow.accurate = board.shadow.accurate := by
      unfold poke
      split
      · rfl
      · dsimp only
        split
        · exact (Ula.Shadow.noteWrite_frame _ _ _ _).2
        · rfl
    exact ⟨haccurate.trans h.1, (congrArg Ports.switches (clock_poke address value board).2).trans h.2⟩
  input port h := ⟨h.1, (Ports.switches_read _ port _).trans h.2⟩
  output port value h := ⟨h.1, (Ports.switches_write _ port value _).trans h.2⟩

end Board

namespace Machine

variable {one two machine : Machine}

/-- A frame changes no settings. -/
theorem settings_renderFrame (machine : Machine) : machine.renderFrame.settings = machine.settings := by
  have hopened : machine.opened.shadow.accurate = machine.board.shadow.accurate ∧
      machine.opened.ports.switches = machine.board.ports.switches := ⟨rfl, rfl⟩
  obtain ⟨haccurate, hswitches⟩ := executed_of_keeps (Board.keeps_switches _ _) hopened
  simp only [Ports.switches, Prod.mk.injEq] at hswitches
  obtain ⟨haccelerated, hnoise, hear⟩ := hswitches
  unfold settings
  rw [renderFrame_board]
  simp only [Ports.endFrame, haccurate, haccelerated, hnoise, hear]
  rfl

/-- A load, of a snapshot or of none, changes neither settings nor ROM. -/
theorem perform_load (machine : Machine) (snapshot : Snapshot) :
    machine.perform (.load snapshot) = machine ∨ machine.perform (.load snapshot) = machine.restore snapshot := by
  rw [perform, loadSnapshot]
  cases snapshot.problem? with
  | none => exact Or.inr rfl
  | some error => exact Or.inl rfl

/-- Settings change by what is set, and by nothing else. -/
theorem settings_perform (machine : Machine) (operation : Operation) :
    (machine.perform operation).settings = machine.settings.adjust operation := by
  cases operation with
  | frame => exact machine.settings_renderFrame
  | load snapshot => rcases machine.perform_load snapshot with h | h <;> rw [h] <;> rfl
  | _ => rfl

/-- Nothing changes the ROM. -/
theorem rom_perform (machine : Machine) (operation : Operation) :
    (machine.perform operation).rom = machine.rom ∧ (machine.perform operation).romKind = machine.romKind := by
  cases operation with
  | load snapshot => rcases machine.perform_load snapshot with h | h <;> rw [h] <;> exact ⟨rfl, rfl⟩
  | _ => exact ⟨rfl, rfl⟩

/-- Some operations in turn. -/
theorem settings_foldl_perform (past : List Operation) (machine : Machine) :
    (past.foldl perform machine).settings = past.foldl Settings.adjust machine.settings ∧
      (past.foldl perform machine).rom = machine.rom ∧ (past.foldl perform machine).romKind = machine.romKind := by
  induction past generalizing machine with
  | nil => exact ⟨rfl, rfl, rfl⟩
  | cons operation rest ih =>
    obtain ⟨hsettings, hrom, hkind⟩ := ih (machine.perform operation)
    rw [settings_perform] at hsettings
    exact ⟨hsettings, hrom.trans (machine.rom_perform operation).1, hkind.trans (machine.rom_perform operation).2⟩

/-! ## Resets and loads -/

/-- A machine that has just been reset. -/
def powered (rom : List UInt8) (romKind : RomKind) (settings : Settings) : Machine :=
  reset
    { board :=
        { shadow := { accurate := settings.accurate }
          ports :=
            { tapeEar := settings.tapeEar, acceleratedLoad := settings.acceleratedLoad, tapeNoise := settings.tapeNoise } }
      rom, romKind, frameRate := settings.frameRate }

/-- A reset keeps ROM and settings only. -/
theorem reset_eq_powered (machine : Machine) :
    machine.reset = powered machine.rom machine.romKind machine.settings := rfl

/-- A load starts from a reset. -/
theorem restore_eq_powered (machine : Machine) (snapshot : Snapshot) :
    machine.restore snapshot = (powered machine.rom machine.romKind machine.settings).restore snapshot := rfl

/-- Machines with the same ROM are equal after a reset exactly if their settings are. -/
theorem reset_eq_iff (hrom : one.rom = two.rom) (hkind : one.romKind = two.romKind) :
    one.reset = two.reset ↔ one.settings = two.settings := by
  refine ⟨fun h => (congrArg settings h : one.reset.settings = two.reset.settings), fun h => ?_⟩
  rw [reset_eq_powered, hrom, hkind, h, ← reset_eq_powered]

/-- So they are after a load. -/
theorem restore_eq_iff (hrom : one.rom = two.rom) (hkind : one.romKind = two.romKind) (snapshot : Snapshot) :
    one.restore snapshot = two.restore snapshot ↔ one.settings = two.settings := by
  refine ⟨fun h => (congrArg settings h : (one.restore snapshot).settings = (two.restore snapshot).settings), fun h => ?_⟩
  rw [restore_eq_powered, hrom, hkind, h, ← restore_eq_powered]

theorem settings_of_create {config : Config} (h : create config = .ok machine) :
    machine.settings = config.settings ∧ machine.rom = config.rom ∧ machine.romKind = romKindOf config.rom := by
  obtain ⟨-, rfl⟩ := create_eq_ok_iff.mp h
  exact ⟨rfl, rfl, rfl⟩

/-- A machine with its past behind it: reset, or loaded with a snapshot if it can be taken. -/
def restart (machine : Machine) : Option Snapshot → Except SnapshotError Machine
  | none => .ok machine.reset
  | some snapshot => machine.loadSnapshot snapshot

/-- Machines with the same ROM restart alike exactly if their settings are the same. -/
theorem restart_eq_iff (hrom : one.rom = two.rom) (hkind : one.romKind = two.romKind) {start : Option Snapshot}
    {fresh fresh' : Machine} (hone : one.restart start = .ok fresh) (htwo : two.restart start = .ok fresh') :
    fresh = fresh' ↔ one.settings = two.settings := by
  cases start with
  | none =>
    rw [← Except.ok.inj hone, ← Except.ok.inj htwo]
    exact reset_eq_iff hrom hkind
  | some snapshot =>
    rw [(loadSnapshot_eq_ok_iff.mp hone).2, (loadSnapshot_eq_ok_iff.mp htwo).2]
    exact restore_eq_iff hrom hkind snapshot

/-- Two machines are built from the same ROM, and each goes through a past of its own. Reset, or loaded with the same snapshot,
they are in the same state exactly if the settings that were last made are the same; and then they show and sound the same in
every future that they share. -/
theorem restart_forgets {config other : Config} (hrom : config.rom = other.rom) (hone : create config = .ok one)
    (htwo : create other = .ok two) (past elsewhere : List Operation) (start : Option Snapshot) {fresh fresh' : Machine}
    (hfresh : (past.foldl perform one).restart start = .ok fresh)
    (hfresh' : (elsewhere.foldl perform two).restart start = .ok fresh') :
    (fresh = fresh' ↔ past.foldl Settings.adjust config.settings = elsewhere.foldl Settings.adjust other.settings) ∧
    (past.foldl Settings.adjust config.settings = elsewhere.foldl Settings.adjust other.settings →
      ∀ (future : List Operation) (diff : Bool),
        (future.foldl perform fresh).displayData diff = (future.foldl perform fresh').displayData diff ∧
        (future.foldl perform fresh).audioData = (future.foldl perform fresh').audioData) := by
  obtain ⟨hfirst, hfirstRom, hfirstKind⟩ := settings_foldl_perform past one
  obtain ⟨hsecond, hsecondRom, hsecondKind⟩ := settings_foldl_perform elsewhere two
  obtain ⟨hsettings, hromOne, hkindOne⟩ := settings_of_create hone
  obtain ⟨hsettings', hromTwo, hkindTwo⟩ := settings_of_create htwo
  have heq := restart_eq_iff (by rw [hfirstRom, hsecondRom, hromOne, hromTwo, hrom])
    (by rw [hfirstKind, hsecondKind, hkindOne, hkindTwo, hrom]) hfresh hfresh'
  rw [hfirst, hsecond, hsettings, hsettings'] at heq
  refine ⟨heq, fun h future diff => ?_⟩
  rw [heq.mpr h]
  exact ⟨rfl, rfl⟩

/-- RAM of zeros and a red border. -/
def redSnapshot : Snapshot := { border := 2 }

theorem problem?_redSnapshot : redSnapshot.problem? = none :=
  Snapshot.problem?_eq_none_iff.mpr ⟨List.length_replicate, by decide⟩

/-- A key held and two frames on one machine; on the other, which was built for fast tapes, that option taken back, a reset
and a frame with the joystick moved. -/
theorem restart_forgets_redSnapshot : ∃ one two fresh fresh',
    create { rom := List.replicate Memory.romSize 0 } = .ok one ∧
    create { rom := List.replicate Memory.romSize 0, acceleratedLoad := true } = .ok two ∧
    ([.press .a, .frame, .frame].foldl perform one).restart (some redSnapshot) = .ok fresh ∧
    ([.acceleratedLoad false, .reset, .joystick 1, .frame].foldl perform two).restart (some redSnapshot) = .ok fresh' ∧
    fresh = fresh' ∧ ∀ (future : List Operation) (diff : Bool),
      (future.foldl perform fresh).displayData diff = (future.foldl perform fresh').displayData diff := by
  have hcreate : ∀ config : Config, config.rom = List.replicate Memory.romSize 0 →
      ∃ machine, create config = .ok machine := by
    intro config h
    exact ⟨_, create_eq_ok_iff.mpr ⟨by rw [h, List.length_replicate], rfl⟩⟩
  obtain ⟨one, hone⟩ := hcreate { rom := List.replicate Memory.romSize 0 } rfl
  obtain ⟨two, htwo⟩ := hcreate { rom := List.replicate Memory.romSize 0, acceleratedLoad := true } rfl
  have hload : ∀ machine : Machine, machine.restart (some redSnapshot) = .ok (machine.restore redSnapshot) :=
    fun machine => by
      rw [restart, loadSnapshot_eq_ok_iff]
      exact ⟨problem?_redSnapshot, rfl⟩
  have hfirst := hload ([.press .a, .frame, .frame].foldl perform one)
  have hsecond := hload ([.acceleratedLoad false, .reset, .joystick 1, .frame].foldl perform two)
  obtain ⟨heq, hfuture⟩ := restart_forgets (by rfl) hone htwo _ _ _ hfirst hsecond
  simp only [List.foldl_cons, List.foldl_nil, Settings.adjust, Config.settings, iff_true, true_implies] at heq hfuture
  exact ⟨one, two, _, _, hone, htwo, hfirst, hsecond, heq, fun future diff => (hfuture future diff).1⟩

end Machine

end ZxSpectrum
