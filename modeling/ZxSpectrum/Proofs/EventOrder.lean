import ZxSpectrum.Proofs.ChangeLogs
import ZxSpectrum.Proofs.Frames
import ZxSpectrum.Proofs.MemoryImage
import ZxSpectrum.Proofs.PrefixChains

/-!
# Border and beeper over a run

The change logs of border and beeper (`Signal`) through the frames of a run. Every bus cycle records at the clock and the
clock never goes back, so within a frame changes are added in order (`Logged`). A frame can spoil the order only by a change
before one that was carried over into it (`Overtakes`), and only after a frame that ended a whole frame late: the clock wraps
past as many frames as it takes, the changes carried over move by one (`closesInOrder_run`).
-/

namespace ZxSpectrum

open Ula

/-- What the ports log. -/
inductive Signal where
  | border | beeper

namespace Signal

/-- The log of a signal. -/
def log : Signal → Ports → EventLog
  | .border => Ports.borderLog
  | .beeper => Ports.beeperLog

/-- The highest value of a signal: eight colours, four levels. -/
def highest : Signal → UInt8
  | .border => 7
  | .beeper => 3

/-- The level of the beeper stays below 4, the noise of a tape included. -/
theorem noiseLevel_le {ports : Ports} (h : ports.beeper ≤ 3) (ear : Bool) : ports.noiseLevel ear ≤ 3 := by
  have hor := Nat.or_lt_two_pow (n := 2) (x := ports.beeper.toNat) (y := 2)
    (Nat.lt_succ_of_le (UInt8.le_iff_toNat_le.mp h)) (by decide)
  unfold Ports.noiseLevel
  cases ear with
  | true =>
    rw [if_pos rfl, UInt8.le_iff_toNat_le, UInt8.toNat_or]
    exact Nat.le_of_lt_succ hor
  | false => exact h

/-- A read of a port leaves a log alone or records a level at its time. -/
theorem log_read (signal : Signal) {ports : Ports} (h : ports.beeper ≤ 3) (port : UInt16) (time : Nat) :
    signal.log (ports.read port time).2 = signal.log ports ∨
      ∃ value ≤ signal.highest, signal.log (ports.read port time).2 = (signal.log ports).record ⟨time, value⟩ := by
  unfold Ports.read Ports.noteRead
  split
  · dsimp only
    split
    · rename_i ear hear
      split
      · cases signal with
        | border => exact Or.inl rfl
        | beeper => exact Or.inr ⟨ports.noiseLevel ear, noiseLevel_le h ear, rfl⟩
      · cases signal <;> exact Or.inl rfl
    · cases signal <;> exact Or.inl rfl
  · exact Or.inl rfl

/-- A write to a port leaves a log alone or records a value at its time. -/
theorem log_write (signal : Signal) (ports : Ports) (port : UInt16) (value : UInt8) (time : Nat) :
    signal.log (ports.write port value time) = signal.log ports ∨
      ∃ level ≤ signal.highest, signal.log (ports.write port value time) = (signal.log ports).record ⟨time, level⟩ := by
  unfold Ports.write
  split
  · cases signal with
    | border => exact Or.inr ⟨_, UInt8.and_le_right, rfl⟩
    | beeper => exact Or.inr ⟨_, UInt8.and_le_right, rfl⟩
  · exact Or.inl rfl

end Signal

/-- Reads of ports leave the level of the beeper alone. -/
theorem Ports.beeper_read (ports : Ports) (port : UInt16) (time : Nat) :
    (ports.read port time).2.beeper = ports.beeper := by
  unfold Ports.read Ports.noteRead
  split
  · dsimp only
    split
    · split <;> rfl
    · rfl
  · rfl

/-- Only two bits of a byte reach the beeper. -/
theorem Ports.beeper_write {ports : Ports} (h : ports.beeper ≤ 3) (port : UInt16) (value : UInt8) (time : Nat) :
    (ports.write port value time).beeper ≤ 3 := by
  unfold Ports.write
  split
  · exact UInt8.and_le_right
  · exact h

/-! ## One frame -/

/-- What holds of the log of a signal in the course of a frame: the times with which the frame began stand first, then those
of the changes that have been added, in order and none ahead of the clock. -/
structure Logged (signal : Signal) (opened board : Board) : Prop where
  beeper : board.ports.beeper ≤ 3
  within : EventLog.Within signal.highest (signal.log board.ports)
  clock : opened.clock ≤ board.clock
  times : ∃ fresh, (signal.log board.ports).times = (signal.log opened.ports).times ++ fresh ∧
    fresh.Pairwise (· ≤ ·) ∧ ∀ time ∈ fresh, opened.clock ≤ time ∧ time ≤ board.clock

namespace Logged

variable {signal : Signal} {opened board later : Board}

/-- At first nothing is added. -/
theorem refl (hbeeper : board.ports.beeper ≤ 3) (within : EventLog.Within signal.highest (signal.log board.ports)) :
    Logged signal board board :=
  ⟨hbeeper, within, Nat.le_refl _, [], (List.append_nil _).symm, List.Pairwise.nil,
    fun _ ht => absurd ht List.not_mem_nil⟩

/-- Ports that stand as they were keep the invariant. -/
theorem waits (logged : Logged signal opened board) (hports : later.ports = board.ports)
    (hclock : board.clock ≤ later.clock) : Logged signal opened later := by
  obtain ⟨fresh, htimes, hsorted, hbounds⟩ := logged.times
  refine ⟨hports ▸ logged.beeper, hports ▸ logged.within, Nat.le_trans logged.clock hclock, fresh, hports ▸ htimes,
    hsorted, fun time ht => ?_⟩
  exact ⟨(hbounds time ht).1, Nat.le_trans (hbounds time ht).2 hclock⟩

/-- A port access in the course of a cycle keeps the invariant. -/
theorem access (logged : Logged signal opened board) {time : Nat} (hfrom : board.clock ≤ time)
    (hto : time ≤ later.clock) (hbeeper : later.ports.beeper ≤ 3)
    (hlog : signal.log later.ports = signal.log board.ports ∨
      ∃ value ≤ signal.highest, signal.log later.ports = (signal.log board.ports).record ⟨time, value⟩) :
    Logged signal opened later := by
  obtain ⟨fresh, htimes, hsorted, hbounds⟩ := logged.times
  have hclock : opened.clock ≤ later.clock := Nat.le_trans logged.clock (Nat.le_trans hfrom hto)
  have hold : ∀ earlier ∈ fresh, opened.clock ≤ earlier ∧ earlier ≤ later.clock := by
    intro earlier he
    exact ⟨(hbounds earlier he).1, Nat.le_trans (hbounds earlier he).2 (Nat.le_trans hfrom hto)⟩
  rcases hlog with hsame | ⟨value, hvalue, hrecord⟩
  · exact ⟨hbeeper, hsame ▸ logged.within, hclock, fresh, hsame ▸ htimes, hsorted, hold⟩
  · refine ⟨hbeeper, hrecord ▸ logged.within.record hvalue, hclock, ?_⟩
    rcases EventLog.times_record (signal.log board.ports) ⟨time, value⟩ with h | h
    · exact ⟨fresh, by rw [hrecord, h, htimes], hsorted, hold⟩
    · refine ⟨fresh ++ [time], by rw [hrecord, h, htimes, List.append_assoc], ?_, fun other ho => ?_⟩
      · rw [List.pairwise_append]
        refine ⟨hsorted, List.pairwise_singleton _ _, fun earlier he last hl => ?_⟩
        rw [List.mem_singleton.mp hl]
        exact Nat.le_trans (hbounds earlier he).2 hfrom
      · rcases List.mem_append.mp ho with ho | ho
        · exact hold other ho
        · rw [List.mem_singleton.mp ho]
          exact ⟨Nat.le_trans logged.clock hfrom, hto⟩

end Logged

/-- Every bus cycle keeps the logs of the frame in order. -/
theorem keeps_logged (signal : Signal) (opened : Board) : Keeps (Logged signal opened) where
  idle time logged := logged.waits rfl (Board.waits_idle time _).clock
  contend address time logged := logged.waits rfl (Board.waits_contend address time _).clock
  poke address value logged :=
    logged.waits (Board.clock_poke address value _).2 (Nat.le_of_eq (Board.clock_poke address value _).1.symm)
  input port logged := by
    refine logged.access (clock_le_beforePort port _) (clock_le_afterPort port _) ?_ (signal.log_read logged.beeper _ _)
    exact Nat.le_trans (Nat.le_of_eq (congrArg UInt8.toNat (Ports.beeper_read _ _ _))) logged.beeper
  output port value logged :=
    logged.access (clock_le_beforePort port _) (clock_le_afterPort port _) (Ports.beeper_write logged.beeper _ _ _)
      (signal.log_write _ _ _ _)

namespace Machine

/-- Values in range: what holds of a signal whatever was executed. -/
structure Ranged (signal : Signal) (machine : Machine) : Prop where
  beeper : machine.board.ports.beeper ≤ 3
  within : EventLog.Within signal.highest (signal.log machine.board.ports)

/-- The changes of a signal that are carried over stand in order. -/
def CarriesInOrder (signal : Signal) (machine : Machine) : Prop :=
  ((signal.log machine.board.ports).carried.map (·.tstate)).Pairwise (· ≤ ·)

/-- No change is carried over into the next frame ahead of the clock with which that frame begins. -/
def InStep (signal : Signal) (machine : Machine) : Prop :=
  ∀ time ∈ (signal.log machine.board.ports).carried.map (·.tstate), time ≤ wrapFrame machine.board.clock

/-- The log of a signal at the end of the next frame, before it is closed. -/
def executedLog (signal : Signal) (machine : Machine) : EventLog := signal.log machine.executed.2.ports

/-- The next frame leaves the list of a signal in order, and all that it carries over lies past its end, so that no time falls
below 0 there and wraps. -/
def ClosesInOrder (signal : Signal) (machine : Machine) : Prop :=
  InOrder (signal.log machine.renderFrame.board.ports).events ∧
    ∀ event ∈ (machine.executedLog signal).late, tstatesPerFrame ≤ event.tstate

/-- The first change that the next frame adds is one at the time `first`, and lies before one that was carried over. -/
def Overtakes (signal : Signal) (machine : Machine) (first : Nat) : Prop :=
  (machine.executedLog signal).times[(signal.log machine.opened.ports).times.length]? = some first ∧
    ∃ time ∈ (signal.log machine.opened.ports).times, first < time

variable {signal : Signal} {machine : Machine}

theorem log_opened (signal : Signal) (machine : Machine) :
    signal.log machine.opened.ports = (signal.log machine.board.ports).beginFrame := by
  cases signal <;> rfl

theorem log_renderFrame (signal : Signal) (machine : Machine) :
    signal.log machine.renderFrame.board.ports = (machine.executedLog signal).endFrame := by
  rw [renderFrame_board]
  cases signal <;> rfl

theorem Ranged.opened (ranged : Ranged signal machine) : Logged signal machine.opened machine.opened := by
  refine Logged.refl ranged.beeper ?_
  rw [log_opened]
  exact ranged.within.beginFrame

/-- The execution of a frame logs in order. -/
theorem Ranged.logged (ranged : Ranged signal machine) : Logged signal machine.opened machine.executed.2 :=
  executed_of_keeps (keeps_logged signal machine.opened) ranged.opened

/-- Values stay in range from frame to frame. -/
theorem Ranged.renderFrame (ranged : Ranged signal machine) : Ranged signal machine.renderFrame where
  beeper := ranged.logged.beeper
  within := by
    rw [log_renderFrame]
    exact ranged.logged.within.endFrame

/-- A frame begins with times in order. -/
theorem CarriesInOrder.opened (carries : CarriesInOrder signal machine) :
    (signal.log machine.opened.ports).times.Pairwise (· ≤ ·) := by
  rw [log_opened]
  exact carries.sublist (EventLog.times_beginFrame _)

/-- What the log of a signal holds when a frame has been executed: first the times with which the frame began, then those that
it added, in order and from the clock with which it began to that with which it ends. The first of these is the one that
overtakes, if any does. -/
theorem Ranged.times_executedLog (ranged : Ranged signal machine) :
    ∃ fresh, (machine.executedLog signal).times = (signal.log machine.opened.ports).times ++ fresh ∧
      fresh.Pairwise (· ≤ ·) ∧
      (∀ time ∈ fresh, machine.opened.clock ≤ time ∧ time ≤ machine.executed.2.clock) ∧
      ∀ first, machine.Overtakes signal first ↔
        first ∈ fresh.head? ∧ ∃ time ∈ (signal.log machine.opened.ports).times, first < time := by
  obtain ⟨fresh, htimes, hsorted, hbounds⟩ := ranged.logged.times
  refine ⟨fresh, htimes, hsorted, hbounds, fun first => ?_⟩
  unfold Overtakes executedLog
  rw [htimes, List.getElem?_append_right (Nat.le_refl _), Nat.sub_self, List.head?_eq_getElem?]
  exact Iff.rfl

/-- A frame closes the log in order unless a change within it overtakes one that was carried over. -/
theorem closesInOrder_iff (ranged : Ranged signal machine) (carries : CarriesInOrder signal machine) :
    machine.ClosesInOrder signal ↔ ∀ first, machine.Overtakes signal first → tstatesPerFrame ≤ first := by
  obtain ⟨fresh, htimes, hsorted, -, hover⟩ := ranged.times_executedLog
  have hcloses : machine.ClosesInOrder signal ↔ (machine.executedLog signal).ClosesInOrder := by
    unfold ClosesInOrder EventLog.ClosesInOrder
    rw [log_renderFrame]
  rw [hcloses, EventLog.closesInOrder_append_iff htimes carries.opened hsorted]
  constructor
  · intro hfits first hfirst
    obtain ⟨hhead, time, ht, hlt⟩ := (hover first).mp hfirst
    rcases hfits first hhead with hpast | hafter
    · exact hpast
    · exact absurd hlt (Nat.not_lt_of_le (hafter time ht))
  · intro hpast first hhead
    by_cases hafter : ∀ time ∈ (signal.log machine.opened.ports).times, time ≤ first
    · exact Or.inr hafter
    · have hlt : ∃ time ∈ (signal.log machine.opened.ports).times, first < time := by simpa using hafter
      exact Or.inl (hpast first ((hover first).mpr ⟨hhead, hlt⟩))

/-- A frame in which nothing is overtaken carries over in order. -/
theorem CarriesInOrder.renderFrame (ranged : Ranged signal machine) (carries : CarriesInOrder signal machine)
    (hnone : ∀ first, ¬ machine.Overtakes signal first) : CarriesInOrder signal machine.renderFrame := by
  obtain ⟨fresh, htimes, hsorted, -, hover⟩ := ranged.times_executedLog
  have hall : (machine.executedLog signal).times.Pairwise (· ≤ ·) := by
    rw [htimes]
    refine EventLog.pairwise_append_of_head carries.opened hsorted fun first hhead time ht => ?_
    exact Nat.le_of_not_lt fun hlt => hnone first ((hover first).mpr ⟨hhead, time, ht, hlt⟩)
  unfold CarriesInOrder
  rw [log_renderFrame, EventLog.times_carried fun time ht => EventLog.le_of_mem_dropWhile hall ht, List.pairwise_map]
  exact (hall.sublist (List.dropWhile_sublist _)).imp fun h => Nat.sub_le_sub_right h _

/-! ## Frames that end in time -/

/-- Where the clock begins behind everything that was carried over, nothing is overtaken. -/
theorem InStep.not_overtakes (ranged : Ranged signal machine) (step : InStep signal machine) (first : Nat) :
    ¬ machine.Overtakes signal first := by
  obtain ⟨fresh, -, -, hbounds, hover⟩ := ranged.times_executedLog
  intro hfirst
  obtain ⟨hhead, time, ht, hlt⟩ := (hover first).mp hfirst
  have hfrom : machine.opened.clock ≤ first := (hbounds first (List.mem_of_mem_head? hhead)).1
  rw [log_opened] at ht
  have hcarried := step time ((EventLog.times_beginFrame _).subset ht)
  have hclock : machine.opened.clock = wrapFrame machine.board.clock := rfl
  omega

/-- A frame that ends less than a frame late leaves the signal in step: what it carries over moves by one frame, as the clock
does. -/
theorem InStep.renderFrame (ranged : Ranged signal machine) (step : InStep signal machine)
    (hclock : machine.renderFrame.board.clock < 2 * tstatesPerFrame) : InStep signal machine.renderFrame := by
  obtain ⟨fresh, htimes, hsorted, hbounds, -⟩ := ranged.times_executedLog
  have hend : machine.renderFrame.board.clock = machine.executed.2.clock := rfl
  have hold : ∀ time ∈ (signal.log machine.opened.ports).times, time ≤ wrapFrame machine.board.clock := by
    intro time ht
    rw [log_opened] at ht
    exact step time ((EventLog.times_beginFrame _).subset ht)
  -- What the frame began with lies within it, so that only changes of its own are late.
  have hlate : (machine.executedLog signal).times.dropWhile (· < tstatesPerFrame) = fresh.dropWhile (· < tstatesPerFrame) := by
    rw [htimes]
    refine List.dropWhile_append_of_pos fun time ht => ?_
    have hwrapped : wrapFrame machine.board.clock < tstatesPerFrame := Nat.mod_lt _ (by decide)
    exact decide_eq_true (Nat.lt_of_le_of_lt (hold time ht) hwrapped)
  unfold InStep
  rw [log_renderFrame, EventLog.times_carried fun time ht => EventLog.le_of_mem_dropWhile hsorted (hlate ▸ ht), hlate, hend]
  intro time ht
  obtain ⟨late, hl, rfl⟩ := List.mem_map.mp ht
  have hle : late ≤ machine.executed.2.clock := (hbounds late (List.dropWhile_subset _ hl)).2
  unfold wrapFrame
  by_cases hshort : machine.executed.2.clock < tstatesPerFrame
  · omega
  · have hwrap : machine.executed.2.clock % tstatesPerFrame = machine.executed.2.clock - tstatesPerFrame := by
      rw [Nat.mod_eq_sub_mod (Nat.le_of_not_lt hshort), Nat.mod_eq_of_lt (by omega)]
    omega

/-! ## Runs -/

theorem Ranged.after (ranged : Ranged signal machine) (frames : Nat) : Ranged signal (machine.after frames) := by
  induction frames with
  | zero => exact ranged
  | succ frames ih => exact ih.renderFrame

theorem CarriesInOrder.after (ranged : Ranged signal machine) (carries : CarriesInOrder signal machine) (frames : Nat)
    (hnone : ∀ k < frames, ∀ first, ¬ (machine.after k).Overtakes signal first) :
    CarriesInOrder signal (machine.after frames) := by
  induction frames with
  | zero => exact carries
  | succ frames ih =>
    exact (ih fun k hk => hnone k (Nat.lt_succ_of_lt hk)).renderFrame (ranged.after frames)
      (hnone frames (Nat.lt_succ_self frames))

theorem InStep.after (ranged : Ranged signal machine) (step : InStep signal machine) (frames : Nat)
    (hclock : ∀ k < frames, (machine.after (k + 1)).board.clock < 2 * tstatesPerFrame) :
    InStep signal (machine.after frames) := by
  induction frames with
  | zero => exact step
  | succ frames ih =>
    exact (ih fun k hk => hclock k (Nat.lt_succ_of_lt hk)).renderFrame (ranged.after frames)
      (hclock frames (Nat.lt_succ_self frames))

/-- A machine that has just taken a snapshot: nothing is carried over, and values are in range. -/
theorem ranged_restore (signal : Signal) (machine : Machine) (snapshot : Snapshot) :
    Ranged signal (machine.restore snapshot) ∧ (signal.log (machine.restore snapshot).board.ports).carried = [] := by
  have hsilent : (0 : UInt8) ≤ 3 := by decide
  cases signal with
  | border => exact ⟨⟨hsilent, EventLog.within_constant UInt8.and_le_right⟩, rfl⟩
  | beeper => exact ⟨⟨hsilent, EventLog.within_constant hsilent⟩, rfl⟩

/-! ## A frame that ends a whole frame late

One instruction can take more than a frame. The program below begins with 17470 prefixes one T-state before the end of a
frame and then sets the border: that frame ends a whole frame late, the change is carried over to the end of the next one,
but the clock goes back to its start, where the program sets the border once more. -/

/-- The code after the prefixes: `OUT (FE),A`, `LD A,5`, `OUT (FE),A`, `HALT`. -/
def lateCode : List UInt8 := [0xD3, 0xFE, 0x3E, 0x05, 0xD3, 0xFE, 0x76]

/-- A memory that holds the program from address 8000 on. -/
structure HoldsLateProgram (memory : Memory) : Prop where
  prefixes : ∀ k < 17470, memory.get (0x8000 + UInt16.ofNat k) = 0xDD
  code : ∀ k < 7, memory.get (0x8000 + UInt16.ofNat (17470 + k)) = lateCode[k]?.getD 0

theorem toNat_late {k : Nat} (h : k < 32768) : ((0x8000 : UInt16) + UInt16.ofNat k).toNat = 32768 + k := by
  rw [UInt16.toNat_add, UInt16.toNat_ofNat']
  change (32768 + k % 65536) % 65536 = 32768 + k
  omega

/-- RAM with the program. -/
def lateRam : List UInt8 :=
  List.replicate 16384 0 ++ (List.replicate 17470 0xDD ++ (lateCode ++ List.replicate 15291 0))

/-- The program just before the end of a frame, with a white border and interrupts off. -/
def lateSnapshot : Snapshot :=
  { cpu := { registers := { a := 2, pc := 0x8000 }, tstates := 69887 }, border := 7, ram := lateRam }

theorem length_lateRam : lateRam.length = Memory.ramSize := by
  simp only [lateRam, lateCode, List.length_append, List.length_replicate, List.length_cons, List.length_nil]
  rfl

theorem problem?_lateSnapshot : lateSnapshot.problem? = none :=
  Snapshot.problem?_eq_none_iff.mpr ⟨length_lateRam, by decide⟩

/-- A machine that has taken the snapshot holds the program. -/
theorem holdsLateProgram_loadRam (memory : Memory) : HoldsLateProgram (memory.loadRam lateRam) := by
  have hget : ∀ k < 32768, (memory.loadRam lateRam).get (0x8000 + UInt16.ofNat k) =
      (List.replicate 17470 0xDD ++ (lateCode ++ List.replicate 15291 0))[k]?.getD 0 := by
    intro k hk
    have hrom : Memory.isRom (0x8000 + UInt16.ofNat k) = false := by
      rw [← Bool.not_eq_true, Memory.isRom_iff, toNat_late hk]
      have : Memory.romSize = 16384 := rfl
      omega
    have hplace : 32768 + k - Memory.romSize = (List.replicate 16384 (0 : UInt8)).length + k := by
      rw [List.length_replicate]
      have : Memory.romSize = 16384 := rfl
      omega
    rw [Memory.get_loadRam _ length_lateRam, hrom, toNat_late hk, hplace, lateRam,
      List.getElem?_append_right (Nat.le_add_right _ _), Nat.add_sub_cancel_left]
    rfl
  refine ⟨fun k hk => ?_, fun k hk => ?_⟩
  · rw [hget k (by omega), List.getElem?_append_left (by rw [List.length_replicate]; exact hk),
      List.getElem?_replicate, if_pos hk]
    rfl
  · rw [hget _ (by omega), List.getElem?_append_right (by rw [List.length_replicate]; omega), List.length_replicate,
      Nat.add_sub_cancel_left, List.getElem?_append_left hk]

/-- The first frame is one instruction, which ends two T-states into the frame after the next. -/
theorem executed_late (machine : Machine) (hcpu : machine.cpu = { regs := { a := 2, pc := 0x8000 } })
    (hclock : machine.board.clock = 69887) (holds : HoldsLateProgram machine.board.memory) :
    ∃ r, machine.executed = ({ regs := { a := 2, pc := 0xC440, r := r } },
      { machine.opened with clock := 139778, ports := machine.opened.ports.write 0x02FE 2 139775 }) := by
  have hopened : machine.opened.clock = 69887 := by
    change wrapFrame machine.board.clock = 69887
    rw [hclock]
    rfl
  have hop : machine.opened.memory.get 0xC43E = 0xD3 := holds.code 0 (by decide)
  have harg : machine.opened.memory.get 0xC43F = 0xFE := holds.code 1 (by decide)
  have hchain : ∀ k ≤ 17469, machine.opened.memory.get (0x8000 + UInt16.ofNat k) = 0xDD ∧
      0x8000 ≤ ((0x8000 : UInt16) + UInt16.ofNat k).toNat := by
    intro k hk
    refine ⟨holds.prefixes k (by omega), ?_⟩
    rw [toNat_late (by omega)]
    omega
  have hplace : (0x8000 : UInt16) + UInt16.ofNat (17469 + 1) = 0xC43E := by decide
  have hagain : Decode.index .ix (machine.opened.memory.get 0xC43E) = .again := by
    rw [hop]
    rfl
  have hrun : Decode.base (machine.opened.memory.get 0xC43E) = .run .outputAccumulator := by
    rw [hop]
    rfl
  have hprefixed : ∃ r, (Cpu.step { regs := { a := 2, pc := 0x8000 } }).run machine.opened =
      (Instruction.outputAccumulator.execute { regs := { a := 2, pc := 0xC43F, r := r } }).run
        { machine.opened with clock := access 0xC43E 4 (machine.opened.clock + 4 * (17469 + 1)) } :=
    Cpu.run_step_prefixes .outputAccumulator (by decide) hplace hchain hagain hrun
  obtain ⟨r, hstep⟩ := hprefixed
  rw [hopened, Cpu.access_of_le (show 0x8000 ≤ (0xC43E : UInt16).toNat by decide)] at hstep
  have hport : Word.ofBytes 2 (machine.opened.memory.get 0xC43F) = 0x02FE := by
    rw [harg]
    rfl
  have hout := Cpu.run_outputAccumulator { regs := { a := 2, pc := 0xC43F, r := r } }
    { machine.opened with clock := 139771 } (show 0x8000 ≤ (0xC43F : UInt16).toNat by decide) hport
    (by decide) (by decide) (show delay 139775 = 0 by decide)
  have hfuel : tstatesPerFrame - Bus.clock machine.opened = 1 := by
    change tstatesPerFrame - machine.opened.clock = 1
    rw [hopened]
    rfl
  have hlt : machine.opened.clock < tstatesPerFrame := by
    rw [hopened]
    decide
  refine ⟨r, ?_⟩
  rw [executed, acknowledged, hcpu, Cpu.run_interrupt_of_disabled rfl, Cpu.runUntil, hfuel, Cpu.runFor_succ hlt, hstep]
  exact hout

/-- The second frame sets the border at its start. -/
theorem executed_late_again {machine : Machine} {r : UInt8}
    (hcpu : machine.cpu = { regs := { a := 2, pc := 0xC440, r := r } }) (hclock : machine.board.clock = 139778)
    (holds : HoldsLateProgram machine.board.memory) :
    ∃ (cpu : Cpu) (fuel : Nat) (board : Board), machine.executed = cpu.runFor tstatesPerFrame fuel board ∧
      board.ports = machine.opened.ports.write 0x05FE 5 17 := by
  have hopened : machine.opened.clock = 2 := by
    change wrapFrame machine.board.clock = 2
    rw [hclock]
    rfl
  have hload : machine.opened.memory.get 0xC440 = 0x3E := holds.code 2 (by decide)
  have hvalue : machine.opened.memory.get 0xC441 = 0x05 := holds.code 3 (by decide)
  have hop : machine.opened.memory.get 0xC442 = 0xD3 := holds.code 4 (by decide)
  have harg : machine.opened.memory.get 0xC443 = 0xFE := holds.code 5 (by decide)
  have hfirst : (Cpu.step { regs := { a := 2, pc := 0xC440, r := r } }).run machine.opened =
      ({ regs := { a := 5, pc := 0xC442, r := (r + 1) &&& 0x7F } }, { machine.opened with clock := 9 }) := by
    rw [Cpu.run_step _ _ (.loadImmediate (.reg .a)) (by rw [hload]; rfl), hopened,
      Cpu.access_of_le (show 0x8000 ≤ (0xC440 : UInt16).toNat by decide)]
    exact Cpu.run_loadImmediate { regs := { a := 2, pc := 0xC441, r := (r + 1) &&& 0x7F } } .a
      { machine.opened with clock := 6 } (show 0x8000 ≤ (0xC441 : UInt16).toNat by decide) hvalue
  have hdecode : Decode.base (machine.opened.memory.get 0xC442) = .run .outputAccumulator := by
    rw [hop]
    rfl
  have hport : Word.ofBytes 5 (machine.opened.memory.get 0xC443) = 0x05FE := by
    rw [harg]
    rfl
  have hsecond : (Cpu.step { regs := { a := 5, pc := 0xC442, r := (r + 1) &&& 0x7F } }).run
      { machine.opened with clock := 9 } = ({ regs := { a := 5, pc := 0xC444, r := ((r + 1) &&& 0x7F) + 1 &&& 0x7F } },
        { machine.opened with clock := 20, ports := machine.opened.ports.write 0x05FE 5 17 }) := by
    rw [Cpu.run_step { regs := { a := 5, pc := 0xC442, r := (r + 1) &&& 0x7F } } { machine.opened with clock := 9 }
      .outputAccumulator hdecode,
      Cpu.access_of_le (show 0x8000 ≤ (0xC442 : UInt16).toNat by decide)]
    exact Cpu.run_outputAccumulator { regs := { a := 5, pc := 0xC443, r := ((r + 1) &&& 0x7F) + 1 &&& 0x7F } }
      { machine.opened with clock := 13 } (show 0x8000 ≤ (0xC443 : UInt16).toNat by decide) hport
      (by decide) (by decide) (show delay 17 = 0 by decide)
  have hfuel : tstatesPerFrame - Bus.clock machine.opened = 69884 + 1 + 1 := by
    change tstatesPerFrame - machine.opened.clock = 69886
    rw [hopened]
    rfl
  have hlt : machine.opened.clock < tstatesPerFrame := by
    rw [hopened]
    decide
  refine ⟨{ regs := { a := 5, pc := 0xC444, r := ((r + 1) &&& 0x7F) + 1 &&& 0x7F } }, 69884,
    { machine.opened with clock := 20, ports := machine.opened.ports.write 0x05FE 5 17 }, ?_, rfl⟩
  rw [executed, acknowledged, hcpu, Cpu.run_interrupt_of_disabled rfl, Cpu.runUntil, hfuel, Cpu.runFor_succ hlt, hfirst,
    Cpu.runFor_succ (show 9 < tstatesPerFrame by decide), hsecond]

/-- The second frame lists the change of the border that was carried over before its own. -/
theorem not_inOrder_late_again (machine : Machine) {r : UInt8}
    (hcpu : machine.cpu = { regs := { a := 2, pc := 0xC440, r := r } }) (hclock : machine.board.clock = 139778)
    (holds : HoldsLateProgram machine.board.memory) (ranged : Ranged .border machine)
    (hlog : Signal.border.log machine.opened.ports = { start := 7, changes := [⟨69887, 2⟩], boundary := 7 }) :
    ¬ InOrder (Signal.border.log machine.renderFrame.board.ports).events := by
  obtain ⟨cpu, fuel, board, hexecuted, hports⟩ := executed_late_again hcpu hclock holds
  have hwrite : Signal.border.log board.ports = (Signal.border.log machine.opened.ports).record ⟨17, 5⟩ := by
    rw [hports]
    rfl
  have htimes : (Signal.border.log board.ports).times = [69887, 17] := by
    rw [hwrite, hlog]
    decide
  have logged : Logged .border board board := by
    refine Logged.refl ?_ ?_
    · rw [hports]
      exact Ports.beeper_write ranged.opened.beeper _ _ _
    · rw [hwrite]
      exact ranged.opened.within.record (by decide)
  obtain ⟨more, hmore, -, -⟩ := ((keeps_logged .border board).runFor tstatesPerFrame fuel cpu logged).times
  rw [log_renderFrame, EventLog.inOrder_endFrame_iff, executedLog, hexecuted, hmore, htimes]
  intro hsorted
  have hle : 69887 ≤ 17 := (List.pairwise_cons.mp hsorted).1 17 List.mem_cons_self
  exact absurd hle (by decide)

/-! ## The lists of a run -/

/-- The change logs of a run. On any machine that has taken a snapshot, after any number of frames and one more, both logs
begin at time 0, end at the end of the frame and hold nothing but times within the frame and values in range. As long as no
frame adds a change before one that was carried over into it, they close in order, and then the next frame closes in order
exactly if it adds no such change before its end. While frames end less than a frame late this never happens. -/
theorem closesInOrder_run {fresh machine : Machine} {snapshot : Snapshot}
    (hload : fresh.loadSnapshot snapshot = .ok machine) (signal : Signal) (frames : Nat) :
    Spans signal.highest (signal.log (machine.after (frames + 1)).board.ports).events ∧
      ((∀ k < frames, ∀ first, ¬ (machine.after k).Overtakes signal first) →
        ((machine.after frames).ClosesInOrder signal ↔
          ∀ first, (machine.after frames).Overtakes signal first → tstatesPerFrame ≤ first)) ∧
      ((∀ k < frames, (machine.after (k + 1)).board.clock < 2 * tstatesPerFrame) →
        (machine.after frames).ClosesInOrder signal) := by
  obtain ⟨-, rfl⟩ := loadSnapshot_eq_ok_iff.mp hload
  obtain ⟨ranged, hcarried⟩ := ranged_restore signal fresh snapshot
  have carries : CarriesInOrder signal (fresh.restore snapshot) := by
    unfold CarriesInOrder
    rw [hcarried]
    exact List.Pairwise.nil
  have step : InStep signal (fresh.restore snapshot) := by
    unfold InStep
    rw [hcarried]
    exact fun time ht => absurd ht List.not_mem_nil
  refine ⟨?_, fun hnone => ?_, fun hclock => ?_⟩
  · change Spans signal.highest (signal.log ((fresh.restore snapshot).after frames).renderFrame.board.ports).events
    rw [log_renderFrame]
    exact EventLog.spans_endFrame (ranged.after frames).logged.within
  · exact closesInOrder_iff (ranged.after frames) (carries.after ranged frames hnone)
  · have hnone : ∀ k ≤ frames, ∀ first, ¬ ((fresh.restore snapshot).after k).Overtakes signal first := by
      intro k hk
      exact (step.after ranged k fun j hj => hclock j (by omega)).not_overtakes (ranged.after k)
    rw [closesInOrder_iff (ranged.after frames)
      (carries.after ranged frames fun k hk => hnone k (Nat.le_of_lt hk))]
    exact fun first hfirst => absurd hfirst (hnone frames (Nat.le_refl frames) first)

/-- The first frame of the late program closes in order, and the second exactly if its first change of the border overtakes
none. -/
theorem closesInOrder_lateSnapshot : ∃ fresh machine, create { rom := List.replicate 16384 0 } = .ok fresh ∧
    fresh.loadSnapshot lateSnapshot = .ok machine ∧ machine.ClosesInOrder .border ∧
      Spans 7 (Signal.border.log (machine.after 2).board.ports).events ∧
        ((machine.after 1).ClosesInOrder .border ↔
          ∀ first, (machine.after 1).Overtakes .border first → tstatesPerFrame ≤ first) := by
  refine ⟨_, _, create_eq_ok_iff.mpr ⟨List.length_replicate, rfl⟩,
    loadSnapshot_eq_ok_iff.mpr ⟨problem?_lateSnapshot, rfl⟩, ?_⟩
  generalize hfresh : reset _ = fresh
  have hload : fresh.loadSnapshot lateSnapshot = .ok (fresh.restore lateSnapshot) :=
    loadSnapshot_eq_ok_iff.mpr ⟨problem?_lateSnapshot, rfl⟩
  have hnone : ∀ first, ¬ (fresh.restore lateSnapshot).Overtakes .border first := by
    rintro first ⟨-, time, ht, -⟩
    rw [log_opened] at ht
    have hin := (EventLog.times_beginFrame _).subset ht
    rw [(ranged_restore .border fresh lateSnapshot).2] at hin
    exact absurd hin List.not_mem_nil
  have hzero := closesInOrder_run hload .border 0
  have hone := closesInOrder_run hload .border 1
  refine ⟨hzero.2.2 fun k hk => absurd hk (Nat.not_lt_zero k), hone.1, hone.2.1 fun k hk first => ?_⟩
  rw [Nat.lt_one_iff.mp hk]
  exact hnone first

/-- The lists need not be in order: on a blank ROM, the second frame after the snapshot lists a change of the border at 69887
before one at 17. -/
theorem not_inOrder_lateSnapshot : ∃ fresh machine, create { rom := List.replicate 16384 0 } = .ok fresh ∧
    fresh.loadSnapshot lateSnapshot = .ok machine ∧
      ¬ InOrder (Signal.border.log (machine.after 2).board.ports).events := by
  refine ⟨_, _, create_eq_ok_iff.mpr ⟨List.length_replicate, rfl⟩,
    loadSnapshot_eq_ok_iff.mpr ⟨problem?_lateSnapshot, rfl⟩, ?_⟩
  generalize hfresh : reset _ = fresh
  have ranged : Ranged .border (fresh.restore lateSnapshot) := (ranged_restore .border fresh lateSnapshot).1
  have holds : HoldsLateProgram (fresh.restore lateSnapshot).board.memory := by
    rw [memory_restore]
    exact holdsLateProgram_loadRam _
  have hborder : Signal.border.log (fresh.restore lateSnapshot).opened.ports = EventLog.constant 7 := rfl
  obtain ⟨r, hexecuted⟩ := executed_late (fresh.restore lateSnapshot) rfl rfl holds
  generalize fresh.restore lateSnapshot = machine at ranged holds hborder hexecuted ⊢
  have hrecord : machine.executedLog .border = (Signal.border.log machine.opened.ports).record ⟨139775, 2⟩ := by
    rw [executedLog, hexecuted]
    rfl
  refine not_inOrder_late_again machine.renderFrame (r := r) ?_ ?_ ?_ ranged.renderFrame ?_
  · rw [renderFrame_cpu, hexecuted]
  · rw [renderFrame_board, hexecuted]
  · rw [renderFrame_board, hexecuted]
    exact holds
  · rw [log_opened, log_renderFrame, hrecord, hborder]
    decide

end Machine

end ZxSpectrum
