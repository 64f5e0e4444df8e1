import ZxSpectrum.Machine
import ZxSpectrum.Proofs.BusRuns

/-!
# Frames

A frame opens the logs and the shadow (`opened`), acknowledges the interrupt (`acknowledged`), executes instructions to its
end (`executed`) and closes the logs (`renderFrame_board`). What every bus cycle keeps holds when execution is over if it
holds when it begins (`executed_of_keeps`). `after` counts frames.
-/

namespace ZxSpectrum.Machine

/-- The board with which a frame begins to execute. -/
def opened (machine : Machine) : Board :=
  { machine.board.beginFrame with clock := Ula.wrapFrame machine.board.clock }

/-- Processor and board once a frame's interrupt has been accepted, or ignored. -/
def acknowledged (machine : Machine) : Cpu × Board :=
  ((machine.cpu.interrupt.run machine.opened).1.2, (machine.cpu.interrupt.run machine.opened).2)

/-- Processor and board when a frame has been executed, with the logs still open. -/
def executed (machine : Machine) : Cpu × Board :=
  machine.acknowledged.1.runUntil Ula.tstatesPerFrame machine.acknowledged.2

theorem renderFrame_cpu (machine : Machine) : machine.renderFrame.cpu = machine.executed.1 := rfl

theorem renderFrame_board (machine : Machine) : machine.renderFrame.board =
    { machine.executed.2 with ports := machine.executed.2.ports.endFrame } := rfl

/-- What every bus cycle keeps, the execution of a frame keeps. -/
theorem executed_of_keeps {holds : Board → Prop} (keeps : Keeps holds) {machine : Machine} (h : holds machine.opened) :
    holds machine.executed.2 :=
  keeps.runFor _ _ _ (keeps.run machine.cpu.interrupt h)

/-- The machine after some frames. -/
def after (machine : Machine) : Nat → Machine
  | 0 => machine
  | frames + 1 => (machine.after frames).renderFrame

theorem rom_after (machine : Machine) (frames : Nat) : (machine.after frames).rom = machine.rom := by
  induction frames with
  | zero => rfl
  | succ frames ih => exact ih

/-- The first frame run first. -/
theorem after_renderFrame (machine : Machine) (frames : Nat) :
    machine.renderFrame.after frames = machine.after (frames + 1) := by
  induction frames with
  | zero => rfl
  | succ frames ih => exact congrArg renderFrame ih

/-- A machine takes exactly the snapshots in which nothing is wrong. -/
theorem loadSnapshot_eq_ok_iff {machine loaded : Machine} {snapshot : Snapshot} :
    machine.loadSnapshot snapshot = .ok loaded ↔ snapshot.problem? = none ∧ loaded = machine.restore snapshot := by
  unfold loadSnapshot
  cases snapshot.problem? with
  | none => simp [eq_comm]
  | some error => simp

/-- A snapshot brings its RAM; the ROM stays. -/
theorem memory_restore (machine : Machine) (snapshot : Snapshot) : (machine.restore snapshot).board.memory =
    (Memory.ofRom machine.rom).loadRam snapshot.ram := rfl

/-- A new machine, if the ROM is complete. -/
theorem create_eq_ok_iff {config : Config} {machine : Machine} : create config = .ok machine ↔
    config.rom.length = Memory.romSize ∧ machine = reset
      { board :=
          { shadow := { accurate := config.accurateUla }
            ports := { acceleratedLoad := config.acceleratedLoad, tapeNoise := config.tapeNoise } }
        rom := config.rom
        romKind := romKindOf config.rom
        frameRate := config.frameRate.effective } := by
  unfold create
  split
  · simp_all
  · simp_all [eq_comm]

/-- The text that tells the other ROM begins with a digit. -/
theorem romKindOf_of_not_mem {rom : List UInt8} (h : 0x31 ∉ rom) : romKindOf rom = .sinclair := by
  refine if_neg fun hholds => h ?_
  obtain ⟨before, after, rfl⟩ := (Search.holds_iff _ _).mp hholds
  have hmem : 0x31 ∈ openSeSignature := by decide +kernel
  simp [hmem]

end ZxSpectrum.Machine
