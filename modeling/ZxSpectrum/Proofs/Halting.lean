import ZxSpectrum.Proofs.Forgetting
import ZxSpectrum.Proofs.FrameClock
import ZxSpectrum.Proofs.RefreshCounts
import ZxSpectrum.Proofs.SaveRestore

/-!
# Halting

Whatever a machine has been through, its halt flag is set only while the program counter stands at a `HALT` (`rests_of_create`).
With interrupts disabled it stays there: every instruction fetches the `HALT` again (`haltsFor_stepMany`), every frame is filled with
such fetches (`Sleeps.haltsThrough`), and no input ends the wait (`Sleeps.waits_foldl`). With interrupts enabled the next frame returns
behind the `HALT` (`resumes`).
-/

namespace ZxSpectrum

open Ula

/-! ## A halted processor -/

theorem Ula.access_eq_wait (address : UInt16) (time clock : Nat) :
    access address time clock = clock + (if isContended address then delay clock else 0) + time := by
  unfold access contend
  split <;> rfl

theorem Registers.counts_iterate (count : Nat) (regs : Registers) :
    Counts count regs.refresh (countRefresh^[count] regs).refresh := by
  induction count generalizing regs with
  | zero => exact .refl _
  | succ count ih =>
    have hone : Counts 1 regs.refresh regs.countRefresh.refresh := Cpu.counts_passing 1 { regs := regs }
    have hall := hone.trans (ih regs.countRefresh)
    rw [Nat.add_comm] at hall
    exact hall

namespace Cpu

/-- A halted processor has fetched its `HALT` so many times: the refresh register has counted, the clock has gone on by four
T-states and the wait for shared memory each time, and nothing else has changed. -/
structure HaltsFor (count : Nat) (before after : Cpu × Board) : Prop where
  cpu : after.1 = { before.1 with regs.r := after.1.regs.r }
  counts : Counts count before.1.regs.refresh after.1.regs.refresh
  board : after.2 = { before.2 with clock := after.2.clock }
  clock : after.2.clock =
    (fun clock => clock + (if isContended before.1.regs.pc then delay clock else 0) + 4)^[count] before.2.clock

/-- A halted processor goes on so. -/
theorem haltsFor_stepMany (count : Nat) {cpu : Cpu} {board : Board} (halted : cpu.halted = true)
    (hbyte : board.memory.get cpu.regs.pc = 0x76) : HaltsFor count (cpu, board) (cpu.stepMany count board) := by
  have haccess : access cpu.regs.pc 4 =
      fun clock => clock + (if isContended cpu.regs.pc then delay clock else 0) + 4 := by
    funext clock
    exact access_eq_wait cpu.regs.pc 4 clock
  obtain ⟨regs, flag, latch⟩ := cpu
  obtain rfl : flag = true := halted
  rw [stepMany_halt count _ board hbyte, iterate_countRefresh, haccess]
  refine ⟨rfl, ?_, rfl, rfl⟩
  have hcounts := regs.counts_iterate count
  rw [iterate_countRefresh] at hcounts
  exact hcounts

/-- An interrupt changes neither its mode nor its register. -/
theorem routine_pushed (cpu : Cpu) (memory : Memory) : cpu.pushed.routine memory = cpu.routine memory := by
  have hmode : cpu.pushed.regs.im = cpu.regs.im := interrupted_im cpu
  have hregister : cpu.pushed.regs.i = cpu.regs.i := by
    obtain ⟨regs, halted, latch⟩ := cpu
    cases halted <;> rfl
  rw [routine, routine, hmode, hregister]

/-- What an accepted interrupt makes of a halted processor. -/
theorem run_interrupt_of_halted {cpu : Cpu} (halted : cpu.halted = true) (enabled : cpu.regs.iff1 = true) (board : Board) :
    (cpu.interrupt.run board).1.2 = { cpu with
      halted := false
      regs := { cpu.regs.countRefresh with
        iff1 := false, iff2 := false, sp := cpu.regs.sp - 2, pc := cpu.routine (cpu.interrupt.run board).2.memory } } := by
  rw [run_interrupt_of_enabled enabled, memory_enter, run_enter, routine_pushed, pushed, interrupted_of_halted halted]
  rfl

end Cpu

/-! ## Machines at a `HALT` -/

/-- An operation that neither resets a machine nor loads a snapshot into it. -/
def Operation.goesOn : Operation → Bool
  | .reset | .load _ => false
  | _ => true

namespace Machine

variable {machine start : Machine}

/-- Whatever is done to a machine, its processor is between instructions. -/
theorem rests_perform (rests : machine.cpu.Rests machine.board) (operation : Operation) :
    (machine.perform operation).cpu.Rests (machine.perform operation).board := by
  cases operation with
  | frame => exact rests_renderFrame rests
  | reset => exact ⟨Nat.zero_le 2, fun halted => absurd halted Bool.false_ne_true⟩
  | load snapshot =>
    rw [perform, loadSnapshot]
    cases hproblem : snapshot.problem? with
    | none =>
      exact ⟨(Snapshot.problem?_eq_none_iff.mp hproblem).2, fun halted => absurd halted Bool.false_ne_true⟩
    | some error => exact rests
  | _ => exact ⟨rests.im, rests.halt⟩

theorem rests_of_create {config : Config} (hcreate : create config = .ok start) (past : List Operation) :
    (past.foldl perform start).cpu.Rests (past.foldl perform start).board :=
  List.foldlRecOn (motive := fun machine : Machine => machine.cpu.Rests machine.board) past _
    (untouched_create hcreate).rests fun _ rests operation _ => rests_perform rests operation

/-- The next byte is a `HALT`, and no interrupt will be accepted. -/
structure Sleeps (machine : Machine) : Prop where
  byte : machine.board.memory.get machine.cpu.regs.pc = 0x76
  disabled : machine.cpu.regs.iff1 = false

namespace Sleeps

/-- Nothing happens at the start of the frame, then the `HALT` is fetched again and again. -/
theorem stepMany_acknowledged (sleeps : machine.Sleeps) (count : Nat) :
    machine.acknowledged.1.stepMany count machine.acknowledged.2 = machine.cpu.stepMany count machine.opened := by
  rw [acknowledged, Cpu.run_interrupt_of_disabled sleeps.disabled]

/-- `HALT` has no prefix, so that the frame is over at some time. -/
theorem endsAfter (sleeps : machine.Sleeps) : ∃ count, machine.EndsAfter count := by
  refine ShortInstructions.endsAfter fun count _ hprefixes => ?_
  have hfirst := hprefixes.1
  rw [sleeps.stepMany_acknowledged, Cpu.stepMany_halt count _ machine.opened sleeps.byte, Cpu.iterate_countRefresh] at hfirst
  change IsIndexPrefix (machine.board.memory.get machine.cpu.regs.pc) at hfirst
  rw [sleeps.byte] at hfirst
  exact absurd hfirst (by decide)

/-- A machine that comes to a `HALT` has halted by the end of the frame. -/
theorem renderFrame (sleeps : machine.Sleeps) : machine.renderFrame.Sleeps ∧ machine.renderFrame.cpu.halted = true := by
  obtain ⟨count, ends⟩ := sleeps.endsAfter
  have hexecuted : machine.executed = machine.cpu.stepMany count machine.opened :=
    ends.executed.trans (sleeps.stepMany_acknowledged count)
  have hpos : 0 < count := by
    have hopened : machine.opened.clock < tstatesPerFrame := Nat.mod_lt _ (by decide)
    have hended := ends.ended
    rw [hexecuted] at hended
    refine Nat.pos_of_ne_zero fun hzero => ?_
    rw [hzero] at hended
    exact Nat.not_lt.mpr hended hopened
  rw [Cpu.stepMany_halt count _ machine.opened sleeps.byte, Cpu.iterate_countRefresh] at hexecuted
  refine ⟨⟨?_, ?_⟩, ?_⟩
  · rw [renderFrame_board, renderFrame_cpu, hexecuted]
    exact sleeps.byte
  · rw [renderFrame_cpu, hexecuted]
    exact sleeps.disabled
  · rw [renderFrame_cpu, hexecuted]
    exact (congrArg (machine.cpu.halted || ·) (decide_eq_true hpos)).trans (Bool.or_true _)

end Sleeps

/-- What a frame does besides executing instructions, none of which has read the tape. -/
def closed (machine : Machine) : Machine :=
  { machine with
    cpu := machine.executed.1
    board := { machine.executed.2 with ports := machine.board.ports.beginFrame.endFrame }
    tapeCountdown := machine.tapeCountdown - 1 }

/-- A frame that is filled with fetches of one `HALT`. -/
structure HaltsThrough (machine : Machine) (fetches : Nat) : Prop where
  ends : machine.EndsAfter fetches
  halts : Cpu.HaltsFor fetches (machine.cpu, machine.opened) machine.executed
  closed : machine.renderFrame = machine.closed

theorem Sleeps.haltsThrough (sleeps : machine.Sleeps) (halted : machine.cpu.halted = true) :
    ∃ fetches, machine.HaltsThrough fetches := by
  obtain ⟨fetches, ends⟩ := sleeps.endsAfter
  have hexecuted : machine.executed = machine.cpu.stepMany fetches machine.opened :=
    ends.executed.trans (sleeps.stepMany_acknowledged fetches)
  have hhalts : Cpu.HaltsFor fetches (machine.cpu, machine.opened) machine.executed := by
    rw [hexecuted]
    exact Cpu.haltsFor_stepMany fetches halted sleeps.byte
  have hports : machine.executed.2.ports = machine.board.ports.beginFrame := by
    rw [hhalts.board]
    rfl
  refine ⟨fetches, ends, hhalts, ?_⟩
  change ({ machine with
    cpu := machine.executed.1
    board := { machine.executed.2 with ports := machine.executed.2.ports.endFrame }
    tapeCountdown := if machine.executed.2.ports.endFrame.shouldPlayTape then tapeCountdownFrames
      else machine.tapeCountdown - 1 } : Machine) = _
  rw [hports]
  rfl

/-- What a machine keeps that waits in a `HALT`. -/
structure Waits (before after : Machine) : Prop where
  cpu : after.cpu = { before.cpu with regs.r := after.cpu.regs.r }
  counts : ∃ fetches, Counts fetches before.cpu.regs.refresh after.cpu.regs.refresh
  memory : after.board.memory = before.board.memory

namespace Waits

variable {before middle after : Machine}

theorem refl (machine : Machine) : Waits machine machine := ⟨rfl, ⟨0, .refl _⟩, rfl⟩

theorem trans (first : Waits before middle) (second : Waits middle after) : Waits before after where
  cpu := by
    rw [second.cpu, first.cpu]
  counts := by
    obtain ⟨fetches, hfirst⟩ := first.counts
    obtain ⟨more, hsecond⟩ := second.counts
    exact ⟨fetches + more, hfirst.trans hsecond⟩
  memory := second.memory.trans first.memory

theorem sleeps (waits : Waits before after) (sleeps : before.Sleeps) : after.Sleeps where
  byte := by
    rw [waits.memory, waits.cpu]
    exact sleeps.byte
  disabled := by
    rw [waits.cpu]
    exact sleeps.disabled

theorem halted (waits : Waits before after) (halted : before.cpu.halted = true) : after.cpu.halted = true := by
  rw [waits.cpu]
  exact halted

end Waits

namespace Sleeps

theorem waits_perform (sleeps : machine.Sleeps) (halted : machine.cpu.halted = true) {operation : Operation}
    (h : operation.goesOn = true) : Waits machine (machine.perform operation) := by
  cases operation with
  | frame =>
    obtain ⟨fetches, through⟩ := sleeps.haltsThrough halted
    change Waits machine machine.renderFrame
    rw [through.closed]
    refine ⟨through.halts.cpu, ⟨fetches, through.halts.counts⟩, ?_⟩
    change machine.executed.2.memory = _
    rw [through.halts.board]
    rfl
  | reset | load _ => exact absurd h Bool.false_ne_true
  | _ => exact ⟨rfl, ⟨0, .refl _⟩, rfl⟩

/-- No frame and no input ends the wait. -/
theorem waits_foldl (sleeps : machine.Sleeps) (halted : machine.cpu.halted = true) (future : List Operation)
    (h : ∀ operation ∈ future, operation.goesOn = true) : Waits machine (future.foldl perform machine) :=
  List.foldlRecOn (motive := Waits machine) future _ (.refl machine) fun _ waits operation hoperation =>
    waits.trans ((waits.sleeps sleeps).waits_perform (waits.halted halted) (h operation hoperation))

end Sleeps

/-! ## The interrupt -/

/-- The next frame begins with an interrupt that ends the halt: the address behind the `HALT` is pushed, and the service routine
is entered. -/
structure Resumes (machine : Machine) : Prop where
  cpu : machine.acknowledged.1 = { machine.cpu with
    halted := false
    regs := { machine.cpu.regs with
      iff1 := false
      iff2 := false
      sp := machine.cpu.regs.sp - 2
      r := machine.acknowledged.1.regs.r
      pc := machine.cpu.routine machine.acknowledged.2.memory } }
  counts : Counts 1 machine.cpu.regs.refresh machine.acknowledged.1.regs.refresh
  memory : machine.acknowledged.2.memory = machine.board.memory.push machine.cpu.regs.sp (machine.cpu.regs.pc + 1)
  frame : machine.executed = machine.acknowledged.1.runUntil tstatesPerFrame machine.acknowledged.2 ∧
    machine.renderFrame.cpu = machine.executed.1 ∧ machine.renderFrame.board.memory = machine.executed.2.memory

theorem resumes (halted : machine.cpu.halted = true) (enabled : machine.cpu.regs.iff1 = true) : machine.Resumes := by
  have hcpu := Cpu.run_interrupt_of_halted halted enabled machine.opened
  have hmemory := memory_acknowledged enabled
  rw [Cpu.interrupted_of_halted halted] at hmemory
  change machine.acknowledged.1 = _ at hcpu
  refine ⟨?_, ?_, hmemory, rfl, rfl, rfl⟩
  · rw [hcpu]
    rfl
  · rw [hcpu]
    exact machine.cpu.regs.counts_iterate 1

/-- Whatever a machine has been through, it has halted only at a `HALT`, and every further instruction counts the refresh register
and the clock. With interrupts disabled every further frame is filled with such instructions, and neither frames nor inputs end the
wait. With interrupts enabled the next frame pushes the address behind the `HALT` and enters the service routine. -/
theorem halted_until_interrupt {config : Config} (hcreate : create config = .ok start) (past : List Operation) :
    let machine := past.foldl perform start
    machine.cpu.halted = true →
      machine.board.memory.get machine.cpu.regs.pc = 0x76 ∧
      (∀ count, Cpu.HaltsFor count (machine.cpu, machine.board) (machine.cpu.stepMany count machine.board)) ∧
      (machine.cpu.regs.iff1 = false →
        ∀ future : List Operation, (∀ operation ∈ future, operation.goesOn = true) →
          let later := future.foldl perform machine
          Waits machine later ∧ ∃ fetches, later.HaltsThrough fetches) ∧
      (machine.cpu.regs.iff1 = true → machine.Resumes) := by
  intro machine hhalted
  have hbyte := (rests_of_create hcreate past).halt hhalted
  refine ⟨hbyte, fun count => Cpu.haltsFor_stepMany count hhalted hbyte, fun hdisabled future hfuture => ?_,
    fun henabled => resumes hhalted henabled⟩
  have sleeps : machine.Sleeps := ⟨hbyte, hdisabled⟩
  have waits := sleeps.waits_foldl hhalted future hfuture
  exact ⟨waits, (waits.sleeps sleeps).haltsThrough (waits.halted hhalted)⟩

/-- A ROM of nothing but `HALT`, without interrupts, and one that enables them first. -/
theorem halted_until_interrupt_roms :
    (∃ machine, create { rom := List.replicate Memory.romSize 0x76 } = .ok machine ∧
      (machine.after 1).cpu.halted = true ∧ (machine.after 1).cpu.regs.iff1 = false ∧
      Waits (machine.after 1) ([.press .a, .frame, .joystick 1, .frame].foldl perform (machine.after 1))) ∧
    ∃ machine, create { rom := haltingRom } = .ok machine ∧
      (machine.after 1).cpu.halted = true ∧ (machine.after 1).cpu.regs.iff1 = true ∧ (machine.after 1).Resumes := by
  constructor
  · obtain ⟨machine, hcreate⟩ : ∃ machine, create { rom := List.replicate Memory.romSize 0x76 } = .ok machine :=
      ⟨_, create_eq_ok_iff.mpr ⟨List.length_replicate, rfl⟩⟩
    have sleeps : machine.Sleeps := by
      obtain ⟨-, hmachine⟩ := create_eq_ok_iff.mp hcreate
      have hmemory : machine.board.memory = Memory.ofRom (List.replicate Memory.romSize 0x76) := by rw [hmachine, reset]
      have hregs : machine.cpu.regs = {} := by rw [hmachine, reset]
      refine ⟨?_, by rw [hregs]⟩
      rw [hmemory, hregs, Memory.get_ofRom List.length_replicate, List.getElem?_replicate, if_pos (by decide), if_pos (by decide),
        Option.getD_some]
    obtain ⟨sleeping, halted⟩ := sleeps.renderFrame
    obtain ⟨-, -, hwaits, -⟩ := halted_until_interrupt hcreate [.frame] halted
    exact ⟨machine, hcreate, halted, sleeping.disabled, (hwaits sleeping.disabled _ (by decide)).1⟩
  · obtain ⟨machine, hcreate⟩ := create_haltingRom
    obtain ⟨lost, -⟩ := losesHalt_haltingRom hcreate
    obtain ⟨-, -, -, hresumes⟩ := halted_until_interrupt hcreate [.frame] lost.halted
    exact ⟨machine, hcreate, lost.halted, lost.enabled, hresumes lost.enabled⟩

end Machine

end ZxSpectrum
