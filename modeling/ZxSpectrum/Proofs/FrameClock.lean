import ZxSpectrum.Proofs.BorderData

/-!
# The frame clock

A frame ends as soon as the clock has reached its length: every instruction takes time, so that the instructions of a frame
are finitely many (`EndsAfter`), and with at most one index prefix in each of them the last one runs over the end by less than
the tabulated waits go on. What one frame runs over is taken off the next one, so that the T-states of consecutive frames add
up to their lengths (`sum_charged`). The main statement, `frameClock_run`, says this of all frames of a run.
-/

namespace ZxSpectrum

open Ula

/-! ## Instructions take time -/

namespace Cpu

/-- An instruction takes time. -/
theorem clock_lt_step (cpu : Cpu) (board : Board) : board.clock < (cpu.step.run board).2.clock := by
  have hfetch : board.clock < access cpu.regs.pc 4 board.clock := by
    rw [access_eq]
    omega
  have hrest := (BusProgram.mem_cycles (dispatch pageLimit .base (board.memory.get cpu.regs.pc) cpu.fetched)
    { board with clock := access cpu.regs.pc 4 board.clock }).1
  exact Nat.lt_of_lt_of_le hfetch hrest

/-- As many instructions as there are T-states to go reach the limit. -/
theorem le_clock_runFor {limit fuel : Nat} (cpu : Cpu) {board : Board} (h : limit - board.clock ≤ fuel) :
    limit ≤ (cpu.runFor limit fuel board).2.clock := by
  induction fuel generalizing cpu board with
  | zero => exact Nat.le_of_sub_eq_zero (Nat.le_zero.mp h)
  | succ fuel ih =>
    by_cases running : board.clock < limit
    · have hstep := cpu.clock_lt_step board
      rw [runFor_succ running]
      exact ih _ (by omega)
    · rw [runFor, if_neg (show ¬ Bus.clock board < limit from running)]
      exact Nat.le_of_not_lt running

/-- Before the last one of them the limit is not reached. -/
theorem clock_stepMany_lt {limit fuel count : Nat} (cpu : Cpu) (board : Board)
    (h : count < cpu.stepsUntil limit fuel board) : (cpu.stepMany count board).2.clock < limit := by
  induction fuel generalizing cpu board count with
  | zero => exact absurd h (Nat.not_lt_zero count)
  | succ fuel ih =>
    rw [stepsUntil] at h
    by_cases running : Bus.clock board < limit
    · cases count with
      | zero => exact running
      | succ count =>
        rw [if_pos running] at h
        exact ih (cpu.step.run board).1 (cpu.step.run board).2 (Nat.lt_of_succ_lt_succ h)
    · rw [if_neg running] at h
      exact absurd h (Nat.not_lt_zero count)

end Cpu

namespace Machine

variable {machine : Machine}

/-! ## One frame -/

/-- A frame is over after some instructions: they are executed one after the other, each of them before the end of the frame
and none after it, and each of them opens four pages at most. -/
structure EndsAfter (machine : Machine) (count : Nat) : Prop where
  executed : machine.executed = machine.acknowledged.1.stepMany count machine.acknowledged.2
  ended : tstatesPerFrame ≤ machine.executed.2.clock
  running : ∀ earlier < count, (machine.acknowledged.1.stepMany earlier machine.acknowledged.2).2.clock < tstatesPerFrame
  pages : ∀ earlier < count, ∀ pages ≥ 4,
    let (cpu, board) := machine.acknowledged.1.stepMany earlier machine.acknowledged.2
    (cpu.resume pages .base).run board = cpu.step.run board

/-- Every frame without long chains of index prefixes is over at some time. -/
theorem ShortInstructions.endsAfter (short : machine.ShortInstructions) : ∃ count, machine.EndsAfter count := by
  refine ⟨machine.acknowledged.1.stepsUntil tstatesPerFrame (tstatesPerFrame - Bus.clock machine.acknowledged.2)
    machine.acknowledged.2, Cpu.runFor_eq_stepMany _ _ _ _, Cpu.le_clock_runFor _ (Nat.le_refl _),
    fun earlier h => Cpu.clock_stepMany_lt _ _ h, fun earlier h pages hpages => ?_⟩
  obtain ⟨program, -, hprogram⟩ := Cpu.exists_short (short earlier (Cpu.clock_stepMany_lt _ _ h))
  obtain ⟨fuel, rfl⟩ : ∃ fuel, pages = fuel + 4 := ⟨pages - 4, by omega⟩
  exact (hprogram fuel).1.trans (hprogram 131076).1.symm

/-- The T-states that a frame charges for the interrupt and its instructions, waits included. -/
def charged (machine : Machine) : Nat :=
  machine.frameProgram.time machine.opened + waits (machine.frameProgram.lookups machine.opened)

/-- The clock of a frame starts with what the last one ran over. -/
theorem clock_renderFrame (machine : Machine) :
    machine.renderFrame.board.clock = wrapFrame machine.board.clock + machine.charged := by
  have hrun := machine.frameProgram.board_clock_run machine.opened
  rw [run_frameProgram, Nat.add_assoc] at hrun
  exact hrun

/-- Less than two frames, the wrap takes off one. -/
theorem wrapFrame_add {clock : Nat} (h : tstatesPerFrame ≤ clock) (hlt : clock < 2 * tstatesPerFrame) :
    wrapFrame clock + tstatesPerFrame = clock := by
  unfold wrapFrame
  rw [Nat.mod_eq_sub_mod h, Nat.mod_eq_of_lt (by omega)]
  omega

/-! ## Frames of a run -/

/-- Frames that each end less than a whole frame late charge their lengths, and what the last one runs over instead of what
the first one begins with. -/
theorem sum_charged (machine : Machine) (inputs : Nat → Inputs) (first count : Nat)
    (h : ∀ k < count, (machine.beforeFrame inputs (first + k)).renderFrame.board.clock =
      wrapFrame (machine.beforeFrame inputs (first + k)).renderFrame.board.clock + tstatesPerFrame) :
    ((List.range count).map fun k => (machine.beforeFrame inputs (first + k)).charged).sum +
        wrapFrame (machine.played inputs first).board.clock =
      count * tstatesPerFrame + wrapFrame (machine.played inputs (first + count)).board.clock := by
  induction count with
  | zero => simp
  | succ count ih =>
    have hfirst := ih fun k hk => h k (Nat.lt_succ_of_lt hk)
    have hlast := h count (Nat.lt_succ_self count)
    have hnext : machine.played inputs (first + (count + 1)) = (machine.beforeFrame inputs (first + count)).renderFrame := rfl
    have hclock : (machine.beforeFrame inputs (first + count)).renderFrame.board.clock =
        wrapFrame (machine.played inputs (first + count)).board.clock + _ :=
      (machine.beforeFrame inputs (first + count)).clock_renderFrame
    rw [List.range_succ, List.map_append, List.sum_append, hnext, Nat.succ_mul]
    simp only [List.map_cons, List.map_nil, List.sum_cons, List.sum_nil]
    omega

/-- As long as no instruction has more than one index prefix, every frame of a run ends, less than 100 T-states late, so that
every wait that is asked for is tabulated, the clock stays a word of 32 bits and the next frame takes off exactly one frame;
the T-states charged in consecutive frames are their lengths, and what is run over in the end less what was in the beginning. -/
theorem frameClock_run (machine : Machine) (inputs : Nat → Inputs) (frames : Nat)
    (short : ∀ k < frames, (machine.beforeFrame inputs k).ShortInstructions) :
    (∀ k < frames,
      let begun := machine.beforeFrame inputs k
      let clock := (machine.played inputs (k + 1)).board.clock
      (∃ count, begun.EndsAfter count) ∧
      (tstatesPerFrame ≤ clock ∧ clock < tstatesPerFrame + 100) ∧
      (∀ time ∈ begun.frameProgram.lookups begun.opened, time < delayTableLength) ∧
      (∀ cycle ∈ begun.frameProgram.cycles begun.opened, cycle.1 ≤ clock) ∧ clock < 2 ^ 32 ∧
      wrapFrame clock + tstatesPerFrame = clock) ∧
    ∀ first count, first + count ≤ frames →
      ((List.range count).map fun k => (machine.beforeFrame inputs (first + k)).charged).sum +
          wrapFrame (machine.played inputs first).board.clock =
        count * tstatesPerFrame + wrapFrame (machine.played inputs (first + count)).board.clock := by
  have hframe : tstatesPerFrame = 69888 := rfl
  have hlate : ∀ k < frames, tstatesPerFrame ≤ (machine.beforeFrame inputs k).renderFrame.board.clock ∧
      (machine.beforeFrame inputs k).renderFrame.board.clock < tstatesPerFrame + 44 := fun k hk => by
    obtain ⟨count, ends⟩ := (short k hk).endsAfter
    exact ⟨ends.ended, clock_renderFrame_lt (short k hk)⟩
  refine ⟨?_, fun first count hle => sum_charged machine inputs first count fun k hk => ?_⟩
  · intro k hk begun clock
    have hclock : tstatesPerFrame ≤ clock ∧ clock < tstatesPerFrame + 44 := hlate k hk
    have hend : (begun.frameProgram.run begun.opened).2.clock = clock := by
      rw [run_frameProgram]
      rfl
    refine ⟨(short k hk).endsAfter, ⟨hclock.1, by omega⟩, fun time htime => ?_, fun cycle hcycle => ?_, by omega,
      wrapFrame_add hclock.1 (by omega)⟩
    · have hle := (BusProgram.mem_lookups htime).2
      have htable : delayTableLength = tstatesPerFrame + 100 := rfl
      omega
    · rw [← hend]
      exact ((begun.frameProgram.mem_cycles begun.opened).2 cycle hcycle cycle.1 List.mem_cons_self).2
  · have hclock := hlate (first + k) (by omega)
    exact (wrapFrame_add hclock.1 (by omega)).symm

/-! ## A machine without a program -/

/-- Memory holds zeros, which do nothing, and interrupts are off. -/
structure Idles (cpu : Cpu) (board : Board) : Prop where
  iff1 : cpu.regs.iff1 = false
  memory : ∀ a, board.memory.get a = 0

namespace Idles

variable {cpu : Cpu} {board : Board}

theorem step (idles : Idles cpu board) : Idles (cpu.step.run board).1 (cpu.step.run board).2 := by
  have hdecode : Decode.base (board.memory.get cpu.regs.pc) = .run .nop := by
    rw [idles.memory]
    rfl
  rw [Cpu.run_step cpu board .nop hdecode]
  exact ⟨idles.iff1, idles.memory⟩

theorem stepMany (idles : Idles cpu board) (count : Nat) :
    Idles (cpu.stepMany count board).1 (cpu.stepMany count board).2 := by
  induction count generalizing cpu board with
  | zero => exact idles
  | succ count ih => exact ih idles.step

theorem acknowledged (idles : Idles machine.cpu machine.board) : Idles machine.acknowledged.1 machine.acknowledged.2 := by
  rw [Machine.acknowledged, Cpu.run_interrupt_of_disabled idles.iff1]
  exact ⟨idles.iff1, idles.memory⟩

theorem renderFrame (idles : Idles machine.cpu machine.board) : Idles machine.renderFrame.cpu machine.renderFrame.board := by
  have hexecuted : Idles machine.executed.1 machine.executed.2 := by
    rw [executed, Cpu.runUntil, Cpu.runFor_eq_stepMany]
    exact idles.acknowledged.stepMany _
  exact ⟨hexecuted.iff1, hexecuted.memory⟩

theorem played (idles : Idles machine.cpu machine.board) (inputs : Nat → Inputs) (frames : Nat) :
    Idles (machine.played inputs frames).cpu (machine.played inputs frames).board := by
  induction frames with
  | zero => exact idles
  | succ frames ih =>
    have hwith : Idles (machine.beforeFrame inputs frames).cpu (machine.beforeFrame inputs frames).board :=
      ⟨ih.iff1, ih.memory⟩
    exact hwith.renderFrame

theorem shortInstructions (idles : Idles machine.cpu machine.board) : machine.ShortInstructions := by
  intro count _ hprefixes
  have hfirst := hprefixes.1
  rw [(idles.acknowledged.stepMany count).memory] at hfirst
  exact absurd hfirst (by decide)

end Idles

/-- Such a machine, eight T-states before the end of a frame. -/
def idleSnapshot : Snapshot := { cpu := { tstates := 69880 }, border := 7, ram := List.replicate Memory.ramSize 0 }

theorem problem?_idleSnapshot : idleSnapshot.problem? = none :=
  Snapshot.problem?_eq_none_iff.mpr ⟨List.length_replicate, by decide⟩

theorem idles_restore (hrom : machine.rom = List.replicate Memory.romSize 0) :
    Idles (machine.restore idleSnapshot).cpu (machine.restore idleSnapshot).board := by
  have hzero : ∀ size place : Nat, (List.replicate size (0 : UInt8))[place]?.getD 0 = 0 := fun size place => by
    rw [List.getElem?_replicate]
    split <;> rfl
  refine ⟨rfl, fun a => ?_⟩
  rw [memory_restore, hrom, idleSnapshot, Memory.get_loadRam _ List.length_replicate, hzero,
    Memory.get_ofRom List.length_replicate, hzero]
  split <;> rfl

/-- A joystick that moves between frames. -/
def movedJoystick (frame : Nat) : Inputs := { joystick := UInt8.ofNat frame }

/-- On a blank ROM, three frames of that machine. -/
theorem frameClock_run_idle : ∃ old machine,
    create { rom := List.replicate Memory.romSize 0 } = .ok old ∧ old.loadSnapshot idleSnapshot = .ok machine ∧
    (∀ k < 3, (machine.beforeFrame movedJoystick k).ShortInstructions) ∧
    (machine.played movedJoystick 3).board.clock < tstatesPerFrame + 100 ∧
    ((List.range 3).map fun k => (machine.beforeFrame movedJoystick k).charged).sum + 69880 =
      3 * tstatesPerFrame + wrapFrame (machine.played movedJoystick 3).board.clock := by
  obtain ⟨old, hcreate, hrom⟩ : ∃ old, create { rom := List.replicate Memory.romSize 0 } = .ok old ∧
      old.rom = List.replicate Memory.romSize 0 := ⟨_, create_eq_ok_iff.mpr ⟨List.length_replicate, rfl⟩, rfl⟩
  refine ⟨old, old.restore idleSnapshot, hcreate, loadSnapshot_eq_ok_iff.mpr ⟨problem?_idleSnapshot, rfl⟩, ?_⟩
  have idles := idles_restore hrom
  have short : ∀ k < 3, ((old.restore idleSnapshot).beforeFrame movedJoystick k).ShortInstructions := fun k _ => by
    have hplayed := idles.played movedJoystick k
    have hwith : Idles ((old.restore idleSnapshot).beforeFrame movedJoystick k).cpu
        ((old.restore idleSnapshot).beforeFrame movedJoystick k).board := ⟨hplayed.iff1, hplayed.memory⟩
    exact hwith.shortInstructions
  obtain ⟨hframes, hsum⟩ := frameClock_run (old.restore idleSnapshot) movedJoystick 3 short
  have hfirst : wrapFrame ((old.restore idleSnapshot).played movedJoystick 0).board.clock = 69880 := rfl
  have hthree := hsum 0 3 (by decide)
  obtain ⟨-, ⟨-, hlast⟩, -⟩ := hframes 2 (by decide)
  simp only [Nat.reduceAdd] at hlast
  simp only [Nat.zero_add, hfirst] at hthree
  exact ⟨short, hlast, hthree⟩

end Machine

end ZxSpectrum
