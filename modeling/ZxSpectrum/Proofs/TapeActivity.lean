import ZxSpectrum.Proofs.FixedRom
import ZxSpectrum.Proofs.FramePrograms

/-!
# Tape activity

A program that loads from tape reads even ports all the time. What a frame executes is its bus cycles (`frameCycles`), those of
an instruction that runs over its end among them, and the ports count the reads of even ports in just these
(`ulaReads_executed`). A machine so takes the tape for active if one of the last 75 frames had 100 reads or more
(`tapeActive_iff`). The invariant is `Watches`: it says at once over how many further frames without reads this will last.
-/

namespace ZxSpectrum

open BusProgram

variable {α : Type}

/-! ## Reads of even ports -/

/-- Whether a cycle reads an even port. -/
def Cycle.readsEven : Cycle → Bool
  | .input port _ => port.toNat % 2 == 0
  | _ => false

/-- How many of some cycles read an even port. -/
def evenReads (cycles : List (Nat × Cycle)) : Nat := cycles.countP fun cycle => cycle.2.readsEven

/-- The even ports are those of the video chip. -/
theorem Ula.isUlaPort_eq (port : UInt16) : isUlaPort port = (port.toNat % 2 == 0) := by
  have hlow : (port &&& 1).toNat = port.toNat % 2 := by
    rw [UInt16.toNat_and]
    exact Nat.and_one_is_mod port.toNat
  rw [isUlaPort, Bool.eq_iff_iff, beq_iff_eq, beq_iff_eq, ← hlow, ← UInt16.toNat_inj]
  rfl

namespace Ports

theorem ulaReads_read (ports : Ports) (port : UInt16) (time : Nat) :
    (ports.read port time).2.ulaReads = ports.ulaReads + if port.toNat % 2 == 0 then 1 else 0 := by
  unfold read
  rw [Ula.isUlaPort_eq]
  by_cases heven : (port.toNat % 2 == 0) = true
  · rw [if_pos heven, if_pos heven, noteRead]
    repeat' split
    all_goals rfl
  · rw [if_neg heven, if_neg heven]
    rfl

theorem ulaReads_write (ports : Ports) (port : UInt16) (value : UInt8) (time : Nat) :
    (ports.write port value time).ulaReads = ports.ulaReads := by
  unfold write
  split <;> rfl

end Ports

namespace Board

/-- A cycle counts if it reads an even port. -/
theorem ulaReads_play (cycle : Cycle) (board : Board) :
    (cycle.play board).ports.ulaReads = board.ports.ulaReads + if cycle.readsEven then 1 else 0 := by
  cases cycle with
  | idle time | contend address time | peek address => rfl
  | poke address value => exact congrArg Ports.ulaReads (clock_poke address value board).2
  | input port value => exact Ports.ulaReads_read _ port _
  | output port value => exact Ports.ulaReads_write _ port value _

/-- The ports count the reads of even ports in a run. -/
theorem ulaReads_run (program : BusProgram α) (board : Board) :
    (program.run board).2.ports.ulaReads = board.ports.ulaReads + evenReads (program.cycles board) := by
  refine run_cycles (motive := fun board cycles last => last.ports.ulaReads = board.ports.ulaReads + evenReads cycles)
    (fun board => rfl) (fun cycle board rest last ih => ?_) program board
  rw [ih, ulaReads_play, evenReads, evenReads, List.countP_cons, Nat.add_assoc, Nat.add_comm (List.countP _ rest)]

end Board

/-! ## Frames -/

namespace Machine

/-- The bus cycles of a frame, whenever they fall. -/
def frameCycles (machine : Machine) : List (Nat × Cycle) := machine.frameProgram.cycles machine.opened

/-- What is executed in a frame is its cycles, one after the other. -/
theorem playAll_frameCycles (machine : Machine) : Cycle.playAll machine.frameCycles machine.opened = machine.executed.2 := by
  rw [frameCycles, playAll_cycles, run_frameProgram]

/-- In a frame the ports count the reads of that frame. -/
theorem ulaReads_executed (machine : Machine) : machine.executed.2.ports.ulaReads = evenReads machine.frameCycles := by
  rw [← run_frameProgram, Board.ulaReads_run]
  exact Nat.zero_add _

theorem tapeCountdown_renderFrame (machine : Machine) : machine.renderFrame.tapeCountdown =
    if 100 ≤ evenReads machine.frameCycles then 75 else machine.tapeCountdown - 1 := by
  have hframe : machine.renderFrame.tapeCountdown =
      if decide (100 ≤ machine.executed.2.ports.ulaReads) = true then 75 else machine.tapeCountdown - 1 := rfl
  rw [hframe, ulaReads_executed]
  exact if_congr decide_eq_true_iff rfl rfl

end Machine

/-! ## Runs -/

/-- A machine with the cycles of every frame since its last reset or load, the last frame first. -/
structure TapeWatch where
  machine : Machine
  frames : List (List (Nat × Cycle)) := []

namespace TapeWatch

def step (watch : TapeWatch) (operation : Operation) : TapeWatch where
  machine := watch.machine.perform operation
  frames :=
    match operation with
    | .frame => watch.machine.frameCycles :: watch.frames
    | .reset => []
    | .load snapshot => if snapshot.problem? = none then [] else watch.frames
    | _ => watch.frames

/-- What a machine goes through that has just been reset. -/
def after (machine : Machine) (operations : List Operation) : TapeWatch :=
  operations.foldl step { machine := machine.reset }

/-- The invariant of a run: the countdown would last over `elapsed` further frames without reads exactly if one of the last frames,
so many fewer than 75, had reads enough. -/
def Watches (watch : TapeWatch) : Prop :=
  ∀ elapsed, elapsed < watch.machine.tapeCountdown ↔
    ∃ cycles ∈ watch.frames.take (75 - elapsed), 100 ≤ evenReads cycles

variable {watch : TapeWatch}

/-- After a reset or a load the tape has not been read. -/
theorem watches_of_nil (hcountdown : watch.machine.tapeCountdown = 0) (hframes : watch.frames = []) : watch.Watches := by
  intro elapsed
  rw [hcountdown, hframes, List.take_nil]
  simp

/-- A frame pushes the others back by one. -/
theorem Watches.frame (watches : watch.Watches) : (watch.step .frame).Watches := by
  intro elapsed
  change elapsed < watch.machine.renderFrame.tapeCountdown ↔
    ∃ cycles ∈ (watch.machine.frameCycles :: watch.frames).take (75 - elapsed), 100 ≤ evenReads cycles
  have hearlier := watches (elapsed + 1)
  rw [watch.machine.tapeCountdown_renderFrame]
  by_cases hopen : elapsed < 75
  · have htake : 75 - elapsed = 75 - (elapsed + 1) + 1 := by omega
    simp only [htake, List.take_succ_cons, List.mem_cons, exists_eq_or_imp, ← hearlier]
    split <;> omega
  · rw [Nat.sub_eq_zero_of_le (Nat.le_of_not_lt hopen), List.take_zero]
    rw [Nat.sub_eq_zero_of_le (Nat.le_succ_of_le (Nat.le_of_not_lt hopen)), List.take_zero] at hearlier
    simp only [List.not_mem_nil, false_and, exists_false, iff_false] at hearlier ⊢
    split <;> omega

/-- A snapshot that is refused changes nothing. -/
theorem Watches.load (watches : watch.Watches) (snapshot : Snapshot) : (watch.step (.load snapshot)).Watches := by
  cases hproblem : snapshot.problem? with
  | none =>
    refine watches_of_nil ?_ (if_pos hproblem)
    change (watch.machine.perform (.load snapshot)).tapeCountdown = 0
    rw [Machine.perform, Machine.loadSnapshot_eq_ok_iff.mpr ⟨hproblem, rfl⟩]
    rfl
  | some error =>
    have hsame : watch.step (.load snapshot) = watch := by
      simp only [TapeWatch.step, Machine.perform, Machine.loadSnapshot, hproblem, reduceCtorEq, if_false]
    rw [hsame]
    exact watches

/-- An operation keeps the invariant. -/
theorem Watches.step (watches : watch.Watches) (operation : Operation) : (watch.step operation).Watches := by
  cases operation with
  | frame => exact watches.frame
  | reset => exact watches_of_nil rfl rfl
  | load snapshot => exact watches.load snapshot
  | _ => exact watches

/-- A run keeps the invariant. -/
theorem watches_after (machine : Machine) (operations : List Operation) : (after machine operations).Watches :=
  List.foldlRecOn operations TapeWatch.step (watches_of_nil rfl rfl) fun _ watches operation _ => watches.step operation

/-- Watching a machine changes nothing in what it goes through. -/
theorem machine_foldl (watch : TapeWatch) (operations : List Operation) :
    (operations.foldl TapeWatch.step watch).machine = operations.foldl Machine.perform watch.machine := by
  induction operations generalizing watch with
  | nil => rfl
  | cons operation operations ih => exact ih (watch.step operation)

/-- Whatever a machine goes through after a reset, with whatever program and inputs, its tape counts as active exactly if in one
of the last 75 frames since it was last reset or loaded 100 even ports were read or more. All reads of a frame count in it, and in
no other: what the frame does to the board that it opens is its cycles, to the end of the last instruction, and the board that it
so leaves is what the next frame opens. -/
theorem tapeActive_iff (machine : Machine) (operations : List Operation) :
    let watch := after machine operations
    watch.machine = operations.foldl Machine.perform machine.reset ∧
      (watch.machine.tapeActive = true ↔ ∃ cycles ∈ watch.frames.take 75, 100 ≤ evenReads cycles) ∧
      let last := Cycle.playAll watch.machine.frameCycles watch.machine.opened
      watch.machine.renderFrame.board = { last with ports := last.ports.endFrame } := by
  intro watch
  refine ⟨machine_foldl _ operations, ?_, ?_⟩
  · rw [Machine.tapeActive, decide_eq_true_iff]
    exact watches_after machine operations 0
  · intro last
    rw [watch.machine.renderFrame_board, ← watch.machine.playAll_frameCycles]

end TapeWatch

end ZxSpectrum
