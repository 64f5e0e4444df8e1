import ZxSpectrum.Proofs.Frames

/-!
# Frames as programs

The instructions that a frame executes, one after the other, are one bus program (`frameProgram`), and running that is
executing the frame (`run_frameProgram`). What is said of all programs is so said of frames.
-/

namespace ZxSpectrum

variable {β : Type} [Bus β]

namespace Cpu

/-- Some instructions as one program. -/
def steps : Nat → Cpu → BusProgram Cpu
  | 0, cpu => pure cpu
  | count + 1, cpu => do
    let cpu ← cpu.step
    steps count cpu

theorem run_steps (count : Nat) (cpu : Cpu) (bus : β) : (cpu.steps count).run bus = cpu.stepMany count bus := by
  induction count generalizing cpu bus with
  | zero => rfl
  | succ count ih => rw [steps, BusProgram.run_bind, ih, stepMany]

/-- How many instructions are executed until the clock has reached `limit`, of at most `fuel`. -/
def stepsUntil (limit : Nat) : Nat → Cpu → β → Nat
  | 0, _, _ => 0
  | fuel + 1, cpu, bus =>
    if Bus.clock bus < limit then stepsUntil limit fuel (cpu.step.run bus).1 (cpu.step.run bus).2 + 1 else 0

theorem runFor_eq_stepMany (limit fuel : Nat) (cpu : Cpu) (bus : β) :
    cpu.runFor limit fuel bus = cpu.stepMany (cpu.stepsUntil limit fuel bus) bus := by
  induction fuel generalizing cpu bus with
  | zero => rfl
  | succ fuel ih =>
    rw [runFor, stepsUntil]
    by_cases running : Bus.clock bus < limit
    · rw [if_pos running, if_pos running, stepMany]
      exact ih _ _
    · rw [if_neg running, if_neg running]
      rfl

end Cpu

namespace Machine

/-- What a frame executes as one program: the acknowledgement of the interrupt, then the instructions. -/
def frameProgram (machine : Machine) : BusProgram Cpu := do
  let (_, cpu) ← machine.cpu.interrupt
  cpu.steps (machine.acknowledged.1.stepsUntil Ula.tstatesPerFrame
    (Ula.tstatesPerFrame - machine.acknowledged.2.clock) machine.acknowledged.2)

theorem run_frameProgram (machine : Machine) : machine.frameProgram.run machine.opened = machine.executed := by
  rw [frameProgram, BusProgram.run_bind]
  exact (Cpu.run_steps _ _ _).trans (Cpu.runFor_eq_stepMany _ _ _ _).symm

end Machine

end ZxSpectrum
