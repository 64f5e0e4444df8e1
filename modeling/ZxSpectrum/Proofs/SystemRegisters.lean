import ZxSpectrum.Proofs.Frames
import ZxSpectrum.Proofs.LatchAndHalt
import ZxSpectrum.Proofs.ProgramResults

/-!
# Interrupt and refresh registers

The registers of interrupts and of the refresh of memory (`System`) belong to the rest of the processor, which most instructions
leave alone. Six instructions change them, each in its way (`yields_execute`), and so do opcode fetches and the acknowledgement of
an interrupt. What all these keep (`SystemLaw`) a whole frame keeps (`SystemLaw.renderFrame`).
-/

namespace ZxSpectrum

open BusProgram

variable {α γ β : Type}

/-! ## The system registers -/

/-- The registers of interrupts and of the refresh of memory. -/
structure System where
  i : UInt8
  r : UInt8
  r7 : UInt8
  iff1 : Bool
  iff2 : Bool
  im : UInt8

def Registers.system (regs : Registers) : System := ⟨regs.i, regs.r, regs.r7, regs.iff1, regs.iff2, regs.im⟩

namespace Cpu

/-- The system registers of a processor. -/
def system (cpu : Cpu) : System := cpu.regs.system

variable (cpu : Cpu)

/-- A program that leaves the system registers as they were; `of` finds the processor in its result. -/
def Leaves (of : α → Cpu) (program : BusProgram α) : Prop := program.Yields fun result => (of result).system = cpu.system

/-- They belong to the rest of the processor. -/
theorem system_rest (named : List IndexRegister) : (cpu.rest named).system = cpu.system := rfl

variable {cpu} in
theorem Spares.leaves {named : List IndexRegister} {of : α → Cpu} {program : BusProgram α} (h : cpu.Spares named of program) :
    cpu.Leaves of program := by
  refine h.mono fun result hrest => ?_
  rw [← system_rest (of result) named, hrest, system_rest]

theorem leaves_pushWord (value : UInt16) : cpu.Leaves id (cpu.pushWord value) := by
  have hspares : cpu.Spares [] id (cpu.pushWord value) := cpu.spares_pushWord value
  exact hspares.leaves

end Cpu

/-! ## Instructions -/

/-- What an instruction makes of the system registers. -/
def Instruction.system (instruction : Instruction) (cpu : Cpu) : System :=
  match instruction with
  | .di => { cpu.system with iff1 := false, iff2 := false }
  | .ei => { cpu.system with iff1 := true, iff2 := true }
  | .im mode => { cpu.system with im := mode }
  | .loadInterrupt => { cpu.system with i := cpu.regs.a }
  | .loadRefresh => { cpu.system with r := cpu.regs.a &&& 0x7F, r7 := cpu.regs.a &&& 0x80 }
  | .retInterrupt => { cpu.system with iff1 := cpu.regs.iff2 }
  | _ => cpu.system

open Cpu

/-- Whatever the bus answers, six instructions change the system registers, each in its way, and no other does. -/
theorem Instruction.yields_execute (instruction : Instruction) (cpu : Cpu) :
    (instruction.execute cpu).Yields fun after => after.system = instruction.system cpu := by
  have hordinary : instruction.role = .ordinary → cpu.Leaves id (instruction.execute cpu) := fun hrole =>
    (spares_execute hrole (fun _ hin => hin) cpu).leaves
  cases instruction with
  | loadInterrupt => exact .after fun _ => rfl
  | loadRefresh => exact .after fun _ => rfl
  | retInterrupt =>
    let enabled : Cpu := { cpu with regs.iff1 := cpu.regs.iff2 }
    have hspares : enabled.Spares [] id enabled.popPc := enabled.spares_popPc
    exact hspares.leaves
  | di => rfl
  | ei => rfl
  | im mode => rfl
  | halt => rfl
  | exchangeAf => rfl
  | exchangeMain => rfl
  | _ => exact hordinary rfl

/-! ## Laws of the system registers -/

/-- What holds of the system registers at first and is kept by all that changes them. -/
structure SystemLaw (law : System → Prop) : Prop where
  start : law ({} : Cpu).system
  /-- An opcode fetch counts. -/
  count : ∀ {s}, law s → law { s with r := (s.r + 1) &&& 0x7F }
  disable : ∀ {s}, law s → law { s with iff1 := false, iff2 := false }
  enable : ∀ {s}, law s → law { s with iff1 := true, iff2 := true }
  mode : ∀ {s mode}, law s → mode ≤ 2 → law { s with im := mode }
  vector : ∀ {s}, law s → ∀ value, law { s with i := value }
  refresh : ∀ {s}, law s → ∀ value, law { s with r := value &&& 0x7F, r7 := value &&& 0x80 }
  /-- The return from an interrupt. -/
  back : ∀ {s}, law s → law { s with iff1 := s.iff2 }

namespace SystemLaw

variable {law : System → Prop} (keeps : SystemLaw law)

include keeps

/-- Instructions keep it, if they set no interrupt mode but those that exist. -/
theorem execute {instruction : Instruction} {cpu : Cpu} (h : law cpu.system)
    (hmode : ∀ mode, instruction = .im mode → mode ≤ 2) :
    (instruction.execute cpu).Yields fun after => law after.system := by
  refine (instruction.yields_execute cpu).mono fun after hafter => ?_
  rw [hafter]
  cases instruction with
  | di => exact keeps.disable h
  | ei => exact keeps.enable h
  | im mode => exact keeps.mode h (hmode mode rfl)
  | loadInterrupt => exact keeps.vector h _
  | loadRefresh => exact keeps.refresh h _
  | retInterrupt => exact keeps.back h
  | _ => exact h

theorem fetch {cpu : Cpu} (h : law cpu.system) : cpu.fetch.Yields fun fetched => law fetched.2.system :=
  .after fun _ => .after fun _ => keeps.count h

/-- So does whatever opcodes begin, whose tables know the three modes only. -/
theorem dispatch (fuel : Nat) : ∀ (page : Page) (opcode : UInt8) {cpu : Cpu}, law cpu.system →
    (Cpu.dispatch fuel page opcode cpu).Yields fun after => law after.system := by
  induction fuel with
  | zero => exact fun _ _ _ h => h
  | succ fuel ih =>
    intro page opcode cpu h
    have hregular := page.regular_decode opcode
    rw [Cpu.dispatch]
    cases hslot : page.decode opcode with
    | run instruction =>
      refine keeps.execute h fun mode heq => ?_
      rw [hslot, heq] at hregular
      exact of_decide_eq_true hregular
    | enter next => exact (keeps.fetch h).bind fun fetched hfetched => ih next fetched.1 hfetched
    | enterIndexedBits i =>
      have hlatched : (cpu.fetchIndexed i).Yields fun fetched => law fetched.2.system :=
        .after fun _ => .after fun _ => .after fun _ => h
      exact hlatched.bind fun fetched hfetched => ih .indexedBits fetched.1 hfetched
    | again => exact ih .base opcode h

theorem step {cpu : Cpu} (h : law cpu.system) : cpu.step.Yields fun after => law after.system :=
  (keeps.fetch h).bind fun fetched hfetched => keeps.dispatch Cpu.pageLimit .base fetched.1 hfetched

/-- An accepted interrupt disables further ones and counts as a fetch. -/
theorem interrupt {cpu : Cpu} (h : law cpu.system) : cpu.interrupt.Yields fun result => law result.2.system := by
  by_cases hiff : cpu.regs.iff1 = true
  · have hinterrupted : cpu.interrupted.system = { cpu.system with iff1 := false, iff2 := false } := by
      obtain ⟨regs, halted, latch⟩ := cpu
      cases halted <;> rfl
    rw [interrupt_of_enabled hiff]
    refine Yields.bind (cpu.interrupted.leaves_pushWord _) fun pushed hpushed => .after fun _ => .after fun _ => ?_
    have hsystem : pushed.system = { cpu.system with iff1 := false, iff2 := false } := hpushed.trans hinterrupted
    have hdisabled : law pushed.system := by
      rw [hsystem]
      exact keeps.disable h
    exact keeps.count hdisabled
  · rw [Cpu.interrupt, if_neg hiff]
    exact h

variable [Bus β]

/-- Instruction by instruction it is kept. -/
theorem runFor (limit fuel : Nat) : ∀ {cpu : Cpu} (bus : β), law cpu.system →
    law (cpu.runFor limit fuel bus).1.system := by
  induction fuel with
  | zero => exact fun _ h => h
  | succ fuel ih =>
    intro cpu bus h
    rw [Cpu.runFor]
    by_cases running : Bus.clock bus < limit
    · rw [if_pos running]
      exact ih _ ((keeps.step h).run bus)
    · rw [if_neg running]
      exact h

/-- Frame by frame too. -/
theorem renderFrame {machine : Machine} (h : law machine.cpu.system) : law machine.renderFrame.cpu.system :=
  keeps.runFor _ _ _ ((keeps.interrupt h).run machine.opened)

end SystemLaw

end ZxSpectrum
