import ZxSpectrum.Cpu

/-!
# What programs leave alone

`Yields` says what the result of a program is like, whatever the bus answers. Most instructions compute with general registers and
leave the rest of the processor as it was: interrupt and refresh registers, alternate registers, the halt flag and the latch, and
the index registers that they do not name as targets (`Instruction.spares_execute`). The others change the rest in ways of their
own (`Role`). The lemmas before say the same of the steps that instructions share.
-/

namespace ZxSpectrum

open BusProgram

variable {α γ β : Type}

/-! ## Results of programs -/

/-- Whatever the bus answers, the program ends in a result of which something holds. -/
def BusProgram.Yields : BusProgram α → (α → Prop) → Prop
  | .done result, holds => holds result
  | .idle _ next, holds | .contend _ _ next, holds | .poke _ _ next, holds | .output _ _ next, holds => next.Yields holds
  | .peek _ next, holds | .input _ next, holds => ∀ value, (next value).Yields holds

namespace BusProgram

variable {holds : α → Prop}

/-- What a program yields, every run of it gives. -/
theorem Yields.run [Bus β] {program : BusProgram α} (h : program.Yields holds) (bus : β) : holds (program.run bus).1 := by
  induction program generalizing bus with
  | done result => exact h
  | idle time next ih => exact ih h _
  | contend address time next ih => exact ih h _
  | peek address next ih => exact ih _ (h _) bus
  | poke address value next ih => exact ih h _
  | input port next ih => exact ih _ (h _) _
  | output port value next ih => exact ih h _

/-- A result goes on into what follows. -/
theorem Yields.bind {program : BusProgram γ} {next : γ → BusProgram α} {middle : γ → Prop} (h : program.Yields middle)
    (hnext : ∀ result, middle result → (next result).Yields holds) : (program >>= next).Yields holds := by
  induction program with
  | done result => exact hnext result h
  | idle time rest ih => exact ih h
  | contend address time rest ih => exact ih h
  | peek address rest ih => exact fun value => ih value (h value)
  | poke address value rest ih => exact ih h
  | input port rest ih => exact fun value => ih value (h value)
  | output port value rest ih => exact ih h

/-- Nothing need be known of a result. -/
theorem Yields.after {program : BusProgram γ} {next : γ → BusProgram α} (hnext : ∀ result, (next result).Yields holds) :
    (program >>= next).Yields holds := by
  induction program with
  | done result => exact hnext result
  | idle time rest ih => exact ih
  | contend address time rest ih => exact ih
  | peek address rest ih => exact ih
  | poke address value rest ih => exact ih
  | input port rest ih => exact ih
  | output port value rest ih => exact ih

theorem Yields.ite {condition : Prop} [Decidable condition] {x y : BusProgram α} (hx : x.Yields holds) (hy : y.Yields holds) :
    (if condition then x else y).Yields holds := by
  split
  · exact hx
  · exact hy

theorem Yields.mono {program : BusProgram α} {weaker : α → Prop} (h : program.Yields holds)
    (himp : ∀ result, holds result → weaker result) : program.Yields weaker := by
  have hbind : (program >>= pure).Yields weaker := h.bind himp
  rwa [bind_pure] at hbind

end BusProgram

/-! ## The rest of the processor -/

/-- The index register that a byte register is a half of, if it is one. -/
def Reg8.named : Reg8 → List IndexRegister
  | .indexHigh i | .indexLow i => [i]
  | _ => []

def Reg16.named : Reg16 → List IndexRegister
  | .index i => [i]
  | _ => []

def Operand.named : Operand → List IndexRegister
  | .reg r => r.named
  | .memory _ => []

namespace Cpu

/-- The processor but for its general registers and for some of its index registers. -/
def rest (named : List IndexRegister) (cpu : Cpu) : Cpu :=
  { cpu with
    regs := { cpu.regs with
      a := 0, f := 0, b := 0, c := 0, d := 0, e := 0, h := 0, l := 0, sp := 0, pc := 0
      ixh := if .ix ∈ named then 0 else cpu.regs.ixh, ixl := if .ix ∈ named then 0 else cpu.regs.ixl
      iyh := if .iy ∈ named then 0 else cpu.regs.iyh, iyl := if .iy ∈ named then 0 else cpu.regs.iyl } }

/-- A program that leaves the rest as it was; `of` finds the processor in its result. -/
def Spares (named : List IndexRegister) (cpu : Cpu) (of : α → Cpu) (program : BusProgram α) : Prop :=
  program.Yields fun result => (of result).rest named = cpu.rest named

/-- A program that goes on from a processor with the same rest. -/
theorem Spares.bind {named : List IndexRegister} {cpu : Cpu} {of : α → Cpu} {last : γ → Cpu} {program : BusProgram α}
    {next : α → BusProgram γ} (h : cpu.Spares named of program) (hnext : ∀ result, (of result).Spares named last (next result)) :
    cpu.Spares named last (program >>= next) :=
  Yields.bind h fun result hresult => (hnext result).mono fun _ hlast => hlast.trans hresult

variable (cpu : Cpu) {named : List IndexRegister}

theorem rest_setReg {r : Reg8} (h : ∀ i ∈ r.named, i ∈ named) (value : UInt8) :
    (cpu.setReg r value).rest named = cpu.rest named := by
  rcases r with _ | _ | _ | _ | _ | _ | _ | (_ | _) | (_ | _)
  case indexHigh.ix | indexHigh.iy | indexLow.ix | indexLow.iy =>
    have hin := h _ (List.mem_singleton_self _)
    simp only [rest, setReg, if_pos hin]
  all_goals rfl

theorem rest_setWide {r : Reg16} (h : ∀ i ∈ r.named, i ∈ named) (value : UInt16) :
    (cpu.setWide r value).rest named = cpu.rest named := by
  rcases r with _ | _ | _ | _ | _ | (_ | _)
  case index.ix | index.iy =>
    have hin := h _ (List.mem_singleton_self _)
    simp only [rest, setWide, Registers.setIx, Registers.setIy, if_pos hin]
  all_goals rfl

/-! ## Steps that instructions share -/

theorem spares_nextByte : cpu.Spares named Prod.snd cpu.nextByte := .after fun _ => rfl

theorem spares_nextWord : cpu.Spares named Prod.snd cpu.nextWord :=
  cpu.spares_nextByte.bind fun low => low.2.spares_nextByte.bind fun _ => rfl

theorem spares_pushWord (value : UInt16) : cpu.Spares named id (cpu.pushWord value) := .after fun _ => .after fun _ => rfl

theorem spares_popWord : cpu.Spares named Prod.snd cpu.popWord := .after fun _ => rfl

theorem spares_popPc : cpu.Spares named id cpu.popPc := cpu.spares_popWord.bind fun _ => rfl

theorem spares_jumpAbsolute : cpu.Spares named id cpu.jumpAbsolute := .after fun _ => rfl

theorem spares_jumpDisplaced : cpu.Spares named id cpu.jumpDisplaced := .after fun _ => .after fun _ => rfl

theorem spares_skipByte : cpu.Spares named id cpu.skipByte := .after fun _ => rfl

theorem spares_skipWord : cpu.Spares named id cpu.skipWord := .after fun _ => .after fun _ => rfl

theorem spares_callAbsolute : cpu.Spares named id cpu.callAbsolute :=
  .after fun _ => .after fun _ => ((cpu.skip 2).spares_pushWord _).bind fun _ => rfl

theorem spares_resolve (p : Pointer) : cpu.Spares named Prod.snd (cpu.resolve p) := by
  cases p with
  | displaced i => exact .after fun _ => .after fun _ => rfl
  | _ => rfl

theorem spares_readOperand (o : Operand) : cpu.Spares named Prod.snd (cpu.readOperand o) := by
  cases o with
  | reg r => rfl
  | memory p => exact (cpu.spares_resolve p).bind fun _ => .after fun _ => rfl

theorem spares_writeOperand {o : Operand} (h : ∀ i ∈ o.named, i ∈ named) (value : UInt8) :
    cpu.Spares named id (cpu.writeOperand o value) := by
  cases o with
  | reg r => exact cpu.rest_setReg h value
  | memory p => exact (cpu.spares_resolve p).bind fun _ => .after fun _ => rfl

theorem spares_modifyOperand {o : Operand} (h : ∀ i ∈ o.named, i ∈ named) (f : UInt8 → UInt8 → Alu.Outcome) :
    cpu.Spares named Prod.snd (cpu.modifyOperand o f) := by
  cases o with
  | reg r => exact rest_setReg (cpu.setFlags _) h _
  | memory p => exact (cpu.spares_resolve p).bind fun _ => .after fun _ => .after fun _ => .after fun _ => rfl

theorem spares_readSource (source : Source) : cpu.Spares named Prod.snd (cpu.readSource source) := by
  cases source with
  | operand o => exact cpu.spares_readOperand o
  | immediate => exact cpu.spares_nextByte

theorem spares_exchangeStack {target : Reg16} (h : ∀ i ∈ target.named, i ∈ named) :
    cpu.Spares named id (cpu.exchangeStack target) :=
  .after fun value => .after fun _ => .after fun _ => .after fun _ => .after fun _ => cpu.rest_setWide h value

theorem spares_rotateDigit (byte digit : UInt8 → UInt8 → UInt8) : cpu.Spares named id (cpu.rotateDigit byte digit) :=
  .after fun _ => .after fun _ => .after fun _ => rfl

theorem spares_readSystem (value : UInt8) : cpu.Spares named id (cpu.readSystem value) := .after fun _ => rfl

theorem spares_blockLoad (direction : Direction) (repeats : Bool) : cpu.Spares named id (cpu.blockLoad direction repeats) :=
  .after fun _ => .after fun _ => .after fun _ => .ite (.after fun _ => rfl) rfl

theorem spares_blockCompare (direction : Direction) (repeats : Bool) : cpu.Spares named id (cpu.blockCompare direction repeats) :=
  .after fun _ => .after fun _ => .ite (.after fun _ => rfl) rfl

theorem spares_blockInput (direction : Direction) (repeats : Bool) : cpu.Spares named id (cpu.blockInput direction repeats) :=
  .after fun _ => .after fun _ => .after fun _ => .ite (.after fun _ => rfl) rfl

theorem spares_blockOutput (direction : Direction) (repeats : Bool) : cpu.Spares named id (cpu.blockOutput direction repeats) :=
  .after fun _ => .after fun _ => .after fun _ => .ite (.after fun _ => rfl) rfl

end Cpu

/-! ## Instructions -/

/-- What instructions change of the rest of the processor. -/
inductive Role where
  | ordinary
  /-- Loads the interrupt register. -/
  | loadInterrupt
  | loadRefresh
  /-- Disables interrupts. -/
  | disable
  | enable
  /-- Returns from an interrupt. -/
  | back
  | mode (mode : UInt8)
  | halt
  /-- Exchanges registers with the alternate ones. -/
  | exchange
deriving DecidableEq, Repr

namespace Instruction

def role : Instruction → Role
  | .loadInterrupt => .loadInterrupt
  | .loadRefresh => .loadRefresh
  | .di => .disable
  | .ei => .enable
  | .retInterrupt => .back
  | .im mode => .mode mode
  | .halt => .halt
  | .exchangeAf | .exchangeMain => .exchange
  | _ => .ordinary

/-- The index registers that an instruction writes to. -/
def targets : Instruction → List IndexRegister
  | .load target _ | .loadImmediate target | .increment target | .decrement target => target.named
  | .change _ target copy => target.named ++ copy.elim [] Reg8.named
  | .loadWordImmediate r | .loadWord r | .pop r | .exchangeStack r | .add r _ | .incrementWord r | .decrementWord r =>
    r.named
  | .input (some r) => r.named
  | _ => []

open Cpu

/-- Instructions of no particular role leave the rest alone, if their targets are no part of it. -/
theorem spares_execute {instruction : Instruction} (h : instruction.role = .ordinary) {named : List IndexRegister}
    (htargets : ∀ i ∈ instruction.targets, i ∈ named) (cpu : Cpu) : cpu.Spares named id (instruction.execute cpu) := by
  cases instruction with
  | halt => cases h
  | di => cases h
  | ei => cases h
  | im mode => cases h
  | loadInterrupt => cases h
  | loadRefresh => cases h
  | exchangeAf => cases h
  | exchangeMain => cases h
  | retInterrupt => cases h
  | load target source =>
    exact (cpu.spares_readOperand source).bind fun found => found.2.spares_writeOperand htargets found.1
  | loadImmediate target =>
    have hplain : cpu.Spares named id (cpu.nextByte >>= fun found => found.2.writeOperand target found.1) :=
      cpu.spares_nextByte.bind fun found => found.2.spares_writeOperand htargets found.1
    rcases target with r | (_ | i | _)
    · exact hplain
    · exact hplain
    · exact cpu.spares_nextByte.bind fun _ => .after fun _ => .after fun _ => .after fun _ => rfl
    · exact hplain
  | loadAccumulator pointer => exact .after fun _ => rfl
  | storeAccumulator pointer => exact .after fun _ => rfl
  | loadAccumulatorAbsolute => exact cpu.spares_nextWord.bind fun _ => .after fun _ => rfl
  | storeAccumulatorAbsolute => exact cpu.spares_nextWord.bind fun _ => .after fun _ => rfl
  | readInterrupt => exact cpu.spares_readSystem _
  | readRefresh => exact cpu.spares_readSystem _
  | loadWordImmediate target => exact cpu.spares_nextWord.bind fun found => found.2.rest_setWide htargets _
  | loadWord target =>
    exact cpu.spares_nextWord.bind fun found => .after fun value => found.2.rest_setWide htargets value
  | storeWord source => exact cpu.spares_nextWord.bind fun _ => .after fun _ => rfl
  | loadStackPointer source => exact .after fun _ => rfl
  | push source => exact .after fun _ => cpu.spares_pushWord _
  | pop target => exact cpu.spares_popWord.bind fun popped => popped.2.rest_setWide htargets _
  | exchangeDeHl => rfl
  | exchangeStack target => exact cpu.spares_exchangeStack htargets
  | alu operation source => exact (cpu.spares_readSource source).bind fun _ => rfl
  | increment target => exact (cpu.spares_modifyOperand htargets _).bind fun _ => rfl
  | decrement target => exact (cpu.spares_modifyOperand htargets _).bind fun _ => rfl
  | add target source => exact .after fun _ => cpu.rest_setWide htargets _
  | adc source => exact .after fun _ => rfl
  | sbc source => exact .after fun _ => rfl
  | incrementWord target => exact .after fun _ => cpu.rest_setWide htargets _
  | decrementWord target => exact .after fun _ => cpu.rest_setWide htargets _
  | change operation target copy =>
    obtain ⟨htarget, hcopy⟩ := List.forall_mem_append.mp htargets
    refine (cpu.spares_modifyOperand htarget _).bind fun changed => ?_
    cases copy with
    | none => rfl
    | some r => exact changed.2.rest_setReg hcopy _
  | testBit bit target =>
    cases target with
    | reg r => rfl
    | memory p => exact (cpu.spares_resolve p).bind fun _ => .after fun _ => .after fun _ => rfl
  | rotateDigitRight =>
    rw [execute]
    exact cpu.spares_rotateDigit _ _
  | rotateDigitLeft =>
    rw [execute]
    exact cpu.spares_rotateDigit _ _
  | jump condition => exact .ite cpu.spares_jumpAbsolute cpu.spares_skipWord
  | jumpRelative condition => exact .ite cpu.spares_jumpDisplaced cpu.spares_skipByte
  | jumpCounted => exact .after fun _ => .ite (spares_skipByte _) (spares_jumpDisplaced _)
  | call condition => exact .ite cpu.spares_callAbsolute cpu.spares_skipWord
  | ret condition =>
    cases condition with
    | none => exact cpu.spares_popPc
    | some condition => exact .after fun _ => .ite cpu.spares_popPc rfl
  | restart address => exact .after fun _ => (cpu.spares_pushWord _).bind fun _ => rfl
  | inputAccumulator => exact cpu.spares_nextByte.bind fun _ => .after fun _ => rfl
  | outputAccumulator => exact cpu.spares_nextByte.bind fun _ => .after fun _ => rfl
  | input target =>
    refine .after fun value => ?_
    cases target with
    | none => rfl
    | some r => exact rest_setReg (cpu.setFlags _) htargets value
  | output source => exact .after fun _ => rfl
  | blockLoad direction repeats => exact cpu.spares_blockLoad direction repeats
  | blockCompare direction repeats => exact cpu.spares_blockCompare direction repeats
  | blockInput direction repeats => exact cpu.spares_blockInput direction repeats
  | blockOutput direction repeats => exact cpu.spares_blockOutput direction repeats
  | _ => rfl

end Instruction

end ZxSpectrum
