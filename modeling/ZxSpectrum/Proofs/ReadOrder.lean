import ZxSpectrum.Cpu

/-!
# Instructions read before they write

`Orderly` programs never read memory after they have written to it. The steps that instructions share are orderly, so every
instruction is (`Instruction.orderly_execute`), and so is what fetches it, with any prefixes (`Cpu.orderly_step`). A bus may
therefore ignore some of the writes of an instruction without the instruction taking notice.
-/

namespace ZxSpectrum

open BusProgram

variable {α γ : Type}

/-- From a state in which memory may have been written (`before`) or has not, the program reads memory only as long as it has
not, whatever the bus answers, and leaves the state `after` at most. -/
def BusProgram.Orderly : BusProgram α → (before after : Bool) → Prop
  | .done _, before, after => before ≤ after
  | .idle _ next, before, after => next.Orderly before after
  | .contend _ _ next, before, after => next.Orderly before after
  | .peek _ next, before, after => before = false ∧ ∀ value, (next value).Orderly before after
  | .poke _ _ next, _, after => next.Orderly true after
  | .input _ next, before, after => ∀ value, (next value).Orderly before after
  | .output _ _ next, before, after => next.Orderly before after

namespace BusProgram

variable {before middle after : Bool}

theorem Orderly.mono {program : BusProgram α} {first last : Bool} (h : program.Orderly before after)
    (hfirst : first ≤ before) (hlast : after ≤ last) : program.Orderly first last := by
  induction program generalizing before first with
  | done result => exact Bool.le_trans hfirst (Bool.le_trans h hlast)
  | idle time next ih => exact ih h hfirst
  | contend address time next ih => exact ih h hfirst
  | peek address next ih =>
    obtain ⟨rfl, hnext⟩ := h
    exact ⟨Bool.le_antisymm hfirst (Bool.false_le first), fun value => ih value (hnext value) hfirst⟩
  | poke address value next ih => exact ih h (Bool.le_refl true)
  | input port next ih => exact fun value => ih value (h value) hfirst
  | output port value next ih => exact ih h hfirst

/-- In a sequence the second part begins where the first one ends. -/
theorem Orderly.bind {program : BusProgram α} {next : α → BusProgram γ} (h : program.Orderly before middle)
    (hnext : ∀ result, (next result).Orderly middle after) : (program >>= next).Orderly before after := by
  induction program generalizing before with
  | done result => exact (hnext result).mono h (Bool.le_refl after)
  | idle time rest ih => exact ih h
  | contend address time rest ih => exact ih h
  | peek address rest ih => exact ⟨h.1, fun value => ih value (h.2 value)⟩
  | poke address value rest ih => exact ih h
  | input port rest ih => exact fun value => ih value (h value)
  | output port value rest ih => exact ih h

/-- What does not write is not known to write. -/
theorem Orderly.reads {program : BusProgram α} (h : program.Orderly false false) : program.Orderly false true :=
  h.mono (Bool.le_refl false) (Bool.false_le true)

theorem orderly_pure (result : α) (written : Bool) : (pure result : BusProgram α).Orderly written written :=
  Bool.le_refl written

theorem orderly_read (address : UInt16) : (read address).Orderly false false := ⟨rfl, fun _ => Bool.le_refl false⟩

theorem orderly_write (address : UInt16) (value : UInt8) (before : Bool) : (write address value).Orderly before true :=
  Bool.le_refl true

theorem orderly_hold (address : UInt16) (time : Nat) (written : Bool) : (hold address time).Orderly written written :=
  Bool.le_refl written

theorem orderly_internal (address : UInt16) (time : Nat) (written : Bool) :
    (internal address time).Orderly written written := by
  induction time with
  | zero => exact Bool.le_refl written
  | succ time ih => exact ih

theorem orderly_readPort (port : UInt16) : (readPort port).Orderly false false := fun _ => Bool.le_refl false

theorem orderly_writePort (port : UInt16) (value : UInt8) : (writePort port value).Orderly false false :=
  Bool.le_refl false

theorem orderly_readWord (address : UInt16) : (readWord address).Orderly false false :=
  (orderly_read address).bind fun _ => (orderly_read _).bind fun _ => orderly_pure _ _

theorem orderly_writeWord (address value : UInt16) : (writeWord address value).Orderly false true :=
  (orderly_write address _ _).bind fun _ => orderly_write _ _ _

theorem orderly_ite {condition : Prop} [Decidable condition] {x y : BusProgram α} (hx : x.Orderly before after)
    (hy : y.Orderly before after) : (if condition then x else y).Orderly before after := by
  split
  · exact hx
  · exact hy

end BusProgram

/-! ## Steps that instructions share -/

namespace Cpu

variable (cpu : Cpu)

theorem orderly_nextByte : cpu.nextByte.Orderly false false := (orderly_read _).bind fun _ => orderly_pure _ _

theorem orderly_nextWord : cpu.nextWord.Orderly false false :=
  cpu.orderly_nextByte.bind fun low => low.2.orderly_nextByte.bind fun _ => orderly_pure _ _

theorem orderly_pushWord (value : UInt16) : (cpu.pushWord value).Orderly false true :=
  (orderly_write _ _ _).bind fun _ => (orderly_write _ _ _).bind fun _ => orderly_pure _ _

theorem orderly_popWord : cpu.popWord.Orderly false false := (orderly_readWord _).bind fun _ => orderly_pure _ _

theorem orderly_popPc : cpu.popPc.Orderly false false := cpu.orderly_popWord.bind fun _ => orderly_pure _ _

theorem orderly_jumpAbsolute : cpu.jumpAbsolute.Orderly false false :=
  (orderly_readWord _).bind fun _ => orderly_pure _ _

theorem orderly_jumpDisplaced : cpu.jumpDisplaced.Orderly false false :=
  (orderly_read _).bind fun _ => (orderly_internal _ 5 _).bind fun _ => orderly_pure _ _

theorem orderly_skipByte : cpu.skipByte.Orderly false false := (orderly_hold _ _ _).bind fun _ => orderly_pure _ _

theorem orderly_skipWord : cpu.skipWord.Orderly false false :=
  (orderly_hold _ _ _).bind fun _ => (orderly_hold _ _ _).bind fun _ => orderly_pure _ _

theorem orderly_callAbsolute : cpu.callAbsolute.Orderly false true :=
  (orderly_readWord _).bind fun _ => (orderly_hold _ _ _).bind fun _ => (orderly_pushWord _ _).bind fun _ =>
    orderly_pure _ _

theorem orderly_resolve (p : Pointer) : (cpu.resolve p).Orderly false false := by
  cases p with
  | displaced i => exact (orderly_read _).bind fun _ => (orderly_internal _ 5 _).bind fun _ => orderly_pure _ _
  | _ => exact orderly_pure _ _

theorem orderly_readOperand (o : Operand) : (cpu.readOperand o).Orderly false false := by
  cases o with
  | reg r => exact orderly_pure _ _
  | memory p => exact (cpu.orderly_resolve p).bind fun _ => (orderly_read _).bind fun _ => orderly_pure _ _

theorem orderly_writeOperand (o : Operand) (value : UInt8) : (cpu.writeOperand o value).Orderly false true := by
  cases o with
  | reg r => exact (orderly_pure _ _).reads
  | memory p => exact (cpu.orderly_resolve p).bind fun _ => (orderly_write _ _ _).bind fun _ => orderly_pure _ _

theorem orderly_modifyOperand (o : Operand) (f : UInt8 → UInt8 → Alu.Outcome) :
    (cpu.modifyOperand o f).Orderly false true := by
  cases o with
  | reg r => exact (orderly_pure _ _).reads
  | memory p =>
    exact (cpu.orderly_resolve p).bind fun _ => (orderly_read _).bind fun _ => (orderly_hold _ _ _).bind fun _ =>
      (orderly_write _ _ _).bind fun _ => orderly_pure _ _

theorem orderly_readSource (source : Source) : (cpu.readSource source).Orderly false false := by
  cases source with
  | operand o => exact cpu.orderly_readOperand o
  | immediate => exact cpu.orderly_nextByte

theorem orderly_exchangeStack (target : Reg16) : (cpu.exchangeStack target).Orderly false true :=
  (orderly_readWord _).bind fun _ => (orderly_hold _ _ _).bind fun _ => (orderly_write _ _ _).bind fun _ =>
    (orderly_write _ _ _).bind fun _ => (orderly_internal _ 2 _).bind fun _ => orderly_pure _ _

theorem orderly_rotateDigit (byte digit : UInt8 → UInt8 → UInt8) : (cpu.rotateDigit byte digit).Orderly false true :=
  (orderly_read _).bind fun _ => (orderly_internal _ 4 _).bind fun _ => (orderly_write _ _ _).bind fun _ =>
    orderly_pure _ _

theorem orderly_readSystem (value : UInt8) : (cpu.readSystem value).Orderly false false :=
  (orderly_internal _ 1 _).bind fun _ => orderly_pure _ _

/-- The end of a block instruction touches no memory. -/
theorem orderly_repeat (condition : Bool) (address : UInt16) (again done : Cpu) (written : Bool) :
    (if condition then internal address 5 >>= fun _ => pure again else pure done : BusProgram Cpu).Orderly
      written written :=
  orderly_ite ((orderly_internal _ 5 _).bind fun _ => orderly_pure _ _) (orderly_pure _ _)

theorem orderly_blockLoad (direction : Direction) (repeats : Bool) :
    (cpu.blockLoad direction repeats).Orderly false true :=
  (orderly_read _).bind fun _ => (orderly_write _ _ _).bind fun _ => (orderly_internal _ 2 _).bind fun _ =>
    orderly_repeat _ _ _ _ _

theorem orderly_blockCompare (direction : Direction) (repeats : Bool) :
    (cpu.blockCompare direction repeats).Orderly false false :=
  (orderly_read _).bind fun _ => (orderly_internal _ 5 _).bind fun _ => orderly_repeat _ _ _ _ _

theorem orderly_blockInput (direction : Direction) (repeats : Bool) :
    (cpu.blockInput direction repeats).Orderly false true :=
  (orderly_internal _ 1 _).bind fun _ => (orderly_readPort _).bind fun _ => (orderly_write _ _ _).bind fun _ =>
    orderly_repeat _ _ _ _ _

theorem orderly_blockOutput (direction : Direction) (repeats : Bool) :
    (cpu.blockOutput direction repeats).Orderly false false :=
  (orderly_internal _ 1 _).bind fun _ => (orderly_read _).bind fun _ => (orderly_writePort _ _).bind fun _ =>
    orderly_repeat _ _ _ _ _

end Cpu

/-! ## Instructions -/

open Cpu

/-- Every instruction reads before it writes. -/
theorem Instruction.orderly_execute (instruction : Instruction) (cpu : Cpu) :
    (instruction.execute cpu).Orderly false true := by
  cases instruction with
  | load target source =>
    exact (cpu.orderly_readOperand source).bind fun read => read.2.orderly_writeOperand target read.1
  | loadImmediate target =>
    have hplain : (cpu.nextByte >>= fun read => read.2.writeOperand target read.1).Orderly false true :=
      cpu.orderly_nextByte.bind fun read => read.2.orderly_writeOperand target read.1
    rcases target with r | (_ | i | _)
    · exact hplain
    · exact hplain
    · exact cpu.orderly_nextByte.bind fun _ => (orderly_read _).bind fun _ => (orderly_internal _ 2 _).bind fun _ =>
        (orderly_write _ _ _).bind fun _ => orderly_pure _ _
    · exact hplain
  | loadAccumulator pointer => exact ((orderly_read _).bind fun _ => orderly_pure _ _).reads
  | storeAccumulator pointer => exact (orderly_write _ _ _).bind fun _ => orderly_pure _ _
  | loadAccumulatorAbsolute =>
    exact (cpu.orderly_nextWord.bind fun _ => (orderly_read _).bind fun _ => orderly_pure _ _).reads
  | storeAccumulatorAbsolute =>
    exact cpu.orderly_nextWord.bind fun _ => (orderly_write _ _ _).bind fun _ => orderly_pure _ _
  | loadInterrupt => exact ((orderly_internal _ 1 _).bind fun _ => orderly_pure _ _).reads
  | loadRefresh => exact ((orderly_internal _ 1 _).bind fun _ => orderly_pure _ _).reads
  | readInterrupt => exact (cpu.orderly_readSystem _).reads
  | readRefresh => exact (cpu.orderly_readSystem _).reads
  | loadWordImmediate target => exact (cpu.orderly_nextWord.bind fun _ => orderly_pure _ _).reads
  | loadWord target =>
    exact (cpu.orderly_nextWord.bind fun _ => (orderly_readWord _).bind fun _ => orderly_pure _ _).reads
  | storeWord source =>
    exact cpu.orderly_nextWord.bind fun _ => (orderly_writeWord _ _).bind fun _ => orderly_pure _ _
  | loadStackPointer source => exact ((orderly_internal _ 2 _).bind fun _ => orderly_pure _ _).reads
  | push source => exact (orderly_internal _ 1 _).bind fun _ => cpu.orderly_pushWord _
  | pop target => exact (cpu.orderly_popWord.bind fun _ => orderly_pure _ _).reads
  | exchangeStack target => exact cpu.orderly_exchangeStack target
  | alu operation source => exact ((cpu.orderly_readSource source).bind fun _ => orderly_pure _ _).reads
  | increment target => exact (cpu.orderly_modifyOperand target _).bind fun _ => orderly_pure _ _
  | decrement target => exact (cpu.orderly_modifyOperand target _).bind fun _ => orderly_pure _ _
  | add target source => exact ((orderly_internal _ 7 _).bind fun _ => orderly_pure _ _).reads
  | adc source => exact ((orderly_internal _ 7 _).bind fun _ => orderly_pure _ _).reads
  | sbc source => exact ((orderly_internal _ 7 _).bind fun _ => orderly_pure _ _).reads
  | incrementWord target => exact ((orderly_internal _ 2 _).bind fun _ => orderly_pure _ _).reads
  | decrementWord target => exact ((orderly_internal _ 2 _).bind fun _ => orderly_pure _ _).reads
  | change operation target copy =>
    refine (cpu.orderly_modifyOperand target _).bind fun changed => ?_
    cases copy <;> exact orderly_pure _ _
  | testBit bit target =>
    cases target with
    | reg r => exact (orderly_pure _ _).reads
    | memory p =>
      exact ((cpu.orderly_resolve p).bind fun _ => (orderly_read _).bind fun _ => (orderly_hold _ _ _).bind fun _ =>
        orderly_pure _ _).reads
  | rotateDigitRight =>
    rw [execute]
    exact cpu.orderly_rotateDigit _ _
  | rotateDigitLeft =>
    rw [execute]
    exact cpu.orderly_rotateDigit _ _
  | jump condition => exact (orderly_ite cpu.orderly_jumpAbsolute cpu.orderly_skipWord).reads
  | jumpRelative condition => exact (orderly_ite cpu.orderly_jumpDisplaced cpu.orderly_skipByte).reads
  | jumpCounted =>
    exact ((orderly_internal _ 1 _).bind fun _ => orderly_ite (orderly_skipByte _) (orderly_jumpDisplaced _)).reads
  | call condition => exact orderly_ite cpu.orderly_callAbsolute cpu.orderly_skipWord.reads
  | ret condition =>
    cases condition with
    | none => exact cpu.orderly_popPc.reads
    | some condition =>
      exact ((orderly_internal _ 1 _).bind fun _ => orderly_ite cpu.orderly_popPc (orderly_pure _ _)).reads
  | retInterrupt => exact (orderly_popPc _).reads
  | restart address =>
    exact (orderly_internal _ 1 _).bind fun _ => (orderly_pushWord _ _).bind fun _ => orderly_pure _ _
  | inputAccumulator =>
    exact (cpu.orderly_nextByte.bind fun _ => (orderly_readPort _).bind fun _ => orderly_pure _ _).reads
  | outputAccumulator =>
    exact (cpu.orderly_nextByte.bind fun _ => (orderly_writePort _ _).bind fun _ => orderly_pure _ _).reads
  | input target =>
    refine ((orderly_readPort _).bind fun value => ?_).reads
    cases target <;> exact orderly_pure _ _
  | output source => exact ((orderly_writePort _ _).bind fun _ => orderly_pure _ _).reads
  | blockLoad direction repeats => exact cpu.orderly_blockLoad direction repeats
  | blockCompare direction repeats => exact (cpu.orderly_blockCompare direction repeats).reads
  | blockInput direction repeats => exact cpu.orderly_blockInput direction repeats
  | blockOutput direction repeats => exact (cpu.orderly_blockOutput direction repeats).reads
  | _ => exact (orderly_pure _ _).reads

namespace Cpu

theorem orderly_fetch (cpu : Cpu) : cpu.fetch.Orderly false false := ⟨rfl, fun _ => Bool.le_refl false⟩

theorem orderly_fetchIndexed (cpu : Cpu) (i : IndexRegister) : (cpu.fetchIndexed i).Orderly false false :=
  (orderly_read _).bind fun _ => (orderly_read _).bind fun _ => (orderly_internal _ 2 _).bind fun _ => orderly_pure _ _

/-- Prefixes are read before anything is written. -/
theorem orderly_dispatch (fuel : Nat) (page : Page) (opcode : UInt8) (cpu : Cpu) :
    (dispatch fuel page opcode cpu).Orderly false true := by
  induction fuel generalizing page opcode cpu with
  | zero => exact (orderly_pure _ _).reads
  | succ fuel ih =>
    rw [dispatch]
    cases page.decode opcode with
    | run instruction => exact instruction.orderly_execute cpu
    | enter next => exact cpu.orderly_fetch.bind fun fetched => ih next fetched.1 fetched.2
    | enterIndexedBits i => exact (cpu.orderly_fetchIndexed i).bind fun fetched => ih .indexedBits fetched.1 fetched.2
    | again => exact ih .base opcode cpu

/-- An instruction with its prefixes reads before it writes. -/
theorem orderly_step (cpu : Cpu) : cpu.step.Orderly false true :=
  cpu.orderly_fetch.bind fun fetched => orderly_dispatch _ _ fetched.1 fetched.2

end Cpu

end ZxSpectrum
