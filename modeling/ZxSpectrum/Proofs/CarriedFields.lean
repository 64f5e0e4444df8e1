import ZxSpectrum.Cpu

/-!
# Fields that instructions carry along

The halt flag, the address latch and the interrupt mode are no operands: an instruction other than `HALT` and `IM` carries
them along, whatever they are (`execute_carry`). Only an operand that is reached through the latch looks at the latch. The
lemmas before it say the same of each step that instructions share.
-/

namespace ZxSpectrum

open BusProgram

namespace Cpu

/-- The processor with other contents of the fields that instructions carry along. -/
def carry (halted : Bool) (latch : UInt16) (im : UInt8) (cpu : Cpu) : Cpu :=
  { cpu with halted := halted, latch := latch, regs.im := im }

/-- A change of the result of a program that branches. -/
theorem map_ite_program {α γ : Type} (condition : Prop) [Decidable condition] (f : α → γ) (x y : BusProgram α) :
    f <$> (if condition then x else y) = if condition then f <$> x else f <$> y := by
  split <;> rfl

variable (h : Bool) (l : UInt16) (m : UInt8) (cpu : Cpu)

/-! ## Registers -/

theorem carry_reg (r : Reg8) : (cpu.carry h l m).reg r = cpu.reg r := by
  cases r <;> rfl

theorem carry_setReg (r : Reg8) (value : UInt8) : (cpu.carry h l m).setReg r value = (cpu.setReg r value).carry h l m := by
  rcases r with _ | _ | _ | _ | _ | _ | _ | (_ | _) | (_ | _) <;> rfl

theorem carry_setWide (r : Reg16) (value : UInt16) :
    (cpu.carry h l m).setWide r value = (cpu.setWide r value).carry h l m := by
  rcases r with _ | _ | _ | _ | _ | (_ | _) <;> rfl

/-! ## Steps that instructions share -/

theorem carry_nextByte : (cpu.carry h l m).nextByte = Prod.map id (carry h l m) <$> cpu.nextByte := rfl

theorem carry_nextWord : (cpu.carry h l m).nextWord = Prod.map id (carry h l m) <$> cpu.nextWord := rfl

theorem carry_popWord : (cpu.carry h l m).popWord = Prod.map id (carry h l m) <$> cpu.popWord := rfl

/-- Only the latched address depends on the latch. -/
theorem carry_resolve (p : Pointer) (hp : p = .latched → l = cpu.latch) :
    (cpu.carry h l m).resolve p = Prod.map id (carry h l m) <$> cpu.resolve p := by
  cases p with
  | hl => rfl
  | displaced i => cases i <;> rfl
  | latched =>
    rw [hp rfl]
    rfl

theorem carry_readOperand (o : Operand) (ho : o = .memory .latched → l = cpu.latch) :
    (cpu.carry h l m).readOperand o = Prod.map id (carry h l m) <$> cpu.readOperand o := by
  cases o with
  | reg r =>
    rw [readOperand, carry_reg]
    rfl
  | memory p =>
    have hp : p = .latched → l = cpu.latch := fun heq => ho (by rw [heq])
    simp only [readOperand, carry_resolve h l m cpu p hp, bind_map_left, map_bind]
    rfl

theorem carry_writeOperand (o : Operand) (value : UInt8) (ho : o = .memory .latched → l = cpu.latch) :
    (cpu.carry h l m).writeOperand o value = carry h l m <$> cpu.writeOperand o value := by
  cases o with
  | reg r =>
    rw [writeOperand, carry_setReg]
    rfl
  | memory p =>
    have hp : p = .latched → l = cpu.latch := fun heq => ho (by rw [heq])
    simp only [writeOperand, carry_resolve h l m cpu p hp, bind_map_left, map_bind]
    rfl

theorem carry_modifyOperand (o : Operand) (f : UInt8 → UInt8 → Alu.Outcome) (ho : o = .memory .latched → l = cpu.latch) :
    (cpu.carry h l m).modifyOperand o f = Prod.map id (carry h l m) <$> cpu.modifyOperand o f := by
  cases o with
  | reg r =>
    simp only [modifyOperand, carry_reg]
    exact congrArg (fun changed => pure (_, changed)) (carry_setReg h l m (cpu.setFlags _) r _)
  | memory p =>
    have hp : p = .latched → l = cpu.latch := fun heq => ho (by rw [heq])
    simp only [modifyOperand, carry_resolve h l m cpu p hp, bind_map_left, map_bind]
    rfl

theorem carry_readSource (source : Source) (hs : source = .operand (.memory .latched) → l = cpu.latch) :
    (cpu.carry h l m).readSource source = Prod.map id (carry h l m) <$> cpu.readSource source := by
  cases source with
  | operand o => exact carry_readOperand h l m cpu o fun heq => hs (by rw [heq])
  | immediate => rfl

theorem carry_exchangeStack (target : Reg16) :
    (cpu.carry h l m).exchangeStack target = carry h l m <$> cpu.exchangeStack target := by
  rcases target with _ | _ | _ | _ | _ | (_ | _) <;> rfl

/-! ## Block instructions -/

variable (direction : Direction) (repeats : Bool)

theorem carry_blockLoad :
    (cpu.carry h l m).blockLoad direction repeats = carry h l m <$> cpu.blockLoad direction repeats := by
  simp only [blockLoad, map_bind, map_ite_program]
  rfl

theorem carry_blockCompare :
    (cpu.carry h l m).blockCompare direction repeats = carry h l m <$> cpu.blockCompare direction repeats := by
  simp only [blockCompare, map_bind, map_ite_program]
  rfl

theorem carry_blockInput :
    (cpu.carry h l m).blockInput direction repeats = carry h l m <$> cpu.blockInput direction repeats := by
  simp only [blockInput, map_bind, map_ite_program]
  rfl

theorem carry_blockOutput :
    (cpu.carry h l m).blockOutput direction repeats = carry h l m <$> cpu.blockOutput direction repeats := by
  simp only [blockOutput, map_bind, map_ite_program]
  rfl

end Cpu

open Cpu

/-- The byte operands of an instruction. -/
def Instruction.operands : Instruction → List Operand
  | .load target source => [target, source]
  | .loadImmediate target => [target]
  | .alu _ (.operand o) => [o]
  | .increment target => [target]
  | .decrement target => [target]
  | .change _ target _ => [target]
  | .testBit _ target => [target]
  | _ => []

/-- An instruction carries along what it does not name: the halt flag unless it is `HALT`, the interrupt mode unless it is
`IM`, and the latch unless an operand is reached through it. -/
theorem Instruction.execute_carry (instruction : Instruction) (h : Bool) (l : UInt16) (m : UInt8) (cpu : Cpu)
    (hhalt : instruction ≠ .halt) (him : ∀ mode, instruction ≠ .im mode)
    (hlatch : .memory .latched ∈ instruction.operands → l = cpu.latch) :
    instruction.execute (cpu.carry h l m) = carry h l m <$> instruction.execute cpu := by
  cases instruction with
  | halt => exact absurd rfl hhalt
  | im mode => exact absurd rfl (him mode)
  | load target source =>
    have hs : source = .memory .latched → l = cpu.latch := fun heq => hlatch (by simp [operands, heq])
    have ht : target = .memory .latched → l = cpu.latch := fun heq => hlatch (by simp [operands, heq])
    simp only [execute, carry_readOperand h l m cpu source hs, bind_map_left, map_bind]
    rcases target with r | (_ | i | _)
    · exact bind_congr fun read => carry_writeOperand h l m read.2 (.reg r) read.1 (by simp)
    · rfl
    · rfl
    · -- Reading the source leaves the latch alone.
      rw [ht rfl]
      rcases source with r | (_ | i | _) <;> rfl
  | loadImmediate target =>
    have ht : target = .memory .latched → l = cpu.latch := fun heq => hlatch (by simp [operands, heq])
    rcases target with r | (_ | i | _)
    · simp only [execute, carry_nextByte, bind_map_left, map_bind]
      exact bind_congr fun read => carry_writeOperand h l m read.2 (.reg r) read.1 (by simp)
    · rfl
    · rfl
    · rw [ht rfl]
      rfl
  | loadWordImmediate target =>
    simp only [execute, carry_nextWord, bind_map_left, map_bind]
    exact bind_congr fun read => congrArg pure (carry_setWide h l m read.2 target read.1)
  | loadWord target =>
    simp only [execute, carry_nextWord, bind_map_left, map_bind]
    exact bind_congr fun address => bind_congr fun value => congrArg pure (carry_setWide h l m address.2 target value)
  | pop target =>
    simp only [execute, carry_popWord, bind_map_left, map_bind]
    exact bind_congr fun popped => congrArg pure (carry_setWide h l m popped.2 target popped.1)
  | exchangeStack target => exact carry_exchangeStack h l m cpu target
  | alu operation source =>
    have hs : source = .operand (.memory .latched) → l = cpu.latch := fun heq => hlatch (by simp [operands, heq])
    simp only [execute, carry_readSource h l m cpu source hs, bind_map_left, map_bind]
    rfl
  | increment target =>
    have ht : target = .memory .latched → l = cpu.latch := fun heq => hlatch (by simp [operands, heq])
    simp only [execute, carry_modifyOperand h l m cpu target _ ht, bind_map_left, map_bind]
    rfl
  | decrement target =>
    have ht : target = .memory .latched → l = cpu.latch := fun heq => hlatch (by simp [operands, heq])
    simp only [execute, carry_modifyOperand h l m cpu target _ ht, bind_map_left, map_bind]
    rfl
  | add target source =>
    simp only [execute, carry_setWide, map_bind]
    rfl
  | incrementWord target => exact bind_congr fun _ => congrArg pure (carry_setWide h l m cpu target _)
  | decrementWord target => exact bind_congr fun _ => congrArg pure (carry_setWide h l m cpu target _)
  | change operation target copy =>
    have ht : target = .memory .latched → l = cpu.latch := fun heq => hlatch (by simp [operands, heq])
    simp only [execute, carry_modifyOperand h l m cpu target _ ht, bind_map_left, map_bind]
    refine bind_congr fun changed => ?_
    cases copy with
    | none => rfl
    | some r => exact congrArg pure (carry_setReg h l m changed.2 r changed.1)
  | testBit bit target =>
    cases target with
    | reg r =>
      simp only [execute, carry_reg]
      rfl
    | memory p =>
      have hp : p = .latched → l = cpu.latch := fun heq => hlatch (by simp [operands, heq])
      simp only [execute, carry_resolve h l m cpu p hp, bind_map_left, map_bind]
      rfl
  | jump condition =>
    simp only [execute, map_ite_program]
    rfl
  | jumpRelative condition =>
    simp only [execute, map_ite_program]
    rfl
  | jumpCounted =>
    simp only [execute, map_ite_program, map_bind]
    rfl
  | call condition =>
    simp only [execute, map_ite_program]
    rfl
  | ret condition =>
    cases condition with
    | none => rfl
    | some condition =>
      simp only [execute, map_ite_program, map_bind]
      rfl
  | input target =>
    cases target with
    | none => rfl
    | some r =>
      simp only [execute, map_bind]
      exact bind_congr fun value => congrArg pure (carry_setReg h l m (cpu.setFlags _) r value)
  | output source => cases source <;> rfl
  | blockLoad direction repeats => exact carry_blockLoad h l m cpu direction repeats
  | blockCompare direction repeats => exact carry_blockCompare h l m cpu direction repeats
  | blockInput direction repeats => exact carry_blockInput h l m cpu direction repeats
  | blockOutput direction repeats => exact carry_blockOutput h l m cpu direction repeats
  | _ => rfl

end ZxSpectrum
