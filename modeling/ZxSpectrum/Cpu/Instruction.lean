import ZxSpectrum.Cpu.Alu

/-!
# Instructions

The instruction set as data. An operand in memory is reached through HL, through an index register and a displacement
that follows the opcode, or through the address latched before a bit operation on an indexed byte. `Instruction.indexed`
says what an index prefix makes of an instruction: it redirects the memory operand, or else replaces HL and its halves.
-/

namespace ZxSpectrum

/-- The two index registers. -/
inductive IndexRegister where
  | ix | iy
deriving DecidableEq, Repr

/-- A byte register that instructions name. -/
inductive Reg8 where
  | a | b | c | d | e | h | l
  | indexHigh (index : IndexRegister)
  | indexLow (index : IndexRegister)
deriving DecidableEq, Repr

/-- A word register that instructions name. -/
inductive Reg16 where
  | af | bc | de | hl | sp
  | index (index : IndexRegister)
deriving DecidableEq, Repr

/-- How an operand in memory is reached. -/
inductive Pointer where
  /-- By HL. -/
  | hl
  /-- By an index register and the displacement that follows the opcode. -/
  | displaced (index : IndexRegister)
  /-- By the address that was formed before the opcode was known. -/
  | latched
deriving DecidableEq, Repr

/-- A byte operand: a register, or a byte in memory. -/
inductive Operand where
  | reg (r : Reg8)
  | memory (p : Pointer)
deriving DecidableEq, Repr

/-- The second operand of an accumulator operation. -/
inductive Source where
  | operand (o : Operand)
  | immediate
deriving DecidableEq, Repr

/-- Conditions in the order of their codes. -/
inductive Condition where
  | nz | z | nc | c | po | pe | p | m
deriving DecidableEq, Repr

/-- A change of a byte that the bit instructions make. -/
inductive BitChange where
  | rotate (rotation : Alu.Rotation)
  | reset (bit : UInt8)
  | set (bit : UInt8)
deriving DecidableEq, Repr

/-- The direction in which a block instruction moves. -/
inductive Direction where
  | up | down
deriving DecidableEq, Repr

/-- Complete instructions. -/
inductive Instruction where
  | nop | halt | di | ei
  | im (mode : UInt8)
  -- Byte loads
  | load (target source : Operand)
  | loadImmediate (target : Operand)
  | loadAccumulator (pointer : Reg16)
  | storeAccumulator (pointer : Reg16)
  | loadAccumulatorAbsolute
  | storeAccumulatorAbsolute
  | loadInterrupt | loadRefresh | readInterrupt | readRefresh
  -- Word loads
  | loadWordImmediate (target : Reg16)
  | loadWord (target : Reg16)
  | storeWord (source : Reg16)
  | loadStackPointer (source : Reg16)
  | push (source : Reg16)
  | pop (target : Reg16)
  | exchangeAf | exchangeMain | exchangeDeHl
  | exchangeStack (target : Reg16)
  -- Arithmetic and logic
  | alu (operation : Alu.Operation) (source : Source)
  | increment (target : Operand)
  | decrement (target : Operand)
  | add (target source : Reg16)
  | adc (source : Reg16)
  | sbc (source : Reg16)
  | incrementWord (target : Reg16)
  | decrementWord (target : Reg16)
  | decimalAdjust | complement | negate | setCarry | invertCarry
  -- Rotations and bits; a change may leave a copy of its result in a register
  | rotateAccumulator (rotation : Alu.Rotation)
  | change (operation : BitChange) (target : Operand) (copy : Option Reg8)
  | testBit (bit : UInt8) (target : Operand)
  | rotateDigitRight | rotateDigitLeft
  -- Jumps
  | jump (condition : Option Condition)
  | jumpRegister (target : Reg16)
  | jumpRelative (condition : Option Condition)
  | jumpCounted
  | call (condition : Option Condition)
  | ret (condition : Option Condition)
  | retInterrupt
  | restart (address : UInt16)
  -- Ports
  | inputAccumulator | outputAccumulator
  | input (target : Option Reg8)
  | output (source : Option Reg8)
  -- Blocks
  | blockLoad (direction : Direction) (repeats : Bool)
  | blockCompare (direction : Direction) (repeats : Bool)
  | blockInput (direction : Direction) (repeats : Bool)
  | blockOutput (direction : Direction) (repeats : Bool)
deriving DecidableEq, Repr

/-- H and L replaced by the halves of an index register. -/
def Reg8.indexed (i : IndexRegister) : Reg8 → Reg8
  | .h => .indexHigh i
  | .l => .indexLow i
  | r => r

/-- HL replaced by an index register. -/
def Reg16.indexed (i : IndexRegister) : Reg16 → Reg16
  | .hl => .index i
  | r => r

/-- Halves replaced in a register operand. -/
def Operand.indexed (i : IndexRegister) : Operand → Operand
  | .reg r => .reg (r.indexed i)
  | o => o

/-- The instruction that an index prefix makes of an unprefixed one, if the prefix changes anything. A byte of memory at
HL becomes the byte at the displaced index register, and then H and L still name themselves. -/
def Instruction.indexed (i : IndexRegister) (instruction : Instruction) : Option Instruction :=
  let changed : Instruction :=
    match instruction with
    | .load target (.memory .hl) => .load target (.memory (.displaced i))
    | .load (.memory .hl) source => .load (.memory (.displaced i)) source
    | .load target source => .load (target.indexed i) (source.indexed i)
    | .loadImmediate (.memory .hl) => .loadImmediate (.memory (.displaced i))
    | .loadImmediate target => .loadImmediate (target.indexed i)
    | .alu operation (.operand (.memory .hl)) => .alu operation (.operand (.memory (.displaced i)))
    | .alu operation (.operand o) => .alu operation (.operand (o.indexed i))
    | .increment (.memory .hl) => .increment (.memory (.displaced i))
    | .increment target => .increment (target.indexed i)
    | .decrement (.memory .hl) => .decrement (.memory (.displaced i))
    | .decrement target => .decrement (target.indexed i)
    | .loadWordImmediate target => .loadWordImmediate (target.indexed i)
    | .loadWord target => .loadWord (target.indexed i)
    | .storeWord source => .storeWord (source.indexed i)
    | .loadStackPointer source => .loadStackPointer (source.indexed i)
    | .push source => .push (source.indexed i)
    | .pop target => .pop (target.indexed i)
    | .exchangeStack target => .exchangeStack (target.indexed i)
    | .add target source => .add (target.indexed i) (source.indexed i)
    | .incrementWord target => .incrementWord (target.indexed i)
    | .decrementWord target => .decrementWord (target.indexed i)
    | .jumpRegister target => .jumpRegister (target.indexed i)
    | other => other
  if changed = instruction then none else some changed

end ZxSpectrum
