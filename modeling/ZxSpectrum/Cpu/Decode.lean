import ZxSpectrum.Cpu.Instruction

/-!
# Decoding

An opcode byte is three octal digits; each digit selects an operation, a register or a condition. A byte is decoded in a
`Page`: the unprefixed one, or the one that the prefix bytes before it opened. The page of an index register is the
unprefixed page with `Instruction.indexed` applied; where the prefix changes nothing the byte is decoded again without it.
-/

namespace ZxSpectrum

/-- The table that an opcode byte is looked up in. -/
inductive Page where
  | base
  /-- After CB. -/
  | bits
  /-- After ED. -/
  | extended
  /-- After DD or FD. -/
  | index (i : IndexRegister)
  /-- After DD CB d or FD CB d. -/
  | indexedBits
deriving DecidableEq, Repr

/-- Where a page begins when the pages are laid out one after the other, 256 slots each. -/
def Page.start : Page → Nat
  | .base => 0
  | .bits => 256
  | .extended => 512
  | .index .ix => 768
  | .indexedBits => 1024
  | .index .iy => 1280

/-- The slots of all pages. -/
def Page.slotCount : Nat := 1536

/-- What an opcode byte means in its page. -/
inductive Slot where
  | run (instruction : Instruction)
  /-- A prefix: the next byte is looked up in the given page. -/
  | enter (page : Page)
  /-- The second prefix before a bit operation on an indexed byte: a displacement comes next, then the opcode. -/
  | enterIndexedBits (i : IndexRegister)
  /-- The prefix before has no effect: the same byte is looked up unprefixed. -/
  | again
deriving DecidableEq, Repr

def Operand.ofDigit : UInt8 → Operand
  | 0 => .reg .b
  | 1 => .reg .c
  | 2 => .reg .d
  | 3 => .reg .e
  | 4 => .reg .h
  | 5 => .reg .l
  | 6 => .memory .hl
  | _ => .reg .a

/-- The register of a digit; digit 6 names none. -/
def Reg8.ofDigit? (digit : UInt8) : Option Reg8 :=
  match Operand.ofDigit digit with
  | .reg r => some r
  | .memory _ => none

/-- The word register of a two-bit field. -/
def Reg16.ofField : UInt8 → Reg16
  | 0 => .bc
  | 1 => .de
  | 2 => .hl
  | _ => .sp

/-- The word register of a two-bit field of a stack instruction. -/
def Reg16.ofStackField : UInt8 → Reg16
  | 0 => .bc
  | 1 => .de
  | 2 => .hl
  | _ => .af

def Condition.ofDigit : UInt8 → Condition
  | 0 => .nz
  | 1 => .z
  | 2 => .nc
  | 3 => .c
  | 4 => .po
  | 5 => .pe
  | 6 => .p
  | _ => .m

def Alu.Operation.ofDigit : UInt8 → Alu.Operation
  | 0 => .add
  | 1 => .adc
  | 2 => .sub
  | 3 => .sbc
  | 4 => .and
  | 5 => .xor
  | 6 => .or
  | _ => .cp

def Alu.Rotation.ofDigit : UInt8 → Alu.Rotation
  | 0 => .rlc
  | 1 => .rrc
  | 2 => .rl
  | 3 => .rr
  | 4 => .sla
  | 5 => .sra
  | 6 => .sll
  | _ => .srl

namespace Decode

/-- Opcodes 00 to 3F, by their second and third digit. -/
def firstQuarter (y z : UInt8) : Instruction :=
  let pair := Reg16.ofField (y >>> 1)
  let even := y &&& 1 == 0
  match z with
  | 0 =>
    match y with
    | 0 => .nop
    | 1 => .exchangeAf
    | 2 => .jumpCounted
    | 3 => .jumpRelative none
    | _ => .jumpRelative (some (Condition.ofDigit (y - 4)))
  | 1 => if even then .loadWordImmediate pair else .add .hl pair
  | 2 =>
    match y with
    | 0 => .storeAccumulator .bc
    | 1 => .loadAccumulator .bc
    | 2 => .storeAccumulator .de
    | 3 => .loadAccumulator .de
    | 4 => .storeWord .hl
    | 5 => .loadWord .hl
    | 6 => .storeAccumulatorAbsolute
    | _ => .loadAccumulatorAbsolute
  | 3 => if even then .incrementWord pair else .decrementWord pair
  | 4 => .increment (Operand.ofDigit y)
  | 5 => .decrement (Operand.ofDigit y)
  | 6 => .loadImmediate (Operand.ofDigit y)
  | _ =>
    match y with
    | 4 => .decimalAdjust
    | 5 => .complement
    | 6 => .setCarry
    | 7 => .invertCarry
    | _ => .rotateAccumulator (Alu.Rotation.ofDigit y)

/-- Opcodes C0 to FF, by their second and third digit. -/
def lastQuarter (y z : UInt8) : Slot :=
  match z with
  | 0 => .run (.ret (some (Condition.ofDigit y)))
  | 1 =>
    match y with
    | 1 => .run (.ret none)
    | 3 => .run .exchangeMain
    | 5 => .run (.jumpRegister .hl)
    | 7 => .run (.loadStackPointer .hl)
    | _ => .run (.pop (Reg16.ofStackField (y >>> 1)))
  | 2 => .run (.jump (some (Condition.ofDigit y)))
  | 3 =>
    match y with
    | 0 => .run (.jump none)
    | 1 => .enter .bits
    | 2 => .run .outputAccumulator
    | 3 => .run .inputAccumulator
    | 4 => .run (.exchangeStack .hl)
    | 5 => .run .exchangeDeHl
    | 6 => .run .di
    | _ => .run .ei
  | 4 => .run (.call (some (Condition.ofDigit y)))
  | 5 =>
    match y with
    | 1 => .run (.call none)
    | 3 => .enter (.index .ix)
    | 5 => .enter .extended
    | 7 => .enter (.index .iy)
    | _ => .run (.push (Reg16.ofStackField (y >>> 1)))
  | 6 => .run (.alu (Alu.Operation.ofDigit y) .immediate)
  | _ => .run (.restart (y.toUInt16 * 8))

/-- The unprefixed page. -/
def base (opcode : UInt8) : Slot :=
  let y := (opcode >>> 3) &&& 7
  let z := opcode &&& 7
  match opcode >>> 6 with
  | 0 => .run (firstQuarter y z)
  | 1 => if opcode == 0x76 then .run .halt else .run (.load (Operand.ofDigit y) (Operand.ofDigit z))
  | 2 => .run (.alu (Alu.Operation.ofDigit y) (.operand (Operand.ofDigit z)))
  | _ => lastQuarter y z

/-- A bit operation, by its first two digits; the test has no result to keep. -/
def bitOperation (opcode : UInt8) (target : Operand) (copy : Option Reg8) : Instruction :=
  let y := (opcode >>> 3) &&& 7
  match opcode >>> 6 with
  | 0 => .change (.rotate (Alu.Rotation.ofDigit y)) target copy
  | 1 => .testBit y target
  | 2 => .change (.reset y) target copy
  | _ => .change (.set y) target copy

/-- The page after ED. Bytes without a meaning do nothing. -/
def extended (opcode : UInt8) : Instruction :=
  let y := (opcode >>> 3) &&& 7
  let z := opcode &&& 7
  let pair := Reg16.ofField (y >>> 1)
  let even := y &&& 1 == 0
  match opcode >>> 6 with
  | 1 =>
    match z with
    | 0 => .input (Reg8.ofDigit? y)
    | 1 => .output (Reg8.ofDigit? y)
    | 2 => if even then .sbc pair else .adc pair
    | 3 => if even then .storeWord pair else .loadWord pair
    | 4 => .negate
    | 5 => .retInterrupt
    | 6 =>
      match y &&& 3 with
      | 2 => .im 1
      | 3 => .im 2
      | _ => .im 0
    | _ =>
      match y with
      | 0 => .loadInterrupt
      | 1 => .loadRefresh
      | 2 => .readInterrupt
      | 3 => .readRefresh
      | 4 => .rotateDigitRight
      | 5 => .rotateDigitLeft
      | _ => .nop
  | 2 =>
    if y < 4 then .nop
    else
      let direction : Direction := if even then .up else .down
      let repeats := y &&& 2 != 0
      match z with
      | 0 => .blockLoad direction repeats
      | 1 => .blockCompare direction repeats
      | 2 => .blockInput direction repeats
      | 3 => .blockOutput direction repeats
      | _ => .nop
  | _ => .nop

/-- The page of an index register. -/
def index (i : IndexRegister) (opcode : UInt8) : Slot :=
  match base opcode with
  | .run instruction =>
    match instruction.indexed i with
    | some changed => .run changed
    | none => .again
  | .enter .bits => .enterIndexedBits i
  | _ => .again

end Decode

/-- The meaning of an opcode byte in a page. -/
def Page.decode (page : Page) (opcode : UInt8) : Slot :=
  match page with
  | .base => Decode.base opcode
  | .bits => .run (Decode.bitOperation opcode (Operand.ofDigit (opcode &&& 7)) none)
  | .extended => .run (Decode.extended opcode)
  | .index i => Decode.index i opcode
  | .indexedBits => .run (Decode.bitOperation opcode (.memory .latched) (Reg8.ofDigit? (opcode &&& 7)))

end ZxSpectrum
