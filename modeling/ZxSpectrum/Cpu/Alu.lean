import ZxSpectrum.Word
import ZxSpectrum.Cpu.Flags

/-!
# Arithmetic, logic, rotation and bit tests

Every operation is a function from its operands and the old flags to a value and the new flags, the undocumented bits 3
and 5 included. Sums and differences are computed in twice the bits of their operands, so that the bit above the result tells the
carry; half carry and overflow are looked up by the bits of operands and result.
-/

namespace ZxSpectrum.Alu

open Flags

/-- A byte and the flags that go with it. -/
structure Outcome where
  value : UInt8
  flags : UInt8

/-- A word and the flags that go with it. -/
structure WideOutcome where
  value : UInt16
  flags : UInt8

/-- The eight operations on the accumulator, in the order of their codes. -/
inductive Operation where
  | add | adc | sub | sbc | and | xor | or | cp
deriving DecidableEq, Repr

/-- The eight rotations and shifts, in the order of their codes. -/
inductive Rotation where
  | rlc | rrc | rl | rr | sla | sra | sll | srl
deriving DecidableEq, Repr

/-- The carry flag as a number. -/
@[inline] def carryIn (f : UInt8) : UInt8 := f &&& carry

/-- The sum of two bytes and a carry of 0 or 1. -/
def add (x y c : UInt8) : Outcome :=
  let sum := x.toUInt16 + y.toUInt16 + c.toUInt16
  let result := sum.toUInt8
  let found := places x y result
  ⟨result, when carry (sum &&& 0x100 != 0) ||| entry halfOfSum (found &&& 0x07) ||| entry overflowOfSum (found >>> 4) |||
    ofResult result⟩

/-- The difference of two bytes, less a borrow of 0 or 1. -/
def sub (x y c : UInt8) : Outcome :=
  let difference := x.toUInt16 - y.toUInt16 - c.toUInt16
  let result := difference.toUInt8
  let found := places x y result
  ⟨result, when carry (difference &&& 0x100 != 0) ||| subtract ||| entry halfOfDifference (found &&& 0x07) |||
    entry overflowOfDifference (found >>> 4) ||| ofResult result⟩

/-- The flags of a comparison: those of the difference, but bits 3 and 5 are copied from the operand. -/
def compare (x y : UInt8) : UInt8 :=
  let difference := x.toUInt16 - y.toUInt16
  let result := difference.toUInt8
  let found := places x y result
  let carryOrZero := if difference &&& 0x100 != 0 then carry else when zero (result == 0)
  carryOrZero ||| subtract ||| entry halfOfDifference (found &&& 0x07) ||| entry overflowOfDifference (found >>> 4) |||
    (y &&& undocumented) ||| (result &&& sign)

/-- The operation on accumulator and operand that an operation code selects. -/
def apply (operation : Operation) (a f operand : UInt8) : Outcome :=
  match operation with
  | .add => add a operand 0
  | .adc => add a operand (carryIn f)
  | .sub => sub a operand 0
  | .sbc => sub a operand (carryIn f)
  | .and => ⟨a &&& operand, half ||| ofLogic (a &&& operand)⟩
  | .xor => ⟨a ^^^ operand, ofLogic (a ^^^ operand)⟩
  | .or => ⟨a ||| operand, ofLogic (a ||| operand)⟩
  | .cp => ⟨a, compare a operand⟩

/-- The two's complement of the accumulator. -/
def negate (a : UInt8) : Outcome := sub 0 a 0

/-- One more; carry is kept. -/
def increment (value f : UInt8) : Outcome :=
  let result := value + 1
  ⟨result, carryIn f ||| when parity (result == 0x80) ||| when half (result &&& 0x0F == 0) ||| ofResult result⟩

/-- One less; carry is kept. -/
def decrement (value f : UInt8) : Outcome :=
  let result := value - 1
  ⟨result, carryIn f ||| when half (value &&& 0x0F == 0) ||| subtract ||| when parity (result == 0x7F) |||
    ofResult result⟩

/-- The sum of two words; sign, zero and overflow are kept. -/
def addWide (x y : UInt16) (f : UInt8) : WideOutcome :=
  let sum := x.toUInt32 + y.toUInt32
  let result := sum.toUInt16
  let found := widePlaces (x &&& 0x0800) (y &&& 0x0800) (result &&& 0x0800)
  ⟨result, (f &&& (parity ||| zero ||| sign)) ||| when carry (sum &&& 0x10000 != 0) |||
    (Word.high result &&& undocumented) ||| entry halfOfSum found⟩

/-- The sum of two words and the carry flag. -/
def adcWide (x y : UInt16) (f : UInt8) : WideOutcome :=
  let sum := x.toUInt32 + y.toUInt32 + (carryIn f).toUInt32
  let result := sum.toUInt16
  let found := widePlaces x y result
  ⟨result, when carry (sum &&& 0x10000 != 0) ||| entry overflowOfSum (found >>> 4) |||
    (Word.high result &&& (undocumented ||| sign)) ||| entry halfOfSum (found &&& 0x07) ||| when zero (result == 0)⟩

/-- The difference of two words, less the carry flag. -/
def sbcWide (x y : UInt16) (f : UInt8) : WideOutcome :=
  let difference := x.toUInt32 - y.toUInt32 - (carryIn f).toUInt32
  let result := difference.toUInt16
  let found := widePlaces x y result
  ⟨result, when carry (difference &&& 0x10000 != 0) ||| subtract ||| entry overflowOfDifference (found >>> 4) |||
    (Word.high result &&& (undocumented ||| sign)) ||| entry halfOfDifference (found &&& 0x07) ||| when zero (result == 0)⟩

/-- One bit to the left, the top bit coming in at the bottom. -/
@[inline] def rotateLeft (value : UInt8) : UInt8 := (value <<< 1) ||| (value >>> 7)

/-- One bit to the right, the bottom bit coming in at the top. -/
@[inline] def rotateRight (value : UInt8) : UInt8 := (value >>> 1) ||| (value <<< 7)

/-- The rotated value and the bit that fell out, in the carry position. -/
def rotated (rotation : Rotation) (value f : UInt8) : UInt8 × UInt8 :=
  match rotation with
  | .rlc => (rotateLeft value, value >>> 7)
  | .rrc => (rotateRight value, value &&& 1)
  | .rl => ((value <<< 1) ||| carryIn f, value >>> 7)
  | .rr => ((value >>> 1) ||| (f <<< 7), value &&& 1)
  | .sla => (value <<< 1, value >>> 7)
  | .sra => ((value &&& (0x80 : UInt8)) ||| (value >>> 1), value &&& 1)
  | .sll => ((value <<< 1) ||| 1, value >>> 7)
  | .srl => (value >>> 1, value &&& 1)

/-- A rotation or shift with the flags of its result. -/
def rotate (rotation : Rotation) (value f : UInt8) : Outcome :=
  let (result, out) := rotated rotation value f
  ⟨result, out ||| ofLogic result⟩

/-- A rotation of the accumulator, which keeps sign, zero and parity. -/
def rotateAccumulator (rotation : Rotation) (a f : UInt8) : Outcome :=
  let (result, out) := rotated rotation a f
  ⟨result, (f &&& (parity ||| zero ||| sign)) ||| (result &&& undocumented) ||| out⟩

/-- The byte with only bit `n` set, for `n` up to 7. -/
@[inline] def bitMask (n : UInt8) : UInt8 := 1 <<< n

/-- The flags of a test of bit `n`; bits 3 and 5 are copied from `source`. -/
def testBit (n value source f : UInt8) : UInt8 :=
  carryIn f ||| half ||| (source &&& undocumented) ||| when (parity ||| zero) (value &&& bitMask n == 0) |||
    when sign (n == 7 && (value &&& 0x80) != 0)

/-- Makes the accumulator packed decimal again after an addition or subtraction of packed decimals. -/
def decimalAdjust (a f : UInt8) : Outcome :=
  let low : UInt8 := when 0x06 (test f half || a &&& 0x0F > 9)
  let high : UInt8 := when 0x60 (test f carry || a > 0x99)
  let out := when carry (test f carry || a > 0x99)
  let adjusted := if test f subtract then sub a (low ||| high) 0 else add a (low ||| high) 0
  ⟨adjusted.value, (adjusted.flags &&& ~~~(carry ||| parity)) ||| out ||| ofParity adjusted.value⟩

/-- All bits of the accumulator inverted. -/
def complement (a f : UInt8) : Outcome :=
  let result := a ^^^ 0xFF
  ⟨result, (f &&& (carry ||| parity ||| zero ||| sign)) ||| (result &&& undocumented) ||| subtract ||| half⟩

/-- The flags with carry set. -/
def setCarry (a f : UInt8) : UInt8 := (f &&& (parity ||| zero ||| sign)) ||| (a &&& undocumented) ||| carry

/-- The flags with carry inverted; half carry takes the old carry. -/
def invertCarry (a f : UInt8) : UInt8 :=
  (f &&& (parity ||| zero ||| sign)) ||| (if test f carry then half else carry) ||| (a &&& undocumented)

/-- The flags of a byte that came in from a port. -/
def portFlags (value f : UInt8) : UInt8 := carryIn f ||| ofLogic value

/-- The flags of a load from the interrupt or refresh register, which show the second interrupt flip-flop. -/
def interruptFlags (value f : UInt8) (iff2 : Bool) : UInt8 := carryIn f ||| ofResult value ||| when parity iff2

/-- The flags of a block load: the copies of bits 3 and 5 are bits 3 and 1 of accumulator plus byte. -/
def blockLoadFlags (value a f : UInt8) (more : Bool) : UInt8 :=
  let n := value + a
  (f &&& (carry ||| zero ||| sign)) ||| when parity more ||| (n &&& bit3) ||| when bit5 (n &&& 0x02 != 0)

/-- The flags of a block comparison; bits 3 and 5 come from the difference less the half borrow. -/
def blockCompareFlags (value a f : UInt8) (more : Bool) : UInt8 :=
  let result := a - value
  let borrow := entry halfOfDifference (((a &&& 0x08) >>> 3) ||| ((value &&& 0x08) >>> 2) ||| ((result &&& 0x08) >>> 1))
  let n := if borrow != 0 then result - 1 else result
  carryIn f ||| when parity more ||| subtract ||| borrow ||| when zero (result == 0) ||| (result &&& sign) |||
    (n &&& bit3) ||| when bit5 (n &&& 0x02 != 0)

/-- The flags of a block port transfer: `b` is the count that is left and `k` the byte plus an address byte. -/
def blockPortFlags (value k b : UInt8) : UInt8 :=
  when subtract (value &&& 0x80 != 0) ||| when (half ||| carry) (k < value) ||| ofParity ((k &&& 0x07) ^^^ b) |||
    ofResult b

end ZxSpectrum.Alu
