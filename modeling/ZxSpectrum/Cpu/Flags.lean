/-!
# The flag register

The eight bits of F and the flags that depend on one result byte alone.
-/

namespace ZxSpectrum.Flags

def carry : UInt8 := 0x01

/-- Set by the last subtraction, cleared by the last addition. -/
def subtract : UInt8 := 0x02

/-- Parity after logic, overflow after arithmetic. -/
def parity : UInt8 := 0x04

/-- The undocumented copy of bit 3. -/
def bit3 : UInt8 := 0x08

/-- Carry out of bit 3. -/
def half : UInt8 := 0x10

/-- The undocumented copy of bit 5. -/
def bit5 : UInt8 := 0x20

def zero : UInt8 := 0x40

def sign : UInt8 := 0x80

/-- Both undocumented copies. -/
def undocumented : UInt8 := 0x28

/-- The flag `mask` if the condition holds. -/
@[inline] def when (mask : UInt8) (condition : Bool) : UInt8 := if condition then mask else 0

/-- What a mask leaves of a flag. -/
theorem when_and (flag mask : UInt8) (condition : Bool) : when flag condition &&& mask = when (flag &&& mask) condition := by
  cases condition
  · exact UInt8.zero_and
  · rfl

/-- Whether one of the flags of `mask` is set. -/
@[inline] def test (f mask : UInt8) : Bool := f &&& mask != 0

/-- Sign, zero and the copies of bits 3 and 5 of a result. -/
def ofResult (value : UInt8) : UInt8 := (value &&& 0xA8) ||| when zero (value == 0)

/-- Whether a byte has an even number of set bits. -/
def isEven (value : UInt8) : Bool :=
  let nibble := value ^^^ (value >>> 4)
  let pair := nibble ^^^ (nibble >>> 2)
  (pair ^^^ (pair >>> 1)) &&& 1 == 0

/-- The parity flag of a byte. -/
def ofParity (value : UInt8) : UInt8 := when parity (isEven value)

/-- The flags of a logical result: those of the result and its parity. -/
def ofLogic (value : UInt8) : UInt8 := ofResult value ||| ofParity value

/-! ## Tables of half carries and overflows

One bit of each operand and the same bit of the result tell what left that bit: bit 3 tells the half carry, bit 7 the overflow. The
place in a table is the bit of the first operand, twice that of the second and four times that of the result.
-/

def halfOfSum : Vector UInt8 8 := #v[0, half, half, half, 0, 0, 0, half]

def halfOfDifference : Vector UInt8 8 := #v[0, 0, half, 0, half, 0, half, half]

def overflowOfSum : Vector UInt8 8 := #v[0, 0, 0, parity, parity, 0, 0, 0]

def overflowOfDifference : Vector UInt8 8 := #v[0, parity, 0, 0, 0, 0, parity, 0]

/-- The place for bit 3 in the lower half of a byte and that for bit 7 in the upper half. -/
def places (x y result : UInt8) : UInt8 := ((x &&& 0x88) >>> 3) ||| ((y &&& 0x88) >>> 2) ||| ((result &&& 0x88) >>> 1)

/-- The places for bits 11 and 15 of words. -/
def widePlaces (x y result : UInt16) : UInt8 :=
  (((x &&& 0x8800) >>> 11) ||| ((y &&& 0x8800) >>> 10) ||| ((result &&& 0x8800) >>> 9)).toUInt8

/-- What a table has at a place. -/
def entry (table : Vector UInt8 8) (place : UInt8) : UInt8 := table.get (Fin.ofNat 8 place.toNat)

end ZxSpectrum.Flags
