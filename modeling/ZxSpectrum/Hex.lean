/-!
# Hexadecimal text

Numbers in base 16 with a fixed least number of digits, and their readers.
-/

namespace ZxSpectrum.Hex

/-- The digit of a number below 16, in capitals. -/
def digit (n : Nat) : Char := if n < 10 then Char.ofNat (48 + n) else Char.ofNat (55 + n)

/-- The last `count` digits of a number, most significant first. -/
def digits : Nat → Nat → List Char
  | 0, _ => []
  | count + 1, n => digits count (n / 16) ++ [digit (n % 16)]

/-- A number below `16 ^ count` in `count` digits. -/
def fixed (count n : Nat) : String := String.ofList (digits count n)

/-- The value of a hexadecimal digit of either case. -/
def digitValue? (c : Char) : Option Nat :=
  if '0' ≤ c ∧ c ≤ '9' then some (c.toNat - 48)
  else if 'a' ≤ c ∧ c ≤ 'f' then some (c.toNat - 87)
  else if 'A' ≤ c ∧ c ≤ 'F' then some (c.toNat - 55)
  else none

/-- The digits of a byte string, two for each byte, separated by a blank. -/
def spaced (bytes : List UInt8) : String := " ".intercalate (bytes.map fun byte => fixed 2 byte.toNat)

theorem length_digits (count n : Nat) : (digits count n).length = count := by
  induction count generalizing n with
  | zero => rfl
  | succ count ih => simp [digits, ih]

end ZxSpectrum.Hex
