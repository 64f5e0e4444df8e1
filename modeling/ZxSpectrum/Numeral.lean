import ZxSpectrum.Hex

/-!
# Bounded numerals

Natural numbers written in some base, with at most one plus sign before the digits, and a bound that they stay below.
-/

namespace ZxSpectrum.Numeral

/-- One more digit of a number in the given base. -/
def addDigit? (base n : Nat) (c : Char) : Option Nat := do
  let d ← Hex.digitValue? c
  if d < base then some (n * base + d) else none

/-- The digits of a numeral, after its plus sign if it has one. -/
def digitsOf : List Char → List Char
  | '+' :: digits => digits
  | digits => digits

/-- The number that a text writes in the given base, if it lies below the bound. -/
def read? (base bound : Nat) (text : List Char) : Option Nat :=
  if (digitsOf text).isEmpty then none
  else ((digitsOf text).foldlM (addDigit? base) 0).filter (· < bound)

end ZxSpectrum.Numeral
