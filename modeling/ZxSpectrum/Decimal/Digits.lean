/-!
# Decimal digits

The number that a row of decimal digits writes, most significant first. `value_append_digit` says what one more digit does
to it.
-/

namespace ZxSpectrum.Digits

def isDigit (c : Char) : Bool := '0' ≤ c && c ≤ '9'

/-- The number that a digit stands for. -/
def digitValue (c : Char) : Nat := c.toNat - '0'.toNat

/-- The number that digits write. -/
def value (digits : List Char) : Nat := digits.foldl (fun n c => 10 * n + digitValue c) 0

/-- Whether a text consists of digits, at least one. -/
def areDigits (text : List Char) : Bool := !text.isEmpty && text.all isDigit

@[simp] theorem value_nil : value [] = 0 := rfl

theorem value_append_digit (digits : List Char) (c : Char) :
    value (digits ++ [c]) = 10 * value digits + digitValue c := by
  simp [value]

end ZxSpectrum.Digits
