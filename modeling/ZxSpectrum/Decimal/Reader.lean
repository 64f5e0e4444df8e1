import ZxSpectrum.Decimal.Digits
import ZxSpectrum.FrameRate

/-!
# Reading decimals

Decimal numerals with an optional sign, fraction and exponent, and the binary32 number nearest to one; of two equally near
ones, the one with an even significand.
-/

namespace ZxSpectrum

namespace Decimal

/-- A sign, if there is one, and what follows: whether it is a minus. -/
def splitSign : List Char → Bool × List Char
  | '-' :: rest => (true, rest)
  | '+' :: rest => (false, rest)
  | text => (false, text)

/-- An exponent, which may be left out. -/
def exponent? : List Char → Option Int
  | [] => some 0
  | mark :: rest =>
    let (negative, digits) := splitSign rest
    if (mark = 'e' ∨ mark = 'E') ∧ Digits.areDigits digits then
      some (if negative then -(Digits.value digits : Int) else Digits.value digits)
    else none

/-- Reads a numeral without a sign. There is at least one digit before or after the point. -/
def ofText? (text : List Char) : Option Decimal :=
  let whole := text.takeWhile Digits.isDigit
  let (fraction, rest) := match text.dropWhile Digits.isDigit with
    | '.' :: rest => (rest.takeWhile Digits.isDigit, rest.dropWhile Digits.isDigit)
    | rest => ([], rest)
  if whole.isEmpty ∧ fraction.isEmpty then none
  else (exponent? rest).map fun exponent => ⟨Digits.value (whole ++ fraction), exponent - fraction.length⟩

/-- A quotient, rounded to the nearest whole number, a half to the even one. -/
def roundQuotient (num den : Nat) : Nat :=
  let below := num / den
  let rest := 2 * (num - below * den)
  if rest < den ∨ (rest = den ∧ below % 2 = 0) then below else below + 1

/-- The bits of the binary32 number that is nearest to `num / den`. Whole steps of the exponent begin where the significand
runs over, so that exponent and significand are simply added. -/
def binary32OfQuotient (num den : Nat) : Nat :=
  let guess : Int := (num.log2 : Int) - den.log2
  let reaches := den * Nat.pow 2 guess.toNat ≤ num * Nat.pow 2 (-guess).toNat
  let exponent := max ((if reaches then guess else guess - 1) - 23) (-149)
  let significand := roundQuotient (num * Nat.pow 2 (-exponent).toNat) (den * Nat.pow 2 exponent.toNat)
  min ((exponent + 149).toNat * 8388608 + significand) 0x7F800000

/-- The bits of the binary32 number that is nearest to a decimal. Beyond a hundred places it is infinite or 0. -/
def binary32 (decimal : Decimal) : Nat :=
  if decimal.digits = 0 ∨ decimal.leadingExponent < -100 then 0
  else if 100 < decimal.leadingExponent then 0x7F800000
  else binary32OfQuotient (decimal.digits * Nat.pow 10 decimal.exponent.toNat) (Nat.pow 10 (-decimal.exponent).toNat)

end Decimal

/-- Reads a frame rate: a numeral, or a word for an infinite one or for no number, with an optional sign. -/
def FrameRate.ofText? (text : String) : Option FrameRate :=
  let (negative, body) := Decimal.splitSign text.toList
  let magnitude : Option Nat := match (String.ofList body).toLower with
    | "inf" | "infinity" => some 0x7F800000
    | "nan" => some 0x7FC00000
    | _ => (Decimal.ofText? body).map Decimal.binary32
  magnitude.map fun bits => ⟨UInt32.ofNat (if negative then bits + 0x80000000 else bits)⟩

end ZxSpectrum
