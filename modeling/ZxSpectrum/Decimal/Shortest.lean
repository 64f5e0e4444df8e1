/-!
# Shortest decimals

`Decimal.shortest` gives the decimal with the fewest digits that lies in the rounding interval of a binary number, and the
nearest of those; of two equally near ones, the larger. It tests the two neighbours of the value on one decimal grid after
the other, from coarse to fine, in whole numbers.
-/

namespace ZxSpectrum

/-- The number `digits * 10 ^ exponent`. -/
structure Decimal where
  digits : Nat
  exponent : Int
deriving DecidableEq, Repr

/-- The number `significand * 2 ^ exponent`, with what rounds to it. -/
structure BinaryNumber where
  significand : Nat
  exponent : Int
  /-- Whether its lower neighbour is only half as far away as the upper one. -/
  lowerIsCloser : Bool := false
deriving DecidableEq, Repr

namespace BinaryNumber

/-- The denominator that makes quarters of the last place whole. -/
def denominator (number : BinaryNumber) : Nat := Nat.pow 2 (2 - number.exponent).toNat

/-- A count of quarters of the last place, over `denominator`. -/
def quarters (number : BinaryNumber) (count : Nat) : Nat := count * Nat.pow 2 (number.exponent - 2).toNat

/-- The value, over `denominator`. -/
def value (number : BinaryNumber) : Nat := number.quarters (4 * number.significand)

/-- The lower end of the rounding interval, over `denominator`. -/
def low (number : BinaryNumber) : Nat :=
  number.quarters (4 * number.significand - if number.lowerIsCloser then 1 else 2)

/-- The upper end of the rounding interval, over `denominator`. -/
def high (number : BinaryNumber) : Nat := number.quarters (4 * number.significand + 2)

/-- Whether `numerator / (denominator * scale)` lies in the rounding interval. The ends belong to it if the significand is
even. -/
def rounds (number : BinaryNumber) (scale numerator : Nat) : Bool :=
  if number.significand % 2 = 0 then number.low * scale ≤ numerator && numerator ≤ number.high * scale
  else number.low * scale < numerator && numerator < number.high * scale

end BinaryNumber

namespace Decimal

/-- The nearest multiple of `10 ^ exponent` in the rounding interval, if one of the value's two neighbours lies in it. -/
def onGrid? (number : BinaryNumber) (exponent : Int) : Option Decimal :=
  let scale := Nat.pow 10 (-exponent).toNat
  let unit := number.denominator * Nat.pow 10 exponent.toNat
  let value := number.value * scale
  let below := value / unit
  let nearUpper := unit ≤ 2 * (value - below * unit)
  match number.rounds scale (below * unit), number.rounds scale ((below + 1) * unit) with
  | true, false => some ⟨below, exponent⟩
  | false, true => some ⟨below + 1, exponent⟩
  | true, true => some ⟨if nearUpper then below + 1 else below, exponent⟩
  | false, false => none

/-- The shortest decimal on the grids from `10 ^ coarsest` on, over as many grids as given; 0 is on every grid. -/
def shortest (number : BinaryNumber) (coarsest : Int) (grids : Nat) : Decimal :=
  if number.significand = 0 then ⟨0, 0⟩
  else ((List.range grids).findSome? fun (i : Nat) => onGrid? number (coarsest - i)).getD ⟨0, 0⟩

/-- The digits as text. -/
def digitText (decimal : Decimal) : String := toString decimal.digits

/-- The exponent of the first digit. -/
def leadingExponent (decimal : Decimal) : Int := decimal.exponent + decimal.digitText.length - 1

/-- Without an exponent; a fraction has at least the given number of places. -/
def positional (decimal : Decimal) (leastPlaces : Nat) : String :=
  let digits := decimal.digitText.toList
  let places := (-decimal.exponent).toNat
  let padded := List.replicate (places + 1 - digits.length) '0' ++ digits
  let whole := padded.take (padded.length - places) ++ List.replicate decimal.exponent.toNat '0'
  let fraction := padded.drop (padded.length - places)
  let fraction := fraction ++ List.replicate (leastPlaces - fraction.length) '0'
  String.ofList (if fraction.isEmpty then whole else whole ++ '.' :: fraction)

/-- One digit before the point, and an exponent. -/
def scientific (decimal : Decimal) : String :=
  match decimal.digitText.toList with
  | first :: rest =>
    String.ofList (if rest.isEmpty then [first] else first :: '.' :: rest) ++ "e" ++ toString decimal.leadingExponent
  | [] => ""

end Decimal

end ZxSpectrum
