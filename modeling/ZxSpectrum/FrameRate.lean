import ZxSpectrum.Decimal.Shortest

/-!
# Frame rates

A frame rate is a binary32 number, kept as its bit pattern. Rates that are not above 1 select the default. As text a rate
is its shortest decimal: `text` writes it plainly, `literal` so that it is told from a whole number.
-/

namespace ZxSpectrum

/-- Frames per second, as the bits of a binary32 number. -/
structure FrameRate where
  bits : UInt32
deriving DecidableEq

namespace FrameRate

/-- The rate of a European machine, 50.08. -/
def default : FrameRate := ⟨0x424851EC⟩

instance : Inhabited FrameRate := ⟨default⟩

/-- The number without its sign. -/
def magnitude (rate : FrameRate) : UInt32 := rate.bits &&& 0x7FFFFFFF

def isNegative (rate : FrameRate) : Bool := rate.bits &&& 0x80000000 != 0

/-- Not a number: all exponent bits are set, and some bit of the fraction is. -/
def isNan (rate : FrameRate) : Bool := rate.magnitude > 0x7F800000

/-- A number of at most 1. -/
def isAtMostOne (rate : FrameRate) : Bool := !rate.isNan && (rate.isNegative || rate.magnitude ≤ 0x3F800000)

/-- The rate that a machine takes when it is asked for this one. -/
def effective (rate : FrameRate) : FrameRate := if rate.isAtMostOne then default else rate

/-- The number without its sign as significand and exponent, unless it is infinite or no number. -/
def magnitudeBinary (rate : FrameRate) : BinaryNumber :=
  let fraction := (rate.magnitude &&& 0x007FFFFF).toNat
  let exponent := (rate.magnitude >>> 23).toNat
  if exponent = 0 then ⟨fraction, -149, false⟩
  else ⟨fraction + 8388608, exponent - 150, fraction = 0 && 1 < exponent⟩

/-- The number without its sign as the shortest decimal. -/
def magnitudeDecimal (rate : FrameRate) : Decimal := Decimal.shortest rate.magnitudeBinary 39 85

/-- Writes the number, its magnitude as given. -/
def written (rate : FrameRate) (finite : String) : String :=
  if rate.isNan then "NaN"
  else (if rate.isNegative then "-" else "") ++ if rate.magnitude = 0x7F800000 then "inf" else finite

/-- The rate without an exponent, and without a fraction if it is whole. -/
def text (rate : FrameRate) : String := rate.written (rate.magnitudeDecimal.positional 0)

/-- Whether the magnitude is below a ten-thousandth, but not 0, or at least `10 ^ 16`. -/
def isExtreme (rate : FrameRate) : Bool :=
  rate.magnitude != 0 && (rate.magnitude < 0x38D1B717 || 0x5A0E1BCA ≤ rate.magnitude)

/-- The rate with a fraction, or with an exponent if its magnitude is extreme. -/
def literal (rate : FrameRate) : String :=
  rate.written (if rate.isExtreme then rate.magnitudeDecimal.scientific else rate.magnitudeDecimal.positional 1)

theorem effective_effective (rate : FrameRate) : rate.effective.effective = rate.effective := by
  unfold effective
  split
  · rfl
  · simp_all

end FrameRate

end ZxSpectrum
