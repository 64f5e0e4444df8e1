import ZxSpectrum.Hex

/-!
# Inspection

State is inspected by dotted paths such as `flags.z`; an answer is a `Value`, which has a text and, byte strings apart,
a number. An inspection never changes what it looks at.
-/

namespace ZxSpectrum

/-- The answer to an inspection. -/
inductive Value where
  | flag (value : Bool)
  | byte (value : UInt8)
  | word (value : UInt16)
  | number (value : Nat)
  | bytes (value : List UInt8)

namespace Value

/-- Bytes and words are shown in hexadecimal with all their digits, numbers in decimal. -/
def text : Value → String
  | .flag value => if value then "true" else "false"
  | .byte value => "0x" ++ Hex.fixed 2 value.toNat
  | .word value => "0x" ++ Hex.fixed 4 value.toNat
  | .number value => toString value
  | .bytes value => Hex.spaced value

/-- The value as a number; a byte string has none. -/
def toNat? : Value → Option Nat
  | .flag value => some value.toNat
  | .byte value => some value.toNat
  | .word value => some value.toNat
  | .number value => some value
  | .bytes _ => none

end Value

/-- Every path of a list that is answered, with its answer, in the order of the list. -/
def dumpPaths (paths : List String) (query : String → Option Value) : List (String × Value) :=
  paths.filterMap fun path => (query path).map (path, ·)

end ZxSpectrum
