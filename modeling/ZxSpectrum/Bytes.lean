import ZxSpectrum.Word

/-!
# Byte strings

Bytes and little-endian words at places of a byte string. Past the end a byte reads as zero, so that every reader is
total; the codecs check lengths before they read.
-/

namespace ZxSpectrum.Bytes

/-- The byte at a place. -/
def byteAt (data : List UInt8) (place : Nat) : UInt8 := data[place]?.getD 0

/-- The word at a place, its low byte first. -/
def wordAt (data : List UInt8) (place : Nat) : UInt16 := Word.ofBytes (byteAt data (place + 1)) (byteAt data place)

/-- A word as two bytes, the low one first. -/
def ofWord (w : UInt16) : List UInt8 := [Word.low w, Word.high w]

/-- A word reads back from where it was written. -/
theorem wordAt_ofWord_append (w : UInt16) (rest : List UInt8) : wordAt (ofWord w ++ rest) 0 = w := by
  simp [wordAt, byteAt, ofWord]

end ZxSpectrum.Bytes
