/-!
# Bytes and words

A word is a pair of bytes. `ofBytes` joins them, `high` and `low` take them apart again (`ofBytes_high_low`,
`high_ofBytes`, `low_ofBytes`), and `displace` moves an address by a signed byte.
-/

namespace ZxSpectrum.Word

/-- The word with the given high and low bytes. -/
@[inline] def ofBytes (high low : UInt8) : UInt16 := (high.toUInt16 <<< 8) ||| low.toUInt16

/-- The more significant byte of a word. -/
@[inline] def high (w : UInt16) : UInt8 := (w >>> 8).toUInt8

/-- The less significant byte of a word. -/
@[inline] def low (w : UInt16) : UInt8 := w.toUInt8

/-- The address `d` bytes away, where `d` is read as a two's complement number from -128 to 127. -/
@[inline] def displace (w : UInt16) (d : UInt8) : UInt16 :=
  if d < 0x80 then w + d.toUInt16 else w + (d.toUInt16 + 0xFF00)

theorem toNat_ofBytes (h l : UInt8) : (ofBytes h l).toNat = 256 * h.toNat + l.toNat := by
  have hh := h.toNat_lt
  have hl := l.toNat_lt
  simp only [ofBytes, UInt16.toNat_or, UInt16.toNat_shiftLeft, UInt8.toNat_toUInt16]
  rw [show (8 : UInt16).toNat % 16 = 8 from rfl, Nat.mod_eq_of_lt (by rw [Nat.shiftLeft_eq]; omega),
    ← Nat.shiftLeft_add_eq_or_of_lt hl, Nat.shiftLeft_eq]
  omega

theorem toNat_high (w : UInt16) : (high w).toNat = w.toNat / 256 := by
  have hw := w.toNat_lt
  simp only [high, UInt16.toNat_toUInt8, UInt16.toNat_shiftRight, Nat.shiftRight_eq_div_pow]
  rw [show (8 : UInt16).toNat % 16 = 8 from rfl]
  omega

theorem toNat_low (w : UInt16) : (low w).toNat = w.toNat % 256 := UInt16.toNat_toUInt8 w

@[simp] theorem high_ofBytes (h l : UInt8) : high (ofBytes h l) = h := by
  have hl := l.toNat_lt
  apply UInt8.toNat_inj.1
  rw [toNat_high, toNat_ofBytes]
  omega

@[simp] theorem low_ofBytes (h l : UInt8) : low (ofBytes h l) = l := by
  have hl := l.toNat_lt
  apply UInt8.toNat_inj.1
  rw [toNat_low, toNat_ofBytes]
  omega

@[simp] theorem ofBytes_high_low (w : UInt16) : ofBytes (high w) (low w) = w := by
  apply UInt16.toNat_inj.1
  rw [toNat_ofBytes, toNat_high, toNat_low]
  omega

end ZxSpectrum.Word
