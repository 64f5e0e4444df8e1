import ZxSpectrum.Proofs.BitFields
import ZxSpectrum.Ula.Shadow

/-!
# The layout of the screen

Display order and addresses are two ways to name the bytes of the screen. `bitmapByte` and `attributeByte` give the address of
what a place shows, `fetchTime` the time at which it is fetched. A bitmap byte belongs to one place (`placeOf`), an attribute
to the eight places of its cell (`mem_placesOfCell_iff`).
-/

namespace ZxSpectrum.Ula

/-- The address of the bitmap byte at a place in display order. -/
def bitmapByte (place : Nat) : UInt16 := bitmapAddress (pixelAt place).1 (pixelAt place).2

/-- The address of the attribute at a place in display order. -/
def attributeByte (place : Nat) : UInt16 := attributeAddress (pixelAt place).1 (pixelAt place).2

/-- When the bytes of a place are fetched. -/
def fetchTime (place : Nat) : Nat := sampleTime (pixelAt place).1 (pixelAt place).2

/-- The place in display order of the bitmap byte at an address. -/
def placeOf (address : UInt16) : Nat := placeOfPixel (bitmapPixel address).1 (bitmapPixel address).2

/-! ## Bitmap bytes -/

/-- A field and the bits above it make up the bits above the field below. -/
theorem fields_of_div (n : Nat) : n / 256 * 8 + n / 32 % 8 = n / 32 ∧ n / 2048 * 8 + n / 256 % 8 = n / 256 := by
  have h1 := Nat.div_add_mod' (n / 32) 8
  have h2 := Nat.div_add_mod' (n / 256) 8
  rw [Nat.div_div_eq_div_mul] at h1 h2
  exact ⟨h1, h2⟩

/-- The fields of an address, read back from the address that they make up. -/
theorem fields_of_address (third : Nat) {line row column : Nat} (hl : line < 8) (hr : row < 8) (hc : column < 32) :
    (third * 2048 + line * 256 + row * 32 + column) % 32 = column ∧
      (third * 2048 + line * 256 + row * 32 + column) / 32 % 8 = row ∧
      (third * 2048 + line * 256 + row * 32 + column) / 256 % 8 = line ∧
      (third * 2048 + line * 256 + row * 32 + column) / 2048 = third := by
  refine ⟨?_, ?_, ?_, ?_⟩ <;> omega

/-- The fields of a line of the screen, read back from the line that they make up. -/
theorem fields_of_line (third : Nat) {line row : Nat} (hl : line < 8) (hr : row < 8) :
    (line + row * 8 + third * 64) % 8 = line ∧ (line + row * 8 + third * 64) / 8 % 8 = row ∧
      (line + row * 8 + third * 64) / 64 = third := by
  refine ⟨?_, ?_, ?_⟩ <;> omega

/-- Three fields of three, three and two bits side by side. -/
theorem or_fields : ∀ low < 8, ∀ middle < 8, ∀ high < 4,
    low ||| middle * 8 ||| high * 64 = low + middle * 8 + high * 64 := by
  decide

/-- The lines of the bitmap are interleaved: from the top bits down, an address holds the third of the screen, the line in the
row of cells, the row of cells in the third, and the column. -/
theorem toNat_bitmapAddress (x : UInt8) {y : UInt8} (hy : y.toNat < 192) : (bitmapAddress x y).toNat =
    0x4000 + y.toNat / 64 * 2048 + y.toNat % 8 * 256 + y.toNat / 8 % 8 * 32 + x.toNat / 8 := by
  have hrows : ∀ row < 192, (bitmapAddress 0 (UInt8.ofNat row)).toNat =
      0x4000 + row / 64 * 2048 + row % 8 * 256 + row / 8 % 8 * 32 := by
    decide +kernel
  have hrow := hrows y.toNat hy
  rw [UInt8.ofNat_toNat] at hrow
  have hx : (x.toUInt16 >>> 3).toNat = x.toNat / 8 := by
    rw [UInt16.toNat_shiftRight, UInt8.toNat_toUInt16, Nat.shiftRight_eq_div_pow]
    rfl
  have hxl := x.toNat_lt
  have hcolumn : bitmapAddress x y = bitmapAddress 0 y ||| (x.toUInt16 >>> 3) := by simp [bitmapAddress]
  have hor := Nat.two_pow_add_eq_or_of_lt (i := 5) (b := x.toNat / 8) (by omega)
    (512 + y.toNat / 64 * 64 + y.toNat % 8 * 8 + y.toNat / 8 % 8)
  rw [show 2 ^ 5 * (512 + y.toNat / 64 * 64 + y.toNat % 8 * 8 + y.toNat / 8 % 8) = 16384 + y.toNat / 64 * 2048 +
    y.toNat % 8 * 256 + y.toNat / 8 % 8 * 32 by omega] at hor
  rw [hcolumn, UInt16.toNat_or, hrow, hx]
  exact hor.symm

theorem toNat_bitmapPixel_fst (a : UInt16) : (bitmapPixel a).1.toNat = a.toNat % 32 * 8 := by
  have h : a.toNat &&& 31 = a.toNat % 32 := Nat.and_two_pow_sub_one_eq_mod _ 5
  simp only [bitmapPixel, UInt16.toNat_toUInt8, UInt16.toNat_shiftLeft, UInt16.toNat_and]
  rw [show (0x1F : UInt16).toNat = 31 from rfl, show (3 : UInt16).toNat % 16 = 3 from rfl, h, Nat.shiftLeft_eq]
  omega

theorem toNat_bitmapPixel_snd (a : UInt16) :
    (bitmapPixel a).2.toNat = a.toNat / 256 % 8 + a.toNat / 32 % 8 * 8 + a.toNat / 2048 % 4 * 64 := by
  have h1 := and_field a.toNat 8 3
  have h2 := and_field a.toNat 5 3
  have h3 := and_field a.toNat 11 2
  simp only [Nat.reducePow, Nat.reduceSub, Nat.reduceMul] at h1 h2 h3
  have hor := or_fields (a.toNat / 256 % 8) (by omega) (a.toNat / 32 % 8) (by omega) (a.toNat / 2048 % 4) (by omega)
  simp only [bitmapPixel, UInt16.toNat_toUInt8, UInt16.toNat_or, UInt16.toNat_shiftRight, UInt16.toNat_and]
  rw [show (0x0700 : UInt16).toNat = 1792 from rfl, show (0x00E0 : UInt16).toNat = 224 from rfl,
    show (0x1800 : UInt16).toNat = 6144 from rfl, show (8 : UInt16).toNat % 16 = 8 from rfl,
    show (2 : UInt16).toNat % 16 = 2 from rfl, show (5 : UInt16).toNat % 16 = 5 from rfl, h1, h2, h3]
  simp only [Nat.shiftRight_eq_div_pow, Nat.reducePow]
  rw [show a.toNat / 256 % 8 * 256 / 256 = a.toNat / 256 % 8 by omega,
    show a.toNat / 32 % 8 * 32 / 4 = a.toNat / 32 % 8 * 8 by omega,
    show a.toNat / 2048 % 4 * 2048 / 32 = a.toNat / 2048 % 4 * 64 by omega, hor]
  omega

/-- The bounds of the bitmap. -/
theorem isBitmap_iff (a : UInt16) : isBitmap a = true ↔ 0x4000 ≤ a.toNat ∧ a.toNat < 0x5800 := by
  simp [isBitmap, screenBase, attributeBase, UInt16.le_iff_toNat_le, UInt16.lt_iff_toNat_lt]

theorem pixelAt_row_column {row column : Nat} (hc : column < 32) :
    pixelAt (row * 32 + column) = (UInt8.ofNat (column * 8), UInt8.ofNat row) := by
  have h1 : (row * 32 + column) % 32 = column := by omega
  have h2 : (row * 32 + column) / 32 = row := by omega
  rw [pixelAt, columns, h1, h2]

/-- A pixel at the left of its byte is the first pixel of its place. -/
theorem pixelAt_placeOfPixel {x y : UInt8} (hx : x.toNat % 8 = 0) : pixelAt (placeOfPixel x y) = (x, y) := by
  have hxl := x.toNat_lt
  have h1 : (y.toNat * 32 + x.toNat / 8) % 32 * 8 = x.toNat := by omega
  have h2 : (y.toNat * 32 + x.toNat / 8) / 32 = y.toNat := by omega
  simp only [pixelAt, placeOfPixel, columns, h1, h2, UInt8.ofNat_toNat]

theorem toNat_pixelAt {place : Nat} (h : place < 6144) :
    (pixelAt place).1.toNat = place % 32 * 8 ∧ (pixelAt place).2.toNat = place / 32 := by
  simp only [pixelAt, columns, UInt8.toNat_ofNat']
  omega

theorem toNat_bitmapByte {place : Nat} (h : place < 6144) : (bitmapByte place).toNat =
    0x4000 + place / 2048 * 2048 + place / 32 % 8 * 256 + place / 256 % 8 * 32 + place % 32 := by
  obtain ⟨hx, hy⟩ := toNat_pixelAt h
  rw [bitmapByte, toNat_bitmapAddress _ (by omega), hx, hy]
  omega

theorem isBitmap_bitmapByte {place : Nat} (h : place < 6144) : isBitmap (bitmapByte place) = true := by
  rw [isBitmap_iff, toNat_bitmapByte h]
  omega

/-- The first pixel of a bitmap byte is the one of its place. -/
theorem pixelAt_placeOf (a : UInt16) : pixelAt (placeOf a) = bitmapPixel a := by
  have hx := toNat_bitmapPixel_fst a
  exact pixelAt_placeOfPixel (by omega)

/-- The byte of a place lies at the place. -/
theorem placeOf_bitmapByte {place : Nat} (h : place < 6144) : placeOf (bitmapByte place) = place := by
  have hx := toNat_bitmapPixel_fst (bitmapByte place)
  have hy := toNat_bitmapPixel_snd (bitmapByte place)
  have hb := toNat_bitmapByte h
  have hp := fields_of_div place
  obtain ⟨f1, f2, f3, f4⟩ := fields_of_address (8 + place / 2048)
    (show place / 32 % 8 < 8 by omega) (show place / 256 % 8 < 8 by omega) (show place % 32 < 32 by omega)
  rw [show (8 + place / 2048) * 2048 + place / 32 % 8 * 256 + place / 256 % 8 * 32 + place % 32 =
    (bitmapByte place).toNat by omega] at f1 f2 f3 f4
  rw [placeOf, placeOfPixel, columns, hx, hy, f1, f2, f3, f4]
  omega

/-- A byte of the bitmap has a place, and is the byte of that place. -/
theorem bitmapByte_placeOf {a : UInt16} (h : isBitmap a = true) : placeOf a < 6144 ∧ bitmapByte (placeOf a) = a := by
  rw [isBitmap_iff] at h
  have hx := toNat_bitmapPixel_fst a
  have hy := toNat_bitmapPixel_snd a
  have hn := fields_of_div a.toNat
  have ht : a.toNat / 2048 % 4 = a.toNat / 2048 - 8 := by omega
  obtain ⟨g1, g2, g3⟩ := fields_of_line (a.toNat / 2048 - 8) (show a.toNat / 256 % 8 < 8 by omega)
    (show a.toNat / 32 % 8 < 8 by omega)
  rw [ht] at hy
  rw [← hy] at g1 g2 g3
  refine ⟨?_, UInt16.toNat_inj.mp ?_⟩
  · rw [placeOf, placeOfPixel, columns, hx]
    omega
  · rw [bitmapByte, pixelAt_placeOf, toNat_bitmapAddress _ (by omega), hx, g1, g2, g3]
    omega

/-- A byte of the bitmap is the one of a place exactly if the place is its own. -/
theorem bitmapByte_eq_iff {place : Nat} {a : UInt16} (hp : place < 6144) (ha : isBitmap a = true) :
    bitmapByte place = a ↔ placeOf a = place := by
  constructor
  · rintro rfl
    exact placeOf_bitmapByte hp
  · rintro rfl
    exact (bitmapByte_placeOf ha).2

/-- The memory that is shared with the video chip is the quarter that begins with the screen. -/
theorem isContended_iff (a : UInt16) : isContended a = true ↔ a.toNat / 0x4000 = 1 := by
  have ha := a.toNat_lt
  have hand := and_field a.toNat 14 2
  rw [isContended, beq_iff_eq, ← UInt16.toNat_inj, UInt16.toNat_and]
  change a.toNat &&& (2 ^ 2 - 1) * 2 ^ 14 = 16384 ↔ _
  rw [hand]
  omega

/-! ## Attributes -/

/-- The bounds of the attributes. -/
theorem isAttribute_iff (a : UInt16) : isAttribute a = true ↔ 0x5800 ≤ a.toNat ∧ a.toNat < 0x5B00 := by
  simp [isAttribute, attributeBase, UInt16.le_iff_toNat_le, UInt16.lt_iff_toNat_lt]

theorem toNat_attributeByte {place : Nat} (h : place < 6144) :
    (attributeByte place).toNat = 0x5800 + cellOfPlace place := by
  obtain ⟨hx, hy⟩ := toNat_pixelAt h
  simp only [attributeByte, attributeAddress, attributeBase, cellOfPlace, columns, UInt16.toNat_add, UInt16.toNat_mul,
    UInt16.toNat_shiftRight, UInt8.toNat_toUInt16, hx, hy]
  simp only [show (3 : UInt16).toNat % 16 = 3 from rfl, show (22528 : UInt16).toNat = 22528 from rfl,
    show (32 : UInt16).toNat = 32 from rfl, Nat.shiftRight_eq_div_pow]
  omega

theorem isAttribute_attributeByte {place : Nat} (h : place < 6144) : isAttribute (attributeByte place) = true := by
  rw [isAttribute_iff, toNat_attributeByte h]
  simp only [cellOfPlace, columns]
  omega

/-- The places of a cell are those whose attribute is the one of the cell. -/
theorem mem_placesOfCell_iff {cell place : Nat} (hc : cell < 768) :
    place ∈ placesOfCell cell ↔ place < 6144 ∧ cellOfPlace place = cell := by
  simp only [placesOfCell, cellOfPlace, columns, List.mem_map, List.mem_range]
  constructor
  · rintro ⟨line, hl, rfl⟩
    omega
  · rintro ⟨hp, rfl⟩
    exact ⟨place / 32 % 8, by omega, by omega⟩

/-- The cell of an attribute. -/
theorem toNat_sub_attributeBase {a : UInt16} (h : isAttribute a = true) :
    (a - attributeBase).toNat = a.toNat - 0x5800 := by
  rw [isAttribute_iff] at h
  exact UInt16.toNat_sub_of_le _ _ (UInt16.le_iff_toNat_le.mpr h.1)

/-- An attribute is the one of a place exactly if the place belongs to its cell. -/
theorem attributeByte_eq_iff {place : Nat} {a : UInt16} (hp : place < 6144) (ha : isAttribute a = true) :
    attributeByte place = a ↔ place ∈ placesOfCell (a - attributeBase).toNat := by
  have hb := (isAttribute_iff a).mp ha
  rw [toNat_sub_attributeBase ha, mem_placesOfCell_iff (by omega), ← UInt16.toNat_inj, toNat_attributeByte hp]
  omega

/-- No byte is both a bitmap byte and an attribute. -/
theorem isAttribute_eq_false_of_isBitmap {a : UInt16} (h : isBitmap a = true) : isAttribute a = false := by
  rw [isBitmap_iff] at h
  rw [← Bool.not_eq_true, isAttribute_iff]
  omega

end ZxSpectrum.Ula
