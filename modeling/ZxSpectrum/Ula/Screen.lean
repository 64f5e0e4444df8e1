import ZxSpectrum.Ula.Timing

/-!
# Screen memory

The bitmap lies at 4000 to 57FF, one bit a pixel, with its lines interleaved; the attributes lie at 5800 to 5AFF, one byte
for a cell of eight by eight pixels. Display order counts the 6144 bitmap bytes line by line from the top.
-/

namespace ZxSpectrum.Ula

def screenWidth : Nat := 256

def screenHeight : Nat := 192

/-- Border to the left and to the right of the bitmap, in pixels. -/
def borderX : Nat := 32

/-- Border above and below the bitmap, in pixels. -/
def borderY : Nat := 24

/-- The width of the picture, border included. -/
def totalWidth : Nat := screenWidth + 2 * borderX

/-- The height of the picture, border included. -/
def totalHeight : Nat := screenHeight + 2 * borderY

/-- Bitmap bytes of a line. -/
def columns : Nat := 32

/-- Rows of cells. -/
def cellRows : Nat := 24

/-- Bytes of the bitmap. -/
def bitmapSize : Nat := 6144

/-- Cells, and bytes of attributes. -/
def cellCount : Nat := 768

/-- When the top left pixel of the picture, border included, is displayed. -/
def displayStart : Nat := firstScreenByte - tstatesPerLine * borderY - borderX / pixelsPerTstate

def screenBase : UInt16 := 0x4000

def attributeBase : UInt16 := 0x5800

@[inline] def isBitmap (address : UInt16) : Bool := screenBase ≤ address && address < attributeBase

@[inline] def isAttribute (address : UInt16) : Bool := attributeBase ≤ address && address < 0x5B00

/-- The address of the bitmap byte that holds pixel `(x, y)`. -/
def bitmapAddress (x y : UInt8) : UInt16 :=
  let y := y.toUInt16
  screenBase ||| ((y &&& 0xC0) <<< 5) ||| ((y &&& 0x07) <<< 8) ||| ((y &&& 0x38) <<< 2) ||| (x.toUInt16 >>> 3)

/-- The first pixel of a bitmap byte. -/
def bitmapPixel (address : UInt16) : UInt8 × UInt8 :=
  (((address &&& 0x1F) <<< 3).toUInt8,
    (((address &&& 0x0700) >>> 8) ||| ((address &&& 0x00E0) >>> 2) ||| ((address &&& 0x1800) >>> 5)).toUInt8)

/-- The address of the attribute of pixel `(x, y)`. -/
def attributeAddress (x y : UInt8) : UInt16 := attributeBase + (y.toUInt16 >>> 3) * (32 : UInt16) + (x.toUInt16 >>> 3)

/-- The cell of a pixel. -/
def cellOfPixel (x y : UInt8) : Nat := y.toNat / 8 * columns + x.toNat / 8

/-- The cell of a bitmap byte. -/
def cellOfBitmap (address : UInt16) : Nat :=
  let (x, y) := bitmapPixel address
  cellOfPixel x y

/-- When the byte of pixel `(x, y)` and its attribute are fetched. -/
def sampleTime (x y : UInt8) : Nat := firstScreenByte + y.toNat * tstatesPerLine + x.toNat / pixelsPerTstate

/-- The first pixel of the bitmap byte at a place in display order. -/
def pixelAt (place : Nat) : UInt8 × UInt8 := (UInt8.ofNat (place % columns * 8), UInt8.ofNat (place / columns))

/-- The place in display order of the byte that holds pixel `(x, y)`. -/
def placeOfPixel (x y : UInt8) : Nat := y.toNat * columns + x.toNat / 8

/-- The cell of the byte at a place in display order. -/
def cellOfPlace (place : Nat) : Nat := place / columns / 8 * columns + place % columns

/-- The eight places of a cell, from its top line down. -/
def placesOfCell (cell : Nat) : List Nat :=
  (List.range 8).map fun line => (cell / columns * 8 + line) * columns + cell % columns

/-- Ink and paper of an attribute as palette entries, ink in the high digit; a flashing attribute swaps them. -/
def inkPaper (byte : UInt8) (flash : Bool) : UInt8 :=
  let ink := ((byte &&& 0x40) >>> 3) ||| (byte &&& 0x07)
  let paper := (byte &&& 0x78) >>> 3
  if flash && byte &&& 0x80 != 0 then (paper <<< 4) ||| ink else (ink <<< 4) ||| paper

/-- The sixteen colours as alpha, red, green and blue: eight normal ones, then their bright forms. -/
def palette : Vector UInt32 16 :=
  #v[0xFF000000, 0xFF0000C0, 0xFFC00000, 0xFFC000C0, 0xFF00C000, 0xFF00C0C0, 0xFFC0C000, 0xFFC0C0C0,
    0xFF000000, 0xFF0000FF, 0xFFFF0000, 0xFFFF00FF, 0xFF00FF00, 0xFF00FFFF, 0xFFFFFF00, 0xFFFFFFFF]

end ZxSpectrum.Ula
