import ZxSpectrum.Memory
import ZxSpectrum.Ula.Screen

/-!
# The screen shadow

A frame is composed from memory once it is over. When the processor changes a screen byte that has been fetched already,
the shadow captures the value that was fetched, so that `compose` shows what was on the screen. A bitmap byte is fetched
once a frame, an attribute on each of the eight lines of its cell. The first capture of a place stays for the frame. The
shadow also keeps the grid of dirty cells, those that may look different from the frame before.
-/

namespace ZxSpectrum.Ula

/-- A picture: the bitmap and the colours in display order, and the cells in which it may differ from the one before. -/
structure ScreenImage where
  dirty : Vector Bool 768
  bitmap : Vector UInt8 6144
  /-- Ink and paper for each bitmap byte. -/
  colours : Vector UInt8 6144
  flash : Bool

structure Shadow where
  /-- Frames begun since the last reset. -/
  frame : UInt32 := 0
  /-- Whether fetched values are captured; otherwise a frame shows memory as it is in the end. -/
  accurate : Bool := true
  /-- Captured bitmap bytes, in display order. -/
  bitmap : Vector (Option UInt8) 6144 := Vector.replicate 6144 none
  /-- Captured attributes, for each bitmap byte in display order. -/
  attributes : Vector (Option UInt8) 6144 := Vector.replicate 6144 none
  dirty : Vector Bool 768 := Vector.replicate 768 true

namespace Shadow

/-- The shadow after a reset: no frame, nothing captured, everything dirty. -/
def reset (shadow : Shadow) : Shadow := { accurate := shadow.accurate }

/-- Whether one of the places of a cell shows a captured value. -/
def showsCapture (shadow : Shadow) (cell : Nat) : Bool :=
  (placesOfCell cell).any fun place =>
    (shadow.bitmap[place]?.join).isSome || (shadow.attributes[place]?.join).isSome

/-- Begins a frame. Cells that showed a captured value are dirty, since they will show memory now; in the first frame all
cells are. -/
def beginFrame (shadow : Shadow) : Shadow :=
  let frame := shadow.frame + 1
  { frame := frame
    accurate := shadow.accurate
    dirty := Vector.ofFn fun cell => frame == 1 || shadow.showsCapture cell }

/-- Keeps the value of a place, unless one is kept already. -/
@[inline] def capture (cells : Vector (Option UInt8) 6144) (place : Nat) (value : UInt8) : Vector (Option UInt8) 6144 :=
  if (cells[place]?.join).isSome then cells else cells.setIfInBounds place (some value)

/-- Takes notice that the bitmap byte at `address` changes at the given time; `old` is its value before. -/
def bitmapWrite (shadow : Shadow) (address : UInt16) (old : UInt8) (time : Nat) : Shadow :=
  let (x, y) := bitmapPixel address
  let { frame, accurate, bitmap, attributes, dirty } := shadow
  let dirty := dirty.setIfInBounds (cellOfPixel x y) true
  if accurate && sampleTime x y < time then
    { frame, accurate, bitmap := capture bitmap (placeOfPixel x y) old, attributes, dirty }
  else
    { frame, accurate, bitmap, attributes, dirty }

/-- Captures an attribute on those lines of its cell that have been fetched before the given time. -/
def captureLines (attributes : Vector (Option UInt8) 6144) (cell : Nat) (old : UInt8) (time : Nat) :
    Vector (Option UInt8) 6144 :=
  (placesOfCell cell).foldl (fun attributes place =>
    let (x, y) := pixelAt place
    if sampleTime x y < time then capture attributes place old else attributes) attributes

/-- Takes notice that the attribute at `address` changes at the given time; `old` is its value before. -/
def attributeWrite (shadow : Shadow) (address : UInt16) (old : UInt8) (time : Nat) : Shadow :=
  let cell := (address - attributeBase).toNat
  let { frame, accurate, bitmap, attributes, dirty } := shadow
  let dirty := dirty.setIfInBounds cell true
  if accurate then
    { frame, accurate, bitmap, attributes := captureLines attributes cell old time, dirty }
  else
    { frame, accurate, bitmap, attributes, dirty }

/-- Takes notice that a byte changes, if it is one of the screen. -/
def noteWrite (shadow : Shadow) (address : UInt16) (old : UInt8) (time : Nat) : Shadow :=
  if isBitmap address then shadow.bitmapWrite address old time
  else if isAttribute address then shadow.attributeWrite address old time
  else shadow

/-- The flash phase, which changes every sixteen frames. -/
def flashPhase (frame : UInt32) : Bool := frame &&& 0x10 != 0

/-- The bitmap byte that a place shows. -/
def shownBitmap (shadow : Shadow) (memory : Memory) (place : Nat) : UInt8 :=
  match shadow.bitmap[place]?.join with
  | some value => value
  | none =>
    let (x, y) := pixelAt place
    memory.get (bitmapAddress x y)

/-- The attribute that a place shows. -/
def shownAttribute (shadow : Shadow) (memory : Memory) (place : Nat) : UInt8 :=
  match shadow.attributes[place]?.join with
  | some value => value
  | none =>
    let (x, y) := pixelAt place
    memory.get (attributeAddress x y)

/-- Whether a cell shows a flashing attribute. -/
def showsFlash (shadow : Shadow) (memory : Memory) (cell : Nat) : Bool :=
  (placesOfCell cell).any fun place => shadow.shownAttribute memory place &&& 0x80 != 0

/-- The picture of the frame. Bitmap and colours are complete in any case; with `diff` only changed cells are dirty, those
with a flashing attribute included when the flash phase has just changed. -/
def compose (shadow : Shadow) (diff : Bool) (memory : Memory) : ScreenImage :=
  let flash := flashPhase shadow.frame
  let flipped := flash != flashPhase (shadow.frame - 1)
  { dirty := Vector.ofFn fun cell => !diff || shadow.dirty[cell] || (flipped && shadow.showsFlash memory cell)
    bitmap := Vector.ofFn fun place => shadow.shownBitmap memory place
    colours := Vector.ofFn fun place => inkPaper (shadow.shownAttribute memory place) flash
    flash := flash }

end Shadow

end ZxSpectrum.Ula
