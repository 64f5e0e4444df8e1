import ZxSpectrum.Bytes
import ZxSpectrum.Snapshot
import ZxSpectrum.Ula.Timing

/-!
# The Z80 format

Three versions share a header of 30 bytes. Version 1 has a program counter other than 0 there, and RAM follows, compressed
or not. Versions 2 and 3 have 0 there and extend the header; RAM follows in blocks of one page each. Compression replaces
a run of bytes by `ED ED count value`.
-/

namespace ZxSpectrum.Z80

open Bytes

/-- Bytes of the header that all versions share. -/
def headerSize : Nat := 30

/-- Bytes of a page. -/
def pageSize : Nat := 16384

/-- The layouts of a file, by the length of the extended header: none, 23, 54 or 55 bytes. -/
inductive Layout where
  | v1 | v2 | v3 | v3Extended
deriving DecidableEq, Repr

/-- Where RAM begins. -/
def Layout.bodyStart : Layout → Nat
  | .v1 => headerSize
  | .v2 => headerSize + 2 + 23
  | .v3 => headerSize + 2 + 54
  | .v3Extended => headerSize + 2 + 55

/-- The first flag byte; 255 stands for 1. -/
def flags (data : List UInt8) : UInt8 := if byteAt data 12 == 255 then 1 else byteAt data 12

/-- The second flag byte. -/
def moreFlags (data : List UInt8) : UInt8 := byteAt data 29

/-- The registers of the header. -/
def readRegisters (data : List UInt8) : Registers :=
  { a := byteAt data 0, f := byteAt data 1
    b := byteAt data 3, c := byteAt data 2, d := byteAt data 14, e := byteAt data 13
    h := byteAt data 5, l := byteAt data 4
    alternate :=
      { a := byteAt data 21, f := byteAt data 22
        b := byteAt data 16, c := byteAt data 15, d := byteAt data 18, e := byteAt data 17
        h := byteAt data 20, l := byteAt data 19 }
    iyl := byteAt data 23, iyh := byteAt data 24, ixl := byteAt data 25, ixh := byteAt data 26
    sp := wordAt data 8, pc := wordAt data 6
    i := byteAt data 10, r := byteAt data 11 &&& 0x7F, r7 := (flags data &&& 0x01) <<< 7
    iff1 := byteAt data 27 != 0, iff2 := byteAt data 28 != 0, im := moreFlags data &&& 0x03 }

/-- The border colour of the header. -/
def readBorder (data : List UInt8) : UInt8 := (flags data >>> 1) &&& 0x07

/-- What the shared header asks for that cannot be given, if anything. -/
def headerProblem? (data : List UInt8) : Option SnapshotError :=
  if 2 < moreFlags data &&& 0x03 then some (.invalidInterruptMode (moreFlags data &&& 0x03))
  else if flags data &&& 0x10 != 0 then some (.unsupportedFeature .samRom)
  else if moreFlags data &&& 0x04 != 0 then some (.unsupportedFeature .issue2)
  else none

/-- Expands `ED ED count value`; `expanded` holds what has been expanded so far, last byte first. -/
def decompressOnto (expanded : List UInt8) : List UInt8 → List UInt8
  | 0xED :: 0xED :: count :: value :: rest => decompressOnto (List.replicate count.toNat value ++ expanded) rest
  | byte :: rest => decompressOnto (byte :: expanded) rest
  | [] => expanded

/-- The expansion of a compressed byte string. -/
def decompress (data : List UInt8) : List UInt8 := (decompressOnto [] data).reverse

/-- The end of a compressed image of version 1. -/
def endMarker : List UInt8 := [0x00, 0xED, 0xED, 0x00]

/-- The byte string before the end marker, if it ends in one. -/
def dropEndMarker? (body : List UInt8) : Option (List UInt8) :=
  let length := body.length - endMarker.length
  if body.drop length = endMarker then some (body.take length) else none

/-- Reads RAM of version 1. -/
def readImage (compressed : Bool) (body : List UInt8) : Except SnapshotError (List UInt8) := do
  let ram ←
    if compressed then
      match dropEndMarker? body with
      | some image => .ok (decompress image)
      | none => .error .missingEndMarker
    else .ok body
  if ram.length = Memory.ramSize then .ok ram else .error (.decompressedLength Memory.ramSize ram.length)

/-- The three pages of RAM. -/
inductive PageSlot where
  | low | middle | high
deriving DecidableEq, Repr

/-- The page with a number. -/
def PageSlot.ofNumber? (number : UInt8) : Option PageSlot :=
  if number = 8 then some .low
  else if number = 4 then some .middle
  else if number = 5 then some .high
  else none

/-- The length word of a block that is not compressed. -/
def rawLength : UInt16 := 0xFFFF

/-- Bytes that a block with the given length word holds. -/
def storedLength (length : UInt16) : Nat := if length = rawLength then pageSize else length.toNat

/-- Reads the block after its length word and page number: the page, its contents, and what follows. -/
def readBlock (length : UInt16) (number : UInt8) (data : List UInt8) :
    Except SnapshotError (PageSlot × List UInt8 × List UInt8) :=
  let stored := storedLength length
  if data.length < stored then .error .truncated
  else
    match PageSlot.ofNumber? number with
    | none => .error (.invalidPage number)
    | some slot =>
      let block := data.take stored
      let contents := if length = rawLength then block else decompress block
      if contents.length = pageSize then .ok (slot, contents, data.drop stored)
      else .error (.pageLength number contents.length)

/-- What a block leaves is no longer than what it was read from. -/
theorem length_readBlock_le {length : UInt16} {number : UInt8} {data : List UInt8}
    {block : PageSlot × List UInt8 × List UInt8} (h : readBlock length number data = .ok block) :
    block.2.2.length ≤ data.length := by
  unfold readBlock at h
  dsimp only at h
  by_cases hl : data.length < storedLength length
  · simp [hl] at h
  rw [if_neg hl] at h
  split at h
  · simp at h
  generalize (if length = rawLength then data.take _ else _) = contents at h
  split at h
  · cases h
    simp
  · simp at h

/-- Reads blocks to the end of a byte string. -/
def readBlocks : List UInt8 → Except SnapshotError (List (PageSlot × List UInt8))
  | low :: high :: number :: data =>
    match _ : readBlock (Word.ofBytes high low) number data with
    | .error error => .error error
    | .ok block =>
      match readBlocks block.2.2 with
      | .error error => .error error
      | .ok blocks => .ok ((block.1, block.2.1) :: blocks)
  | [] => .ok []
  | _ => .error .trailingData
termination_by data => data.length
decreasing_by
  have := length_readBlock_le ‹_›
  simp only [List.length_cons]
  omega

/-- The contents of a page; of two blocks for one page the second counts. -/
def pageOf? (blocks : List (PageSlot × List UInt8)) (slot : PageSlot) : Option (List UInt8) :=
  (blocks.reverse.find? fun block => block.1 = slot).map (·.2)

/-- Reads RAM of versions 2 and 3: exactly three blocks, one for each page. -/
def readPages (data : List UInt8) : Except SnapshotError (List UInt8) := do
  let blocks ← readBlocks data
  if blocks.length ≠ 3 then .error (.pageCount blocks.length)
  else
    match pageOf? blocks .low, pageOf? blocks .middle, pageOf? blocks .high with
    | some low, some middle, some high => .ok (low ++ middle ++ high)
    | _, _, _ => .error (.pageCount 3)

/-- T-states of a quarter of a frame. -/
def quarter : Nat := Ula.tstatesPerFrame / 4

/-- The clock of version 3: the low word counts down within a quarter of the frame, the high byte counts the quarters up
from 3. -/
def restoreClock (low : UInt16) (high : UInt8) : Nat :=
  ((high &&& 0x03).toNat + 1) % 4 * quarter + (quarter - low.toNat % quarter - 1)

/-- What the extended header asks for that cannot be given, if anything. -/
def extendedProblem? (layout : Layout) (data : List UInt8) : Option SnapshotError :=
  let mode := byteAt data 34
  let paged : List (Nat × Feature) := [(59, .mgtRom), (60, .multifaceRom), (61, .lowRam), (62, .middleRam)]
  if 1 < mode then some (.unsupportedHardwareMode mode)
  else if byteAt data 37 &&& 0x80 != 0 then some (.unsupportedFeature .modifiedHardware)
  else if layout = .v2 then none
  else (paged.find? fun (place, _) => byteAt data place == 0xFF).map fun (_, feature) => .unsupportedFeature feature

/-- The layout of a file. -/
def layoutOf (data : List UInt8) : Except SnapshotError Layout :=
  if data.length < headerSize then .error .truncated
  else if wordAt data 6 ≠ 0 then .ok .v1
  else if data.length < Layout.v2.bodyStart then .error .truncated
  else
    match (wordAt data 30).toNat with
    | 23 => .ok .v2
    | 54 => if data.length < Layout.v3.bodyStart then .error .truncated else .ok .v3
    | 55 => if data.length < Layout.v3Extended.bodyStart then .error .truncated else .ok .v3Extended
    | _ => .error .unsupportedVersion

/-- Reads a file. -/
def decode (data : List UInt8) : Except SnapshotError Snapshot := do
  let layout ← layoutOf data
  if let some error := headerProblem? data then throw error
  let registers := readRegisters data
  let border := readBorder data
  let body := data.drop layout.bodyStart
  match layout with
  | .v1 =>
    let ram ← readImage (flags data &&& 0x20 != 0) body
    pure { cpu := { registers := registers }, border := border, ram := ram }
  | _ =>
    if let some error := extendedProblem? layout data then throw error
    let ram ← readPages body
    let clock := if layout = .v2 then 0 else restoreClock (wordAt data 55) (byteAt data 57)
    pure { cpu := { registers := { registers with pc := wordAt data 32 }, tstates := clock }, border := border, ram := ram }

end ZxSpectrum.Z80
