import Mathlib.Algebra.Group.Nat.Defs
import ZxSpectrum.Snapshot.Format

/-!
# Checked readers

The readers of snapshot files once more, read by read and in the order of the file formats, but in a setting that faults
where an index or a slice is out of range, a difference is negative or a number grows past a limit (`Checked`). Each read has
a lemma that says what it gives where it passes its checks.
-/

namespace ZxSpectrum

variable {α β : Type}

/-! ## Computations that may go wrong -/

/-- A computation that may go wrong; if it does not, it gives a result or an error. -/
abbrev Checked : Type → Type := ExceptT SnapshotError Option

namespace Checked

/-- Goes wrong. -/
def fault : Checked α := ExceptT.mk none

/-- What never goes wrong. -/
def safe (result : Except SnapshotError α) : Checked α := ExceptT.mk (some result)

/-- Gives an error. -/
def refuse (error : SnapshotError) : Checked α := safe (.error error)

/-- Goes wrong unless a condition holds. -/
def require (condition : Prop) [Decidable condition] : Checked Unit := if condition then pure () else fault

/-- The byte at a place. -/
def byte (data : List UInt8) (place : Nat) : Checked UInt8 :=
  match data[place]? with
  | some value => pure value
  | none => fault

/-- The word at a place, its low byte first. -/
def word (data : List UInt8) (place : Nat) : Checked UInt16 := do
  let low ← byte data place
  let high ← byte data (place + 1)
  pure (Word.ofBytes high low)

/-- The bytes from a place on. -/
def slice (data : List UInt8) (start : Nat) : Checked (List UInt8) := do
  require (start ≤ data.length)
  pure (data.drop start)

/-- A difference that must not be negative. -/
def difference (a b : Nat) : Checked Nat := do
  require (b ≤ a)
  pure (a - b)

theorem safe_ok (value : α) : safe (.ok value) = pure value := rfl

theorem safe_map (result : Except SnapshotError α) (f : α → β) :
    safe (result.map f) = safe result >>= fun value => pure (f value) := by
  cases result <;> rfl

theorem require_eq {condition : Prop} [Decidable condition] (h : condition) : require condition = pure () := if_pos h

theorem byte_eq {data : List UInt8} {place : Nat} (h : place < data.length) :
    byte data place = pure (Bytes.byteAt data place) := by
  rw [byte, Bytes.byteAt, List.getElem?_eq_getElem h]
  rfl

theorem word_eq {data : List UInt8} {place : Nat} (h : place + 1 < data.length) :
    word data place = pure (Bytes.wordAt data place) := by
  rw [word, byte_eq (Nat.lt_of_succ_lt h), byte_eq h]
  rfl

/-- A word of which only one byte is there. -/
example : word [0x12] 0 = fault := rfl

theorem slice_eq {data : List UInt8} {start : Nat} (h : start ≤ data.length) :
    slice data start = pure (data.drop start) := by
  rw [slice, require_eq h]
  rfl

theorem difference_eq {a b : Nat} (h : b ≤ a) : difference a b = pure (a - b) := by
  rw [difference, require_eq h]
  rfl

end Checked

open Checked

/-! ## SNA -/

namespace Sna

/-- The registers of a header. -/
def readRegistersChecked (data : List UInt8) : Checked Registers := do
  let i ← byte data 0
  let l' ← byte data 1
  let h' ← byte data 2
  let e' ← byte data 3
  let d' ← byte data 4
  let c' ← byte data 5
  let b' ← byte data 6
  let f' ← byte data 7
  let a' ← byte data 8
  let l ← byte data 9
  let h ← byte data 10
  let e ← byte data 11
  let d ← byte data 12
  let c ← byte data 13
  let b ← byte data 14
  let f ← byte data 21
  let a ← byte data 22
  let iy ← word data 15
  let ix ← word data 17
  let flags ← byte data 19
  let refresh ← byte data 20
  let im ← byte data 25
  pure
    { a, f, b, c, d, e, h, l
      alternate := { a := a', f := f', b := b', c := c', d := d', e := e', h := h', l := l' }
      iyl := Word.low iy, iyh := Word.high iy, ixl := Word.low ix, ixh := Word.high ix
      i, r := refresh &&& 0x7F, r7 := refresh &&& 0x80
      iff1 := flags &&& interruptBit != 0, iff2 := flags &&& interruptBit != 0, im }

/-- Reads a file. The stack is looked up in RAM only where it holds a byte, so that this cannot go wrong. -/
def decodeChecked (data : List UInt8) : Checked Snapshot :=
  if data.length ≠ fileSize then refuse (.invalidSize fileSize data.length)
  else do
    let registers ← readRegistersChecked data
    if 2 < registers.im then refuse (.invalidInterruptMode registers.im)
    else do
      let sp ← word data 23
      if Memory.isRom sp then refuse .stackOutsideRam
      else do
        let border ← byte data 26
        let ram ← slice data headerSize
        let snapshot : Snapshot := { border := border &&& 0x07, ram := ram }
        let pc := Word.ofBytes (snapshot.peek (sp + 1)) (snapshot.peek sp)
        pure
          { snapshot with
            cpu :=
              { registers := { registers with pc := pc, sp := sp + 2 }
                tstates := if registers.iff1 then Cpu.interruptLength else 0 } }

end Sna

/-! ## Z80 -/

namespace Z80

/-- The first flag byte, read twice unless it is 255. -/
def flagsChecked (data : List UInt8) : Checked UInt8 := do
  let value ← byte data 12
  if value == 255 then pure 1 else byte data 12

/-- Registers and border colour of the header that all versions share. What cannot be given is refused last. -/
def readHeaderChecked (data : List UInt8) : Checked (Registers × UInt8) := do
  let flags ← flagsChecked data
  let modes ← byte data 29
  let a ← byte data 0
  let f ← byte data 1
  let c ← byte data 2
  let b ← byte data 3
  let l ← byte data 4
  let h ← byte data 5
  let pc ← word data 6
  let sp ← word data 8
  let i ← byte data 10
  let e ← byte data 13
  let d ← byte data 14
  let c' ← byte data 15
  let b' ← byte data 16
  let e' ← byte data 17
  let d' ← byte data 18
  let l' ← byte data 19
  let h' ← byte data 20
  let a' ← byte data 21
  let f' ← byte data 22
  let iff1 ← byte data 27
  let iff2 ← byte data 28
  let refresh ← byte data 11
  let iy ← word data 23
  let ix ← word data 25
  let im := modes &&& 0x03
  if 2 < im then refuse (.invalidInterruptMode im)
  else if flags &&& 0x10 != 0 then refuse (.unsupportedFeature .samRom)
  else if modes &&& 0x04 != 0 then refuse (.unsupportedFeature .issue2)
  else
    pure
      ({ a, f, b, c, d, e, h, l
         alternate := { a := a', f := f', b := b', c := c', d := d', e := e', h := h', l := l' }
         iyl := Word.low iy, iyh := Word.high iy, ixl := Word.low ix, ixh := Word.high ix
         sp, pc, i, r := refresh &&& 0x7F, r7 := (flags &&& 0x01) <<< 7
         iff1 := iff1 != 0, iff2 := iff2 != 0, im },
        (flags >>> 1) &&& 0x07)

/-- Whether a run begins at a place. -/
def beginsRun (limit : Nat) (source : List UInt8) (place : Nat) : Checked Bool := do
  require (place + 4 ≤ limit)
  if place + 4 ≤ source.length then
    let first ← byte source place
    if first == 0xED then
      let second ← byte source (place + 1)
      pure (second == 0xED)
    else pure false
  else pure false

/-- Expands what begins at a place; `expanded` holds what has been expanded so far, last byte first. -/
def expandFrom (limit : Nat) (source : List UInt8) (place : Nat) (expanded : List UInt8) : Checked (List UInt8) :=
  if _ : place < source.length then do
    if ← beginsRun limit source place then
      let count ← byte source (place + 2)
      let value ← byte source (place + 3)
      expandFrom limit source (place + 4) (List.replicate count.toNat value ++ expanded)
    else
      let value ← byte source place
      expandFrom limit source (place + 1) (value :: expanded)
  else pure expanded
termination_by source.length - place

/-- The expansion of a compressed byte string. -/
def decompressChecked (limit : Nat) (source : List UInt8) : Checked (List UInt8) := do
  let expanded ← expandFrom limit source 0 []
  pure expanded.reverse

/-- Reads RAM of version 1. -/
def readImageChecked (limit : Nat) (compressed : Bool) (body : List UInt8) : Checked (List UInt8) := do
  let ram ←
    if compressed then
      match dropEndMarker? body with
      | some image => decompressChecked limit image
      | none => refuse .missingEndMarker
    else pure body
  if ram.length = Memory.ramSize then pure ram else refuse (.decompressedLength Memory.ramSize ram.length)

/-- Reads a file of version 1. -/
def decodeV1Checked (limit : Nat) (data : List UInt8) : Checked Snapshot := do
  let (registers, border) ← readHeaderChecked data
  let body ← slice data headerSize
  let flags ← flagsChecked data
  let ram ← readImageChecked limit (flags &&& 0x20 != 0) body
  pure { cpu := { registers := registers }, border := border, ram := ram }

/-- Where a page stands among the three. -/
def PageSlot.place : PageSlot → Nat
  | .low => 0
  | .middle => 1
  | .high => 2

/-- Reads the page in the block after its length word and page number. -/
def readBlockChecked (limit : Nat) (length : UInt16) (number : UInt8) (data : List UInt8) :
    Checked (PageSlot × List UInt8) :=
  let stored := storedLength length
  if data.length < stored then refuse .truncated
  else do
    require (stored ≤ data.length)
    match PageSlot.ofNumber? number with
    | none => refuse (.invalidPage number)
    | some slot =>
      let contents ← if length = rawLength then pure (data.take stored) else decompressChecked limit (data.take stored)
      if contents.length = pageSize then pure (slot, contents) else refuse (.pageLength number contents.length)

/-- Reads blocks to the end of a byte string into the table of the pages, and counts them. -/
def readBlocksChecked (limit : Nat) (blocks : List UInt8) (pages : List (Option (List UInt8))) (count : Nat) :
    Checked (List (Option (List UInt8)) × Nat) :=
  if _ : 3 ≤ blocks.length then do
    let length ← word blocks 0
    let number ← byte blocks 2
    require (3 ≤ blocks.length)
    let (slot, contents) ← readBlockChecked limit length number (blocks.drop 3)
    require (slot.place < pages.length)
    require (count + 1 ≤ limit)
    readBlocksChecked limit ((blocks.drop 3).drop (storedLength length)) (pages.set slot.place (some contents)) (count + 1)
  else if blocks.isEmpty then pure (pages, count)
  else refuse .trailingData
termination_by blocks.length
decreasing_by
  simp only [List.length_drop]
  omega

/-- Reads RAM of versions 2 and 3. -/
def readPagesChecked (limit : Nat) (data : List UInt8) : Checked (List UInt8) := do
  let (pages, count) ← readBlocksChecked limit data [none, none, none] 0
  if count ≠ 3 then refuse (.pageCount count)
  else
    pages.foldlM (fun ram page? =>
      match page? with
      | some page => pure (ram ++ page)
      | none => refuse (.pageCount count)) []

/-- The clock of version 3. -/
def restoreClockChecked (low : UInt16) (high : UInt8) : Checked Nat := do
  require (0 < quarter)
  let below ← difference quarter (low.toNat % quarter)
  let below ← difference below 1
  let clock := ((high &&& 0x03).toNat + 1) % 4 * quarter + below
  require (clock < 2 ^ 32)
  pure clock

/-- Refuses what is paged in. -/
def refusePaged (data : List UInt8) : List (Nat × Feature) → Checked Unit
  | [] => pure ()
  | (place, feature) :: more => do
    let value ← byte data place
    if value == 0xFF then refuse (.unsupportedFeature feature) else refusePaged data more

/-- Reads a file of version 2 or 3, in which RAM begins at a place. -/
def decodeExtendedChecked (limit : Nat) (data : List UInt8) (bodyStart : Nat) : Checked Snapshot :=
  if data.length < bodyStart then refuse .truncated
  else do
    let (registers, border) ← readHeaderChecked data
    let pc ← word data 32
    let mode ← byte data 34
    if 1 < mode then refuse (.unsupportedHardwareMode mode)
    else
      let hardware ← byte data 37
      if hardware &&& 0x80 != 0 then refuse (.unsupportedFeature .modifiedHardware)
      else
        let clock ←
          if bodyStart ≠ Layout.v2.bodyStart then do
            let low ← word data 55
            let high ← byte data 57
            let clock ← restoreClockChecked low high
            refusePaged data [(59, .mgtRom), (60, .multifaceRom), (61, .lowRam), (62, .middleRam)]
            pure clock
          else pure 0
        let body ← slice data bodyStart
        let ram ← readPagesChecked limit body
        pure { cpu := { registers := { registers with pc := pc }, tstates := clock }, border := border, ram := ram }

/-- Reads a file. -/
def decodeChecked (limit : Nat) (data : List UInt8) : Checked Snapshot :=
  if data.length < headerSize then refuse .truncated
  else do
    let pc ← word data 6
    if pc ≠ 0 then decodeV1Checked limit data
    else if data.length < Layout.v2.bodyStart then refuse .truncated
    else
      let extension ← word data 30
      let bodyStart := headerSize + 2 + extension.toNat
      require (bodyStart ≤ limit)
      if bodyStart = Layout.v2.bodyStart ∨ bodyStart = Layout.v3.bodyStart ∨ bodyStart = Layout.v3Extended.bodyStart then
        decodeExtendedChecked limit data bodyStart
      else refuse .unsupportedVersion

end Z80

/-- Reads a file of a known format. -/
def Snapshot.decodeChecked (limit : Nat) (data : List UInt8) : SnapshotFormat → Checked Snapshot
  | .sna => Sna.decodeChecked data
  | .z80 => Z80.decodeChecked limit data

end ZxSpectrum
