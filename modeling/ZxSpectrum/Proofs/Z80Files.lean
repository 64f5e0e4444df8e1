import ZxSpectrum.Proofs.BitFields
import ZxSpectrum.Proofs.Compression

/-!
# Z80 files of a state

A state has many Z80 files (`Encodes`): the versions differ in their headers, RAM may be compressed in many ways, pages come
in any order, and bits without a meaning are free. All of them decode to the state (`decode_of_encodes`).

Headers, extended headers and pages are described one by one and read back one by one; the theorem puts them together for
each version.
-/

namespace ZxSpectrum.Z80

open Bytes

/-! ## What a file holds -/

/-- The bytes of the shared header that pack several fields. -/
structure Packing where
  /-- The low bits of the refresh register. -/
  refresh : UInt8
  flags : UInt8
  /-- The first flag byte as it stands in the file: some programs write 255 for 1. -/
  flagByte : UInt8
  iff1 : UInt8
  iff2 : UInt8
  modes : UInt8

/-- The packed bytes hold the registers and the border colour, and ask for no feature that is not supported. -/
structure Packing.Holds (packing : Packing) (registers : Registers) (border : UInt8) : Prop where
  refresh : packing.refresh.toNat % 128 = registers.refresh.toNat % 128
  refreshTop : packing.flags.toNat % 2 = registers.refresh.toNat / 128
  border : packing.flags.toNat / 2 % 8 = border.toNat
  noSamRom : packing.flags.toNat / 16 % 2 = 0
  flagByte : packing.flagByte = packing.flags ∨ packing.flagByte = 255 ∧ packing.flags = 1
  iff1 : packing.iff1 = 0 ↔ registers.iff1 = false
  iff2 : packing.iff2 = 0 ↔ registers.iff2 = false
  im : packing.modes.toNat % 4 = registers.im.toNat
  noIssue2 : packing.modes.toNat / 4 % 2 = 0

/-- The header that all versions share, with a word in the place of the program counter. -/
def header (registers : Registers) (pc : UInt16) (packing : Packing) : List UInt8 :=
  [registers.a, registers.f, registers.c, registers.b, registers.l, registers.h, Word.low pc, Word.high pc,
    Word.low registers.sp, Word.high registers.sp, registers.i, packing.refresh, packing.flagByte,
    registers.e, registers.d, registers.alternate.c, registers.alternate.b, registers.alternate.e, registers.alternate.d,
    registers.alternate.l, registers.alternate.h, registers.alternate.a, registers.alternate.f,
    registers.iyl, registers.iyh, registers.ixl, registers.ixh, packing.iff1, packing.iff2, packing.modes]

/-- The extended header holds the program counter, and asks for no hardware but the plain one. -/
structure Extended (pc : UInt16) (extension : List UInt8) : Prop where
  pc : wordAt extension 0 = pc
  mode : byteAt extension 2 ≤ 1
  unmodified : (byteAt extension 5).toNat / 128 = 0

/-- The extended header of version 3 holds the clock, and pages in nothing. -/
structure Clocked (clock : Nat) (extension : List UInt8) : Prop where
  low : (wordAt extension 23).toNat = 17471 - clock % 17472
  high : (byteAt extension 25).toNat = (clock / 17472 + 3) % 4
  unpaged : ∀ place ∈ [27, 28, 29, 30], byteAt extension place ≠ 0xFF

/-- The number of a page. -/
def PageSlot.number : PageSlot → UInt8
  | .low => 8
  | .middle => 4
  | .high => 5

/-- What a page holds of RAM. -/
def PageSlot.contents (ram : List UInt8) : PageSlot → List UInt8
  | .low => ram.take pageSize
  | .middle => (ram.drop pageSize).take pageSize
  | .high => ram.drop (2 * pageSize)

/-- Blocks for some pages of RAM, one after the other. -/
inductive Blocks (ram : List UInt8) : List PageSlot → List UInt8 → Prop where
  | nil : Blocks ram [] []
  | raw {slot : PageSlot} {slots : List PageSlot} {body : List UInt8} (rest : Blocks ram slots body) :
      Blocks ram (slot :: slots) (0xFF :: 0xFF :: slot.number :: (slot.contents ram ++ body))
  | compressed {slot : PageSlot} {slots : List PageSlot} {stream body : List UInt8}
      (compresses : Compresses stream (slot.contents ram)) (short : stream.length < 0xFFFF) (rest : Blocks ram slots body) :
      Blocks ram (slot :: slots) (ofWord (UInt16.ofNat stream.length) ++ slot.number :: (stream ++ body))

/-- One block for each page, in any order. -/
def Pages (ram body : List UInt8) : Prop :=
  ∃ slots : List PageSlot, slots.Perm [.low, .middle, .high] ∧ Blocks ram slots body

/-- The files of a state. -/
inductive Encodes (snapshot : Snapshot) : List UInt8 → Prop where
  /-- Version 1. -/
  | plain {packing : Packing} (pc : snapshot.cpu.registers.pc ≠ 0) (clock : snapshot.cpu.tstates = 0)
      (holds : packing.Holds snapshot.cpu.registers snapshot.border) (flag : packing.flags.toNat / 32 % 2 = 0) :
      Encodes snapshot (header snapshot.cpu.registers snapshot.cpu.registers.pc packing ++ snapshot.ram)
  /-- Version 1, compressed. -/
  | compressed {packing : Packing} {stream : List UInt8} (pc : snapshot.cpu.registers.pc ≠ 0)
      (clock : snapshot.cpu.tstates = 0) (holds : packing.Holds snapshot.cpu.registers snapshot.border)
      (flag : packing.flags.toNat / 32 % 2 = 1) (compresses : Compresses stream snapshot.ram) :
      Encodes snapshot
        (header snapshot.cpu.registers snapshot.cpu.registers.pc packing ++ (stream ++ [0x00, 0xED, 0xED, 0x00]))
  /-- Version 2. -/
  | paged {packing : Packing} {extension body : List UInt8} (clock : snapshot.cpu.tstates = 0)
      (holds : packing.Holds snapshot.cpu.registers snapshot.border) (length : extension.length = 23)
      (extended : Extended snapshot.cpu.registers.pc extension) (pages : Pages snapshot.ram body) :
      Encodes snapshot
        (header snapshot.cpu.registers 0 packing ++ (ofWord (UInt16.ofNat extension.length) ++ (extension ++ body)))
  /-- Version 3. -/
  | clocked {packing : Packing} {extension body : List UInt8} (clock : snapshot.cpu.tstates < 69888)
      (holds : packing.Holds snapshot.cpu.registers snapshot.border)
      (length : extension.length = 54 ∨ extension.length = 55)
      (extended : Extended snapshot.cpu.registers.pc extension) (clocked : Clocked snapshot.cpu.tstates extension)
      (pages : Pages snapshot.ram body) :
      Encodes snapshot
        (header snapshot.cpu.registers 0 packing ++ (ofWord (UInt16.ofNat extension.length) ++ (extension ++ body)))

/-! ## Places in a file -/

theorem byteAt_append_left {front : List UInt8} {place : Nat} (h : place < front.length) (rest : List UInt8) :
    byteAt (front ++ rest) place = byteAt front place := by
  rw [byteAt, byteAt, List.getElem?_append_left h]

theorem byteAt_append_right (front rest : List UInt8) (place : Nat) :
    byteAt (front ++ rest) (front.length + place) = byteAt rest place := by
  rw [byteAt, byteAt, List.getElem?_append_right (Nat.le_add_right _ _), Nat.add_sub_cancel_left]

/-! ## The shared header -/

section Header

variable {packing : Packing} {registers : Registers} {border : UInt8}

theorem length_header (registers : Registers) (pc : UInt16) (packing : Packing) :
    (header registers pc packing).length = 30 := rfl

/-- The word in the place of the program counter. -/
theorem wordAt_header (registers : Registers) (pc : UInt16) (packing : Packing) (rest : List UInt8) :
    wordAt (header registers pc packing ++ rest) 6 = pc := Word.ofBytes_high_low pc

/-- The first flag byte is read as it was meant. -/
theorem Packing.Holds.flags_header (holds : packing.Holds registers border) (pc : UInt16) (rest : List UInt8) :
    Z80.flags (header registers pc packing ++ rest) = packing.flags := by
  change (if packing.flagByte == 255 then 1 else packing.flagByte) = packing.flags
  rcases holds.flagByte with heq | ⟨hbyte, hflags⟩
  · have hne : ¬ (packing.flagByte == 255) = true := by
      rw [beq_iff_eq, heq]
      intro hall
      have hbit := holds.noSamRom
      rw [hall] at hbit
      exact absurd hbit (by decide)
    rw [if_neg hne, heq]
  · rw [hbyte, hflags]
    rfl

/-- Every byte of the header lands in its register. -/
theorem Packing.Holds.readRegisters_header (holds : packing.Holds registers border) (pc : UInt16) (rest : List UInt8) :
    readRegisters (header registers pc packing ++ rest) =
      { registers.setRefresh registers.refresh with pc := pc } := by
  have hr : packing.refresh &&& 0x7F = registers.refresh &&& 0x7F := by
    rw [← UInt8.toNat_inj, toNat_and_field _ 0 7 rfl, toNat_and_field _ 0 7 rfl]
    have h := holds.refresh
    omega
  have hr7 : (packing.flags &&& 0x01) <<< 7 = registers.refresh &&& 0x80 := by
    have hlt := registers.refresh.toNat_lt
    have h := holds.refreshTop
    rw [← UInt8.toNat_inj, UInt8.toNat_shiftLeft, toNat_and_field _ 0 1 rfl, toNat_and_field _ 7 1 rfl]
    rw [Nat.shiftLeft_eq]
    change packing.flags.toNat / 2 ^ 0 % 2 ^ 1 * 2 ^ 0 * 2 ^ 7 % 2 ^ 8 = _
    omega
  have him : packing.modes &&& 0x03 = registers.im := by
    have h := holds.im
    rw [← UInt8.toNat_inj, toNat_and_field _ 0 2 rfl]
    omega
  have hiff1 : (packing.iff1 != 0) = registers.iff1 := by
    have h := holds.iff1
    cases hf : registers.iff1 <;> simp_all
  have hiff2 : (packing.iff2 != 0) = registers.iff2 := by
    have h := holds.iff2
    cases hf : registers.iff2 <;> simp_all
  have hpc := Word.ofBytes_high_low pc
  have hsp := Word.ofBytes_high_low registers.sp
  have hflags := holds.flags_header pc rest
  unfold readRegisters moreFlags
  rw [hflags, hr7, wordAt_header]
  change Registers.mk _ _ _ _ _ _ _ _ _ _ _ _ _ (Word.ofBytes (Word.high registers.sp) (Word.low registers.sp)) _ _
    (packing.refresh &&& 0x7F) _ (packing.iff1 != 0) (packing.iff2 != 0) (packing.modes &&& 0x03) = _
  rw [hsp, hr, hiff1, hiff2, him]
  rfl

theorem Packing.Holds.readBorder_header (holds : packing.Holds registers border) (pc : UInt16) (rest : List UInt8) :
    readBorder (header registers pc packing ++ rest) = border := by
  have h := holds.border
  rw [readBorder, holds.flags_header, ← UInt8.toNat_inj, toNat_and_field _ 0 3 rfl, UInt8.toNat_shiftRight,
    Nat.shiftRight_eq_div_pow]
  change packing.flags.toNat / 2 ^ 1 / 2 ^ 0 % 2 ^ 3 * 2 ^ 0 = _
  omega

/-- The header asks for nothing that cannot be given. -/
theorem Packing.Holds.headerProblem?_header (holds : packing.Holds registers border) (him : registers.im ≤ 2) (pc : UInt16)
    (rest : List UInt8) : headerProblem? (header registers pc packing ++ rest) = none := by
  have hmode : ¬ 2 < packing.modes &&& 0x03 := by
    have h := holds.im
    have hle := UInt8.le_iff_toNat_le.mp him
    rw [UInt8.not_lt, UInt8.le_iff_toNat_le, toNat_and_field _ 0 2 rfl]
    change _ ≤ 2
    change _ ≤ 2 at hle
    omega
  have hsam : ¬ (packing.flags &&& 0x10 != 0) = true := by
    rw [and_bit_ne_zero _ 4 rfl, beq_iff_eq]
    have h := holds.noSamRom
    omega
  have hissue : ¬ (packing.modes &&& 0x04 != 0) = true := by
    rw [and_bit_ne_zero _ 2 rfl, beq_iff_eq]
    have h := holds.noIssue2
    omega
  have hmodes : moreFlags (header registers pc packing ++ rest) = packing.modes := rfl
  rw [headerProblem?, holds.flags_header, hmodes, if_neg hmode, if_neg hsam, if_neg hissue]

/-- The flag of compressed RAM. -/
theorem Packing.Holds.compressed_header (holds : packing.Holds registers border) (pc : UInt16) (rest : List UInt8) :
    (Z80.flags (header registers pc packing ++ rest) &&& 0x20 != 0) = (packing.flags.toNat / 32 % 2 == 1) := by
  rw [holds.flags_header]
  exact and_bit_ne_zero _ 5 rfl

end Header

/-! ## The clock -/

/-- The quarters count up from the last one, and the T-states in a quarter count down. -/
theorem restoreClock_of_clock {clock : Nat} {low : UInt16} {high : UInt8} (h : clock < 69888)
    (hlow : low.toNat = 17471 - clock % 17472) (hhigh : high.toNat = (clock / 17472 + 3) % 4) :
    restoreClock low high = clock := by
  have hquarter : quarter = 17472 := rfl
  have hmask := toNat_and_field high 0 2 (show (0x03 : UInt8).toNat = (2 ^ 2 - 1) * 2 ^ 0 from rfl)
  rw [restoreClock, hmask, hlow, hhigh, hquarter]
  omega

/-! ## The extended header -/

section Extension

variable {pc : UInt16} {clock : Nat} {extension : List UInt8}

/-- What follows the shared header: the extended header after its length, then RAM. -/
def extendedRest (extension body : List UInt8) : List UInt8 :=
  ofWord (UInt16.ofNat extension.length) ++ (extension ++ body)

/-- A byte of the extended header, seen from the start of the file. -/
theorem byteAt_extension (registers : Registers) (packing : Packing) (body : List UInt8) {place : Nat}
    (h : place < extension.length) :
    byteAt (header registers 0 packing ++ extendedRest extension body) (32 + place) = byteAt extension place := by
  have hfront : (header registers 0 packing ++ ofWord (UInt16.ofNat extension.length)).length = 32 := rfl
  rw [extendedRest, ← List.append_assoc, ← hfront, byteAt_append_right, byteAt_append_left h]

theorem wordAt_extension (registers : Registers) (packing : Packing) (body : List UInt8) {place : Nat}
    (h : place + 1 < extension.length) :
    wordAt (header registers 0 packing ++ extendedRest extension body) (32 + place) = wordAt extension place := by
  rw [wordAt, Nat.add_assoc, byteAt_extension registers packing body h,
    byteAt_extension registers packing body (Nat.lt_of_succ_lt h), wordAt]

/-- RAM begins behind the extended header. -/
theorem drop_extension (registers : Registers) (packing : Packing) (extension body : List UInt8) :
    (header registers 0 packing ++ extendedRest extension body).drop (32 + extension.length) = body := by
  have hfront : (header registers 0 packing ++ ofWord (UInt16.ofNat extension.length) ++ extension).length =
      32 + extension.length := by
    rw [List.length_append]
    rfl
  rw [extendedRest, ← List.append_assoc, ← List.append_assoc, ← hfront, List.drop_left]

/-- The length of the extended header tells the layout. -/
theorem layoutOf_extension (registers : Registers) (packing : Packing) (body : List UInt8) {layout : Layout}
    (hlayout : layout ≠ .v1) (hsize : 32 + extension.length = layout.bodyStart) :
    layoutOf (header registers 0 packing ++ extendedRest extension body) = .ok layout := by
  have hlength : (header registers 0 packing ++ extendedRest extension body).length =
      32 + extension.length + body.length := by
    rw [List.length_append, extendedRest, List.length_append, List.length_append, length_header, ofWord]
    simp only [List.length_cons, List.length_nil]
    omega
  have hword : wordAt (header registers 0 packing ++ extendedRest extension body) 30 =
      UInt16.ofNat extension.length := Word.ofBytes_high_low _
  have hpc := wordAt_header registers 0 packing (extendedRest extension body)
  have hv2 : Layout.v2.bodyStart = 55 := rfl
  have hv3 : Layout.v3.bodyStart = 86 := rfl
  have hv3x : Layout.v3Extended.bodyStart = 87 := rfl
  have hstart : headerSize = 30 := rfl
  rw [layoutOf, hlength, hpc, hword, if_neg (by omega), if_neg (by simp)]
  cases layout with
  | v1 => exact absurd rfl hlayout
  | v2 =>
    have heq : extension.length = 23 := by omega
    rw [heq, if_neg (by omega)]
    rfl
  | v3 =>
    have heq : extension.length = 54 := by omega
    rw [heq, if_neg (by omega)]
    exact if_neg (by omega)
  | v3Extended =>
    have heq : extension.length = 55 := by omega
    rw [heq, if_neg (by omega)]
    exact if_neg (by omega)

/-- The extended header asks for nothing that cannot be given. -/
theorem extendedProblem?_extension (registers : Registers) (packing : Packing) (body : List UInt8) {layout : Layout}
    (hlayout : layout ≠ .v1) (hsize : 32 + extension.length = layout.bodyStart) (extended : Extended pc extension)
    (hclocked : layout ≠ .v2 → Clocked clock extension) :
    extendedProblem? layout (header registers 0 packing ++ extendedRest extension body) = none := by
  have hlength : 23 ≤ extension.length := by
    cases layout <;> simp_all [Layout.bodyStart, headerSize] <;> omega
  have hmode := byteAt_extension registers packing body (show 2 < extension.length by omega)
  have hhardware := byteAt_extension registers packing body (show 5 < extension.length by omega)
  have hbit : ¬ (byteAt extension 5 &&& 0x80 != 0) = true := by
    rw [and_bit_ne_zero _ 7 rfl, beq_iff_eq]
    have h := extended.unmodified
    omega
  rw [extendedProblem?, hmode, hhardware, if_neg (UInt8.not_lt.mpr extended.mode), if_neg hbit]
  by_cases hv2 : layout = .v2
  · rw [if_pos hv2]
  · have hlong : 54 ≤ extension.length := by
      cases layout <;> simp_all [Layout.bodyStart, headerSize] <;> omega
    have hunpaged := (hclocked hv2).unpaged
    rw [if_neg hv2, Option.map_eq_none_iff, List.find?_eq_none]
    rintro ⟨address, feature⟩ hentry
    have hplace : ∃ place ∈ [27, 28, 29, 30], address = 32 + place := by
      simp only [List.mem_cons, List.not_mem_nil, or_false, Prod.mk.injEq] at hentry
      rcases hentry with ⟨rfl, -⟩ | ⟨rfl, -⟩ | ⟨rfl, -⟩ | ⟨rfl, -⟩ <;> simp
    obtain ⟨place, hin, rfl⟩ := hplace
    have hlt : place < extension.length := by
      simp only [List.mem_cons, List.not_mem_nil, or_false] at hin
      omega
    change ¬ (byteAt (header registers 0 packing ++ extendedRest extension body) (32 + place) == 0xFF) = true
    rw [byteAt_extension registers packing body hlt, beq_iff_eq]
    exact hunpaged place hin

end Extension

/-! ## Pages -/

section Pages

variable {ram : List UInt8}

theorem length_contents (h : ram.length = Memory.ramSize) (slot : PageSlot) : (slot.contents ram).length = pageSize := by
  have hram : ram.length = 49152 := h
  have hpage : pageSize = 16384 := rfl
  cases slot <;> simp only [PageSlot.contents, List.length_take, List.length_drop] <;> omega

/-- Three pages one after the other. -/
theorem contents_of_append {low middle : List UInt8} (hlow : low.length = pageSize) (hmiddle : middle.length = pageSize)
    (high : List UInt8) : PageSlot.low.contents (low ++ (middle ++ high)) = low ∧
      PageSlot.middle.contents (low ++ (middle ++ high)) = middle ∧
      PageSlot.high.contents (low ++ (middle ++ high)) = high := by
  have hdrop : (low ++ (middle ++ high)).drop pageSize = middle ++ high := by rw [← hlow, List.drop_left]
  refine ⟨?_, ?_, ?_⟩
  · rw [PageSlot.contents, ← hlow, List.take_left]
  · rw [PageSlot.contents, hdrop, ← hmiddle, List.take_left]
  · rw [PageSlot.contents, Nat.two_mul, ← List.drop_drop, hdrop, ← hmiddle, List.drop_left]

/-- The pages make up RAM. -/
theorem contents_append (ram : List UInt8) :
    PageSlot.low.contents ram ++ PageSlot.middle.contents ram ++ PageSlot.high.contents ram = ram := by
  have hhigh : ram.drop (2 * pageSize) = (ram.drop pageSize).drop pageSize := by rw [List.drop_drop, Nat.two_mul]
  rw [PageSlot.contents, PageSlot.contents, PageSlot.contents, hhigh, List.append_assoc, List.take_append_drop,
    List.take_append_drop]

theorem ofNumber?_number (slot : PageSlot) : PageSlot.ofNumber? slot.number = some slot := by
  cases slot <;> rfl

/-- A block is taken as long as its length word says, and expanded if that is not the one for raw blocks. -/
theorem readBlock_append {length : UInt16} {stored contents : List UInt8} (slot : PageSlot) (body : List UInt8)
    (hstored : storedLength length = stored.length)
    (hcontents : (if length = rawLength then stored else decompress stored) = contents)
    (hlength : contents.length = pageSize) :
    readBlock length slot.number (stored ++ body) = .ok (slot, contents, body) := by
  have hlong : ¬ (stored ++ body).length < stored.length := by
    rw [List.length_append]
    omega
  simp only [readBlock, hstored, if_neg hlong, ofNumber?_number, List.take_left, List.drop_left, hcontents, hlength, if_true]

/-- A block that is not compressed. -/
theorem readBlock_raw (h : ram.length = Memory.ramSize) (slot : PageSlot) (body : List UInt8) :
    readBlock rawLength slot.number (slot.contents ram ++ body) = .ok (slot, slot.contents ram, body) := by
  have hlength := length_contents h slot
  have hstored : storedLength rawLength = (slot.contents ram).length := by rw [storedLength, if_pos rfl, hlength]
  exact readBlock_append slot body hstored (if_pos rfl) hlength

/-- A compressed block. -/
theorem readBlock_compressed (h : ram.length = Memory.ramSize) {slot : PageSlot} {stream : List UInt8}
    (compresses : Compresses stream (slot.contents ram)) (short : stream.length < 0xFFFF) (body : List UInt8) :
    readBlock (UInt16.ofNat stream.length) slot.number (stream ++ body) = .ok (slot, slot.contents ram, body) := by
  have htoNat : (UInt16.ofNat stream.length).toNat = stream.length := by
    rw [UInt16.toNat_ofNat']
    omega
  have hraw : UInt16.ofNat stream.length ≠ rawLength := by
    intro heq
    rw [heq] at htoNat
    change 0xFFFF = stream.length at htoNat
    omega
  have hstored : storedLength (UInt16.ofNat stream.length) = stream.length := by rw [storedLength, if_neg hraw, htoNat]
  exact readBlock_append slot body hstored (by rw [if_neg hraw, compresses.expand]) (length_contents h slot)

/-- A block is read, then the rest. -/
theorem readBlocks_cons {low high number : UInt8} {data rest contents : List UInt8} {slot : PageSlot}
    {blocks : List (PageSlot × List UInt8)}
    (h : readBlock (Word.ofBytes high low) number data = .ok (slot, contents, rest))
    (hrest : readBlocks rest = .ok blocks) :
    readBlocks (low :: high :: number :: data) = .ok ((slot, contents) :: blocks) := by
  rw [readBlocks]
  split
  · rename_i error herror
    rw [h] at herror
    exact absurd herror (by simp)
  · rename_i block hblock
    rw [h] at hblock
    cases hblock
    simp only [hrest]

/-- Blocks are read in their order. -/
theorem Blocks.read (h : ram.length = Memory.ramSize) {slots : List PageSlot} {body : List UInt8}
    (blocks : Blocks ram slots body) : readBlocks body = .ok (slots.map fun slot => (slot, slot.contents ram)) := by
  induction blocks with
  | nil => rw [readBlocks]; rfl
  | raw rest ih => exact readBlocks_cons (readBlock_raw h _ _) ih
  | @compressed slot slots stream body compresses short rest ih =>
    refine readBlocks_cons ?_ ih
    rw [Word.ofBytes_high_low]
    exact readBlock_compressed h compresses short _

/-- A page is found in whatever order the blocks come. -/
theorem pageOf?_map (contents : PageSlot → List UInt8) {slots : List PageSlot} {slot : PageSlot} (h : slot ∈ slots) :
    pageOf? (slots.map fun slot => (slot, contents slot)) slot = some (contents slot) := by
  have hfind : slots.reverse.find? (fun other => decide (other = slot)) = some slot := by
    cases hfound : slots.reverse.find? (fun other => decide (other = slot)) with
    | none =>
      rw [List.find?_eq_none] at hfound
      exact absurd (decide_eq_true rfl) (hfound slot (List.mem_reverse.mpr h))
    | some other =>
      have hother := List.find?_some hfound
      rw [of_decide_eq_true hother]
  rw [pageOf?, ← List.map_reverse, List.find?_map]
  simp only [Function.comp_def, hfind, Option.map_some]

/-- One block for each page gives back RAM. -/
theorem Pages.read (h : ram.length = Memory.ramSize) {body : List UInt8} (pages : Pages ram body) :
    readPages body = .ok ram := by
  obtain ⟨slots, hperm, blocks⟩ := pages
  have hlength : slots.length = 3 := hperm.length_eq
  have hmem : ∀ slot, slot ∈ slots := fun slot => by
    rw [hperm.mem_iff]
    cases slot <;> simp
  rw [readPages, blocks.read h]
  change (if (slots.map _).length ≠ 3 then _ else _) = _
  rw [List.length_map, hlength, if_neg (by simp)]
  simp only [pageOf?_map (fun slot => slot.contents ram) (hmem _), contents_append]

end Pages

/-! ## Whole files -/

/-- A file of version 1: what its header cannot give is refused, else RAM is read. -/
theorem decode_v1 {file : List UInt8} (hlayout : layoutOf file = .ok .v1) : decode file =
    match headerProblem? file with
    | some error => .error error
    | none => (readImage (flags file &&& 0x20 != 0) (file.drop headerSize)).map fun ram =>
        { cpu := { registers := readRegisters file }, border := readBorder file, ram := ram } := by
  rw [decode, hlayout]
  cases hproblem : headerProblem? file with
  | some error => rfl
  | none => cases hram : readImage (flags file &&& 0x20 != 0) (file.drop headerSize) <;>
      simp only [Layout.bodyStart, hram, bind, Except.bind, pure, Except.pure, Except.map]

/-- A file with an extended header: what its headers cannot give is refused, else RAM is read. -/
theorem decode_extended {file : List UInt8} {layout : Layout} (hv1 : layout ≠ .v1) (hlayout : layoutOf file = .ok layout) :
    decode file =
      match headerProblem? file with
      | some error => .error error
      | none =>
        match extendedProblem? layout file with
        | some error => .error error
        | none => (readPages (file.drop layout.bodyStart)).map fun ram =>
          { cpu :=
              { registers := { readRegisters file with pc := wordAt file 32 }
                tstates := if layout = .v2 then 0 else restoreClock (wordAt file 55) (byteAt file 57) }
            border := readBorder file
            ram := ram } := by
  rw [decode, hlayout]
  cases layout with
  | v1 => exact absurd rfl hv1
  | _ =>
    cases hproblem : headerProblem? file with
    | some error => rfl
    | none =>
      cases hextended : extendedProblem? _ file with
      | some error => simp only [hextended, bind, Except.bind, throw, throwThe, MonadExceptOf.throw]
      | none => cases hram : readPages (file.drop _) <;>
          simp only [hextended, hram, bind, Except.bind, pure, Except.pure, Except.map]

/-- The state with the two halves of the refresh register apart, as every load of it leaves them. -/
def canonical (snapshot : Snapshot) : Snapshot :=
  { snapshot with cpu.registers := snapshot.cpu.registers.setRefresh snapshot.cpu.registers.refresh }

/-- What follows the extended header of version 2 or 3 is decoded to RAM, and the headers to the rest of the state. -/
theorem decode_extension {snapshot : Snapshot} {packing : Packing} {extension body : List UInt8} {layout : Layout}
    (him : snapshot.cpu.registers.im ≤ 2) (hram : snapshot.ram.length = Memory.ramSize) (hv1 : layout ≠ .v1)
    (hsize : 32 + extension.length = layout.bodyStart) (holds : packing.Holds snapshot.cpu.registers snapshot.border)
    (extended : Extended snapshot.cpu.registers.pc extension)
    (hv2 : layout = .v2 → snapshot.cpu.tstates = 0)
    (hclocked : layout ≠ .v2 → snapshot.cpu.tstates < 69888 ∧ Clocked snapshot.cpu.tstates extension)
    (pages : Pages snapshot.ram body) :
    decode (header snapshot.cpu.registers 0 packing ++ extendedRest extension body) = .ok (canonical snapshot) := by
  have hlength : 23 ≤ extension.length := by
    cases layout <;> simp_all [Layout.bodyStart, headerSize] <;> omega
  have hpages : readPages ((header snapshot.cpu.registers 0 packing ++ extendedRest extension body).drop layout.bodyStart) =
      .ok snapshot.ram := by
    rw [← hsize, drop_extension, pages.read hram]
  have hclock : (if layout = .v2 then 0 else
      restoreClock (wordAt (header snapshot.cpu.registers 0 packing ++ extendedRest extension body) 55)
        (byteAt (header snapshot.cpu.registers 0 packing ++ extendedRest extension body) 57)) = snapshot.cpu.tstates := by
    by_cases h : layout = .v2
    · rw [if_pos h, hv2 h]
    · obtain ⟨hclock, clocked⟩ := hclocked h
      have hlong : 54 ≤ extension.length := by
        cases layout <;> simp_all [Layout.bodyStart, headerSize] <;> omega
      have hlow := wordAt_extension snapshot.cpu.registers packing body (show 23 + 1 < extension.length by omega)
      have hhigh := byteAt_extension snapshot.cpu.registers packing body (show 25 < extension.length by omega)
      rw [if_neg h, hlow, hhigh]
      exact restoreClock_of_clock hclock clocked.low clocked.high
  have hpc := wordAt_extension snapshot.cpu.registers packing body (show 0 + 1 < extension.length by omega)
  have hproblem := holds.headerProblem?_header him 0 (extendedRest extension body)
  have hextended := extendedProblem?_extension snapshot.cpu.registers packing body hv1 hsize extended
    fun h => (hclocked h).2
  rw [decode_extended hv1 (layoutOf_extension _ _ _ hv1 hsize), hproblem, hextended, hpages, hclock,
    holds.readRegisters_header, holds.readBorder_header, hpc, extended.pc]
  rfl

/-- A file of version 1 is decoded to the state, if its body is read as RAM. -/
theorem decode_header {snapshot : Snapshot} {packing : Packing} {body : List UInt8}
    (him : snapshot.cpu.registers.im ≤ 2) (hpc : snapshot.cpu.registers.pc ≠ 0) (hclock : snapshot.cpu.tstates = 0)
    (holds : packing.Holds snapshot.cpu.registers snapshot.border)
    (hbody : readImage (packing.flags.toNat / 32 % 2 == 1) body = .ok snapshot.ram) :
    decode (header snapshot.cpu.registers snapshot.cpu.registers.pc packing ++ body) = .ok (canonical snapshot) := by
  have hlayout : layoutOf (header snapshot.cpu.registers snapshot.cpu.registers.pc packing ++ body) = .ok .v1 := by
    have hlong : ¬ (header snapshot.cpu.registers snapshot.cpu.registers.pc packing ++ body).length < headerSize := by
      rw [List.length_append, length_header, headerSize]
      omega
    rw [layoutOf, if_neg hlong, wordAt_header, if_pos hpc]
  have hdrop : (header snapshot.cpu.registers snapshot.cpu.registers.pc packing ++ body).drop headerSize = body := rfl
  rw [decode_v1 hlayout, holds.headerProblem?_header him, holds.compressed_header, hdrop, hbody,
    holds.readRegisters_header, holds.readBorder_header, canonical, ← hclock]
  rfl

/-- The end marker is found at the end only. -/
theorem dropEndMarker?_append (stream : List UInt8) : dropEndMarker? (stream ++ endMarker) = some stream := by
  have hlength : (stream ++ endMarker).length - endMarker.length = stream.length := by
    rw [List.length_append, Nat.add_sub_cancel]
  simp only [dropEndMarker?, hlength, List.drop_left, List.take_left, if_true]

/-- Every file of a state decodes to it: every layout of the headers, every compression and every order of the pages, whatever
the bits without a meaning are. -/
theorem decode_of_encodes {snapshot : Snapshot} {file : List UInt8} (him : snapshot.cpu.registers.im ≤ 2)
    (hram : snapshot.ram.length = Memory.ramSize) (encodes : Encodes snapshot file) :
    decode file = .ok { snapshot with
      cpu.registers := snapshot.cpu.registers.setRefresh snapshot.cpu.registers.refresh } := by
  cases encodes with
  | plain pc clock holds flag =>
    refine decode_header him pc clock holds ?_
    rw [flag]
    exact if_pos hram
  | @compressed packing stream pc clock holds flag compresses =>
    refine decode_header him pc clock holds ?_
    have hread : readImage true (stream ++ endMarker) = .ok snapshot.ram := by
      simp only [readImage, dropEndMarker?_append, compresses.expand, bind, Except.bind, if_true, hram]
    rw [flag]
    exact hread
  | @paged packing extension body clock holds length extended pages =>
    have hsize : 32 + extension.length = Layout.v2.bodyStart := by rw [length]; rfl
    exact decode_extension him hram (by decide) hsize holds extended (fun _ => clock) (fun h => absurd rfl h) pages
  | @clocked packing extension body clock holds length extended clocked pages =>
    rcases length with length | length
    · have hsize : 32 + extension.length = Layout.v3.bodyStart := by rw [length]; rfl
      exact decode_extension him hram (by decide) hsize holds extended (fun h => absurd h (by decide))
        (fun _ => ⟨clock, clocked⟩) pages
    · have hsize : 32 + extension.length = Layout.v3Extended.bodyStart := by rw [length]; rfl
      exact decode_extension him hram (by decide) hsize holds extended (fun h => absurd h (by decide))
        (fun _ => ⟨clock, clocked⟩) pages

/-- A state with the byte `ED` alone, in a run, and at the end of a page. -/
def markedState : Snapshot where
  cpu :=
    { registers :=
        { a := 1, f := 2, ixh := 3, iyl := 4, sp := 0x8000, pc := 0xC000, r := 5, r7 := 0x80, iff1 := true, im := 1 }
      tstates := 34949 }
  border := 3
  ram := List.replicate pageSize 0 ++ ((0xED :: 0 :: List.replicate 16382 0) ++ (List.replicate 16383 0xED ++ [0xED]))

/-- The packed bytes of a file of that state, with free bits set. -/
def markedPacking : Packing := { refresh := 0x85, flags := 0xC7, flagByte := 0xC7, iff1 := 1, iff2 := 0, modes := 0xC1 }

/-- The extended header of a file of that state. -/
def markedExtension : List UInt8 := [0x00, 0xC0] ++ List.replicate 21 0 ++ [0x3A, 0x44, 0x01] ++ List.replicate 29 0

/-- Its middle page, compressed behind a lone `ED`. -/
def markedMiddle : List UInt8 := 0xED :: 0 :: ((List.replicate 64 [0xED, 0xED, 255, 0]).flatten ++ [0xED, 0xED, 62, 0])

/-- Its last page, with a lone `ED` behind the blocks. -/
def markedHigh : List UInt8 := (List.replicate 64 [0xED, 0xED, 255, 0xED]).flatten ++ [0xED, 0xED, 63, 0xED, 0xED]

/-- A file of that state: version 3, the last page first, and the first page raw. -/
def markedFile : List UInt8 :=
  header markedState.cpu.registers 0 markedPacking ++ (ofWord (UInt16.ofNat markedExtension.length) ++ (markedExtension ++
    (ofWord (UInt16.ofNat markedHigh.length) ++ 5 :: (markedHigh ++
      (0xFF :: 0xFF :: 8 :: (List.replicate pageSize 0 ++
        (ofWord (UInt16.ofNat markedMiddle.length) ++ 4 :: (markedMiddle ++ []))))))))

theorem compresses_markedMiddle : Compresses markedMiddle (0xED :: 0 :: List.replicate 16382 0) := by
  have hlast : Compresses [0xED, 0xED, 62, 0] (List.replicate 62 0) := .block (by decide) .nil
  have hblocks := compresses_blocks 0 (show (255 : UInt8) ≠ 0 by decide) hlast 64
  rw [List.replicate_append_replicate] at hblocks
  exact .literal (fun _ => by decide) (.literal (fun h => absurd h (by decide)) hblocks)

theorem compresses_markedHigh : Compresses markedHigh (List.replicate 16383 0xED ++ [0xED]) := by
  have hlone : Compresses [0xED] [0xED] := .literal (fun _ => by decide) .nil
  have hlast : Compresses [0xED, 0xED, 63, 0xED, 0xED] (List.replicate 63 0xED ++ [0xED]) := .block (by decide) hlone
  have hblocks := compresses_blocks 0xED (show (255 : UInt8) ≠ 0 by decide) hlast 64
  rw [← List.append_assoc, List.replicate_append_replicate] at hblocks
  exact hblocks

theorem encodes_markedFile : Encodes markedState markedFile := by
  have hlow : (List.replicate pageSize (0 : UInt8)).length = pageSize := List.length_replicate
  have hmiddle : (0xED :: 0 :: List.replicate 16382 (0 : UInt8)).length = pageSize := by
    rw [List.length_cons, List.length_cons, List.length_replicate]
    rfl
  have hcontents : PageSlot.low.contents markedState.ram = List.replicate pageSize 0 ∧
      PageSlot.middle.contents markedState.ram = 0xED :: 0 :: List.replicate 16382 0 ∧
      PageSlot.high.contents markedState.ram = List.replicate 16383 0xED ++ [0xED] := contents_of_append hlow hmiddle _
  have hpages : Pages markedState.ram (ofWord (UInt16.ofNat markedHigh.length) ++ 5 :: (markedHigh ++
      (0xFF :: 0xFF :: 8 :: (PageSlot.low.contents markedState.ram ++
        (ofWord (UInt16.ofNat markedMiddle.length) ++ 4 :: (markedMiddle ++ [])))))) := by
    have hhigh : Compresses markedHigh (PageSlot.high.contents markedState.ram) := by
      rw [hcontents.2.2]
      exact compresses_markedHigh
    have hmiddle : Compresses markedMiddle (PageSlot.middle.contents markedState.ram) := by
      rw [hcontents.2.1]
      exact compresses_markedMiddle
    exact ⟨[.high, .low, .middle], by decide,
      .compressed hhigh (by decide +kernel) (.raw (.compressed hmiddle (by decide +kernel) .nil))⟩
  rw [hcontents.1] at hpages
  refine .clocked (by decide) ?_ (.inr rfl) ?_ ?_ hpages
  · exact ⟨rfl, rfl, rfl, rfl, .inl rfl, by decide, by decide, rfl, rfl⟩
  · exact ⟨rfl, by decide, by decide⟩
  · exact ⟨rfl, rfl, by decide⟩

/-- That file decodes to that state. -/
theorem decode_markedFile : markedState.cpu.registers.im ≤ 2 ∧ markedState.ram.length = Memory.ramSize ∧
    Encodes markedState markedFile ∧ decode markedFile = .ok markedState := by
  have hram : markedState.ram.length = Memory.ramSize := by
    simp only [markedState, List.length_append, List.length_cons, List.length_replicate, List.length_nil]
    rfl
  exact ⟨by decide, hram, encodes_markedFile, decode_of_encodes (by decide) hram encodes_markedFile⟩

end ZxSpectrum.Z80
