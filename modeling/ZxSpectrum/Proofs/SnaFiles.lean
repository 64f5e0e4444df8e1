import ZxSpectrum.Proofs.BitFields
import ZxSpectrum.Proofs.Frames
import ZxSpectrum.Proofs.MemoryImage

/-!
# SNA files

Saving and loading undo each other. A file that keeps to what saving writes (`Regular`) is written again byte for byte, also
by a machine that has loaded it; and a state that can be saved, which is one with room on its stack for the program counter,
loads again as `popped` (`roundTrips`).

The header is compared field by field in both directions: `readRegisters_header` reads what `header` writes, and
`header_readRegisters` writes what was read. The stack slot lies in RAM with both of its bytes, or saving fails
(`stackSlot_eq_some_iff`).
-/

namespace ZxSpectrum

/-- The start of a byte string, byte by byte. -/
theorem Bytes.take_eq_map_byteAt {data : List UInt8} {count : Nat} (h : count ≤ data.length) :
    data.take count = (List.range count).map (byteAt data) := by
  apply List.ext_getElem
  · simp [h]
  · intro place hleft hright
    have hplace : place < data.length := by
      rw [List.length_take] at hleft
      omega
    simp [byteAt, hplace]

/-- Three bits hold a border colour. -/
theorem and_seven_of_le {colour : UInt8} (h : colour ≤ 7) : colour &&& 0x07 = colour := by
  have hle : colour.toNat ≤ 7 := h
  have hfield : (colour &&& 0x07).toNat = _ := toNat_and_field colour 0 3 rfl
  apply UInt8.toNat_inj.mp
  rw [hfield]
  omega

/-- RAM is what has been loaded into it. -/
theorem Memory.ram_loadRam (m : Memory) {ram : List UInt8} (h : ram.length = ramSize) : (m.loadRam ram).ram = ram := by
  apply List.ext_getElem?
  intro place
  by_cases hplace : place < ramSize
  · have hsize : ramSize = 49152 := rfl
    have hrom : romSize = 16384 := rfl
    have htoNat : (UInt16.ofNat (romSize + place)).toNat = romSize + place := by
      rw [UInt16.toNat_ofNat']
      omega
    have hram : isRom (UInt16.ofNat (romSize + place)) = false := by
      rw [← Bool.not_eq_true, isRom_iff, htoNat]
      omega
    rw [getElem?_ram _ hplace, get_loadRam _ h, hram, htoNat, Nat.add_sub_cancel_left,
      List.getElem?_eq_getElem (by omega)]
    rfl
  · rw [List.getElem?_eq_none (by rw [length_ram]; omega), List.getElem?_eq_none (by omega)]

/-- A machine that has loaded a snapshot gives it back, if its border colour is one. -/
theorem Machine.makeSnapshot_restore (machine : Machine) {snapshot : Snapshot}
    (hram : snapshot.ram.length = Memory.ramSize) (hborder : snapshot.border ≤ 7) :
    (machine.restore snapshot).makeSnapshot = snapshot := by
  obtain ⟨cpu, border, ram⟩ := snapshot
  have hback : (machine.restore ⟨cpu, border, ram⟩).board.memory.ram = ram := Memory.ram_loadRam _ hram
  have hcolour : (machine.restore ⟨cpu, border, ram⟩).board.ports.border = border := and_seven_of_le hborder
  rw [makeSnapshot, hback, hcolour]
  rfl

namespace Sna

open Bytes

/-! ## What a file holds -/

/-- A file as saving writes it: the right size, an interrupt mode and a border colour that exist, no stray bits next to the
one for interrupts, and the stack in RAM. -/
structure Regular (file : List UInt8) : Prop where
  size : file.length = fileSize
  mode : byteAt file 25 ≤ 2
  border : byteAt file 26 ≤ 7
  interrupts : byteAt file 19 = 0 ∨ byteAt file 19 = 0x04
  stackLow : 0x4000 ≤ wordAt file 23
  stackHigh : wordAt file 23 ≤ 0xFFFE

/-- RAM with the program counter on top of the stack, below the given stack pointer. -/
def pushedRam (ram : List UInt8) (sp pc : UInt16) : List UInt8 :=
  let slot := (sp - 2 - Memory.ramBase).toNat
  (ram.set slot (Word.low pc)).set (slot + 1) (Word.high pc)

/-- The state that loading makes of a saved one: the program counter has been popped and still lies below the stack, both
interrupt flags are the first one, the clock is past the interrupt if there is one, and the halves of the refresh register
and the border colour are cut to their bits. -/
def popped (snapshot : Snapshot) : Snapshot :=
  let regs := snapshot.cpu.registers
  { cpu :=
      { registers := { regs.setRefresh regs.refresh with iff2 := regs.iff1 }
        tstates := if regs.iff1 then 32 else 0 }
    border := snapshot.border &&& 0x07
    ram := pushedRam snapshot.ram regs.sp regs.pc }

/-! ## The stack slot -/

/-- A word on the stack has a place in RAM if both of its bytes have. -/
theorem stackSlot_eq_some_iff {address : UInt16} {slot : Nat} : stackSlot address = some slot ↔
    (0x4000 ≤ address ∧ address ≤ 0xFFFE) ∧ slot = (address - Memory.ramBase).toNat := by
  have hrom := Memory.isRom_iff address
  have hsize : Memory.romSize = 16384 := rfl
  have hin : (!Memory.isRom address && decide (address < 0xFFFF)) = true ↔ 0x4000 ≤ address ∧ address ≤ 0xFFFE := by
    have hlow : (0x4000 : UInt16).toNat = 16384 := rfl
    have hhigh : (0xFFFE : UInt16).toNat = 65534 := rfl
    have htop : (0xFFFF : UInt16).toNat = 65535 := rfl
    rw [Bool.and_eq_true, Bool.not_eq_true', ← Bool.not_eq_true, hrom, decide_eq_true_iff, UInt16.lt_iff_toNat_lt,
      UInt16.le_iff_toNat_le, UInt16.le_iff_toNat_le]
    omega
  unfold stackSlot
  by_cases h : 0x4000 ≤ address ∧ address ≤ 0xFFFE
  · rw [if_pos (hin.mpr h), Option.some_inj]
    simp [h, eq_comm]
  · rw [if_neg (fun hslot => h (hin.mp hslot))]
    simp [h]

/-- The two addresses of a word on the stack, and their places in RAM. -/
theorem places_of_stack {address : UInt16} (hlow : 0x4000 ≤ address) (hhigh : address ≤ 0xFFFE) :
    Memory.isRom address = false ∧ Memory.isRom (address + 1) = false ∧
      (address + 1 - Memory.ramBase).toNat = (address - Memory.ramBase).toNat + 1 ∧
      (address - Memory.ramBase).toNat + 1 < Memory.ramSize := by
  have hlow' : 16384 ≤ address.toNat := hlow
  have hhigh' : address.toNat ≤ 65534 := hhigh
  have hone : (1 : UInt16).toNat = 1 := rfl
  have hbase : Memory.ramBase.toNat = 16384 := rfl
  have hrom : Memory.romSize = 16384 := rfl
  have hsize : Memory.ramSize = 49152 := rfl
  have hnext : (address + 1).toNat = address.toNat + 1 := by
    rw [UInt16.toNat_add, hone]
    omega
  rw [← Bool.not_eq_true, ← Bool.not_eq_true, Memory.isRom_iff, Memory.isRom_iff, UInt16.toNat_sub, UInt16.toNat_sub,
    hnext, hbase]
  omega

/-- What a snapshot reads on its stack. -/
theorem peek_of_stack (snapshot : Snapshot) {address : UInt16} (hlow : 0x4000 ≤ address) (hhigh : address ≤ 0xFFFE) :
    snapshot.peek address = byteAt snapshot.ram (address - Memory.ramBase).toNat ∧
      snapshot.peek (address + 1) = byteAt snapshot.ram ((address - Memory.ramBase).toNat + 1) := by
  obtain ⟨hrom, hrom', hnext, -⟩ := places_of_stack hlow hhigh
  refine ⟨?_, ?_⟩
  · rw [Snapshot.peek, hrom]
    rfl
  · rw [Snapshot.peek, hrom', hnext]
    rfl

/-! ## Header -/

/-- What is read from a header that was written. -/
theorem readRegisters_header (regs : Registers) (sp : UInt16) (border : UInt8) (ram : List UInt8) :
    readRegisters (header regs sp border ++ ram) =
      { regs.setRefresh regs.refresh with pc := 0, sp := 0, iff2 := regs.iff1 } := by
  have henabled : ((if regs.iff1 then interruptBit else 0) &&& interruptBit != 0) = regs.iff1 := by
    cases regs.iff1 <;> rfl
  change ({ (regs.setRefresh regs.refresh) with
    pc := 0, sp := 0,
    iff1 := (if regs.iff1 then interruptBit else 0) &&& interruptBit != 0,
    iff2 := (if regs.iff1 then interruptBit else 0) &&& interruptBit != 0 } : Registers) = _
  rw [henabled]
  rfl

/-- What is written of registers that were read. -/
theorem header_readRegisters {file : List UInt8} (regular : Regular file) :
    header (readRegisters file) (wordAt file 23) (byteAt file 26 &&& 0x07) = file.take headerSize := by
  have hsize : headerSize ≤ file.length := by
    rw [regular.size]
    exact Nat.le_add_right _ _
  have hinterrupts : (if (readRegisters file).iff1 then interruptBit else 0) = byteAt file 19 := by
    change (if byteAt file 19 &&& interruptBit != 0 then interruptBit else 0) = byteAt file 19
    rcases regular.interrupts with h | h <;> rw [h] <;> rfl
  have hrefresh : (readRegisters file).refresh = byteAt file 20 := Registers.refresh_setRefresh {} (byteAt file 20)
  have hborder := and_seven_of_le regular.border
  have hlow : Word.low (wordAt file 23) = byteAt file 23 := Word.low_ofBytes _ _
  have hhigh : Word.high (wordAt file 23) = byteAt file 24 := Word.high_ofBytes _ _
  rw [take_eq_map_byteAt hsize, header, hinterrupts, hrefresh, hlow, hhigh, hborder, hborder]
  rfl

/-! ## Loading -/

/-- The state in a file. -/
def contents (file : List UInt8) : Snapshot :=
  let registers := readRegisters file
  let sp := wordAt file 23
  let ram := file.drop headerSize
  { cpu :=
      { registers := { registers with pc := wordAt ram (sp - Memory.ramBase).toNat, sp := sp + 2 }
        tstates := if registers.iff1 then 32 else 0 }
    border := byteAt file 26 &&& 0x07
    ram := ram }

/-- A file of the right size with an interrupt mode that exists and the stack in RAM is loaded. -/
theorem decode_eq_contents {file : List UInt8} (hsize : file.length = fileSize) (hmode : (readRegisters file).im ≤ 2)
    (hlow : 0x4000 ≤ wordAt file 23) (hhigh : wordAt file 23 ≤ 0xFFFE) : decode file = .ok (contents file) := by
  obtain ⟨hrom, -⟩ := places_of_stack hlow hhigh
  obtain ⟨hpeek, hpeek'⟩ := peek_of_stack { border := byteAt file 26 &&& 0x07, ram := file.drop headerSize } hlow hhigh
  unfold decode
  rw [if_neg (fun h => h hsize)]
  dsimp only
  rw [if_neg (UInt8.not_lt.mpr hmode), if_neg (by rw [hrom]; exact Bool.false_ne_true), hpeek, hpeek']
  rfl

/-! ## Saving -/

/-- What a state is saved as, if it can be saved. -/
theorem encode_eq_ok_iff {snapshot : Snapshot} {file : List UInt8} : encode snapshot = .ok file ↔
    (snapshot.validate = .ok () ∧ 0x4000 ≤ snapshot.cpu.registers.sp - 2 ∧ snapshot.cpu.registers.sp - 2 ≤ 0xFFFE) ∧
      file = header snapshot.cpu.registers (snapshot.cpu.registers.sp - 2) snapshot.border ++
        pushedRam snapshot.ram snapshot.cpu.registers.sp snapshot.cpu.registers.pc := by
  unfold encode Snapshot.validate
  cases snapshot.problem? with
  | some error => simp
  | none =>
    dsimp only
    cases hslot : stackSlot (snapshot.cpu.registers.sp - 2) with
    | none =>
      have hout : ¬ (0x4000 ≤ snapshot.cpu.registers.sp - 2 ∧ snapshot.cpu.registers.sp - 2 ≤ 0xFFFE) := by
        intro hin
        rw [stackSlot_eq_some_iff.mpr ⟨hin, rfl⟩] at hslot
        exact absurd hslot (Option.some_ne_none _)
      simp [hout]
    | some slot =>
      obtain ⟨hin, rfl⟩ := stackSlot_eq_some_iff.mp hslot
      simp only [Except.ok.injEq, hin, true_and, pushedRam, and_self]
      exact eq_comm

/-! ## File to file -/

/-- A word that is written where it was read changes nothing. -/
theorem set_wordAt (ram : List UInt8) {place : Nat} (h : place + 1 < ram.length) :
    (ram.set place (Word.low (wordAt ram place))).set (place + 1) (Word.high (wordAt ram place)) = ram := by
  have hbyte : ∀ i, i < ram.length → ram.set i (byteAt ram i) = ram := by
    intro i hi
    rw [byteAt, List.getElem?_eq_getElem hi, Option.getD_some, List.set_getElem_self]
  rw [wordAt, Word.low_ofBytes, Word.high_ofBytes, hbyte place (by omega), hbyte _ h]

theorem Regular.decode_eq {file : List UInt8} (regular : Regular file) : decode file = .ok (contents file) :=
  decode_eq_contents regular.size regular.mode regular.stackLow regular.stackHigh

theorem Regular.length_ram {file : List UInt8} (regular : Regular file) :
    (contents file).ram.length = Memory.ramSize := by
  change (file.drop headerSize).length = _
  rw [List.length_drop, regular.size, fileSize, Nat.add_sub_cancel_left]

/-- Nothing is wrong with the state in a regular file. -/
theorem Regular.problem? {file : List UInt8} (regular : Regular file) : (contents file).problem? = none :=
  Snapshot.problem?_eq_none_iff.mpr ⟨regular.length_ram, regular.mode⟩

theorem Regular.encode_contents {file : List UInt8} (regular : Regular file) :
    encode (contents file) = .ok file := by
  have hsp : (contents file).cpu.registers.sp - 2 = wordAt file 23 := UInt16.add_sub_cancel _ _
  have hvalid : (contents file).validate = .ok () := by rw [Snapshot.validate, regular.problem?]
  obtain ⟨-, -, -, hplace⟩ := places_of_stack regular.stackLow regular.stackHigh
  rw [encode_eq_ok_iff, hsp]
  refine ⟨⟨hvalid, regular.stackLow, regular.stackHigh⟩, ?_⟩
  have hheader : header (contents file).cpu.registers (wordAt file 23) (contents file).border = file.take headerSize :=
    header_readRegisters regular
  have hram : pushedRam (contents file).ram (contents file).cpu.registers.sp (contents file).cpu.registers.pc =
      file.drop headerSize := by
    rw [pushedRam, hsp]
    exact set_wordAt _ (by rw [← regular.length_ram] at hplace; exact hplace)
  rw [hheader, hram, List.take_append_drop]

/-! ## State to state -/

/-- The program counter that was pushed is on the stack. -/
theorem wordAt_pushedRam {ram : List UInt8} (sp pc : UInt16) (h : (sp - 2 - Memory.ramBase).toNat + 1 < ram.length) :
    wordAt (pushedRam ram sp pc) (sp - 2 - Memory.ramBase).toNat = pc := by
  unfold pushedRam
  generalize (sp - 2 - Memory.ramBase).toNat = slot at h ⊢
  have hlow : byteAt ((ram.set slot (Word.low pc)).set (slot + 1) (Word.high pc)) slot = Word.low pc := by
    rw [byteAt, List.getElem?_set_ne (by omega), List.getElem?_set_self (by omega), Option.getD_some]
  have hhigh : byteAt ((ram.set slot (Word.low pc)).set (slot + 1) (Word.high pc)) (slot + 1) = Word.high pc := by
    rw [byteAt, List.getElem?_set_self (by rw [List.length_set]; exact h), Option.getD_some]
  rw [wordAt, hlow, hhigh, Word.ofBytes_high_low]

theorem decode_of_encode {snapshot : Snapshot} {file : List UInt8} (h : encode snapshot = .ok file) :
    decode file = .ok (popped snapshot) := by
  obtain ⟨⟨hvalid, hlow, hhigh⟩, hfile⟩ := encode_eq_ok_iff.mp h
  obtain ⟨hram, him⟩ := (Snapshot.validate_eq_ok_iff snapshot).mp hvalid
  obtain ⟨-, -, -, hplace⟩ := places_of_stack hlow hhigh
  have hregisters : readRegisters file =
      { snapshot.cpu.registers.setRefresh snapshot.cpu.registers.refresh with
        pc := 0, sp := 0, iff2 := snapshot.cpu.registers.iff1 } := by
    rw [hfile, readRegisters_header]
  have hsp : wordAt file 23 = snapshot.cpu.registers.sp - 2 := by
    rw [hfile]
    exact Word.ofBytes_high_low _
  have hborder : byteAt file 26 &&& 0x07 = snapshot.border &&& 0x07 := by
    have hand : (snapshot.border &&& 0x07) &&& 0x07 = snapshot.border &&& 0x07 := by
      rw [UInt8.and_assoc, UInt8.and_self]
    rw [hfile]
    exact hand
  have hdrop : file.drop headerSize = pushedRam snapshot.ram snapshot.cpu.registers.sp snapshot.cpu.registers.pc := by
    rw [hfile]
    rfl
  have hsize : file.length = fileSize := by
    rw [hfile, List.length_append, length_header, pushedRam, List.length_set, List.length_set, hram, fileSize]
  have hpc : wordAt (file.drop headerSize) (wordAt file 23 - Memory.ramBase).toNat = snapshot.cpu.registers.pc := by
    rw [hdrop, hsp]
    exact wordAt_pushedRam _ _ (by rw [hram]; exact hplace)
  have htop : wordAt file 23 + 2 = snapshot.cpu.registers.sp := by rw [hsp, UInt16.sub_add_cancel]
  have hmode : (readRegisters file).im ≤ 2 := by
    rw [hregisters]
    exact him
  rw [decode_eq_contents hsize hmode (by rw [hsp]; exact hlow) (by rw [hsp]; exact hhigh), contents, hpc, htop, hborder,
    hdrop, hregisters]
  rfl

/-- A regular file is saved again as it was, from the state that it holds and from any machine that has loaded that state.
A state can be saved exactly if a machine can take it and the word below its stack lies in RAM, and then it loads again as it
was, but for what the format has no room for. -/
theorem roundTrips :
    (∀ file, Regular file → ∃ snapshot, decode file = .ok snapshot ∧ encode snapshot = .ok file ∧
      ∀ machine : Machine, ∃ loaded, machine.loadSnapshot snapshot = .ok loaded ∧
        encode loaded.makeSnapshot = .ok file) ∧
    ∀ snapshot : Snapshot,
      ((∃ file, encode snapshot = .ok file) ↔ snapshot.validate = .ok () ∧
        0x4000 ≤ snapshot.cpu.registers.sp - 2 ∧ snapshot.cpu.registers.sp - 2 ≤ 0xFFFE) ∧
      ∀ file, encode snapshot = .ok file → decode file = .ok (popped snapshot) ∧
        (popped snapshot).cpu.registers.refresh = snapshot.cpu.registers.refresh := by
  refine ⟨fun file regular => ⟨contents file, regular.decode_eq, regular.encode_contents, fun machine => ?_⟩,
    fun snapshot => ⟨⟨?_, ?_⟩, fun file h => ⟨decode_of_encode h, Registers.refresh_setRefresh snapshot.cpu.registers _⟩⟩⟩
  · have hborder : (contents file).border ≤ 7 := by
      change byteAt file 26 &&& 0x07 ≤ 7
      rw [and_seven_of_le regular.border]
      exact regular.border
    refine ⟨machine.restore (contents file), Machine.loadSnapshot_eq_ok_iff.mpr ⟨regular.problem?, rfl⟩, ?_⟩
    rw [Machine.makeSnapshot_restore machine regular.length_ram hborder]
    exact regular.encode_contents
  · rintro ⟨file, h⟩
    exact (encode_eq_ok_iff.mp h).1
  · exact fun h => ⟨_, encode_eq_ok_iff.mpr ⟨h, rfl⟩⟩

/-- A file with the program counter in the last two bytes of RAM. -/
def topFile : List UInt8 :=
  [0x3F, 1, 2, 3, 4, 5, 6, 7, 8, 9, 10, 11, 12, 13, 14, 15, 16, 17, 18, 0x04, 0xFF, 21, 22, 0xFE, 0xFF, 2, 7] ++
    List.replicate Memory.ramSize 0xA5

/-- A state with an empty stack at the very top of RAM, and bits that a file has no room for. -/
def topState : Snapshot where
  cpu :=
    { registers := { pc := 0x1234, sp := 0, r := 0xFF, r7 := 0x7F, iff1 := true, iff2 := false, im := 2 }
      tstates := 69887 }
  border := 0xFF

/-- That file is saved again as it was, and that state loads again as `popped`. -/
theorem roundTrips_topOfRam : Regular topFile ∧
    (∃ snapshot, decode topFile = .ok snapshot ∧ encode snapshot = .ok topFile) ∧
    ∃ file, encode topState = .ok file ∧ decode file = .ok (popped topState) := by
  have hsize : topFile.length = fileSize := by
    rw [topFile, List.length_append, List.length_replicate]
    rfl
  have regular : Regular topFile := ⟨hsize, by decide, by decide, Or.inr rfl, by decide, by decide⟩
  have hvalid : topState.validate = .ok () :=
    (Snapshot.validate_eq_ok_iff topState).mpr ⟨List.length_replicate, by decide⟩
  obtain ⟨files, states⟩ := roundTrips
  obtain ⟨snapshot, hdecode, hencode, -⟩ := files topFile regular
  obtain ⟨file, hfile⟩ := (states topState).1.mpr ⟨hvalid, by decide, by decide⟩
  exact ⟨regular, ⟨snapshot, hdecode, hencode⟩, file, hfile, ((states topState).2 file hfile).1⟩

end Sna

end ZxSpectrum
