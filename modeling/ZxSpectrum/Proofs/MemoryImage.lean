import ZxSpectrum.Memory
import ZxSpectrum.Word

/-!
# Images of memory

Single writes, to which the ROM is closed (`write`), the push of a word (`push_add_one_eq_iff`), and runs of bytes: what
`store` writes is read at its addresses (`get_store`), `ram` reads the bytes from `ramBase` on (`getElem?_ram`), and RAM that
is taken out and loaded again is as it was (`loadRam_ram`).
-/

namespace ZxSpectrum.Memory

/-- Addresses of the ROM. -/
theorem isRom_iff (a : UInt16) : isRom a = true ↔ a.toNat < romSize := by
  rw [isRom, decide_eq_true_iff, UInt16.lt_iff_toNat_lt]
  exact Iff.rfl

/-! ## Single writes -/

/-- The memory that a write leaves; the ROM stays. -/
def write (m : Memory) (address : UInt16) (value : UInt8) : Memory :=
  if isRom address then m else m.set address value

theorem write_of_isRom (m : Memory) {address : UInt16} (h : isRom address = true) (value : UInt8) :
    m.write address value = m := if_pos h

theorem get_write_self (m : Memory) {address : UInt16} (h : isRom address = false) (value : UInt8) :
    (m.write address value).get address = value := by
  rw [write, if_neg (by simp [h]), get_set_self]

theorem get_write_of_ne (m : Memory) {address a : UInt16} (value : UInt8) (h : address ≠ a) :
    (m.write address value).get a = m.get a := by
  unfold write
  by_cases hr : isRom address = true
  · rw [if_pos hr]
  · rw [if_neg hr, get_set_of_ne _ _ h]

/-- The ROM reads the same after a write. -/
theorem get_write_of_isRom (m : Memory) (address : UInt16) (value : UInt8) {a : UInt16} (h : isRom a = true) :
    (m.write address value).get a = m.get a := by
  unfold write
  by_cases hr : isRom address = true
  · rw [if_pos hr]
  · rw [if_neg hr, get_set_of_ne]
    rintro rfl
    exact hr h

/-- The memory that a push of a word leaves, with the stack pointer as it was before. -/
def push (m : Memory) (sp value : UInt16) : Memory :=
  (m.write (sp - 1) (Word.high value)).write (sp - 2) (Word.low value)

/-- A push tells a word from the next one by the low byte, if that falls into RAM, and by the high byte, if that does and the
low byte carries. -/
theorem push_add_one_eq_iff (m : Memory) (sp value : UInt16) : m.push sp (value + 1) = m.push sp value ↔
    ¬ (isRom (sp - 2) = false ∨ isRom (sp - 1) = false ∧ Word.low value = 0xFF) := by
  have hvalue := value.toNat_lt
  have hsucc : (value + 1).toNat = (value.toNat + 1) % 65536 := UInt16.toNat_add value 1
  have hne : sp - 2 ≠ sp - 1 := by
    rw [Ne, ← UInt16.toNat_inj, UInt16.toNat_sub, UInt16.toNat_sub]
    have hsp := sp.toNat_lt
    have hone : (1 : UInt16).toNat = 1 := rfl
    have htwo : (2 : UInt16).toNat = 2 := rfl
    omega
  have hlow : Word.low (value + 1) ≠ Word.low value := by
    rw [Ne, ← UInt8.toNat_inj, Word.toNat_low, Word.toNat_low, hsucc]
    omega
  have hhigh : Word.high (value + 1) = Word.high value ↔ Word.low value ≠ 0xFF := by
    have hff : (0xFF : UInt8).toNat = 255 := rfl
    rw [Ne, ← UInt8.toNat_inj, ← UInt8.toNat_inj, Word.toNat_high, Word.toNat_high, Word.toNat_low, hsucc, hff]
    omega
  constructor
  · rintro heq (hram | ⟨hram, hcarry⟩)
    · have hget := congrArg (fun m => m.get (sp - 2)) heq
      simp only [push, get_write_self _ hram] at hget
      exact hlow hget
    · have hget := congrArg (fun m => m.get (sp - 1)) heq
      simp only [push, get_write_of_ne _ _ hne, get_write_self _ hram] at hget
      exact hhigh.mp hget hcarry
  · intro hneither
    obtain ⟨hrom, hcarry⟩ := not_or.mp hneither
    have hrom' : isRom (sp - 2) = true := by simpa using hrom
    rw [push, push, write_of_isRom _ hrom', write_of_isRom _ hrom']
    by_cases hrom1 : isRom (sp - 1) = true
    · rw [write_of_isRom _ hrom1, write_of_isRom _ hrom1]
    · rw [hhigh.mpr fun heq => hcarry ⟨eq_false_of_ne_true hrom1, heq⟩]

/-! ## Runs of bytes -/

/-- A stored run of bytes is read from its first address on, the rest of memory stays. -/
theorem get_store (bytes : List UInt8) : ∀ (m : Memory) (base a : UInt16), bytes.length ≤ 65536 →
    (m.store base bytes).get a = bytes[(a - base).toNat]?.getD (m.get a) := by
  induction bytes with
  | nil => exact fun m base a _ => rfl
  | cons byte rest ih =>
    intro m base a h
    have hrest : rest.length ≤ 65535 := Nat.le_of_succ_le_succ h
    rw [store, ih _ _ _ (by omega), get_set]
    have hb := base.toNat_lt
    have ha := a.toNat_lt
    have hone : (1 : UInt16).toNat = 1 := rfl
    by_cases heq : base = a
    · -- The first byte; the place of the address in the rest lies past its end.
      subst heq
      have hplace : (base - (base + 1)).toNat = 65535 := by
        rw [UInt16.toNat_sub, UInt16.toNat_add, hone]
        omega
      have hzero : (base - base).toNat = 0 := by
        rw [UInt16.sub_self]
        rfl
      rw [hplace, hzero, List.getElem?_eq_none (by omega), if_pos rfl]
      rfl
    · have hplace : (a - base).toNat = (a - (base + 1)).toNat + 1 := by
        have hne : base.toNat ≠ a.toNat := fun h => heq (UInt16.toNat_inj.mp h)
        rw [UInt16.toNat_sub, UInt16.toNat_sub, UInt16.toNat_add, hone]
        omega
      rw [hplace, List.getElem?_cons_succ, if_neg heq]

/-- The place of an address in RAM. -/
theorem toNat_sub_ramBase {a : UInt16} (h : isRom a = false) : (a - ramBase).toNat = a.toNat - romSize ∧
    romSize ≤ a.toNat := by
  have hle : romSize ≤ a.toNat := by
    rw [← Bool.not_eq_true, isRom_iff] at h
    omega
  exact ⟨UInt16.toNat_sub_of_le _ _ (UInt16.le_iff_toNat_le.mpr hle), hle⟩

/-- Loaded RAM is read in RAM. -/
theorem get_loadRam (m : Memory) {ram : List UInt8} (h : ram.length = ramSize) (a : UInt16) :
    (m.loadRam ram).get a = if isRom a then m.get a else ram[a.toNat - romSize]?.getD 0 := by
  have ha := a.toNat_lt
  have hsize : ram.length = 49152 := h
  have htake : ram.take ramSize = ram := List.take_of_length_le (Nat.le_of_eq h)
  have hbase : ramBase.toNat = 16384 := rfl
  have hrom : romSize = 16384 := rfl
  rw [loadRam, htake, get_store _ _ _ _ (by omega)]
  by_cases hr : isRom a = true
  · have hlt := (isRom_iff a).mp hr
    have hplace : ram.length ≤ (a - ramBase).toNat := by
      rw [UInt16.toNat_sub]
      omega
    rw [if_pos hr, List.getElem?_eq_none hplace, Option.getD_none]
  · obtain ⟨hplace, hle⟩ := toNat_sub_ramBase (eq_false_of_ne_true hr)
    have hlt : a.toNat - romSize < ram.length := by omega
    rw [if_neg hr, hplace, List.getElem?_eq_getElem hlt]
    rfl

/-- A new memory holds the ROM, and zeros in RAM. -/
theorem get_ofRom {rom : List UInt8} (h : rom.length = romSize) (a : UInt16) :
    (ofRom rom).get a = if isRom a then rom[a.toNat]?.getD 0 else 0 := by
  have hsize : rom.length = 16384 := h
  have hrom : romSize = 16384 := rfl
  have htake : rom.take romSize = rom := List.take_of_length_le (Nat.le_of_eq h)
  rw [ofRom, htake, get_store _ _ _ _ (by omega), UInt16.sub_zero, get_blank]
  by_cases hr : isRom a = true
  · rw [if_pos hr]
  · obtain ⟨-, hle⟩ := toNat_sub_ramBase (eq_false_of_ne_true hr)
    rw [if_neg hr, List.getElem?_eq_none (by omega), Option.getD_none]

/-- The contents of RAM, byte by byte. -/
theorem getElem?_ram (m : Memory) {place : Nat} (h : place < ramSize) :
    m.ram[place]? = some (m.get (UInt16.ofNat (romSize + place))) := by
  have hsize : ramSize = 49152 := rfl
  have hrom : romSize = 16384 := rfl
  have htoNat : (UInt16.ofNat (romSize + place)).toNat = romSize + place := by
    rw [UInt16.toNat_ofNat']
    omega
  have hin : place < min (romSize + ramSize) m.bytes.toArray.size - romSize := by
    rw [m.bytes.size_toArray]
    omega
  have hlt : romSize + place < m.bytes.toArray.size := by
    rw [m.bytes.size_toArray]
    omega
  rw [ram, slice, Array.getElem?_toList, Array.getElem?_extract, if_pos hin, Array.getElem?_eq_getElem hlt]
  simp only [get, htoNat]
  rfl

theorem length_ram (m : Memory) : m.ram.length = ramSize := by
  have hsize : ramSize = 49152 := rfl
  have hrom : romSize = 16384 := rfl
  rw [ram, slice, Array.length_toList, Array.size_extract, m.bytes.size_toArray]
  omega

/-- RAM that is taken out and loaded over a memory with the same ROM is as it was. -/
theorem loadRam_ram {m n : Memory} (h : ∀ a, isRom a = true → n.get a = m.get a) : n.loadRam m.ram = m := by
  ext a
  rw [get_loadRam _ (length_ram m)]
  by_cases hr : isRom a = true
  · rw [if_pos hr, h a hr]
  · obtain ⟨-, hle⟩ := toNat_sub_ramBase (eq_false_of_ne_true hr)
    have ha := a.toNat_lt
    have hsize : ramSize = 49152 := rfl
    have hrom : romSize = 16384 := rfl
    have hback : romSize + (a.toNat - romSize) = a.toNat := by omega
    rw [if_neg hr, getElem?_ram m (by omega), hback, UInt16.ofNat_toNat, Option.getD_some]

end ZxSpectrum.Memory
