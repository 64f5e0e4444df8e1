/-!
# The 64K address space

`Memory` is a total map from addresses to bytes. `get_set` is its one law; `store` and `slice` move runs of bytes, the
first wrapping at the top of the address space. Addresses below `romSize` are the ROM.
-/

namespace ZxSpectrum

/-- One byte for each of the 65536 addresses. -/
structure Memory where
  bytes : Vector UInt8 65536

namespace Memory

/-- Bytes of ROM, from address 0. -/
def romSize : Nat := 16384

/-- Bytes of RAM, from `ramBase` to the top of the address space. -/
def ramSize : Nat := 49152

/-- The first address of RAM. -/
def ramBase : UInt16 := 0x4000

/-- An address of the ROM. -/
@[inline] def isRom (address : UInt16) : Bool := address < ramBase

/-- Memory of zeros. -/
def blank : Memory := ⟨Vector.replicate 65536 0⟩

instance : Inhabited Memory := ⟨blank⟩

@[inline] def get (m : Memory) (address : UInt16) : UInt8 :=
  have := address.toNat_lt
  m.bytes[address.toNat]

@[inline] def set (m : Memory) (address : UInt16) (value : UInt8) : Memory :=
  ⟨m.bytes.set address.toNat value address.toNat_lt⟩

/-- Writes bytes one after the other from an address on, going on at address 0 after the last one. -/
def store (m : Memory) (address : UInt16) : List UInt8 → Memory
  | [] => m
  | byte :: rest => store (m.set address byte) (address + 1) rest

/-- The `count` bytes from position `start` on, as far as memory goes. -/
def slice (m : Memory) (start count : Nat) : List UInt8 := (m.bytes.toArray.extract start (start + count)).toList

/-- The contents of RAM. -/
def ram (m : Memory) : List UInt8 := m.slice romSize ramSize

/-- Bytes of the screen, from the start of RAM. -/
def screenSize : Nat := 6912

/-- The contents of the screen: bitmap and attributes. -/
def screen (m : Memory) : List UInt8 := m.slice romSize screenSize

/-- Memory after a reset: the ROM, and zeros in RAM. -/
def ofRom (rom : List UInt8) : Memory := blank.store 0 (rom.take romSize)

/-- Replaces the contents of RAM, from its start on. -/
def loadRam (m : Memory) (ram : List UInt8) : Memory := m.store ramBase (ram.take ramSize)

/-- All bytes, in address order. -/
def toList (m : Memory) : List UInt8 := m.bytes.toList

@[simp] theorem get_blank (a : UInt16) : blank.get a = 0 := by simp [get, blank]

/-- A write is seen at its own address and nowhere else. -/
theorem get_set (m : Memory) (a b : UInt16) (v : UInt8) : (m.set a v).get b = if a = b then v else m.get b := by
  simp only [get, set, Vector.getElem_set, UInt16.toNat_inj]

@[simp] theorem get_set_self (m : Memory) (a : UInt16) (v : UInt8) : (m.set a v).get a = v := by simp [get_set]

theorem get_set_of_ne (m : Memory) {a b : UInt16} (v : UInt8) (h : a ≠ b) : (m.set a v).get b = m.get b := by
  simp [get_set, h]

/-- Two memories that agree at every address are equal. -/
@[ext] theorem ext {m n : Memory} (h : ∀ a, m.get a = n.get a) : m = n := by
  obtain ⟨m⟩ := m
  obtain ⟨n⟩ := n
  congr 1
  refine Vector.ext fun i hi => ?_
  have := h (UInt16.ofNat i)
  simpa [get, Nat.mod_eq_of_lt hi] using this

end Memory

end ZxSpectrum
