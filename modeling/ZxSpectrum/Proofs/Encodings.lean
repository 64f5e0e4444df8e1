import ZxSpectrum.Proofs.BitFields
import ZxSpectrum.Proofs.PrefixTermination

/-!
# Encodings of instructions

What the bytes at the program counter say, told by the bytes alone: prefixes that the next byte makes no use of, then one of five
forms of prefixes and opcode (`Encoded`). Every instruction that is executed to its end is encoded so, and whatever is encoded so
is executed to its end (`exists_encoded_iff`): its bytes are read one after the other (`Encoding.ready`), then the instruction is
executed that the opcode means in the page of its form (`Encoded.ends`). All this holds on any bus.
-/

namespace ZxSpectrum

open BusProgram

variable {β : Type} [Bus β]

/-! ## Forms -/

/-- The bytes that begin or go before opcodes of other pages. -/
def IsPrefix (byte : UInt8) : Prop := byte = 0xCB ∨ byte = 0xDD ∨ byte = 0xED ∨ byte = 0xFD

instance (byte : UInt8) : Decidable (IsPrefix byte) := inferInstanceAs (Decidable (_ ∨ _))

/-- The opcodes that an index prefix changes: those that name HL, its halves or the byte at HL, but for `HALT`, `EX DE,HL` and
`EXX`. -/
def indexForms : List Nat :=
  [0x09, 0x19, 0x21, 0x22, 0x23, 0x24, 0x25, 0x26, 0x29, 0x2A, 0x2B, 0x2C, 0x2D, 0x2E, 0x34, 0x35, 0x36, 0x39,
    0x44, 0x45, 0x46, 0x4C, 0x4D, 0x4E, 0x54, 0x55, 0x56, 0x5C, 0x5D, 0x5E,
    0x60, 0x61, 0x62, 0x63, 0x64, 0x65, 0x66, 0x67, 0x68, 0x69, 0x6A, 0x6B, 0x6C, 0x6D, 0x6E, 0x6F,
    0x70, 0x71, 0x72, 0x73, 0x74, 0x75, 0x77, 0x7C, 0x7D, 0x7E,
    0x84, 0x85, 0x86, 0x8C, 0x8D, 0x8E, 0x94, 0x95, 0x96, 0x9C, 0x9D, 0x9E,
    0xA4, 0xA5, 0xA6, 0xAC, 0xAD, 0xAE, 0xB4, 0xB5, 0xB6, 0xBC, 0xBD, 0xBE,
    0xE1, 0xE3, 0xE5, 0xE9, 0xF9]

/-- Prefixes and opcode of an instruction, but for prefixes without effect. -/
inductive Encoding where
  /-- An opcode without prefixes. -/
  | plain (opcode : UInt8)
  /-- After `CB`. -/
  | bits (opcode : UInt8)
  /-- After `ED`. -/
  | extended (opcode : UInt8)
  /-- After `DD` or `FD`. -/
  | index (i : IndexRegister) (opcode : UInt8)
  /-- After `DD CB` or `FD CB` and a displacement. -/
  | indexedBits (i : IndexRegister) (opcode : UInt8)
deriving DecidableEq, Repr

namespace Encoding

def opcode : Encoding → UInt8
  | .plain opcode | .bits opcode | .extended opcode | .index _ opcode | .indexedBits _ opcode => opcode

/-- Where the opcode is looked up. -/
def page : Encoding → Page
  | .plain _ => .base
  | .bits _ => .bits
  | .extended _ => .extended
  | .index i _ => .index i
  | .indexedBits _ _ => .indexedBits

/-- All forms of an opcode. -/
def forms (opcode : UInt8) : List Encoding :=
  [.plain opcode, .bits opcode, .extended opcode, .index .ix opcode, .index .iy opcode, .indexedBits .ix opcode,
    .indexedBits .iy opcode]

/-- What is true of all forms of all opcodes is true of every encoding. -/
theorem forall_encoding {P : Encoding → Prop} (h : ∀ n < 256, ∀ code ∈ forms (UInt8.ofNat n), P code) (code : Encoding) :
    P code := by
  have hmem : code ∈ forms code.opcode := by
    rcases code with opcode | opcode | opcode | ⟨_ | _, opcode⟩ | ⟨_ | _, opcode⟩ <;> simp [forms, Encoding.opcode]
  exact forall_byte (P := fun opcode => ∀ code ∈ forms opcode, P code) h code.opcode code hmem

/-- The opcodes that occur in each form. -/
def Occurs : Encoding → Prop
  | .plain opcode => ¬ IsPrefix opcode
  | .index _ opcode => opcode.toNat ∈ indexForms
  | _ => True

end Encoding

/-- The byte that an opcode fetch gives. -/
def opcodeAt (address : UInt16) (bus : β) : UInt8 := Bus.peek address (Bus.contend address 4 bus)

theorem opcodeAt_flat (address : UInt16) (bus : FlatBus) : opcodeAt address bus = bus.memory.get address := rfl

/-- The opcode that a displacement goes before; it is read two bytes after the prefixes. -/
def displacedOpcodeAt (address : UInt16) (bus : β) : UInt8 :=
  Bus.peek (address + 3) (Bus.contend (address + 3) 3 (Bus.contend (address + 2) 3 (chargeFetches 2 address bus)))

/-- What the bytes from an address on say, as a bus gives them: first prefixes without effect, so many of them, then prefixes and
opcode of an instruction. -/
inductive Encoded {β : Type} [Bus β] : UInt16 → β → Nat → Encoding → Prop where
  | plain {address : UInt16} {bus : β} {opcode : UInt8} (first : opcodeAt address bus = opcode) (occurs : ¬ IsPrefix opcode) :
      Encoded address bus 0 (.plain opcode)
  | bits {address : UInt16} {bus : β} {opcode : UInt8} (first : opcodeAt address bus = 0xCB)
      (second : opcodeAt (address + 1) (Bus.contend address 4 bus) = opcode) : Encoded address bus 0 (.bits opcode)
  | extended {address : UInt16} {bus : β} {opcode : UInt8} (first : opcodeAt address bus = 0xED)
      (second : opcodeAt (address + 1) (Bus.contend address 4 bus) = opcode) : Encoded address bus 0 (.extended opcode)
  | index {address : UInt16} {bus : β} {i : IndexRegister} {opcode : UInt8} (first : opcodeAt address bus = i.opcode)
      (second : opcodeAt (address + 1) (Bus.contend address 4 bus) = opcode) (occurs : opcode.toNat ∈ indexForms) :
      Encoded address bus 0 (.index i opcode)
  | indexedBits {address : UInt16} {bus : β} {i : IndexRegister} {opcode : UInt8} (first : opcodeAt address bus = i.opcode)
      (second : opcodeAt (address + 1) (Bus.contend address 4 bus) = 0xCB) (last : displacedOpcodeAt address bus = opcode) :
      Encoded address bus 0 (.indexedBits i opcode)
  | ignored {address : UInt16} {bus : β} {i : IndexRegister} {count : Nat} {code : Encoding}
      (first : opcodeAt address bus = i.opcode) (notBits : opcodeAt (address + 1) (Bus.contend address 4 bus) ≠ 0xCB)
      (unchanged : (opcodeAt (address + 1) (Bus.contend address 4 bus)).toNat ∉ indexForms)
      (rest : Encoded (address + 1) (Bus.contend address 4 bus) count code) : Encoded address bus (count + 1) code

/-! ## The opcode tables -/

/-- Whether an opcode means an instruction. -/
def Slot.isRun : Slot → Bool
  | .run _ => true
  | _ => false

theorem Slot.exists_of_isRun {slot : Slot} (h : slot.isRun = true) : ∃ instruction, slot = .run instruction := by
  cases slot with
  | run instruction => exact ⟨instruction, rfl⟩
  | _ => exact absurd h Bool.false_ne_true

namespace Page

/-- Unprefixed opcodes are instructions, but for the prefixes. -/
theorem isRun_decode_base (opcode : UInt8) : (base.decode opcode).isRun = !decide (IsPrefix opcode) :=
  forall_byte (P := fun opcode => (base.decode opcode).isRun = !decide (IsPrefix opcode)) (by decide +kernel) opcode

/-- After an index prefix the opcodes that it changes are instructions, `CB` begins a bit operation on an indexed byte, and the
others are looked up as if unprefixed. -/
theorem decode_index (i : IndexRegister) (opcode : UInt8) :
    if opcode.toNat ∈ indexForms then ((index i).decode opcode).isRun = true
    else (index i).decode opcode = if opcode = 0xCB then .enterIndexedBits i else .again := by
  refine forall_byte (P := fun opcode => if opcode.toNat ∈ indexForms then ((index i).decode opcode).isRun = true
    else (index i).decode opcode = if opcode = 0xCB then .enterIndexedBits i else .again) ?_ opcode
  cases i <;> decide +kernel

end Page

/-- Opcodes that occur mean instructions. -/
theorem Encoding.Occurs.exists_instruction {code : Encoding} (h : code.Occurs) :
    ∃ instruction, code.page.decode code.opcode = .run instruction := by
  cases code with
  | plain opcode =>
    have hrun := Page.isRun_decode_base opcode
    rw [decide_eq_false h] at hrun
    exact Slot.exists_of_isRun hrun
  | index i opcode =>
    have hindex := Page.decode_index i opcode
    rw [if_pos (show opcode.toNat ∈ indexForms from h)] at hindex
    exact Slot.exists_of_isRun hindex
  | _ => exact ⟨_, rfl⟩

theorem Encoded.occurs {address : UInt16} {bus : β} {count : Nat} {code : Encoding} (h : Encoded address bus count code) :
    code.Occurs := by
  induction h with
  | plain _ occurs => exact occurs
  | index _ _ occurs => exact occurs
  | ignored _ _ _ _ ih => exact ih
  | _ => exact trivial

/-! ## Reading the bytes -/

namespace Cpu

variable (cpu : Cpu) (bus : β)

/-- An opcode fetch on any bus. -/
theorem run_fetch_any : cpu.fetch.run bus = ((opcodeAt cpu.regs.pc bus, cpu.fetched), Bus.contend cpu.regs.pc 4 bus) := rfl

/-- What the fetch of displacement and opcode reads after them, on any bus. -/
theorem run_fetchIndexed_opcode (i : IndexRegister) :
    ((cpu.fetched.fetched.fetchIndexed i).run (chargeFetches 2 cpu.regs.pc bus)).1.1 = displacedOpcodeAt cpu.regs.pc bus := by
  have hsecond : cpu.regs.pc + 1 + 1 = cpu.regs.pc + 2 := UInt16.add_assoc _ 1 1
  have hthird : cpu.regs.pc + 1 + 1 + 1 = cpu.regs.pc + 3 := by rw [hsecond]; exact UInt16.add_assoc _ 2 1
  rw [displacedOpcodeAt, ← hthird, ← hsecond]
  rfl

end Cpu

/-- Processor and bus when prefixes and opcode have been read. -/
def Encoding.ready (code : Encoding) (cpu : Cpu) (bus : β) : Cpu × β :=
  match code with
  | .plain _ => (cpu.fetched, Bus.contend cpu.regs.pc 4 bus)
  | .bits _ | .extended _ | .index _ _ => (cpu.fetched.fetched, chargeFetches 2 cpu.regs.pc bus)
  | .indexedBits i _ =>
    let fetched := (cpu.fetched.fetched.fetchIndexed i).run (chargeFetches 2 cpu.regs.pc bus)
    (fetched.1.2, fetched.2)

/-- Whether the refresh register has counted modulo 128 before does not show. -/
theorem Encoding.ready_passing_zero (code : Encoding) (cpu : Cpu) (bus : β) : code.ready (cpu.passing 0) bus = code.ready cpu bus := by
  have hpc : (cpu.passing 0).regs.pc = cpu.regs.pc := UInt16.add_zero _
  cases code <;> simp only [ready, hpc, cpu.fetched_passing_zero]

/-! ## Execution -/

namespace Encoded

variable {cpu : Cpu} {bus : β} {count pages : Nat} {code : Encoding} {instruction : Instruction} {result : Cpu × β}

/-- Behind a prefix without effect the rest is executed as if it stood alone. -/
theorem ends_of_ignored {i : IndexRegister} (hfirst : opcodeAt cpu.regs.pc bus = i.opcode)
    (hagain : (Page.index i).decode (opcodeAt (cpu.regs.pc + 1) (Bus.contend cpu.regs.pc 4 bus)) = .again)
    (h : cpu.Ends pages bus result) : ∃ fewer < pages, cpu.fetched.Ends fewer (Bus.contend cpu.regs.pc 4 bus) result := by
  have hslot : Page.base.decode (opcodeAt cpu.regs.pc bus) = .enter (.index i) := by rw [hfirst, Page.decode_opcode]
  rw [Cpu.Ends, Cpu.run_fetch_any] at h
  cases h with
  | run hother => cases hslot.symm.trans hother
  | again hother => cases hslot.symm.trans hother
  | enterIndexedBits hother => cases hslot.symm.trans hother
  | enter hpage hrest =>
    obtain rfl := Slot.enter.inj (hslot.symm.trans hpage)
    cases hrest with
    | run hother => cases hagain.symm.trans hother
    | enter hother => cases hagain.symm.trans hother
    | enterIndexedBits hother => cases hagain.symm.trans hother
    | again _ hrest => exact ⟨_, by omega, hrest⟩

/-- The bytes of an encoding are read, then its instruction is executed. -/
theorem ends (h : Encoded cpu.regs.pc bus count code) (hcode : code.page.decode code.opcode = .run instruction) :
    let ready := code.ready (cpu.passing count) (chargeFetches count cpu.regs.pc bus)
    ∃ pages, cpu.Ends pages bus ((instruction.execute ready.1).run ready.2) := by
  generalize haddress : cpu.regs.pc = address at h
  induction h generalizing cpu with
  | plain first =>
    subst haddress first
    rw [Encoding.ready_passing_zero]
    exact ⟨1, .run hcode⟩
  | @bits _ bus _ first second =>
    subst haddress second
    have hslot : Page.base.decode (opcodeAt cpu.regs.pc bus) = .enter .bits := by rw [first]; rfl
    rw [Encoding.ready_passing_zero]
    exact ⟨2, .enter hslot (.run hcode)⟩
  | @extended _ bus _ first second =>
    subst haddress second
    have hslot : Page.base.decode (opcodeAt cpu.regs.pc bus) = .enter .extended := by rw [first]; rfl
    rw [Encoding.ready_passing_zero]
    exact ⟨2, .enter hslot (.run hcode)⟩
  | @index _ bus i _ first second =>
    subst haddress second
    have hslot : Page.base.decode (opcodeAt cpu.regs.pc bus) = .enter (.index i) := by rw [first, Page.decode_opcode]
    rw [Encoding.ready_passing_zero]
    exact ⟨2, .enter hslot (.run hcode)⟩
  | @indexedBits _ bus i _ first second last =>
    subst haddress last
    have hslot : Page.base.decode (opcodeAt cpu.regs.pc bus) = .enter (.index i) := by rw [first, Page.decode_opcode]
    have hbits : (Page.index i).decode (opcodeAt (cpu.regs.pc + 1) (Bus.contend cpu.regs.pc 4 bus)) = .enterIndexedBits i := by
      rw [second]
      cases i <;> rfl
    rw [Encoding.ready_passing_zero]
    rw [← cpu.run_fetchIndexed_opcode bus i] at hcode
    exact ⟨3, .enter hslot (.enterIndexedBits hbits (.run hcode))⟩
  | @ignored _ bus i count code first notBits unchanged rest ih =>
    subst haddress
    have hslot : Page.base.decode (opcodeAt cpu.regs.pc bus) = .enter (.index i) := by rw [first, Page.decode_opcode]
    have hagain := Page.decode_index i (opcodeAt (cpu.regs.pc + 1) (Bus.contend cpu.regs.pc 4 bus))
    rw [if_neg unchanged, if_neg notBits] at hagain
    obtain ⟨pages, hends⟩ := ih hcode (rfl : cpu.fetched.regs.pc = _)
    rw [Cpu.fetched_eq_passing, Cpu.passing_passing, Nat.add_comm 1] at hends
    exact ⟨pages + 2, .enter hslot (.again hagain hends)⟩

/-- Execution that comes to an end is that of the instruction that is encoded. -/
theorem eq_of_ends (h : Encoded cpu.regs.pc bus count code) (hends : cpu.Ends pages bus result) :
    ∃ instruction, code.page.decode code.opcode = .run instruction ∧
      let ready := code.ready (cpu.passing count) (chargeFetches count cpu.regs.pc bus)
      result = (instruction.execute ready.1).run ready.2 := by
  obtain ⟨instruction, hcode⟩ := h.occurs.exists_instruction
  obtain ⟨others, hother⟩ := h.ends hcode
  exact ⟨instruction, hcode, hends.unique hother⟩

end Encoded

namespace Cpu

variable {cpu : Cpu} {bus : β}

/-- Whatever is executed to its end is encoded. -/
theorem Ends.exists_encoded {pages : Nat} {result : Cpu × β} (h : cpu.Ends pages bus result) :
    ∃ count code, Encoded cpu.regs.pc bus count code := by
  induction pages using Nat.strongRecOn generalizing cpu bus with
  | _ pages ih =>
    have hindex : ∀ i : IndexRegister, opcodeAt cpu.regs.pc bus = i.opcode →
        ∃ count code, Encoded cpu.regs.pc bus count code := by
      intro i hfirst
      by_cases hbits : opcodeAt (cpu.regs.pc + 1) (Bus.contend cpu.regs.pc 4 bus) = 0xCB
      · exact ⟨0, _, .indexedBits hfirst hbits rfl⟩
      by_cases hform : (opcodeAt (cpu.regs.pc + 1) (Bus.contend cpu.regs.pc 4 bus)).toNat ∈ indexForms
      · exact ⟨0, _, .index hfirst rfl hform⟩
      have hagain := Page.decode_index i (opcodeAt (cpu.regs.pc + 1) (Bus.contend cpu.regs.pc 4 bus))
      rw [if_neg hform, if_neg hbits] at hagain
      obtain ⟨fewer, hfewer, hrest⟩ := Encoded.ends_of_ignored hfirst hagain h
      obtain ⟨count, code, hcode⟩ := ih fewer hfewer hrest
      exact ⟨count + 1, code, .ignored hfirst hbits hform hcode⟩
    by_cases hplain : IsPrefix (opcodeAt cpu.regs.pc bus)
    · rcases hplain with hbits | hix | hextended | hiy
      · exact ⟨0, _, .bits hbits rfl⟩
      · exact hindex .ix hix
      · exact ⟨0, _, .extended hextended rfl⟩
      · exact hindex .iy hiy
    · exact ⟨0, _, .plain rfl hplain⟩

/-- The instruction at the program counter ends exactly if its bytes are those of an encoding. -/
theorem exists_encoded_iff : (∃ count code, Encoded cpu.regs.pc bus count code) ↔ ∃ pages result, cpu.Ends pages bus result := by
  constructor
  · rintro ⟨count, code, h⟩
    obtain ⟨instruction, hcode⟩ := h.occurs.exists_instruction
    obtain ⟨pages, hends⟩ := h.ends hcode
    exact ⟨pages, _, hends⟩
  · rintro ⟨pages, result, hends⟩
    exact hends.exists_encoded

/-- On a bus on which bytes stay what they are, an encoding stands at the program counter in all memories but those of nothing
but index prefixes. -/
theorem exists_encoded_iff_other [Bus.Steady β] (cpu : Cpu) (bus : β) :
    (∃ ignored code, Encoded cpu.regs.pc bus ignored code) ↔ ∃ a, ¬ IsIndexPrefix (Bus.peek a bus) :=
  exists_encoded_iff.trans (cpu.exists_ends_iff bus)

end Cpu

end ZxSpectrum
