import ZxSpectrum.Bus.Flat
import ZxSpectrum.Proofs.PrefixTermination

/-!
# Block copies

A repeated block load executes itself anew for each byte. While none of its own two bytes is a target, that is a copy byte by
byte, in order (`stepMany_repeatedLoad`): the state after some of the transfers is known (`CopiesBlock.stepMany`), since one more
execution makes one more transfer (`CopiesBlock.step`). Where the target begins one byte after the source, the first byte fills
the block (`Memory.get_copied_of_moved`).
-/

namespace ZxSpectrum

/-! ## Blocks of memory -/

theorem Word.sub_sub (a b c : UInt16) : a - b - c = a - (b + c) := by
  rw [UInt16.sub_eq_add_neg a (b + c), UInt16.neg_add, UInt16.sub_eq_add_neg, UInt16.sub_eq_add_neg, UInt16.add_assoc,
    UInt16.sub_eq_add_neg]

namespace Direction

variable (direction : Direction)

/-- The address a number of bytes on in a direction. -/
def moved (address : UInt16) (count : Nat) : UInt16 :=
  match direction with
  | .up => address + UInt16.ofNat count
  | .down => address - UInt16.ofNat count

/-- The second byte of the repeated block load. -/
def repeatedLoad : UInt8 :=
  match direction with
  | .up => 0xB0
  | .down => 0xB8

theorem moved_zero (address : UInt16) : direction.moved address 0 = address := by
  cases direction
  · exact UInt16.add_zero address
  · exact UInt16.sub_zero address

theorem moved_moved (address : UInt16) (first second : Nat) :
    direction.moved (direction.moved address first) second = direction.moved address (first + second) := by
  cases direction <;> simp only [moved, UInt16.ofNat_add]
  · exact UInt16.add_assoc _ _ _
  · exact Word.sub_sub _ _ _

theorem advance_eq_moved (address : UInt16) : Cpu.advance address direction = direction.moved address 1 := by
  cases direction <;> rfl

end Direction

namespace Memory

variable (direction : Direction) {source target a : UInt16} {m : Memory}

/-- Memory after a number of bytes have been copied one after the other. -/
def copied (source target : UInt16) (m : Memory) : Nat → Memory
  | 0 => m
  | count + 1 =>
    let before := m.copied source target count
    before.set (direction.moved target count) (before.get (direction.moved source count))

theorem get_copied_of_ne {count : Nat} (h : ∀ j < count, direction.moved target j ≠ a) :
    (m.copied direction source target count).get a = m.get a := by
  induction count with
  | zero => rfl
  | succ count ih =>
    rw [copied, get_set_of_ne _ _ (h count (Nat.lt_succ_self count))]
    exact ih fun j hj => h j (Nat.lt_succ_of_lt hj)

/-- A block that is copied to the next address is filled with its first byte. -/
theorem get_copied_of_moved (h : target = direction.moved source 1) (count : Nat) :
    ∀ j < count, (m.copied direction source target count).get (direction.moved target j) = m.get source := by
  induction count with
  | zero => exact fun j hj => absurd hj (Nat.not_lt_zero j)
  | succ count ih =>
    have hread : (m.copied direction source target count).get (direction.moved source count) = m.get source := by
      cases count with
      | zero => rw [direction.moved_zero]; rfl
      | succ count =>
        rw [Nat.add_comm count 1, ← direction.moved_moved, ← h, Nat.add_comm 1]
        exact ih count (Nat.lt_succ_self count)
    intro j hj
    rw [copied, hread, get_set]
    split
    · rfl
    · rename_i hne
      have hlt : j < count := by
        rcases Nat.lt_succ_iff_lt_or_eq.mp hj with hlt | rfl
        · exact hlt
        · exact absurd rfl hne
      exact ih j hlt

end Memory

/-- A bus after some of the transfers of a block load that is executed anew each time. -/
def FlatBus.copying (direction : Direction) (source target : UInt16) (count : Nat) (bus : FlatBus) : FlatBus :=
  { bus with memory := bus.memory.copied direction source target count, clock := bus.clock + 21 * count }

/-! ## Flags -/

namespace Alu

/-- The flags of a block load, but for the undocumented ones. -/
theorem blockLoadFlags_and {mask : UInt8} (hbit3 : Flags.bit3 &&& mask = 0) (hbit5 : Flags.bit5 &&& mask = 0)
    (value a f : UInt8) (more : Bool) : blockLoadFlags value a f more &&& mask =
      (f &&& ((Flags.carry ||| Flags.zero ||| Flags.sign) &&& mask)) ||| Flags.when (Flags.parity &&& mask) more := by
  have hnone : Flags.when 0 ((value + a) &&& 0x02 != 0) = 0 := ite_self 0
  unfold blockLoadFlags
  rw [or_and_mask, or_and_mask, or_and_mask, UInt8.and_assoc, UInt8.and_assoc, Flags.when_and, Flags.when_and, hbit3, hbit5,
    hnone, UInt8.and_zero, UInt8.or_zero, UInt8.or_zero]

/-- Carry, zero and sign are kept. -/
theorem blockLoadFlags_and_kept (value a f : UInt8) (more : Bool) :
    blockLoadFlags value a f more &&& (Flags.carry ||| Flags.zero ||| Flags.sign) =
      f &&& (Flags.carry ||| Flags.zero ||| Flags.sign) := by
  have hnone : Flags.when (Flags.parity &&& (Flags.carry ||| Flags.zero ||| Flags.sign)) more = 0 := ite_self 0
  rw [blockLoadFlags_and rfl rfl, UInt8.and_self, hnone, UInt8.or_zero]

/-- Half carry, subtraction and, in the end, parity are cleared. -/
theorem blockLoadFlags_and_cleared (value a f : UInt8) :
    blockLoadFlags value a f false &&& (Flags.half ||| Flags.subtract ||| Flags.parity) = 0 := by
  have hmask : (Flags.carry ||| Flags.zero ||| Flags.sign) &&& (Flags.half ||| Flags.subtract ||| Flags.parity) = 0 := rfl
  rw [blockLoadFlags_and rfl rfl, hmask, UInt8.and_zero]
  rfl

end Alu

/-! ## Execution -/

namespace Cpu

/-- How often a block instruction transfers a byte. -/
def transfers (cpu : Cpu) : Nat := if cpu.regs.bc = 0 then 65536 else cpu.regs.bc.toNat

theorem transfers_pos (cpu : Cpu) : 0 < cpu.transfers := by
  unfold transfers
  split
  · decide
  · rename_i hne
    exact Nat.pos_of_ne_zero fun hzero => hne (UInt16.toNat_inj.mp hzero)

/-- The processor after some of the transfers of a block load, but for the flags and the refresh register. -/
def transferring (direction : Direction) (count : Nat) (f r : UInt8) (cpu : Cpu) : Cpu :=
  { cpu with
    regs := { ((cpu.regs.setBc (cpu.regs.bc - UInt16.ofNat count)).setDe (direction.moved cpu.regs.de count)).setHl
        (direction.moved cpu.regs.hl count) with f := f, r := r } }

/-- A repeated block load is next, and none of its two bytes is a target. The counter is not zero then: every address is a target
of 65536 transfers. -/
structure CopiesBlock (direction : Direction) (cpu : Cpu) (bus : FlatBus) : Prop where
  first : bus.memory.get cpu.regs.pc = 0xED
  second : bus.memory.get (cpu.regs.pc + 1) = direction.repeatedLoad
  apart : ∀ count < cpu.transfers,
    direction.moved cpu.regs.de count ≠ cpu.regs.pc ∧ direction.moved cpu.regs.de count ≠ cpu.regs.pc + 1

variable {direction : Direction} {cpu : Cpu}

/-- The counter reaches zero with the last transfer. -/
theorem sub_ofNat_eq_zero_iff {count : Nat} (hpos : 0 < count) (hle : count ≤ cpu.transfers) :
    cpu.regs.bc - UInt16.ofNat count = 0 ↔ count = cpu.transfers := by
  have hbc := cpu.regs.bc.toNat_lt
  rw [← UInt16.toNat_inj, UInt16.toNat_sub, UInt16.toNat_ofNat', UInt16.toNat_zero]
  unfold transfers at hle ⊢
  split at hle
  · rename_i hzero
    rw [if_pos hzero, hzero, UInt16.toNat_zero]
    omega
  · rename_i hzero
    rw [if_neg hzero]
    omega

/-- What the counter says after one more transfer. -/
theorem more_eq {count : Nat} (hcount : count < cpu.transfers) :
    (cpu.regs.bc - UInt16.ofNat count - 1 != 0) = (count + 1 != cpu.transfers) := by
  have hsucc : UInt16.ofNat (count + 1) = UInt16.ofNat count + 1 := UInt16.ofNat_add _ _
  rw [Word.sub_sub, ← hsucc, Bool.eq_iff_iff, bne_iff_ne, bne_iff_ne]
  exact not_congr (sub_ofNat_eq_zero_iff (Nat.succ_pos count) hcount)

theorem bc_transferring (direction : Direction) (count : Nat) (f r : UInt8) (cpu : Cpu) :
    (cpu.transferring direction count f r).regs.bc = cpu.regs.bc - UInt16.ofNat count := Word.ofBytes_high_low _

theorem de_transferring (direction : Direction) (count : Nat) (f r : UInt8) (cpu : Cpu) :
    (cpu.transferring direction count f r).regs.de = direction.moved cpu.regs.de count := Word.ofBytes_high_low _

theorem hl_transferring (direction : Direction) (count : Nat) (f r : UInt8) (cpu : Cpu) :
    (cpu.transferring direction count f r).regs.hl = direction.moved cpu.regs.hl count := Word.ofBytes_high_low _

theorem transferring_zero (direction : Direction) (cpu : Cpu) :
    cpu.transferring direction 0 cpu.regs.f cpu.regs.r = cpu := by
  have hbc : cpu.regs.bc - UInt16.ofNat 0 = cpu.regs.bc := UInt16.sub_zero _
  rw [transferring, direction.moved_zero, direction.moved_zero, hbc]
  simp only [Registers.setBc, Registers.setDe, Registers.setHl, Registers.bc, Registers.de, Registers.hl, Word.high_ofBytes,
    Word.low_ofBytes]

theorem transferring_transferring (first second : Nat) (f r f' r' : UInt8) :
    (cpu.transferring direction first f r).transferring direction second f' r' =
      cpu.transferring direction (first + second) f' r' := by
  rw [transferring, bc_transferring, de_transferring, hl_transferring, direction.moved_moved, direction.moved_moved,
    Word.sub_sub, ← UInt16.ofNat_add]
  rfl

/-- A block load, once its opcode has been fetched. -/
theorem run_blockLoad (direction : Direction) (repeats : Bool) (cpu : Cpu) (bus : FlatBus) :
    (cpu.blockLoad direction repeats).run bus =
      let value := bus.memory.get cpu.regs.hl
      let more := cpu.regs.bc - 1 != 0
      let moved := cpu.transferring direction 1 (Alu.blockLoadFlags value cpu.regs.a cpu.regs.f more) cpu.regs.r
      let memory := bus.memory.set cpu.regs.de value
      if repeats && more then (moved.rewind, { bus with memory := memory, clock := bus.clock + 13 })
      else (moved, { bus with memory := memory, clock := bus.clock + 8 }) := by
  unfold blockLoad
  simp only [BusProgram.run_bind, Direction.advance_eq_moved]
  cases repeats && (cpu.regs.bc - 1 != 0) <;> rfl

/-- An instruction of the extended page, both bytes fetched. -/
theorem run_step_extended {bus : FlatBus} {instruction : Instruction} (hfirst : bus.memory.get cpu.regs.pc = 0xED)
    (hsecond : Page.extended.decode (bus.memory.get (cpu.regs.pc + 1)) = .run instruction) :
    cpu.step.run bus = (instruction.execute (cpu.passing 2)).run { bus with clock := bus.clock + 8 } := by
  have hslot : Page.base.decode (bus.memory.get cpu.regs.pc) = .enter .extended := by rw [hfirst]; rfl
  rw [← fetched_fetched]
  exact run_step_of_enter hslot hsecond

/-- A processor that goes back over two opcode bytes is where it was before. -/
theorem sub_two_passing (cpu : Cpu) : (cpu.passing 2).regs.pc - 2 = cpu.regs.pc := UInt16.add_sub_cancel _ _

/-- One execution of a repeated block load. -/
theorem step_repeatedLoad {bus : FlatBus} (hfirst : bus.memory.get cpu.regs.pc = 0xED)
    (hopcode : bus.memory.get (cpu.regs.pc + 1) = direction.repeatedLoad) :
    let value := bus.memory.get cpu.regs.hl
    let more := cpu.regs.bc - 1 != 0
    let moved := cpu.transferring direction 1 (Alu.blockLoadFlags value cpu.regs.a cpu.regs.f more)
      ((cpu.regs.r + 2) &&& 0x7F)
    let memory := bus.memory.set cpu.regs.de value
    cpu.step.run bus = if more then (moved, { bus with memory := memory, clock := bus.clock + 21 })
      else (moved.skip 2, { bus with memory := memory, clock := bus.clock + 16 }) := by
  have hsecond : Page.extended.decode (bus.memory.get (cpu.regs.pc + 1)) = .run (.blockLoad direction true) := by
    rw [hopcode]
    cases direction <;> rfl
  intro value more moved memory
  have hback : ((cpu.passing 2).transferring direction 1 moved.regs.f (cpu.passing 2).regs.r).rewind = moved := by
    change { moved with regs.pc := (cpu.passing 2).regs.pc - 2 } = moved
    rw [sub_two_passing]
    rfl
  rw [run_step_extended hfirst hsecond]
  refine (run_blockLoad direction true (cpu.passing 2) { bus with clock := bus.clock + 8 }).trans ?_
  change (if more then (((cpu.passing 2).transferring direction 1 moved.regs.f (cpu.passing 2).regs.r).rewind, _) else (_, _)) = _
  rw [hback]
  rfl

/-- One more execution, after some. -/
theorem CopiesBlock.step {bus : FlatBus} (h : CopiesBlock direction cpu bus) {count : Nat} (hcount : count < cpu.transfers)
    (f r : UInt8) :
    let before := bus.copying direction cpu.regs.hl cpu.regs.de count
    let after := bus.copying direction cpu.regs.hl cpu.regs.de (count + 1)
    let more := count + 1 != cpu.transfers
    let flags := Alu.blockLoadFlags (before.memory.get (direction.moved cpu.regs.hl count)) cpu.regs.a f more
    let moved := cpu.transferring direction (count + 1) flags ((r + 2) &&& 0x7F)
    (cpu.transferring direction count f r).step.run before =
      if more then (moved, after) else (moved.skip 2, { after with clock := bus.clock + 21 * count + 16 }) := by
  intro before after more flags moved
  have hkept : ∀ a, (∀ j < cpu.transfers, direction.moved cpu.regs.de j ≠ a) → before.memory.get a = bus.memory.get a :=
    fun a ha => Memory.get_copied_of_ne direction fun j hj => ha j (Nat.lt_trans hj hcount)
  have hfirst : before.memory.get (cpu.transferring direction count f r).regs.pc = 0xED :=
    (hkept _ fun j hj => (h.apart j hj).1).trans h.first
  have hsecond : before.memory.get ((cpu.transferring direction count f r).regs.pc + 1) = direction.repeatedLoad :=
    (hkept _ fun j hj => (h.apart j hj).2).trans h.second
  have hstep := step_repeatedLoad hfirst hsecond
  simp only [bc_transferring, de_transferring, hl_transferring, more_eq hcount, transferring_transferring] at hstep
  exact hstep

/-- Where a run of instructions stands after one more. -/
theorem stepMany_succ {β : Type} [Bus β] (count : Nat) (cpu : Cpu) (bus : β) :
    cpu.stepMany (count + 1) bus = (cpu.stepMany count bus).1.step.run (cpu.stepMany count bus).2 := by
  induction count generalizing cpu bus with
  | zero => rfl
  | succ count ih => exact ih (cpu.step.run bus).1 (cpu.step.run bus).2

/-- The refresh register counts the two opcode bytes of each execution. -/
theorem and_add_two {r start : UInt8} {count : Nat} (h : r &&& 0x7F = (start + UInt8.ofNat (2 * count)) &&& 0x7F) :
    (r + 2) &&& 0x7F = (start + UInt8.ofNat (2 * (count + 1))) &&& 0x7F := by
  rw [← and_add_and, h, and_add_and, UInt8.add_assoc, Nat.mul_succ, UInt8.ofNat_add]
  rfl

/-- A run whose states are known one by one, but for flags with a property that every step keeps and for the refresh register,
which each step counts twice. -/
theorem stepMany_of_steps {β : Type} [Bus β] {bus : β} {n : Nat} (state : Nat → UInt8 → UInt8 → Cpu × β)
    (Kept : UInt8 → Prop) (hstart : state 0 cpu.regs.f cpu.regs.r = (cpu, bus)) (hkept : Kept cpu.regs.f)
    (hstep : ∀ count < n, ∀ f r, Kept f → ∃ next, Kept next ∧
      (state count f r).1.step.run (state count f r).2 = state (count + 1) next ((r + 2) &&& 0x7F)) :
    ∀ count ≤ n, ∃ f r, Kept f ∧ r &&& 0x7F = (cpu.regs.r + UInt8.ofNat (2 * count)) &&& 0x7F ∧
      cpu.stepMany count bus = state count f r := by
  intro count
  induction count with
  | zero =>
    intro _
    refine ⟨cpu.regs.f, cpu.regs.r, hkept, ?_, hstart.symm⟩
    exact congrArg (· &&& 0x7F) (UInt8.add_zero cpu.regs.r).symm
  | succ count ih =>
    intro hcount
    obtain ⟨f, r, hf, hr, hrun⟩ := ih (Nat.le_of_succ_le hcount)
    obtain ⟨next, hnext, hone⟩ := hstep count hcount f r hf
    refine ⟨next, (r + 2) &&& 0x7F, hnext, ?_, ?_⟩
    · rw [UInt8.and_assoc, UInt8.and_self, and_add_two hr]
    · rw [stepMany_succ, hrun, hone]

/-- The state after some of the transfers. -/
theorem CopiesBlock.stepMany {bus : FlatBus} (h : CopiesBlock direction cpu bus) : ∀ count < cpu.transfers, ∃ f r,
    f &&& (Flags.carry ||| Flags.zero ||| Flags.sign) = cpu.regs.f &&& (Flags.carry ||| Flags.zero ||| Flags.sign) ∧
    r &&& 0x7F = (cpu.regs.r + UInt8.ofNat (2 * count)) &&& 0x7F ∧
    cpu.stepMany count bus =
      (cpu.transferring direction count f r, bus.copying direction cpu.regs.hl cpu.regs.de count) := by
  intro count hcount
  let state (count : Nat) (f r : UInt8) : Cpu × FlatBus :=
    (cpu.transferring direction count f r, bus.copying direction cpu.regs.hl cpu.regs.de count)
  have hstart : state 0 cpu.regs.f cpu.regs.r = (cpu, bus) := congrArg (·, bus) (cpu.transferring_zero direction)
  let mask := Flags.carry ||| Flags.zero ||| Flags.sign
  refine stepMany_of_steps state (· &&& mask = cpu.regs.f &&& mask) hstart rfl (fun earlier hearlier f r hf => ?_) count
    (Nat.le_refl count)
  have hmore : (earlier + 1 != cpu.transfers) = true := bne_iff_ne.mpr (by omega)
  have hone := h.step (Nat.lt_trans hearlier hcount) f r
  simp only [hmore, if_true] at hone
  exact ⟨_, (Alu.blockLoadFlags_and_kept _ _ _ _).trans hf, hone⟩

/-- The state after the last transfer. -/
theorem CopiesBlock.stepMany_transfers {bus : FlatBus} (h : CopiesBlock direction cpu bus) : ∃ f,
    f &&& (Flags.carry ||| Flags.zero ||| Flags.sign) = cpu.regs.f &&& (Flags.carry ||| Flags.zero ||| Flags.sign) ∧
    f &&& (Flags.half ||| Flags.subtract ||| Flags.parity) = 0 ∧
    cpu.stepMany cpu.transfers bus =
      ((cpu.transferring direction cpu.transfers f ((cpu.regs.r + UInt8.ofNat (2 * cpu.transfers)) &&& 0x7F)).skip 2,
        { bus with
          memory := bus.memory.copied direction cpu.regs.hl cpu.regs.de cpu.transfers
          clock := bus.clock + 21 * (cpu.transfers - 1) + 16 }) := by
  obtain ⟨last, hlast⟩ : ∃ last, cpu.transfers = last + 1 := Nat.exists_eq_add_one_of_ne_zero (Nat.ne_of_gt cpu.transfers_pos)
  have hlt : last < cpu.transfers := by omega
  have hmore : (last + 1 != cpu.transfers) = false := by rw [hlast]; exact bne_self_eq_false _
  obtain ⟨f, r, hf, hr, hrun⟩ := h.stepMany last hlt
  have hafter := stepMany_succ last cpu bus
  rw [hrun, h.step hlt, hmore, and_add_two hr, ← hlast] at hafter
  have hclock : cpu.transfers - 1 = last := by omega
  let value := (bus.memory.copied direction cpu.regs.hl cpu.regs.de last).get (direction.moved cpu.regs.hl last)
  refine ⟨Alu.blockLoadFlags value cpu.regs.a f false, (Alu.blockLoadFlags_and_kept _ _ _ _).trans hf,
    Alu.blockLoadFlags_and_cleared _ _ _, ?_⟩
  rw [hafter, hclock]
  rfl

/-- A repeated block load whose targets are apart from its own two bytes copies its block byte by byte, in order, in as many
executions as there are bytes. The counter is zero then, the addresses are past the block, carry, zero and sign are kept, and half
carry, subtraction and parity are cleared; the refresh register has counted twice for each byte. Before the last execution the
program counter is back at the instruction each time. A block that is copied to the next address is filled with its first byte. -/
theorem stepMany_repeatedLoad (direction : Direction) (cpu : Cpu) (bus : FlatBus) (h : CopiesBlock direction cpu bus) :
    let count := cpu.transfers
    let after := cpu.stepMany count bus
    (∃ f, after =
        ((cpu.transferring direction count f ((cpu.regs.r + UInt8.ofNat (2 * count)) &&& 0x7F)).skip 2,
          { bus with
            memory := bus.memory.copied direction cpu.regs.hl cpu.regs.de count
            clock := bus.clock + 21 * (count - 1) + 16 }) ∧
      f &&& (Flags.carry ||| Flags.zero ||| Flags.sign) = cpu.regs.f &&& (Flags.carry ||| Flags.zero ||| Flags.sign) ∧
      f &&& (Flags.half ||| Flags.subtract ||| Flags.parity) = 0) ∧
    after.1.regs.bc = 0 ∧
    after.1.regs.refresh = ((cpu.regs.refresh + UInt8.ofNat (2 * count)) &&& 0x7F) ||| (cpu.regs.refresh &&& 0x80) ∧
    (∀ earlier < count, (cpu.stepMany earlier bus).1.regs.pc = cpu.regs.pc) ∧
    (cpu.regs.de = direction.moved cpu.regs.hl 1 →
      ∀ j < count, after.2.memory.get (direction.moved cpu.regs.de j) = bus.memory.get cpu.regs.hl) := by
  intro count after
  obtain ⟨f, hkept, hcleared, hafter⟩ := h.stepMany_transfers
  refine ⟨⟨f, hafter, hkept, hcleared⟩, ?_, ?_, fun earlier hearlier => ?_, fun hnext j hj => ?_⟩
  · let refresh := (cpu.regs.r + UInt8.ofNat (2 * count)) &&& 0x7F
    have hbc : after.1.regs.bc = (cpu.transferring direction count f refresh).regs.bc := congrArg (·.1.regs.bc) hafter
    rw [hbc, bc_transferring]
    exact (sub_ofNat_eq_zero_iff cpu.transfers_pos (Nat.le_refl _)).mpr rfl
  · exact (congrArg (·.1.regs.refresh) hafter).trans (cpu.refresh_passing (2 * count))
  · obtain ⟨f, r, -, -, hrun⟩ := h.stepMany earlier hearlier
    exact congrArg (·.1.regs.pc) hrun
  · have hmemory : after.2.memory = bus.memory.copied direction cpu.regs.hl cpu.regs.de count :=
      congrArg (·.2.memory) hafter
    rw [hmemory]
    exact Memory.get_copied_of_moved direction hnext count j hj

/-! `LDIR` over three bytes, the target one byte after the source. -/

def fillingBus : FlatBus := { memory := ((Memory.blank.set 0x8000 0xED).set 0x8001 0xB0).set 0x9000 0x5A }

def fillingCpu : Cpu := { regs := { c := 3, d := 0x90, e := 1, h := 0x90, pc := 0x8000 } }

theorem copiesBlock_filling : CopiesBlock .up fillingCpu fillingBus where
  first := by simp [fillingBus, fillingCpu, Memory.get_set]
  second := by simp [fillingBus, fillingCpu, Memory.get_set, Direction.repeatedLoad]
  apart := by decide

theorem stepMany_repeatedLoad_filling : CopiesBlock .up fillingCpu fillingBus ∧
    (fillingCpu.stepMany 3 fillingBus).1.regs.bc = 0 ∧
    (∀ earlier < 3, (fillingCpu.stepMany earlier fillingBus).1.regs.pc = 0x8000) ∧
    (∃ f, fillingCpu.stepMany 3 fillingBus =
      ((fillingCpu.transferring .up 3 f 6).skip 2,
        { fillingBus with memory := fillingBus.memory.copied .up 0x9000 0x9001 3, clock := 58 })) ∧
    ∀ j < 3, (fillingCpu.stepMany 3 fillingBus).2.memory.get (0x9001 + UInt16.ofNat j) = 0x5A := by
  obtain ⟨⟨f, hafter, -, -⟩, hbc, -, hback, hfilled⟩ := stepMany_repeatedLoad .up fillingCpu fillingBus copiesBlock_filling
  have hcount : fillingCpu.transfers = 3 := rfl
  have hhl : fillingCpu.regs.hl = 0x9000 := rfl
  have hde : fillingCpu.regs.de = 0x9001 := rfl
  have hbyte : fillingBus.memory.get 0x9000 = 0x5A := Memory.get_set_self _ _ _
  rw [hcount] at hafter hbc hback
  rw [hcount, hde, hhl, hbyte] at hfilled
  exact ⟨copiesBlock_filling, hbc, hback, ⟨f, hafter⟩, hfilled rfl⟩

end Cpu

end ZxSpectrum
