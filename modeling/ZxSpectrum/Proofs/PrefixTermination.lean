import Mathlib.Data.Nat.Find
import ZxSpectrum.Proofs.InstructionTimes

/-!
# Chains of index prefixes come to an end

`Cpu.step` opens a limited number of pages. `Completes` says what happens without any limit, and counts the pages. In a memory
that holds a byte other than an index prefix every instruction ends, and it ends as `step` has it; in a memory of nothing but
index prefixes none does (`execution_of_prefixes`). A chain of prefixes does what its last one does, later by an opcode fetch
for each prefix before: a prefix is without effect when the byte after it is executed as if unprefixed, and the byte after it may
be another prefix (`Ends.skip`).
-/

namespace ZxSpectrum

open BusProgram

/-- A bus on which waiting leaves memory alone. -/
class Bus.Steady (β : Type) [Bus β] : Prop where
  peek_contend : ∀ (address place : UInt16) (time : Nat) (bus : β),
    Bus.peek address (Bus.contend place time bus) = Bus.peek address bus

instance : Bus.Steady FlatBus := ⟨fun _ _ _ _ => rfl⟩

instance : Bus.Steady Board := ⟨fun _ _ _ _ => rfl⟩

/-- The byte that opens the page of an index register. -/
def IndexRegister.opcode : IndexRegister → UInt8
  | .ix => 0xDD
  | .iy => 0xFD

theorem isIndexPrefix_iff {byte : UInt8} : IsIndexPrefix byte ↔ ∃ i : IndexRegister, byte = i.opcode := by
  constructor
  · rintro (h | h)
    · exact ⟨.ix, h⟩
    · exact ⟨.iy, h⟩
  · rintro ⟨_ | _, h⟩
    · exact Or.inl h
    · exact Or.inr h

namespace Page

theorem decode_opcode (i : IndexRegister) : Page.base.decode i.opcode = .enter (.index i) := by
  cases i <;> rfl

/-- Of two prefixes the first is without effect. -/
theorem decode_index_of_isIndexPrefix (i : IndexRegister) {byte : UInt8} (h : IsIndexPrefix byte) :
    (Page.index i).decode byte = .again := by
  rcases h with rfl | rfl <;> rfl

theorem decode_index_extended (i : IndexRegister) : (Page.index i).decode 0xED = .again := rfl

end Page

/-! ## Opcode fetches -/

variable {β : Type} [Bus β]

/-- A bus after `count` opcode fetches one after the other, from an address on. -/
def chargeFetches : Nat → UInt16 → β → β
  | 0, _, bus => bus
  | count + 1, address, bus => chargeFetches count (address + 1) (Bus.contend address 4 bus)

namespace Cpu

/-- The processor after as many opcode fetches: the refresh register counts modulo 128, and its bit 7 stays. -/
def passing (count : Nat) (cpu : Cpu) : Cpu :=
  { cpu with regs.pc := cpu.regs.pc + UInt16.ofNat count, regs.r := (cpu.regs.r + UInt8.ofNat count) &&& 0x7F }

theorem fetched_eq_passing (cpu : Cpu) : cpu.fetched = cpu.passing 1 := rfl

end Cpu

/-- Counting modulo 128 in two steps. -/
theorem and_add_and (x y : UInt8) : ((x &&& 0x7F) + y) &&& 0x7F = (x + y) &&& 0x7F := by
  apply UInt8.toNat_inj.mp
  have hmask : ∀ z : UInt8, (z &&& 0x7F).toNat = z.toNat / 2 ^ 0 % 2 ^ 7 * 2 ^ 0 := fun z => toNat_and_field z 0 7 rfl
  rw [hmask, hmask, UInt8.toNat_add, UInt8.toNat_add, hmask]
  omega

/-- The halves of the refresh register do not overlap. -/
theorem Registers.refresh_and (regs : Registers) :
    regs.refresh &&& 0x7F = regs.r &&& 0x7F ∧ regs.refresh &&& 0x80 = regs.r7 &&& 0x80 := by
  have hlow : (0x80 : UInt8) &&& 0x7F = 0 := rfl
  have hhigh : (0x7F : UInt8) &&& 0x80 = 0 := rfl
  rw [refresh, or_and_mask, or_and_mask]
  simp only [UInt8.and_assoc, hlow, hhigh, UInt8.and_self, UInt8.and_zero, UInt8.or_zero, UInt8.zero_or, and_self]

namespace Cpu

theorem passing_passing (first second : Nat) (cpu : Cpu) :
    (cpu.passing first).passing second = cpu.passing (first + second) := by
  simp only [passing, and_add_and, UInt16.ofNat_add, UInt8.ofNat_add, UInt16.add_assoc, UInt8.add_assoc]

theorem fetched_fetched (cpu : Cpu) : cpu.fetched.fetched = cpu.passing 2 := by
  rw [fetched_eq_passing, fetched_eq_passing, passing_passing]

/-- What an instruction reads from the refresh register counts in its low seven bits. -/
theorem refresh_passing (count : Nat) (cpu : Cpu) : (cpu.passing count).regs.refresh =
    ((cpu.regs.refresh + UInt8.ofNat count) &&& 0x7F) ||| (cpu.regs.refresh &&& 0x80) := by
  obtain ⟨hlow, hhigh⟩ := cpu.regs.refresh_and
  rw [← and_add_and cpu.regs.refresh, hlow, hhigh, and_add_and]
  change ((cpu.regs.r + UInt8.ofNat count) &&& 0x7F &&& 0x7F) ||| _ = _
  rw [UInt8.and_assoc]
  rfl

theorem fetched_passing_zero (cpu : Cpu) : (cpu.passing 0).fetched = cpu.fetched := by
  rw [fetched_eq_passing, fetched_eq_passing, passing_passing]

/-- Whether the refresh register has counted modulo 128 before does not show after a fetch. -/
theorem fetch_passing_zero (cpu : Cpu) : (cpu.passing 0).fetch = cpu.fetch := by
  have hpc : (cpu.passing 0).regs.pc = cpu.regs.pc := UInt16.add_zero _
  change (do
    hold (cpu.passing 0).regs.pc 4
    let opcode ← look (cpu.passing 0).regs.pc
    pure (opcode, (cpu.passing 0).fetched)) = _
  rw [hpc, fetched_passing_zero]
  rfl

variable [Bus.Steady β]

/-- An opcode fetch on any bus. -/
theorem run_fetch_steady (cpu : Cpu) (bus : β) :
    cpu.fetch.run bus = ((Bus.peek cpu.regs.pc bus, cpu.fetched), Bus.contend cpu.regs.pc 4 bus) := by
  change ((Bus.peek cpu.regs.pc (Bus.contend cpu.regs.pc 4 bus), cpu.fetched), Bus.contend cpu.regs.pc 4 bus) = _
  rw [Bus.Steady.peek_contend]

end Cpu

theorem peek_chargeFetches [Bus.Steady β] (place : UInt16) (count : Nat) (address : UInt16) (bus : β) :
    Bus.peek place (chargeFetches count address bus) = Bus.peek place bus := by
  induction count generalizing address bus with
  | zero => rfl
  | succ count ih => rw [chargeFetches, ih, Bus.Steady.peek_contend]

/-! ## Execution without a limit -/

namespace Cpu

/-- An opcode byte that is looked up in a page is executed to its end, `pages` pages being looked into on the way. -/
inductive Completes {β : Type} [Bus β] : Nat → Page → UInt8 → Cpu → β → Cpu × β → Prop where
  | run {page : Page} {opcode : UInt8} {cpu : Cpu} {bus : β} {instruction : Instruction} :
      page.decode opcode = .run instruction →
        Completes 1 page opcode cpu bus ((instruction.execute cpu).run bus)
  | enter {pages : Nat} {page next : Page} {opcode : UInt8} {cpu : Cpu} {bus : β} {result : Cpu × β} :
      page.decode opcode = .enter next →
      Completes pages next (cpu.fetch.run bus).1.1 (cpu.fetch.run bus).1.2 (cpu.fetch.run bus).2 result →
        Completes (pages + 1) page opcode cpu bus result
  | enterIndexedBits {pages : Nat} {page : Page} {i : IndexRegister} {opcode : UInt8} {cpu : Cpu} {bus : β}
      {result : Cpu × β} : page.decode opcode = .enterIndexedBits i →
      Completes pages .indexedBits ((cpu.fetchIndexed i).run bus).1.1 ((cpu.fetchIndexed i).run bus).1.2
        ((cpu.fetchIndexed i).run bus).2 result →
        Completes (pages + 1) page opcode cpu bus result
  | again {pages : Nat} {page : Page} {opcode : UInt8} {cpu : Cpu} {bus : β} {result : Cpu × β} :
      page.decode opcode = .again → Completes pages .base opcode cpu bus result →
        Completes (pages + 1) page opcode cpu bus result

/-- The instruction at the program counter is executed to its end. -/
def Ends (pages : Nat) (cpu : Cpu) (bus : β) (result : Cpu × β) : Prop :=
  Completes pages .base (cpu.fetch.run bus).1.1 (cpu.fetch.run bus).1.2 (cpu.fetch.run bus).2 result

/-- A limit that is high enough does not show. -/
theorem Completes.run_dispatch {pages : Nat} {page : Page} {opcode : UInt8} {cpu : Cpu} {bus : β} {result : Cpu × β}
    (h : Completes pages page opcode cpu bus result) : ∀ {fuel : Nat}, pages ≤ fuel →
      (dispatch fuel page opcode cpu).run bus = result := by
  induction h with
  | run hslot =>
    intro fuel hfuel
    obtain ⟨fuel, rfl⟩ := Nat.exists_eq_add_of_le' hfuel
    rw [dispatch, hslot]
  | enter hslot _ ih =>
    intro fuel hfuel
    obtain ⟨fuel, rfl⟩ := Nat.exists_eq_add_of_le' (Nat.le_trans (Nat.le_add_left 1 _) hfuel)
    rw [dispatch, hslot]
    simp only [run_bind]
    exact ih (Nat.le_of_succ_le_succ hfuel)
  | enterIndexedBits hslot _ ih =>
    intro fuel hfuel
    obtain ⟨fuel, rfl⟩ := Nat.exists_eq_add_of_le' (Nat.le_trans (Nat.le_add_left 1 _) hfuel)
    rw [dispatch, hslot]
    simp only [run_bind]
    exact ih (Nat.le_of_succ_le_succ hfuel)
  | again hslot _ ih =>
    intro fuel hfuel
    obtain ⟨fuel, rfl⟩ := Nat.exists_eq_add_of_le' (Nat.le_trans (Nat.le_add_left 1 _) hfuel)
    rw [dispatch, hslot]
    exact ih (Nat.le_of_succ_le_succ hfuel)

/-- Execution has one result. -/
theorem Completes.unique {first second : Nat} {page : Page} {opcode : UInt8} {cpu : Cpu} {bus : β}
    {result other : Cpu × β} (h : Completes first page opcode cpu bus result)
    (hother : Completes second page opcode cpu bus other) : result = other :=
  (h.run_dispatch (Nat.le_max_left first second)).symm.trans (hother.run_dispatch (Nat.le_max_right first second))

/-! ## Where a chain of prefixes ends -/

/-- The nearest byte that is no index prefix. -/
theorem exists_chain (cpu : Cpu) {bus : β} (h : ∃ a, ¬ IsIndexPrefix (Bus.peek a bus)) :
    ∃ count < 65536, (∀ j < count, IsIndexPrefix (Bus.peek (cpu.regs.pc + UInt16.ofNat j) bus)) ∧
      ¬ IsIndexPrefix (Bus.peek (cpu.regs.pc + UInt16.ofNat count) bus) := by
  obtain ⟨a, ha⟩ := h
  have hback : cpu.regs.pc + UInt16.ofNat (a - cpu.regs.pc).toNat = a := by
    rw [UInt16.ofNat_toNat, UInt16.add_comm, UInt16.sub_add_cancel]
  have hreached : ∃ count, ¬ IsIndexPrefix (Bus.peek (cpu.regs.pc + UInt16.ofNat count) bus) :=
    ⟨(a - cpu.regs.pc).toNat, by rwa [hback]⟩
  have hle : Nat.find hreached ≤ (a - cpu.regs.pc).toNat := Nat.find_min' hreached (by rwa [hback])
  exact ⟨Nat.find hreached, Nat.lt_of_le_of_lt hle (UInt16.toNat_lt _),
    fun j hj => not_not.mp (Nat.find_min hreached hj), Nat.find_spec hreached⟩

/-- In a chain each prefix but the last is without effect. -/
theorem skipped_of_chain {cpu : Cpu} {bus : β} {count : Nat}
    (hchain : ∀ j ≤ count, IsIndexPrefix (Bus.peek (cpu.regs.pc + UInt16.ofNat j) bus)) :
    ∀ j < count, ∃ i : IndexRegister, Bus.peek (cpu.regs.pc + UInt16.ofNat j) bus = i.opcode ∧
      (Page.index i).decode (Bus.peek (cpu.regs.pc + UInt16.ofNat (j + 1)) bus) = .again := by
  intro j hj
  obtain ⟨i, hi⟩ := isIndexPrefix_iff.mp (hchain j (Nat.le_of_lt hj))
  exact ⟨i, hi, Page.decode_index_of_isIndexPrefix i (hchain (j + 1) hj)⟩

/-! ## One prefix -/

/-- An opcode that is no index prefix opens one page more at most. -/
theorem completes_base {opcode : UInt8} (h : ¬ IsIndexPrefix opcode) (cpu : Cpu) (bus : β) :
    ∃ pages ≤ 2, ∃ result, Completes pages .base opcode cpu bus result := by
  rcases Page.decode_base_cases h with ⟨instruction, hslot⟩ | ⟨page, hpage, hslot⟩
  · exact ⟨1, Nat.le_succ 1, _, .run hslot⟩
  · refine ⟨2, Nat.le_refl 2, ?_⟩
    rcases hpage with rfl | rfl <;> exact ⟨_, .enter hslot (.run rfl)⟩

theorem completes_index {opcode : UInt8} (h : ¬ IsIndexPrefix opcode) (i : IndexRegister) (cpu : Cpu) (bus : β) :
    ∃ pages ≤ 3, ∃ result, Completes pages (.index i) opcode cpu bus result := by
  rcases Page.decode_index_cases h i with ⟨instruction, hslot⟩ | ⟨j, hslot⟩ | hslot
  · exact ⟨1, by omega, _, .run hslot⟩
  · exact ⟨2, by omega, _, .enterIndexedBits hslot (.run rfl)⟩
  · obtain ⟨pages, hpages, result, hbase⟩ := completes_base h cpu bus
    exact ⟨pages + 1, by omega, result, .again hslot hbase⟩

variable [Bus.Steady β]

/-- An instruction without prefixes. -/
theorem ends_of_not_isIndexPrefix {cpu : Cpu} {bus : β} (h : ¬ IsIndexPrefix (Bus.peek cpu.regs.pc bus)) :
    ∃ pages ≤ 2, ∃ result, cpu.Ends pages bus result := by
  simp only [Ends, run_fetch_steady]
  exact completes_base h _ _

/-- What follows a prefix is looked up in the page of an index register. -/
theorem ends_of_index {cpu : Cpu} {bus : β} {i : IndexRegister} {pages : Nat} {result : Cpu × β}
    (h : Bus.peek cpu.regs.pc bus = i.opcode)
    (hnext : Completes pages (.index i) (Bus.peek (cpu.regs.pc + 1) bus) cpu.fetched.fetched
      (chargeFetches 2 cpu.regs.pc bus) result) : cpu.Ends (pages + 1) bus result := by
  have hslot : Page.base.decode (Bus.peek cpu.regs.pc bus) = .enter (.index i) := by rw [h, Page.decode_opcode]
  simp only [Ends, run_fetch_steady]
  refine .enter hslot ?_
  simp only [run_fetch_steady, Bus.Steady.peek_contend]
  exact hnext

/-- A prefix before an instruction of its own. -/
theorem ends_of_isIndexPrefix {cpu : Cpu} {bus : β} (h : IsIndexPrefix (Bus.peek cpu.regs.pc bus))
    (hnext : ¬ IsIndexPrefix (Bus.peek (cpu.regs.pc + 1) bus)) : ∃ pages ≤ 4, ∃ result, cpu.Ends pages bus result := by
  obtain ⟨i, hi⟩ := isIndexPrefix_iff.mp h
  obtain ⟨pages, hpages, result, hindex⟩ := completes_index hnext i cpu.fetched.fetched (chargeFetches 2 cpu.regs.pc bus)
  exact ⟨pages + 1, Nat.succ_le_succ hpages, result, ends_of_index hi hindex⟩

/-- A prefix before a byte that is executed as if unprefixed only costs its fetch. -/
theorem Ends.skip {cpu : Cpu} {bus : β} {i : IndexRegister} {pages : Nat} {result : Cpu × β}
    (h : Bus.peek cpu.regs.pc bus = i.opcode)
    (hagain : (Page.index i).decode (Bus.peek (cpu.regs.pc + 1) bus) = .again)
    (hrest : cpu.fetched.Ends pages (Bus.contend cpu.regs.pc 4 bus) result) : cpu.Ends (pages + 2) bus result := by
  simp only [Ends, run_fetch_steady, Bus.Steady.peek_contend] at hrest
  exact ends_of_index h (.again hagain hrest)

/-! ## Chains of prefixes -/

/-- Prefixes that are each followed by a byte that is executed as if unprefixed only cost their fetches. -/
theorem Ends.skips {pages : Nat} {result : Cpu × β} (count : Nat) : ∀ {cpu : Cpu} {bus : β},
    (∀ j < count, ∃ i : IndexRegister, Bus.peek (cpu.regs.pc + UInt16.ofNat j) bus = i.opcode ∧
      (Page.index i).decode (Bus.peek (cpu.regs.pc + UInt16.ofNat (j + 1)) bus) = .again) →
    (cpu.passing count).Ends pages (chargeFetches count cpu.regs.pc bus) result →
      cpu.Ends (pages + 2 * count) bus result := by
  induction count with
  | zero =>
    intro cpu bus _ hrest
    rw [Ends, fetch_passing_zero] at hrest
    exact hrest
  | succ count ih =>
    intro cpu bus hskipped hrest
    obtain ⟨i, hfirst, hagain⟩ := hskipped 0 (Nat.succ_pos count)
    rw [show UInt16.ofNat 0 = 0 from rfl, UInt16.add_zero] at hfirst
    have hlater : cpu.fetched.Ends (pages + 2 * count) (Bus.contend cpu.regs.pc 4 bus) result := by
      refine ih (fun j hj => ?_) ?_
      · simp only [fetched_pc_add, Bus.Steady.peek_contend]
        exact hskipped (j + 1) (Nat.succ_lt_succ hj)
      · rw [fetched_eq_passing, passing_passing, Nat.add_comm 1]
        exact hrest
    exact hlater.skip hfirst hagain

/-- From any program counter on, an instruction ends within the limit if there is a byte that is no index prefix. -/
theorem exists_ends (cpu : Cpu) {bus : β} (h : ∃ a, ¬ IsIndexPrefix (Bus.peek a bus)) :
    ∃ pages ≤ pageLimit, ∃ result, cpu.Ends pages bus result := by
  obtain ⟨count, hcount, hchain, hlast⟩ := cpu.exists_chain h
  have hlimit : pageLimit = 131080 := rfl
  cases count with
  | zero =>
    rw [show UInt16.ofNat 0 = 0 from rfl, UInt16.add_zero] at hlast
    obtain ⟨pages, hpages, result, hends⟩ := ends_of_not_isIndexPrefix hlast
    exact ⟨pages, by omega, result, hends⟩
  | succ count =>
    have hmoved : (cpu.passing count).regs.pc = cpu.regs.pc + UInt16.ofNat count := rfl
    have hnext : ¬ IsIndexPrefix (Bus.peek ((cpu.passing count).regs.pc + 1) (chargeFetches count cpu.regs.pc bus)) := by
      rw [peek_chargeFetches, hmoved, UInt16.add_assoc]
      rwa [Nat.succ_eq_add_one, UInt16.ofNat_add] at hlast
    have hfirst : IsIndexPrefix (Bus.peek (cpu.passing count).regs.pc (chargeFetches count cpu.regs.pc bus)) := by
      rw [peek_chargeFetches]
      exact hchain count (Nat.lt_succ_self count)
    obtain ⟨pages, hpages, result, hends⟩ := ends_of_isIndexPrefix hfirst hnext
    have hskipped := skipped_of_chain fun j (hj : j ≤ count) => hchain j (Nat.lt_succ_of_le hj)
    exact ⟨pages + 2 * count, by omega, result, hends.skips count hskipped⟩

/-- Among nothing but index prefixes, an index prefix is followed by others for ever. -/
theorem not_isIndexPrefix_of_completes {pages : Nat} {page : Page} {opcode : UInt8} {cpu : Cpu} {bus : β}
    {result : Cpu × β} (h : Completes pages page opcode cpu bus result) : (∀ a, IsIndexPrefix (Bus.peek a bus)) →
      page = .base ∨ (∃ i, page = .index i) → ¬ IsIndexPrefix opcode := by
  have hslots : ∀ {page : Page} {opcode : UInt8}, page = .base ∨ (∃ i, page = .index i) → IsIndexPrefix opcode →
      (∃ i, page.decode opcode = .enter (.index i)) ∨ page.decode opcode = .again := by
    rintro page opcode (rfl | ⟨i, rfl⟩) hopcode
    · obtain ⟨i, rfl⟩ := isIndexPrefix_iff.mp hopcode
      exact Or.inl ⟨i, Page.decode_opcode i⟩
    · exact Or.inr (Page.decode_index_of_isIndexPrefix i hopcode)
  induction h with
  | run hslot =>
    intro _ hpage hopcode
    have hno := hslots hpage hopcode
    simp [hslot] at hno
  | enter hslot _ ih =>
    intro hall hpage hopcode
    have hnext := hslots hpage hopcode
    simp only [hslot, Slot.enter.injEq, reduceCtorEq, or_false] at hnext
    simp only [run_fetch_steady, Bus.Steady.peek_contend] at ih
    exact ih hall (Or.inr hnext) (hall _)
  | enterIndexedBits hslot =>
    intro _ hpage hopcode
    have hno := hslots hpage hopcode
    simp [hslot] at hno
  | again _ _ ih => exact fun hall _ hopcode => ih hall (Or.inl rfl) hopcode

/-- Whatever ends has met another byte. -/
theorem Ends.exists_other {cpu : Cpu} {bus : β} {pages : Nat} {result : Cpu × β} (h : cpu.Ends pages bus result) :
    ∃ a, ¬ IsIndexPrefix (Bus.peek a bus) := by
  by_contra hnone
  have hall : ∀ a, IsIndexPrefix (Bus.peek a bus) := fun a => not_not.mp fun ha => hnone ⟨a, ha⟩
  simp only [Ends, run_fetch_steady] at h
  refine not_isIndexPrefix_of_completes h (fun a => ?_) (Or.inl rfl) (hall cpu.regs.pc)
  rw [Bus.Steady.peek_contend]
  exact hall a

/-- Instructions end exactly in memories that hold a byte other than an index prefix. -/
theorem exists_ends_iff (cpu : Cpu) (bus : β) :
    (∃ pages result, cpu.Ends pages bus result) ↔ ∃ a, ¬ IsIndexPrefix (Bus.peek a bus) := by
  constructor
  · exact fun ⟨_, _, hends⟩ => hends.exists_other
  · intro hother
    obtain ⟨pages, -, result, hends⟩ := cpu.exists_ends hother
    exact ⟨pages, result, hends⟩

/-- The limit of `step` is never reached by an instruction that ends. -/
theorem Ends.run_step {cpu : Cpu} {bus : β} {pages : Nat} {result : Cpu × β} (h : cpu.Ends pages bus result) :
    cpu.step.run bus = result := by
  obtain ⟨few, hfew, other, hother⟩ := cpu.exists_ends h.exists_other
  have hlimited : cpu.step.run bus = other := by
    rw [step, run_bind]
    exact hother.run_dispatch hfew
  exact hlimited.trans (hother.unique h)

/-- An unprefixed instruction. -/
theorem run_step_of_run {cpu : Cpu} {bus : β} {instruction : Instruction}
    (h : Page.base.decode (Bus.peek cpu.regs.pc bus) = .run instruction) :
    cpu.step.run bus = (instruction.execute cpu.fetched).run (Bus.contend cpu.regs.pc 4 bus) := by
  have hends : cpu.Ends 1 bus ((instruction.execute cpu.fetched).run (Bus.contend cpu.regs.pc 4 bus)) := by
    simp only [Ends, run_fetch_steady]
    exact .run h
  exact hends.run_step

/-- An instruction in the page that its first byte opens. -/
theorem run_step_of_enter {cpu : Cpu} {bus : β} {page : Page} {instruction : Instruction}
    (h : Page.base.decode (Bus.peek cpu.regs.pc bus) = .enter page)
    (hnext : page.decode (Bus.peek (cpu.regs.pc + 1) bus) = .run instruction) :
    cpu.step.run bus = (instruction.execute cpu.fetched.fetched).run (chargeFetches 2 cpu.regs.pc bus) := by
  have hends : cpu.Ends 2 bus ((instruction.execute cpu.fetched.fetched).run (chargeFetches 2 cpu.regs.pc bus)) := by
    simp only [Ends, run_fetch_steady]
    refine .enter h ?_
    simp only [run_fetch_steady, Bus.Steady.peek_contend]
    exact .run hnext
  exact hends.run_step

/-- What stands behind prefixes without effect is executed after their fetches. -/
theorem run_step_of_skipped {cpu : Cpu} {bus : β} (hother : ∃ a, ¬ IsIndexPrefix (Bus.peek a bus)) (count : Nat)
    (hskipped : ∀ j < count, ∃ i : IndexRegister, Bus.peek (cpu.regs.pc + UInt16.ofNat j) bus = i.opcode ∧
      (Page.index i).decode (Bus.peek (cpu.regs.pc + UInt16.ofNat (j + 1)) bus) = .again) :
    cpu.step.run bus = (cpu.passing count).step.run (chargeFetches count cpu.regs.pc bus) := by
  obtain ⟨a, ha⟩ := hother
  have hlater : ∃ a, ¬ IsIndexPrefix (Bus.peek a (chargeFetches count cpu.regs.pc bus)) :=
    ⟨a, by rwa [peek_chargeFetches]⟩
  obtain ⟨pages, -, result, hends⟩ := (cpu.passing count).exists_ends hlater
  rw [hends.run_step, (hends.skips count hskipped).run_step]

/-- Execution ends exactly in memories that hold a byte other than an index prefix, and ends as `step` has it. A chain of
`count + 1` prefixes does what its last one does, after a fetch for each prefix before it; before an `ED` that prefix, too, only
costs its fetch. -/
theorem execution_of_prefixes (cpu : Cpu) (bus : β) :
    ((∃ pages result, cpu.Ends pages bus result) ↔ ∃ a, ¬ IsIndexPrefix (Bus.peek a bus)) ∧
    (∀ pages result, cpu.Ends pages bus result → cpu.step.run bus = result) ∧
    ∀ count, (∀ j ≤ count, IsIndexPrefix (Bus.peek (cpu.regs.pc + UInt16.ofNat j) bus)) →
      ¬ IsIndexPrefix (Bus.peek (cpu.regs.pc + UInt16.ofNat (count + 1)) bus) →
      cpu.step.run bus = (cpu.passing count).step.run (chargeFetches count cpu.regs.pc bus) ∧
      (Bus.peek (cpu.regs.pc + UInt16.ofNat (count + 1)) bus = 0xED →
        cpu.step.run bus = (cpu.passing (count + 1)).step.run (chargeFetches (count + 1) cpu.regs.pc bus)) := by
  refine ⟨cpu.exists_ends_iff bus, fun pages result hends => hends.run_step,
    fun count hchain hlast => ⟨?_, fun hextended => ?_⟩⟩
  · exact run_step_of_skipped ⟨_, hlast⟩ count (skipped_of_chain hchain)
  · refine run_step_of_skipped ⟨_, hlast⟩ (count + 1) fun j hj => ?_
    rcases Nat.lt_succ_iff_lt_or_eq.mp hj with hj | rfl
    · exact skipped_of_chain hchain j hj
    · obtain ⟨i, hi⟩ := isIndexPrefix_iff.mp (hchain j (Nat.le_refl j))
      refine ⟨i, hi, ?_⟩
      rw [hextended, Page.decode_index_extended]

/-! Three prefixes over the top of memory, then `NEG`. -/

def wrappedChain : Memory :=
  ((((Memory.blank.set 0xFFFE 0xFD).set 0xFFFF 0xDD).set 0 0xDD).set 1 0xED).set 2 0x44

theorem get_wrappedChain : (∀ j ≤ 2, IsIndexPrefix (wrappedChain.get (0xFFFE + UInt16.ofNat j))) ∧
    wrappedChain.get (0xFFFE + UInt16.ofNat 3) = 0xED := by
  constructor
  · intro j hj
    have hcases : j = 0 ∨ j = 1 ∨ j = 2 := by omega
    rcases hcases with rfl | rfl | rfl <;> simp [wrappedChain, Memory.get_set, IsIndexPrefix]
  · simp [wrappedChain, Memory.get_set]

theorem execution_of_prefixes_wrapped :
    let cpu : Cpu := { regs := { a := 1, pc := 0xFFFE } }
    let flat : FlatBus := { memory := wrappedChain }
    let board : Board := { memory := wrappedChain, clock := 14335 }
    (∀ j ≤ 2, IsIndexPrefix (wrappedChain.get (0xFFFE + UInt16.ofNat j))) ∧
    wrappedChain.get (0xFFFE + UInt16.ofNat 3) = 0xED ∧
    (∃ pages result, cpu.Ends pages flat result) ∧
    cpu.step.run flat = (cpu.passing 2).step.run (chargeFetches 2 0xFFFE flat) ∧
    cpu.step.run board = (cpu.passing 3).step.run (chargeFetches 3 0xFFFE board) := by
  intro cpu flat board
  obtain ⟨hchain, hextended⟩ := get_wrappedChain
  have hlast : ¬ IsIndexPrefix (wrappedChain.get (0xFFFE + UInt16.ofNat 3)) := by
    rw [hextended]
    decide
  obtain ⟨hends, -, hflat⟩ := execution_of_prefixes cpu flat
  obtain ⟨-, -, hboard⟩ := execution_of_prefixes cpu board
  exact ⟨hchain, hextended, hends.mpr ⟨_, hlast⟩, (hflat 2 hchain hlast).1, (hboard 2 hchain hlast).2 hextended⟩

end Cpu

end ZxSpectrum
