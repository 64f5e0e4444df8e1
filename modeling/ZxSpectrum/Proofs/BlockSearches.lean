import ZxSpectrum.Proofs.ArithmeticFlags
import ZxSpectrum.Proofs.BlockCopies

/-!
# Block searches

A repeated block comparison executes itself anew until a byte is the accumulator or the counter has come to zero. It never changes
memory, so that the bytes that it will see are known beforehand: `Cpu.comparisons` counts them, and the state after each of them
follows (`SearchesBlock.stepMany`, `stepMany_repeatedCompare`).
-/

namespace ZxSpectrum

/-- The second byte of the repeated block comparison. -/
def Direction.repeatedCompare (direction : Direction) : UInt8 :=
  match direction with
  | .up => 0xB1
  | .down => 0xB9

/-! ## Flags -/

namespace Alu

open Flags

/-- A table of half carries holds nothing else. -/
theorem reading_entry_halfOfDifference (place : UInt8) :
    reading (entry halfOfDifference place) = { half := test (entry halfOfDifference place) half } := by
  have hall : ∀ i : Fin 8, reading (halfOfDifference.get i) = { half := test (halfOfDifference.get i) half } := by decide
  exact hall _

/-- A block comparison shows a match, whether the counter is zero, and that it subtracted; it keeps the carry. -/
theorem test_blockCompareFlags (value a f : UInt8) (more : Bool) :
    let flags := blockCompareFlags value a f more
    test flags zero = (value == a) ∧ test flags parity = more ∧ test flags subtract = true ∧
      test flags carry = test f carry := by
  intro flags
  have hzero : a - value = 0 ↔ value = a := by
    rw [UInt8.sub_eq_iff_eq_add, UInt8.zero_add]
    exact eq_comm
  change (reading flags).zero = _ ∧ (reading flags).parity = _ ∧ (reading flags).subtract = _ ∧ (reading flags).carry = _
  simp [flags, blockCompareFlags, reading_entry_halfOfDifference, carryIn, Reading.combine]
  exact ⟨hzero, rfl⟩

/-- Two flags at once. -/
theorem and_beq_parity : ∀ f : UInt8, (f &&& (parity ||| zero) == parity) = (test f parity && !test f zero) :=
  forall_byte (by decide +kernel)

/-- Of the flags before only the carry matters. -/
theorem blockCompareFlags_of_carry {f f' : UInt8} (h : test f carry = test f' carry) (value a : UInt8) (more : Bool) :
    blockCompareFlags value a f more = blockCompareFlags value a f' more := by
  have hcarry : carryIn f = carryIn f' := by
    rw [← UInt8.toNat_inj, toNat_carryIn, toNat_carryIn, h]
  unfold blockCompareFlags
  rw [hcarry]

end Alu

/-! ## Execution -/

namespace Cpu

/-- The processor after some of the comparisons of a block search, but for the flags and the refresh register. -/
def comparing (direction : Direction) (count : Nat) (f r : UInt8) (cpu : Cpu) : Cpu :=
  { cpu with
    regs := { (cpu.regs.setBc (cpu.regs.bc - UInt16.ofNat count)).setHl (direction.moved cpu.regs.hl count) with
      f := f, r := r } }

/-- Whether a block search finds the accumulator a number of bytes on. -/
def hits (direction : Direction) (cpu : Cpu) (bus : FlatBus) (count : Nat) : Bool :=
  bus.memory.get (direction.moved cpu.regs.hl count) == cpu.regs.a

/-- How often a block search compares: up to the first hit, or as often as the counter says if there is none. -/
def comparisons (direction : Direction) (cpu : Cpu) (bus : FlatBus) : Nat :=
  ((List.range cpu.transfers).find? (cpu.hits direction bus)).elim cpu.transfers (· + 1)

/-- A repeated block comparison is next. -/
structure SearchesBlock (direction : Direction) (cpu : Cpu) (bus : FlatBus) : Prop where
  first : bus.memory.get cpu.regs.pc = 0xED
  second : bus.memory.get (cpu.regs.pc + 1) = direction.repeatedCompare

variable {direction : Direction} {cpu : Cpu} {bus : FlatBus}

/-- A search ends with its first hit, or with its last byte. -/
theorem comparisons_spec (direction : Direction) (cpu : Cpu) (bus : FlatBus) :
    let count := cpu.comparisons direction bus
    (0 < count ∧ count ≤ cpu.transfers) ∧ (∀ earlier, earlier + 1 < count → cpu.hits direction bus earlier = false) ∧
    (cpu.hits direction bus (count - 1) = true ∨ count = cpu.transfers) := by
  unfold comparisons
  cases hfind : (List.range cpu.transfers).find? (cpu.hits direction bus) with
  | none =>
    have hnone : ∀ index < cpu.transfers, cpu.hits direction bus index = false := by
      simpa using hfind
    refine ⟨⟨cpu.transfers_pos, Nat.le_refl _⟩, fun earlier hearlier => hnone earlier (Nat.lt_of_succ_lt hearlier), ?_⟩
    exact Or.inr rfl
  | some index =>
    obtain ⟨hhit, hindex, hearlier⟩ := List.find?_range_eq_some.mp hfind
    refine ⟨⟨Nat.succ_pos index, List.mem_range.mp hindex⟩, fun earlier hlt => ?_, Or.inl hhit⟩
    simpa using hearlier earlier (Nat.lt_of_succ_lt_succ hlt)

theorem bc_comparing (direction : Direction) (count : Nat) (f r : UInt8) (cpu : Cpu) :
    (cpu.comparing direction count f r).regs.bc = cpu.regs.bc - UInt16.ofNat count := Word.ofBytes_high_low _

theorem hl_comparing (direction : Direction) (count : Nat) (f r : UInt8) (cpu : Cpu) :
    (cpu.comparing direction count f r).regs.hl = direction.moved cpu.regs.hl count := Word.ofBytes_high_low _

theorem comparing_zero (direction : Direction) (cpu : Cpu) : cpu.comparing direction 0 cpu.regs.f cpu.regs.r = cpu := by
  have hbc : cpu.regs.bc - UInt16.ofNat 0 = cpu.regs.bc := UInt16.sub_zero _
  rw [comparing, direction.moved_zero, hbc]
  simp only [Registers.setBc, Registers.setHl, Registers.bc, Registers.hl, Word.high_ofBytes, Word.low_ofBytes]

theorem comparing_comparing (first second : Nat) (f r f' r' : UInt8) :
    (cpu.comparing direction first f r).comparing direction second f' r' =
      cpu.comparing direction (first + second) f' r' := by
  rw [comparing, bc_comparing, hl_comparing, direction.moved_moved, Word.sub_sub, ← UInt16.ofNat_add]
  rfl

/-- A block comparison, once its opcode has been fetched: it is repeated unless the counter is zero or the byte is the
accumulator. -/
theorem run_blockCompare (direction : Direction) (repeats : Bool) (cpu : Cpu) (bus : FlatBus) :
    (cpu.blockCompare direction repeats).run bus =
      let value := bus.memory.get cpu.regs.hl
      let more := cpu.regs.bc - 1 != 0
      let moved := cpu.comparing direction 1 (Alu.blockCompareFlags value cpu.regs.a cpu.regs.f more) cpu.regs.r
      if repeats && (more && !(value == cpu.regs.a)) then (moved.rewind, { bus with clock := bus.clock + 13 })
      else (moved, { bus with clock := bus.clock + 8 }) := by
  have hread : ((BusProgram.read cpu.regs.hl).run bus).1 = bus.memory.get cpu.regs.hl := rfl
  obtain ⟨hzero, hparity, -, -⟩ :=
    Alu.test_blockCompareFlags (bus.memory.get cpu.regs.hl) cpu.regs.a cpu.regs.f (cpu.regs.bc - 1 != 0)
  unfold blockCompare
  simp only [BusProgram.run_bind, Direction.advance_eq_moved, Alu.and_beq_parity, hread, hzero, hparity]
  cases repeats && (cpu.regs.bc - 1 != 0 && !(bus.memory.get cpu.regs.hl == cpu.regs.a)) <;> rfl

/-- One execution of a repeated block comparison. -/
theorem step_repeatedCompare (hfirst : bus.memory.get cpu.regs.pc = 0xED)
    (hopcode : bus.memory.get (cpu.regs.pc + 1) = direction.repeatedCompare) :
    let value := bus.memory.get cpu.regs.hl
    let more := cpu.regs.bc - 1 != 0
    let moved := cpu.comparing direction 1 (Alu.blockCompareFlags value cpu.regs.a cpu.regs.f more)
      ((cpu.regs.r + 2) &&& 0x7F)
    cpu.step.run bus = if more && !(value == cpu.regs.a) then (moved, { bus with clock := bus.clock + 21 })
      else (moved.skip 2, { bus with clock := bus.clock + 16 }) := by
  have hsecond : Page.extended.decode (bus.memory.get (cpu.regs.pc + 1)) = .run (.blockCompare direction true) := by
    rw [hopcode]
    cases direction <;> rfl
  intro value more moved
  have hback : ((cpu.passing 2).comparing direction 1 moved.regs.f (cpu.passing 2).regs.r).rewind = moved := by
    change { moved with regs.pc := (cpu.passing 2).regs.pc - 2 } = moved
    rw [sub_two_passing]
    rfl
  rw [run_step_extended hfirst hsecond]
  refine (run_blockCompare direction true (cpu.passing 2) { bus with clock := bus.clock + 8 }).trans ?_
  change (if more && _ then (((cpu.passing 2).comparing direction 1 moved.regs.f _).rewind, _) else (_, _)) = _
  rw [hback]
  rfl

/-- One more execution, after some. -/
theorem SearchesBlock.step (h : SearchesBlock direction cpu bus) {count : Nat} (hcount : count < cpu.transfers) (f r : UInt8) :
    let more := count + 1 != cpu.transfers
    let flags := Alu.blockCompareFlags (bus.memory.get (direction.moved cpu.regs.hl count)) cpu.regs.a f more
    let moved := cpu.comparing direction (count + 1) flags ((r + 2) &&& 0x7F)
    (cpu.comparing direction count f r).step.run { bus with clock := bus.clock + 21 * count } =
      if more && !cpu.hits direction bus count then (moved, { bus with clock := bus.clock + 21 * (count + 1) })
      else (moved.skip 2, { bus with clock := bus.clock + 21 * count + 16 }) := by
  intro more flags moved
  have hfirst : ({ bus with clock := bus.clock + 21 * count } : FlatBus).memory.get
      (cpu.comparing direction count f r).regs.pc = 0xED := h.first
  have hstep := step_repeatedCompare hfirst h.second
  simp only [bc_comparing, hl_comparing, more_eq hcount, comparing_comparing] at hstep
  exact hstep

/-- The state after some of the comparisons, as long as nothing was found. -/
theorem SearchesBlock.stepMany (h : SearchesBlock direction cpu bus) : ∀ count < cpu.comparisons direction bus, ∃ f r,
    Flags.test f Flags.carry = Flags.test cpu.regs.f Flags.carry ∧
    r &&& 0x7F = (cpu.regs.r + UInt8.ofNat (2 * count)) &&& 0x7F ∧
    cpu.stepMany count bus = (cpu.comparing direction count f r, { bus with clock := bus.clock + 21 * count }) := by
  intro count hcount
  obtain ⟨⟨-, hle⟩, hmissed, -⟩ := comparisons_spec direction cpu bus
  let state (count : Nat) (f r : UInt8) : Cpu × FlatBus :=
    (cpu.comparing direction count f r, { bus with clock := bus.clock + 21 * count })
  let Kept (f : UInt8) : Prop := Flags.test f Flags.carry = Flags.test cpu.regs.f Flags.carry
  have hstart : state 0 cpu.regs.f cpu.regs.r = (cpu, bus) := congrArg (·, bus) (cpu.comparing_zero direction)
  refine stepMany_of_steps state Kept hstart rfl (fun earlier hearlier f r hf => ?_) count (Nat.le_refl count)
  have hmore : (earlier + 1 != cpu.transfers) = true := bne_iff_ne.mpr (by omega)
  have hmiss : cpu.hits direction bus earlier = false := hmissed earlier (by omega)
  have hone := h.step (show earlier < cpu.transfers by omega) f r
  simp only [hmore, hmiss, Bool.not_false, Bool.and_true, if_true] at hone
  exact ⟨_, (Alu.test_blockCompareFlags _ _ _ _).2.2.2.trans hf, hone⟩

/-- The state after the last comparison. -/
theorem SearchesBlock.stepMany_comparisons (h : SearchesBlock direction cpu bus) :
    let count := cpu.comparisons direction bus
    let value := bus.memory.get (direction.moved cpu.regs.hl (count - 1))
    let flags := Alu.blockCompareFlags value cpu.regs.a cpu.regs.f (count != cpu.transfers)
    cpu.stepMany count bus =
      ((cpu.comparing direction count flags ((cpu.regs.r + UInt8.ofNat (2 * count)) &&& 0x7F)).skip 2,
        { bus with clock := bus.clock + 21 * (count - 1) + 16 }) := by
  intro count value flags
  obtain ⟨⟨hpos, hle⟩, -, hend⟩ := comparisons_spec direction cpu bus
  obtain ⟨last, hlast⟩ : ∃ last, count = last + 1 := Nat.exists_eq_add_one_of_ne_zero (Nat.ne_of_gt hpos)
  have hlt : last < count := by omega
  have hprevious : count - 1 = last := by omega
  obtain ⟨f, r, hf, hr, hrun⟩ := h.stepMany last hlt
  have hends : (count != cpu.transfers && !cpu.hits direction bus last) = false := by
    rw [← hprevious]
    rcases hend with hhit | hall
    · rw [hhit, Bool.not_true, Bool.and_false]
    · rw [show count = cpu.transfers from hall, bne_self_eq_false, Bool.false_and]
  have hone := h.step (Nat.lt_of_lt_of_le hlt hle) f r
  simp only [← hlast, hends, and_add_two hr, Alu.blockCompareFlags_of_carry hf, Bool.false_eq_true, if_false] at hone
  have hafter := stepMany_succ last cpu bus
  rw [hrun, hone, ← hlast] at hafter
  rw [hafter, ← hprevious]

/-- A repeated block comparison compares the accumulator with one byte after the other, up to the first that equals it or to the
last that the counter allows, in as many executions; before the last of them the program counter is back at the instruction each
time. It has then moved past the bytes and counted them, zero says whether the last one is the accumulator, parity whether the
counter is not zero, and the carry is kept; nothing else changes but the refresh register, which counts twice for each byte, and
the clock. -/
theorem stepMany_repeatedCompare (direction : Direction) (cpu : Cpu) (bus : FlatBus) (h : SearchesBlock direction cpu bus) :
    let count := cpu.comparisons direction bus
    let value := bus.memory.get (direction.moved cpu.regs.hl (count - 1))
    let flags := Alu.blockCompareFlags value cpu.regs.a cpu.regs.f (count != cpu.transfers)
    let after := cpu.stepMany count bus
    after = ((cpu.comparing direction count flags ((cpu.regs.r + UInt8.ofNat (2 * count)) &&& 0x7F)).skip 2,
      { bus with clock := bus.clock + 21 * (count - 1) + 16 }) ∧
    (after.1.regs.bc = cpu.regs.bc - UInt16.ofNat count ∧ after.1.regs.hl = direction.moved cpu.regs.hl count) ∧
    (Flags.test after.1.regs.f Flags.zero = true ↔ value = cpu.regs.a) ∧
    (Flags.test after.1.regs.f Flags.parity = true ↔ after.1.regs.bc ≠ 0) ∧
    Flags.test after.1.regs.f Flags.subtract = true ∧
    Flags.test after.1.regs.f Flags.carry = Flags.test cpu.regs.f Flags.carry ∧
    (∀ earlier < count, (cpu.stepMany earlier bus).1.regs.pc = cpu.regs.pc) := by
  intro count value flags after
  obtain ⟨⟨hpos, hle⟩, -, -⟩ := comparisons_spec direction cpu bus
  let refresh := (cpu.regs.r + UInt8.ofNat (2 * count)) &&& 0x7F
  have hafter : after = ((cpu.comparing direction count flags refresh).skip 2, _) := h.stepMany_comparisons
  have hf : after.1.regs.f = flags := congrArg (·.1.regs.f) hafter
  have hbc : after.1.regs.bc = cpu.regs.bc - UInt16.ofNat count :=
    (congrArg (·.1.regs.bc) hafter).trans (bc_comparing direction count flags refresh cpu)
  have hhl : after.1.regs.hl = direction.moved cpu.regs.hl count :=
    (congrArg (·.1.regs.hl) hafter).trans (hl_comparing direction count flags refresh cpu)
  obtain ⟨hzero, hparity, hsubtract, hcarry⟩ :=
    Alu.test_blockCompareFlags value cpu.regs.a cpu.regs.f (count != cpu.transfers)
  rw [hf, hbc]
  refine ⟨hafter, ⟨rfl, hhl⟩, ?_, ?_, hsubtract, hcarry, fun earlier hearlier => ?_⟩
  · rw [hzero, beq_iff_eq]
  · rw [hparity, bne_iff_ne, Ne, Ne, sub_ofNat_eq_zero_iff hpos hle]
  · obtain ⟨f, r, -, -, hrun⟩ := h.stepMany earlier hearlier
    exact congrArg (·.1.regs.pc) hrun

/-! `CPIR` over five bytes, the second of which is the accumulator. -/

def searchingBus : FlatBus := { memory := ((Memory.blank.set 0x8000 0xED).set 0x8001 0xB1).set 0x9001 0x5A }

def searchingCpu : Cpu := { regs := { a := 0x5A, c := 5, h := 0x90, pc := 0x8000 } }

theorem searchesBlock_searching : SearchesBlock .up searchingCpu searchingBus where
  first := by simp [searchingBus, searchingCpu, Memory.get_set]
  second := by simp [searchingBus, searchingCpu, Memory.get_set, Direction.repeatedCompare]

theorem comparisons_searching : searchingCpu.comparisons .up searchingBus = 2 := by
  have hmiss : searchingBus.memory.get 0x9000 = 0 := by simp [searchingBus, Memory.get_set]
  have hhit : searchingBus.memory.get 0x9001 = 0x5A := Memory.get_set_self _ _ _
  have hhits : ∀ count, searchingCpu.hits .up searchingBus count =
      (searchingBus.memory.get (0x9000 + UInt16.ofNat count) == 0x5A) := fun _ => rfl
  unfold comparisons
  rw [show List.range searchingCpu.transfers = [0, 1, 2, 3, 4] from rfl, List.find?_cons, hhits]
  rw [show (0x9000 : UInt16) + UInt16.ofNat 0 = 0x9000 from rfl, hmiss, List.find?_cons, hhits]
  rw [show (0x9000 : UInt16) + UInt16.ofNat 1 = 0x9001 from rfl, hhit]
  rfl

theorem stepMany_repeatedCompare_searching : SearchesBlock .up searchingCpu searchingBus ∧
    (searchingCpu.stepMany 2 searchingBus).1.regs.bc = 3 ∧ (searchingCpu.stepMany 2 searchingBus).1.regs.hl = 0x9002 ∧
    Flags.test (searchingCpu.stepMany 2 searchingBus).1.regs.f Flags.zero = true ∧
    Flags.test (searchingCpu.stepMany 2 searchingBus).1.regs.f Flags.parity = true ∧
    (searchingCpu.stepMany 1 searchingBus).1.regs.pc = 0x8000 ∧ (searchingCpu.stepMany 2 searchingBus).2.clock = 37 := by
  obtain ⟨hafter, ⟨hbc, hhl⟩, hzero, hparity, -, -, hback⟩ :=
    stepMany_repeatedCompare .up searchingCpu searchingBus searchesBlock_searching
  rw [comparisons_searching] at hafter hbc hhl hzero hparity hback
  have hbyte : searchingBus.memory.get 0x9001 = 0x5A := Memory.get_set_self _ _ _
  have hcounter : (searchingCpu.stepMany 2 searchingBus).1.regs.bc ≠ 0 := by
    rw [hbc]
    decide
  have hclock : (searchingCpu.stepMany 2 searchingBus).2.clock = 37 := congrArg (·.2.clock) hafter
  exact ⟨searchesBlock_searching, hbc, hhl, hzero.mpr hbyte, hparity.mpr hcounter, hback 1 (by decide), hclock⟩

end Cpu

end ZxSpectrum
