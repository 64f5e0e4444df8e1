import ZxSpectrum.Proofs.ArithmeticFlags
import ZxSpectrum.Proofs.BlockCopies

/-!
# Blocks through a port

A repeated block input or output executes itself anew until B has come to zero. B is also the upper half of the port's address, so
that every byte goes out to another port. While none of its own two bytes is written to, each execution makes one transfer
(`PortsBlock.step`), and the transfers that a run has made are known at any time (`PortsBlock.stepMany`, `stepMany_repeatedPort`).
-/

namespace ZxSpectrum

/-- Into memory, or out of it. -/
inductive PortWay where
  | input | output
deriving DecidableEq

/-- The second byte of the repeated block transfer through a port. -/
def PortWay.repeated (way : PortWay) (direction : Direction) : UInt8 :=
  match way, direction with
  | .input, .up => 0xB2
  | .input, .down => 0xBA
  | .output, .up => 0xB3
  | .output, .down => 0xBB

def PortWay.instruction (way : PortWay) (direction : Direction) (repeats : Bool) : Instruction :=
  match way with
  | .input => .blockInput direction repeats
  | .output => .blockOutput direction repeats

/-- One byte goes from the port into memory, or out of memory to the port. -/
def FlatBus.transfer (way : PortWay) (port address : UInt16) (bus : FlatBus) : FlatBus :=
  match way with
  | .input => { bus with memory := bus.memory.set address bus.portValue }
  | .output => { bus with portWrites := bus.portWrites.push (port, bus.memory.get address) }

namespace Alu

open Flags

/-- A block transfer through a port shows whether its counter is zero. -/
theorem test_blockPortFlags (value k b : UInt8) : test (blockPortFlags value k b) zero = (b == 0) := by
  change (reading _).zero = _
  simp [blockPortFlags, ofParity, Reading.combine, Reading.ofValue, beq_zero_eq]

end Alu

namespace Cpu

/-- How often a block instruction transfers a byte through a port. -/
def portTransfers (cpu : Cpu) : Nat := if cpu.regs.b = 0 then 256 else cpu.regs.b.toNat

/-- The processor after some of the transfers through a port, but for the flags and the refresh register. -/
def counting (direction : Direction) (count : Nat) (f r : UInt8) (cpu : Cpu) : Cpu :=
  { cpu with
    regs := { cpu.regs.setHl (direction.moved cpu.regs.hl count) with b := cpu.regs.b - UInt8.ofNat count, f := f, r := r } }

/-- The port of an output, with the number of those before it. -/
def portAfter (cpu : Cpu) (count : Nat) : UInt16 := Word.ofBytes (cpu.regs.b - UInt8.ofNat (count + 1)) cpu.regs.c

/-- The bus after some of the transfers through a port. -/
def transferred (way : PortWay) (direction : Direction) (cpu : Cpu) (bus : FlatBus) : Nat → FlatBus
  | 0 => bus
  | count + 1 =>
    (cpu.transferred way direction bus count).transfer way (cpu.portAfter count) (direction.moved cpu.regs.hl count)

/-- A repeated block transfer through a port is next, and does not write to its own two bytes. -/
structure PortsBlock (way : PortWay) (direction : Direction) (cpu : Cpu) (bus : FlatBus) : Prop where
  first : bus.memory.get cpu.regs.pc = 0xED
  second : bus.memory.get (cpu.regs.pc + 1) = way.repeated direction
  apart : way = .input → ∀ count < cpu.portTransfers,
    direction.moved cpu.regs.hl count ≠ cpu.regs.pc ∧ direction.moved cpu.regs.hl count ≠ cpu.regs.pc + 1

variable {way : PortWay} {direction : Direction} {cpu : Cpu} {bus : FlatBus}

theorem portTransfers_pos (cpu : Cpu) : 0 < cpu.portTransfers := by
  unfold portTransfers
  split
  · decide
  · rename_i hne
    exact Nat.pos_of_ne_zero fun hzero => hne (UInt8.toNat_inj.mp hzero)

/-- The counter reaches zero with the last transfer. -/
theorem b_sub_eq_zero_iff {count : Nat} (hpos : 0 < count) (hle : count ≤ cpu.portTransfers) :
    cpu.regs.b - UInt8.ofNat count = 0 ↔ count = cpu.portTransfers := by
  have hb := cpu.regs.b.toNat_lt
  rw [← UInt8.toNat_inj, UInt8.toNat_sub, UInt8.toNat_ofNat', UInt8.toNat_zero]
  unfold portTransfers at hle ⊢
  split at hle
  · rename_i hzero
    rw [if_pos hzero, hzero, UInt8.toNat_zero]
    omega
  · rename_i hzero
    rw [if_neg hzero]
    omega

theorem sub_ofNat_succ (b : UInt8) (count : Nat) : b - UInt8.ofNat count - 1 = b - UInt8.ofNat (count + 1) := by
  rw [UInt8.ofNat_add, UInt8.sub_eq_add_neg b (_ + _), UInt8.neg_add, UInt8.sub_eq_add_neg, UInt8.sub_eq_add_neg,
    UInt8.sub_eq_add_neg, UInt8.add_assoc]
  rfl

theorem hl_counting (direction : Direction) (count : Nat) (f r : UInt8) (cpu : Cpu) :
    (cpu.counting direction count f r).regs.hl = direction.moved cpu.regs.hl count := Word.ofBytes_high_low _

theorem counting_zero (direction : Direction) (cpu : Cpu) : cpu.counting direction 0 cpu.regs.f cpu.regs.r = cpu := by
  have hb : cpu.regs.b - UInt8.ofNat 0 = cpu.regs.b := UInt8.sub_zero _
  rw [counting, direction.moved_zero, hb]
  simp only [Registers.setHl, Registers.hl, Word.high_ofBytes, Word.low_ofBytes]

theorem counting_counting (count : Nat) (f r f' r' : UInt8) :
    (cpu.counting direction count f r).counting direction 1 f' r' = cpu.counting direction (count + 1) f' r' := by
  rw [counting, hl_counting, direction.moved_moved, show (cpu.counting direction count f r).regs.b - UInt8.ofNat 1 = _ from
    sub_ofNat_succ cpu.regs.b count]
  rfl

/-! ## What the transfers come to -/

/-- Transfers take their time elsewhere. -/
theorem transfer_clock (way : PortWay) (port address : UInt16) (bus : FlatBus) (clock : Nat) :
    ({ bus with clock := clock } : FlatBus).transfer way port address =
      { bus.transfer way port address with clock := clock } := by
  cases way <;> rfl

/-- What comes in is in memory, one byte after the other, and nothing else has changed. -/
theorem transferred_input (direction : Direction) (cpu : Cpu) (bus : FlatBus) (count : Nat) :
    let after := cpu.transferred .input direction bus count
    (∀ j < count, after.memory.get (direction.moved cpu.regs.hl j) = bus.portValue) ∧
    (∀ a, (∀ j < count, direction.moved cpu.regs.hl j ≠ a) → after.memory.get a = bus.memory.get a) ∧
    after = { bus with memory := after.memory } := by
  induction count with
  | zero => exact ⟨fun j hj => absurd hj (Nat.not_lt_zero j), fun a _ => rfl, rfl⟩
  | succ count ih =>
    obtain ⟨hfilled, hkept, hrest⟩ := ih
    intro after
    have hvalue : (cpu.transferred .input direction bus count).portValue = bus.portValue := by rw [hrest]
    have hmemory : after.memory = (cpu.transferred .input direction bus count).memory.set
        (direction.moved cpu.regs.hl count) bus.portValue := by
      rw [← hvalue]
      rfl
    refine ⟨fun j hj => ?_, fun a ha => ?_, ?_⟩
    · rw [hmemory, Memory.get_set]
      split
      · rfl
      · rename_i hne
        have hlt : j < count := by
          rcases Nat.lt_succ_iff_lt_or_eq.mp hj with hlt | rfl
          · exact hlt
          · exact absurd rfl hne
        exact hfilled j hlt
    · rw [hmemory, Memory.get_set_of_ne _ _ (ha count (Nat.lt_succ_self count))]
      exact hkept a fun j hj => ha j (Nat.lt_succ_of_lt hj)
    · change (cpu.transferred .input direction bus count).transfer .input _ _ = _
      rw [hmemory, hrest]
      rfl

/-- What goes out is in the port writes, in order, and nothing else has changed. -/
theorem transferred_output (direction : Direction) (cpu : Cpu) (bus : FlatBus) (count : Nat) :
    cpu.transferred .output direction bus count =
      { bus with
        portWrites := bus.portWrites ++
          (Array.range count).map fun j => (cpu.portAfter j, bus.memory.get (direction.moved cpu.regs.hl j)) } := by
  induction count with
  | zero =>
    rw [show Array.range 0 = #[] from rfl, Array.map_empty, Array.append_empty]
    rfl
  | succ count ih =>
    rw [transferred, ih, Array.range_succ, Array.map_append, ← Array.append_assoc, Array.map_singleton, ← Array.push_eq_append]
    rfl

/-- The program stays where it is, byte for byte, as long as it is not written to. -/
theorem get_transferred {count : Nat} {a : UInt16}
    (h : way = .input → ∀ j < count, direction.moved cpu.regs.hl j ≠ a) :
    (cpu.transferred way direction bus count).memory.get a = bus.memory.get a := by
  cases way with
  | input => exact (transferred_input direction cpu bus count).2.1 a (h rfl)
  | output => rw [transferred_output]

/-! ## Execution -/

/-- The flags of one transfer through a port. -/
def portFlags (way : PortWay) (direction : Direction) (cpu : Cpu) (bus : FlatBus) : UInt8 :=
  match way with
  | .input =>
    let c := match direction with
      | .up => cpu.regs.c + 1
      | .down => cpu.regs.c - 1
    Alu.blockPortFlags bus.portValue (bus.portValue + c) (cpu.regs.b - 1)
  | .output =>
    let value := bus.memory.get cpu.regs.hl
    Alu.blockPortFlags value (value + Word.low (direction.moved cpu.regs.hl 1)) (cpu.regs.b - 1)

theorem test_portFlags (way : PortWay) (direction : Direction) (cpu : Cpu) (bus : FlatBus) :
    Flags.test (cpu.portFlags way direction bus) Flags.zero = (cpu.regs.b - 1 == 0) := by
  cases way <;> exact Alu.test_blockPortFlags _ _ _

/-- A block transfer through a port, once its opcode has been fetched. -/
theorem run_portBlock (way : PortWay) (direction : Direction) (repeats : Bool) (cpu : Cpu) (bus : FlatBus) :
    ((way.instruction direction repeats).execute cpu).run bus =
      let more := cpu.regs.b - 1 != 0
      let moved := cpu.counting direction 1 (cpu.portFlags way direction bus) cpu.regs.r
      let after := bus.transfer way (cpu.portAfter 0) cpu.regs.hl
      if repeats && more then (moved.rewind, { after with clock := bus.clock + 13 })
      else (moved, { after with clock := bus.clock + 8 }) := by
  cases way with
  | input =>
    change (cpu.blockInput direction repeats).run bus = _
    unfold blockInput
    simp only [BusProgram.run_bind, Direction.advance_eq_moved]
    cases repeats && (cpu.regs.b - 1 != 0) <;> rfl
  | output =>
    change (cpu.blockOutput direction repeats).run bus = _
    unfold blockOutput
    simp only [BusProgram.run_bind, Direction.advance_eq_moved]
    cases repeats && (cpu.regs.b - 1 != 0) <;> rfl

/-- One execution of a repeated block transfer through a port. -/
theorem step_repeatedPort (hfirst : bus.memory.get cpu.regs.pc = 0xED)
    (hopcode : bus.memory.get (cpu.regs.pc + 1) = way.repeated direction) :
    let more := cpu.regs.b - 1 != 0
    let moved := cpu.counting direction 1 (cpu.portFlags way direction bus) ((cpu.regs.r + 2) &&& 0x7F)
    let after := bus.transfer way (cpu.portAfter 0) cpu.regs.hl
    cpu.step.run bus = if more then (moved, { after with clock := bus.clock + 21 })
      else (moved.skip 2, { after with clock := bus.clock + 16 }) := by
  have hsecond : Page.extended.decode (bus.memory.get (cpu.regs.pc + 1)) = .run (way.instruction direction true) := by
    rw [hopcode]
    cases way <;> cases direction <;> rfl
  intro more moved after
  have hback : ((cpu.passing 2).counting direction 1 moved.regs.f (cpu.passing 2).regs.r).rewind = moved := by
    change { moved with regs.pc := (cpu.passing 2).regs.pc - 2 } = moved
    rw [sub_two_passing]
    rfl
  have hflags : (cpu.passing 2).portFlags way direction { bus with clock := bus.clock + 8 } = moved.regs.f := by
    cases way <;> rfl
  rw [run_step_extended hfirst hsecond, run_portBlock, transfer_clock, hflags]
  change (if more then (((cpu.passing 2).counting direction 1 moved.regs.f _).rewind, _) else (_, _)) = _
  rw [hback]
  rfl

/-- One more execution, after some. -/
theorem PortsBlock.step (h : PortsBlock way direction cpu bus) {count : Nat} (hcount : count < cpu.portTransfers) (f r : UInt8) :
    let before := cpu.transferred way direction bus count
    let after := cpu.transferred way direction bus (count + 1)
    ∃ next, Flags.test next Flags.zero = (count + 1 == cpu.portTransfers) ∧
      (cpu.counting direction count f r).step.run { before with clock := bus.clock + 21 * count } =
        let moved := cpu.counting direction (count + 1) next ((r + 2) &&& 0x7F)
        if count + 1 != cpu.portTransfers then (moved, { after with clock := bus.clock + 21 * (count + 1) })
        else (moved.skip 2, { after with clock := bus.clock + 21 * count + 16 }) := by
  intro before after
  have hzero : (cpu.regs.b - UInt8.ofNat count - 1 == 0) = (count + 1 == cpu.portTransfers) := by
    rw [sub_ofNat_succ, Bool.eq_iff_iff, beq_iff_eq, beq_iff_eq]
    exact b_sub_eq_zero_iff (Nat.succ_pos count) hcount
  have hfirst : before.memory.get (cpu.counting direction count f r).regs.pc = 0xED :=
    (get_transferred fun hway j hj => (h.apart hway j (Nat.lt_trans hj hcount)).1).trans h.first
  have hsecond : before.memory.get ((cpu.counting direction count f r).regs.pc + 1) = way.repeated direction :=
    (get_transferred fun hway j hj => (h.apart hway j (Nat.lt_trans hj hcount)).2).trans h.second
  have hport : (cpu.counting direction count f r).portAfter 0 = cpu.portAfter count :=
    congrArg (Word.ofBytes · cpu.regs.c) (sub_ofNat_succ cpu.regs.b count)
  let start : FlatBus := { before with clock := bus.clock + 21 * count }
  have hstep := @step_repeatedPort way direction (cpu.counting direction count f r) start hfirst hsecond
  refine ⟨(cpu.counting direction count f r).portFlags way direction start, (test_portFlags _ _ _ _).trans hzero, ?_⟩
  have hmore : ((cpu.counting direction count f r).regs.b - 1 != 0) = (count + 1 != cpu.portTransfers) :=
    congrArg (!·) hzero
  simp only [hmore, counting_counting, hport, hl_counting, start, transfer_clock] at hstep
  exact hstep

/-- The state after some of the transfers. -/
theorem PortsBlock.stepMany (h : PortsBlock way direction cpu bus) : ∀ count < cpu.portTransfers, ∃ f r,
    r &&& 0x7F = (cpu.regs.r + UInt8.ofNat (2 * count)) &&& 0x7F ∧
    cpu.stepMany count bus =
      (cpu.counting direction count f r,
        { cpu.transferred way direction bus count with clock := bus.clock + 21 * count }) := by
  intro count hcount
  let state (count : Nat) (f r : UInt8) : Cpu × FlatBus :=
    (cpu.counting direction count f r,
      { cpu.transferred way direction bus count with clock := bus.clock + 21 * count })
  have hstart : state 0 cpu.regs.f cpu.regs.r = (cpu, bus) := congrArg (·, bus) (cpu.counting_zero direction)
  have hstep : ∀ earlier < count, ∀ f r, True → ∃ next, True ∧
      (state earlier f r).1.step.run (state earlier f r).2 = state (earlier + 1) next ((r + 2) &&& 0x7F) := by
    intro earlier hearlier f r _
    obtain ⟨next, -, hone⟩ := h.step (Nat.lt_trans hearlier hcount) f r
    have hmore : (earlier + 1 != cpu.portTransfers) = true := bne_iff_ne.mpr (by omega)
    simp only [hmore, if_true] at hone
    exact ⟨next, trivial, hone⟩
  obtain ⟨f, r, -, hr, hrun⟩ := stepMany_of_steps state (fun _ => True) hstart trivial hstep count (Nat.le_refl count)
  exact ⟨f, r, hr, hrun⟩

/-- The state after the last transfer. -/
theorem PortsBlock.stepMany_portTransfers (h : PortsBlock way direction cpu bus) :
    let count := cpu.portTransfers
    ∃ f, Flags.test f Flags.zero = true ∧ cpu.stepMany count bus =
      ((cpu.counting direction count f ((cpu.regs.r + UInt8.ofNat (2 * count)) &&& 0x7F)).skip 2,
        { cpu.transferred way direction bus count with clock := bus.clock + 21 * (count - 1) + 16 }) := by
  intro count
  obtain ⟨last, hlast⟩ : ∃ last, count = last + 1 := Nat.exists_eq_add_one_of_ne_zero (Nat.ne_of_gt cpu.portTransfers_pos)
  have hlt : last < count := by omega
  have hprevious : count - 1 = last := by omega
  obtain ⟨f, r, hr, hrun⟩ := h.stepMany last hlt
  obtain ⟨next, hzero, hone⟩ := h.step hlt f r
  have hends : (count != cpu.portTransfers) = false := bne_self_eq_false count
  simp only [← hlast, hends, and_add_two hr, Bool.false_eq_true, if_false] at hone
  refine ⟨next, ?_, ?_⟩
  · rw [hzero, ← hlast]
    exact beq_self_eq_true count
  · have hafter := stepMany_succ last cpu bus
    rw [hrun, hone, ← hlast] at hafter
    rw [hafter, ← hprevious]

/-- A repeated block transfer through a port makes as many transfers as B says, 256 if B is zero, in as many executions; before the
last of them the program counter is back at the instruction each time. At the end B is zero, which the flags show, and HL has moved
past the block. After any number of executions as many bytes have come in, one after the other, or as many have gone out in order,
each to the port of what was left of B after it. -/
theorem stepMany_repeatedPort (way : PortWay) (direction : Direction) (cpu : Cpu) (bus : FlatBus)
    (h : PortsBlock way direction cpu bus) :
    let count := cpu.portTransfers
    let after := cpu.stepMany count bus
    (∃ f, Flags.test f Flags.zero = true ∧ after =
      ((cpu.counting direction count f ((cpu.regs.r + UInt8.ofNat (2 * count)) &&& 0x7F)).skip 2,
        { cpu.transferred way direction bus count with clock := bus.clock + 21 * (count - 1) + 16 })) ∧
    (after.1.regs.b = 0 ∧ after.1.regs.hl = direction.moved cpu.regs.hl count) ∧
    (∀ earlier < count, (cpu.stepMany earlier bus).1.regs.pc = cpu.regs.pc) ∧
    ∀ done ≤ count,
      let passed := (cpu.stepMany done bus).2
      (way = .input → passed.portWrites = bus.portWrites ∧
        (∀ j < done, passed.memory.get (direction.moved cpu.regs.hl j) = bus.portValue) ∧
        ∀ a, (∀ j < done, direction.moved cpu.regs.hl j ≠ a) → passed.memory.get a = bus.memory.get a) ∧
      (way = .output → passed.memory = bus.memory ∧ passed.portWrites = bus.portWrites ++
        (Array.range done).map fun j =>
          (Word.ofBytes (cpu.regs.b - UInt8.ofNat (j + 1)) cpu.regs.c, bus.memory.get (direction.moved cpu.regs.hl j))) := by
  intro count after
  obtain ⟨f, hzero, hafter⟩ := h.stepMany_portTransfers
  let refresh := (cpu.regs.r + UInt8.ofNat (2 * count)) &&& 0x7F
  refine ⟨⟨f, hzero, hafter⟩, ⟨?_, ?_⟩, fun earlier hearlier => ?_, fun done hdone => ?_⟩
  · have hb : after.1.regs.b = cpu.regs.b - UInt8.ofNat count := congrArg (·.1.regs.b) hafter
    rw [hb]
    exact (b_sub_eq_zero_iff cpu.portTransfers_pos (Nat.le_refl _)).mpr rfl
  · exact (congrArg (·.1.regs.hl) hafter).trans (hl_counting direction count f refresh cpu)
  · obtain ⟨f, r, -, hrun⟩ := h.stepMany earlier hearlier
    exact congrArg (·.1.regs.pc) hrun
  · intro passed
    have hpassed : ∃ clock, passed = { cpu.transferred way direction bus done with clock := clock } := by
      rcases Nat.lt_or_eq_of_le hdone with hlt | rfl
      · obtain ⟨f, r, -, hrun⟩ := h.stepMany done hlt
        exact ⟨_, congrArg (·.2) hrun⟩
      · exact ⟨_, congrArg (·.2) hafter⟩
    obtain ⟨clock, hpassed⟩ := hpassed
    rw [hpassed]
    constructor
    · rintro rfl
      obtain ⟨hfilled, hkept, hrest⟩ := transferred_input direction cpu bus done
      have hwrites : (cpu.transferred .input direction bus done).portWrites = bus.portWrites := by rw [hrest]
      exact ⟨hwrites, hfilled, hkept⟩
    · rintro rfl
      rw [transferred_output]
      exact ⟨rfl, rfl⟩

/-! `INIR` and `OTIR` over two bytes. -/

def portingBus (way : PortWay) : FlatBus :=
  { memory := (((Memory.blank.set 0x8000 0xED).set 0x8001 (way.repeated .up)).set 0x9000 0x11).set 0x9001 0x22
    portValue := 0x5A }

def portingCpu : Cpu := { regs := { b := 2, c := 0xFE, h := 0x90, pc := 0x8000 } }

theorem portsBlock_porting (way : PortWay) : PortsBlock way .up portingCpu (portingBus way) where
  first := by simp [portingBus, portingCpu, Memory.get_set]
  second := by simp [portingBus, portingCpu, Memory.get_set]
  apart := fun _ => by decide

theorem stepMany_repeatedPort_porting :
    (PortsBlock .input .up portingCpu (portingBus .input) ∧
      (portingCpu.stepMany 2 (portingBus .input)).1.regs.b = 0 ∧
      (portingCpu.stepMany 2 (portingBus .input)).2.portWrites = #[] ∧
      (∀ j < 2, (portingCpu.stepMany 2 (portingBus .input)).2.memory.get (0x9000 + UInt16.ofNat j) = 0x5A)) ∧
    (PortsBlock .output .up portingCpu (portingBus .output) ∧
      (portingCpu.stepMany 1 (portingBus .output)).1.regs.pc = 0x8000 ∧
      (portingCpu.stepMany 2 (portingBus .output)).1.regs.hl = 0x9002 ∧
      (portingCpu.stepMany 2 (portingBus .output)).2.portWrites = #[(0x01FE, 0x11), (0x00FE, 0x22)]) := by
  obtain ⟨-, ⟨hb, -⟩, -, hin⟩ :=
    stepMany_repeatedPort .input .up portingCpu (portingBus .input) (portsBlock_porting .input)
  obtain ⟨-, ⟨-, hhl⟩, hback, hout⟩ :=
    stepMany_repeatedPort .output .up portingCpu (portingBus .output) (portsBlock_porting .output)
  have hcount : portingCpu.portTransfers = 2 := rfl
  rw [hcount] at hb hin hhl hback hout
  obtain ⟨hnone, hfilled, -⟩ := (hin 2 (Nat.le_refl 2)).1 rfl
  obtain ⟨-, hwrites⟩ := (hout 2 (Nat.le_refl 2)).2 rfl
  have hfirst : (portingBus .output).memory.get 0x9000 = 0x11 := by simp [portingBus, Memory.get_set]
  have hsecond : (portingBus .output).memory.get 0x9001 = 0x22 := Memory.get_set_self _ _ _
  refine ⟨⟨portsBlock_porting .input, hb, hnone, hfilled⟩, portsBlock_porting .output, hback 1 (by decide), hhl, ?_⟩
  rw [hwrites, show Array.range 2 = #[0, 1] from rfl, ← hfirst, ← hsecond]
  simp only [List.map_toArray, List.map_cons, List.map_nil]
  rfl

end Cpu

end ZxSpectrum
