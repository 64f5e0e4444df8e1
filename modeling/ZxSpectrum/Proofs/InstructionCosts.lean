import ZxSpectrum.Proofs.BlockPorts
import ZxSpectrum.Proofs.BlockSearches
import ZxSpectrum.Proofs.DocumentedCosts
import ZxSpectrum.Proofs.MemoryOperands

/-!
# What instructions cost

The documented costs are told by encodings, what the processor does by instructions: most go straight on (`Cpu.Spends`), the others
turn or do not (`Instruction.costs_execute`). Both agree in every page (`Encoding.agrees_decode`), so that the processor takes the
documented time on a bus without contention (`Cpu.step_costs`).
-/

namespace ZxSpectrum

open BusProgram

variable {α γ : Type}

/-! ## Reading the opcode -/

namespace Encoding

/-- T-states until prefixes and opcode have been read. -/
def opcodeTime : Encoding → Nat
  | .plain _ => 4
  | .bits _ | .extended _ | .index _ _ => 8
  | .indexedBits _ _ => 16

/-- Bytes up to the opcode. -/
def opcodeBytes : Encoding → Nat
  | .plain _ => 1
  | .bits _ | .extended _ | .index _ _ => 2
  | .indexedBits _ _ => 4

end Encoding

/-! ## Programs that go straight on -/

namespace Cpu

/-- On a bus without contention the program takes so many T-states and goes so many bytes on; `of` finds the processor in its
result. -/
def Spends (cpu : Cpu) (of : α → Cpu) (program : BusProgram α) (time bytes : Nat) : Prop :=
  ∀ bus : FlatBus, (program.run bus).2.clock = bus.clock + time ∧
    (of (program.run bus).1).regs.pc = cpu.regs.pc + UInt16.ofNat bytes

/-- Time and bytes of programs one after the other add up. -/
theorem Spends.bind {cpu : Cpu} {of : α → Cpu} {last : γ → Cpu} {program : BusProgram α} {next : α → BusProgram γ}
    {time more bytes further : Nat} (h : cpu.Spends of program time bytes)
    (hnext : ∀ result, (of result).Spends last (next result) more further) :
    cpu.Spends last (program >>= next) (time + more) (bytes + further) := by
  intro bus
  obtain ⟨hclock, hpc⟩ := h bus
  obtain ⟨hlater, hfurther⟩ := hnext (program.run bus).1 (program.run bus).2
  rw [run_bind, hlater, hclock, hfurther, hpc, UInt16.ofNat_add, UInt16.add_assoc, Nat.add_assoc]
  exact ⟨rfl, rfl⟩

/-- What follows may take more time and leave the program counter where it is. -/
theorem Spends.keeping {cpu : Cpu} {of : α → Cpu} {last : γ → Cpu} {program : BusProgram α} {next : α → BusProgram γ}
    {time bytes : Nat} (h : cpu.Spends of program time bytes) (more : Nat)
    (hclock : ∀ result (bus : FlatBus), ((next result).run bus).2.clock = bus.clock + more)
    (hpc : ∀ result (bus : FlatBus), (last ((next result).run bus).1).regs.pc = (of result).regs.pc) :
    cpu.Spends last (program >>= next) (time + more) bytes :=
  h.bind fun result bus => ⟨hclock result bus, (hpc result bus).trans (UInt16.add_zero _).symm⟩

variable (cpu : Cpu)

theorem pc_setWide (r : Reg16) (value : UInt16) : (cpu.setWide r value).regs.pc = cpu.regs.pc := by
  rcases r with _ | _ | _ | _ | _ | (_ | _) <;> rfl

/-- A program that leaves the program counter where it is. -/
theorem spends_of_eq {of : α → Cpu} {program : BusProgram α} {time : Nat} (hclock : ∀ bus : FlatBus,
      (program.run bus).2.clock = bus.clock + time)
    (hpc : ∀ bus : FlatBus, (of (program.run bus).1).regs.pc = cpu.regs.pc) : cpu.Spends of program time 0 :=
  fun bus => ⟨hclock bus, (hpc bus).trans (UInt16.add_zero _).symm⟩

theorem spends_nextByte : cpu.Spends Prod.snd cpu.nextByte 3 1 := fun _ => ⟨rfl, rfl⟩

theorem spends_nextWord : cpu.Spends Prod.snd cpu.nextWord 6 2 := fun _ => ⟨rfl, UInt16.add_assoc _ 1 1⟩

end Cpu

/-! ## Operands -/

/-- T-states that it takes to form an address. -/
def Pointer.time : Pointer → Nat
  | .displaced _ => 8
  | _ => 0

/-- Bytes of the program that it takes. -/
def Pointer.bytes : Pointer → Nat
  | .displaced _ => 1
  | _ => 0

namespace Operand

def bytes : Operand → Nat
  | .reg _ => 0
  | .memory p => p.bytes

/-- T-states of a read or a write. -/
def accessTime : Operand → Nat
  | .reg _ => 0
  | .memory p => p.time + 3

/-- T-states of a read and a write back. -/
def changeTime : Operand → Nat
  | .reg _ => 0
  | .memory p => p.time + 7

end Operand

namespace Cpu

variable (cpu : Cpu)

theorem spends_readOperand (o : Operand) : cpu.Spends Prod.snd (cpu.readOperand o) o.accessTime o.bytes := by
  rcases o with r | (_ | i | _)
  · exact cpu.spends_of_eq (fun _ => rfl) fun _ => rfl
  · exact cpu.spends_of_eq (fun _ => rfl) fun _ => rfl
  · exact fun _ => ⟨rfl, rfl⟩
  · exact cpu.spends_of_eq (fun _ => rfl) fun _ => rfl

theorem spends_writeOperand (o : Operand) (value : UInt8) : cpu.Spends id (cpu.writeOperand o value) o.accessTime o.bytes := by
  rcases o with r | (_ | i | _)
  · exact cpu.spends_of_eq (fun _ => rfl) fun _ => cpu.pc_setReg r value
  · exact cpu.spends_of_eq (fun _ => rfl) fun _ => rfl
  · exact fun _ => ⟨rfl, rfl⟩
  · exact cpu.spends_of_eq (fun _ => rfl) fun _ => rfl

theorem spends_modifyOperand (o : Operand) (f : UInt8 → UInt8 → Alu.Outcome) :
    cpu.Spends Prod.snd (cpu.modifyOperand o f) o.changeTime o.bytes := by
  rcases o with r | (_ | i | _)
  · exact cpu.spends_of_eq (fun _ => rfl) fun _ => pc_setReg _ r _
  · exact cpu.spends_of_eq (fun _ => rfl) fun _ => rfl
  · exact fun _ => ⟨rfl, rfl⟩
  · exact cpu.spends_of_eq (fun _ => rfl) fun _ => rfl

end Cpu

/-! ## Instructions -/

namespace Instruction

/-- When an instruction makes the processor go on elsewhere. -/
def turn : Instruction → Turn
  | .halt | .jumpRegister _ | .retInterrupt | .restart _ => .always
  | .jump none | .jumpRelative none | .call none | .ret none => .always
  | .jump (some condition) | .jumpRelative (some condition) | .call (some condition) | .ret (some condition) => .when condition
  | .jumpCounted | .blockInput _ true | .blockOutput _ true => .counting
  | .blockLoad _ true => .copying
  | .blockCompare _ true => .searching
  | _ => .never

/-- T-states from the opcode on, if the instruction goes straight on or always turns. -/
def duration : Instruction → Nat
  | .load target source => source.accessTime + target.accessTime
  | .loadImmediate (.memory (.displaced _)) => 11
  | .loadImmediate target => 3 + target.accessTime
  | .loadAccumulator _ | .storeAccumulator _ => 3
  | .loadAccumulatorAbsolute | .storeAccumulatorAbsolute => 9
  | .loadInterrupt | .loadRefresh | .readInterrupt | .readRefresh => 1
  | .loadWordImmediate _ => 6
  | .loadWord _ | .storeWord _ => 12
  | .loadStackPointer _ | .incrementWord _ | .decrementWord _ => 2
  | .push _ => 7
  | .pop _ => 6
  | .exchangeStack _ => 15
  | .alu _ (.operand o) => o.accessTime
  | .alu _ .immediate => 3
  | .increment target | .decrement target | .change _ target _ => target.changeTime
  | .add _ _ | .adc _ | .sbc _ => 7
  | .testBit _ (.memory p) => p.time + 4
  | .rotateDigitRight | .rotateDigitLeft => 10
  | .jump _ => 6
  | .jumpRelative none => 8
  | .jumpRelative (some _) => 3
  | .jumpCounted => 4
  | .call none => 13
  | .call (some _) => 6
  | .ret none | .retInterrupt => 6
  | .ret (some _) => 1
  | .restart _ => 7
  | .inputAccumulator | .outputAccumulator => 7
  | .input _ | .output _ => 4
  | .blockLoad _ _ | .blockCompare _ _ | .blockInput _ _ | .blockOutput _ _ => 8
  | _ => 0

/-- T-states that a turn takes more. -/
def extra : Instruction → Nat
  | .jumpRelative (some _) | .jumpCounted => 5
  | .call (some _) => 7
  | .ret (some _) => 6
  | .blockLoad _ true | .blockCompare _ true | .blockInput _ true | .blockOutput _ true => 5
  | _ => 0

/-- Bytes behind the opcode. -/
def operandBytes : Instruction → Nat
  | .load target source => source.bytes + target.bytes
  | .loadImmediate target => 1 + target.bytes
  | .loadAccumulatorAbsolute | .storeAccumulatorAbsolute | .loadWordImmediate _ | .loadWord _ | .storeWord _ => 2
  | .alu _ (.operand o) => o.bytes
  | .alu _ .immediate => 1
  | .increment target | .decrement target | .change _ target _ | .testBit _ target => target.bytes
  | .jump _ | .call _ => 2
  | .jumpRelative _ | .jumpCounted | .inputAccumulator | .outputAccumulator => 1
  | _ => 0

open Cpu

/-- An instruction that never makes the processor go on elsewhere. -/
theorem spends_execute {instruction : Instruction} (h : instruction.turn = .never) (cpu : Cpu) :
    cpu.Spends id (instruction.execute cpu) instruction.duration instruction.operandBytes := by
  cases instruction with
  | load target source =>
    exact (cpu.spends_readOperand source).bind fun found => found.2.spends_writeOperand target found.1
  | loadImmediate target =>
    have hplain : cpu.Spends id (cpu.nextByte >>= fun found => found.2.writeOperand target found.1) (3 + target.accessTime)
        (1 + target.bytes) := cpu.spends_nextByte.bind fun found => found.2.spends_writeOperand target found.1
    rcases target with r | (_ | i | _)
    · exact hplain
    · exact hplain
    · exact fun _ => ⟨rfl, UInt16.add_assoc _ 1 1⟩
    · exact hplain
  | loadAccumulatorAbsolute => exact cpu.spends_nextWord.keeping 3 (fun _ _ => rfl) fun _ _ => rfl
  | storeAccumulatorAbsolute => exact cpu.spends_nextWord.keeping 3 (fun _ _ => rfl) fun _ _ => rfl
  | loadWordImmediate target =>
    exact cpu.spends_nextWord.keeping 0 (fun _ _ => rfl) fun found _ => found.2.pc_setWide target _
  | loadWord target =>
    exact cpu.spends_nextWord.keeping 6 (fun _ _ => rfl) fun found _ => found.2.pc_setWide target _
  | storeWord source => exact cpu.spends_nextWord.keeping 6 (fun _ _ => rfl) fun _ _ => rfl
  | pop target => exact cpu.spends_of_eq (fun _ => rfl) fun _ => pc_setWide _ target _
  | exchangeStack target => exact cpu.spends_of_eq (fun _ => rfl) fun _ => cpu.pc_setWide target _
  | alu operation source =>
    cases source with
    | operand o => exact (cpu.spends_readOperand o).keeping 0 (fun _ _ => rfl) fun _ _ => rfl
    | immediate => exact fun _ => ⟨rfl, rfl⟩
  | increment target => exact (cpu.spends_modifyOperand target _).keeping 0 (fun _ _ => rfl) fun _ _ => rfl
  | decrement target => exact (cpu.spends_modifyOperand target _).keeping 0 (fun _ _ => rfl) fun _ _ => rfl
  | add target source => exact cpu.spends_of_eq (fun _ => rfl) fun _ => cpu.pc_setWide target _
  | incrementWord target => exact cpu.spends_of_eq (fun _ => rfl) fun _ => cpu.pc_setWide target _
  | decrementWord target => exact cpu.spends_of_eq (fun _ => rfl) fun _ => cpu.pc_setWide target _
  | change operation target copy =>
    have hmodify := cpu.spends_modifyOperand target operation.apply
    cases copy with
    | none => exact hmodify.keeping 0 (fun _ _ => rfl) fun _ _ => rfl
    | some r => exact hmodify.keeping 0 (fun _ _ => rfl) fun changed _ => changed.2.pc_setReg r _
  | testBit bit target =>
    rcases target with r | (_ | i | _)
    · exact cpu.spends_of_eq (fun _ => rfl) fun _ => rfl
    · exact cpu.spends_of_eq (fun _ => rfl) fun _ => rfl
    · exact fun _ => ⟨rfl, rfl⟩
    · exact cpu.spends_of_eq (fun _ => rfl) fun _ => rfl
  | inputAccumulator => exact fun _ => ⟨rfl, rfl⟩
  | outputAccumulator => exact fun _ => ⟨rfl, rfl⟩
  | input target =>
    cases target with
    | none => exact cpu.spends_of_eq (fun _ => rfl) fun _ => rfl
    | some r => exact cpu.spends_of_eq (fun _ => rfl) fun _ => pc_setReg _ r _
  | jump condition => cases condition <;> cases h
  | jumpRelative condition => cases condition <;> cases h
  | call condition => cases condition <;> cases h
  | ret condition => cases condition <;> cases h
  | blockLoad direction repeats =>
    cases repeats with
    | true => cases h
    | false => exact cpu.spends_of_eq (fun _ => rfl) fun _ => rfl
  | blockCompare direction repeats =>
    cases repeats with
    | true => cases h
    | false => exact cpu.spends_of_eq (fun _ => rfl) fun _ => rfl
  | blockInput direction repeats =>
    cases repeats with
    | true => cases h
    | false => exact cpu.spends_of_eq (fun _ => rfl) fun _ => rfl
  | blockOutput direction repeats =>
    cases repeats with
    | true => cases h
    | false => exact cpu.spends_of_eq (fun _ => rfl) fun _ => rfl
  | halt => cases h
  | jumpRegister target => cases h
  | jumpCounted => cases h
  | retInterrupt => cases h
  | restart address => cases h
  | _ => exact cpu.spends_of_eq (fun _ => rfl) fun _ => rfl

/-- A program that turns or goes straight on. -/
theorem costs_ite {cpu : Cpu} {turning straight : BusProgram Cpu} {time more bytes : Nat} (taken : Bool) (bus : FlatBus)
    (hturning : (turning.run bus).2.clock = bus.clock + time + more) (hstraight : cpu.Spends id straight time bytes) :
    let after := (if taken then turning else straight).run bus
    after.2.clock = bus.clock + time + (if taken then more else 0) ∧
      (taken = false → after.1.regs.pc = cpu.regs.pc + UInt16.ofNat bytes) := by
  cases taken with
  | true => exact ⟨hturning, nofun⟩
  | false => exact ⟨(hstraight bus).1, fun _ => (hstraight bus).2⟩

/-- A block instruction is executed once more, or the processor goes on. -/
theorem costs_repeat {cpu : Cpu} {bus : FlatBus} {again done : Cpu × FlatBus} (repeated : Bool)
    (hagain : again.2.clock = bus.clock + 8 + 5) (hdone : done.2.clock = bus.clock + 8) (hpc : done.1.regs.pc = cpu.regs.pc) :
    let after := if repeated then again else done
    after.2.clock = bus.clock + 8 + (if repeated then 5 else 0) ∧
      (repeated = false → after.1.regs.pc = cpu.regs.pc + UInt16.ofNat 0) := by
  cases repeated with
  | true => exact ⟨hagain, nofun⟩
  | false => exact ⟨hdone, fun _ => hpc.trans (UInt16.add_zero _).symm⟩

/-- What an instruction costs from its opcode on, and how far it goes unless it turns. -/
theorem costs_execute (instruction : Instruction) (cpu : Cpu) (bus : FlatBus) :
    let after := (instruction.execute cpu).run bus
    let taken := instruction.turn.taken cpu bus.memory
    after.2.clock = bus.clock + instruction.duration + (if taken then instruction.extra else 0) ∧
      (taken = false → after.1.regs.pc = cpu.regs.pc + UInt16.ofNat instruction.operandBytes) := by
  by_cases hnever : instruction.turn = .never
  · rw [hnever]
    exact ⟨(spends_execute hnever cpu bus).1, fun _ => (spends_execute hnever cpu bus).2⟩
  cases instruction with
  | halt => exact ⟨rfl, nofun⟩
  | jumpRegister target => exact ⟨rfl, nofun⟩
  | retInterrupt => exact ⟨rfl, nofun⟩
  | restart address => exact ⟨rfl, nofun⟩
  | jump condition =>
    cases condition with
    | none => exact ⟨rfl, nofun⟩
    | some condition => exact costs_ite (cpu.holds condition) bus rfl fun _ => ⟨rfl, rfl⟩
  | jumpRelative condition =>
    cases condition with
    | none => exact ⟨rfl, nofun⟩
    | some condition => exact costs_ite (cpu.holds condition) bus rfl fun _ => ⟨rfl, rfl⟩
  | call condition =>
    cases condition with
    | none => exact ⟨rfl, nofun⟩
    | some condition => exact costs_ite (cpu.holds condition) bus rfl fun _ => ⟨rfl, rfl⟩
  | ret condition =>
    cases condition with
    | none => exact ⟨rfl, nofun⟩
    | some condition =>
      let later : FlatBus := { bus with clock := bus.clock + 1 }
      have hturning : (cpu.popPc.run later).2.clock = later.clock + 0 + 6 := rfl
      have hstraight : cpu.Spends id (pure cpu) 0 0 := cpu.spends_of_eq (fun _ => rfl) fun _ => rfl
      exact costs_ite (cpu.holds condition) later hturning hstraight
  | jumpCounted =>
    let later : FlatBus := { bus with clock := bus.clock + 1 }
    let counted := cpu.setReg .b (cpu.regs.b - 1)
    have hbranches : (if cpu.regs.b - 1 != 0 then counted.jumpDisplaced else counted.skipByte) =
        if cpu.regs.b - 1 == 0 then counted.skipByte else counted.jumpDisplaced := by
      unfold bne
      cases cpu.regs.b - 1 == 0 <;> rfl
    have hturning : (counted.jumpDisplaced.run later).2.clock = later.clock + 3 + 5 := rfl
    have hstraight : counted.Spends id counted.skipByte 3 1 := fun _ => ⟨rfl, rfl⟩
    have hcosts := costs_ite (cpu.regs.b - 1 != 0) later hturning hstraight
    rw [hbranches] at hcosts
    exact hcosts
  | blockLoad direction repeats =>
    cases repeats with
    | true =>
      rw [execute, run_blockLoad]
      exact costs_repeat _ rfl rfl rfl
    | false => exact absurd rfl hnever
  | blockCompare direction repeats =>
    cases repeats with
    | true =>
      rw [execute, run_blockCompare]
      exact costs_repeat _ rfl rfl rfl
    | false => exact absurd rfl hnever
  | blockInput direction repeats =>
    cases repeats with
    | true =>
      have hrun := run_portBlock .input direction true cpu bus
      rw [PortWay.instruction] at hrun
      rw [hrun]
      exact costs_repeat _ rfl rfl rfl
    | false => exact absurd rfl hnever
  | blockOutput direction repeats =>
    cases repeats with
    | true =>
      have hrun := run_portBlock .output direction true cpu bus
      rw [PortWay.instruction] at hrun
      rw [hrun]
      exact costs_repeat _ rfl rfl rfl
    | false => exact absurd rfl hnever
  | _ => exact absurd rfl hnever

end Instruction

/-! ## The documented costs -/

namespace Turn

variable (turn : Turn) (cpu : Cpu) (memory : Memory)

/-- Prefixes and opcode do not decide on a turn. -/
theorem taken_passing (count : Nat) : turn.taken (cpu.passing count) memory = turn.taken cpu memory := by
  cases turn <;> rfl

theorem taken_ready (code : Encoding) (bus : FlatBus) : turn.taken (code.ready cpu bus).1 memory = turn.taken cpu memory := by
  cases code <;> cases turn <;> rfl

end Turn

namespace Encoding

/-- What is documented of an encoding is what the instruction does that an opcode means. -/
def agrees (code : Encoding) : Slot → Bool
  | .run instruction =>
    code.time == code.opcodeTime + instruction.duration && code.extra == instruction.extra &&
      code.turn == instruction.turn && code.length == code.opcodeBytes + instruction.operandBytes
  | _ => true

/-- So it is in all pages. -/
theorem agrees_decode (code : Encoding) : code.agrees (code.page.decode code.opcode) = true :=
  forall_encoding (P := fun code => code.agrees (code.page.decode code.opcode) = true) (by decide +kernel) code

/-- Reading prefixes and opcode. -/
theorem ready_flat (code : Encoding) (cpu : Cpu) (bus : FlatBus) :
    let ready := code.ready cpu bus
    ready.2 = { bus with clock := bus.clock + code.opcodeTime } ∧
      ready.1.regs.pc = cpu.regs.pc + UInt16.ofNat code.opcodeBytes := by
  cases code with
  | plain opcode => exact ⟨rfl, rfl⟩
  | indexedBits i opcode =>
    refine ⟨rfl, ?_⟩
    change cpu.regs.pc + 1 + 1 + 2 = cpu.regs.pc + UInt16.ofNat 4
    rw [UInt16.add_assoc, UInt16.add_assoc]
    rfl
  | _ => exact ⟨rfl, UInt16.add_assoc _ 1 1⟩

/-- What an encoding costs from its first byte on, prefixes without effect apart. -/
theorem costs_ready {code : Encoding} {instruction : Instruction} (h : code.page.decode code.opcode = .run instruction) (cpu : Cpu)
    (bus : FlatBus) :
    let ready := code.ready cpu bus
    let after := (instruction.execute ready.1).run ready.2
    let taken := code.turn.taken cpu bus.memory
    after.2.clock = bus.clock + code.time + (if taken then code.extra else 0) ∧
      (taken = false → after.1.regs.pc = cpu.regs.pc + UInt16.ofNat code.length) := by
  have hagrees := code.agrees_decode
  rw [h] at hagrees
  simp only [agrees, Bool.and_eq_true, beq_iff_eq] at hagrees
  obtain ⟨⟨⟨htime, hextra⟩, hturn⟩, hlength⟩ := hagrees
  intro ready after taken
  obtain ⟨hbus, hpc⟩ : ready.2 = { bus with clock := bus.clock + code.opcodeTime } ∧
    ready.1.regs.pc = cpu.regs.pc + UInt16.ofNat code.opcodeBytes := code.ready_flat cpu bus
  obtain ⟨hclock, hstraight⟩ := instruction.costs_execute ready.1 ready.2
  rw [← hturn, hbus, code.turn.taken_ready] at hclock hstraight
  refine ⟨?_, fun hnot => ?_⟩
  · rw [htime, hextra, ← Nat.add_assoc, ← hclock, ← hbus]
  · rw [hlength, UInt16.ofNat_add, ← UInt16.add_assoc, ← hpc, ← hstraight hnot, ← hbus]

end Encoding

theorem chargeFetches_flat (count : Nat) (address : UInt16) (bus : FlatBus) :
    chargeFetches count address bus = { bus with clock := bus.clock + 4 * count } := by
  induction count generalizing address bus with
  | zero => rfl
  | succ count ih =>
    rw [chargeFetches, ih, Nat.mul_succ, Nat.add_comm (4 * count), ← Nat.add_assoc]
    rfl

namespace Cpu

variable {cpu : Cpu} {bus : FlatBus}

/-- In every memory but those of nothing but index prefixes there is an instruction at the program counter. It takes four T-states for
each prefix without effect and then its documented time, which depends on processor and memory only through whether it turns; if it
does not, the processor goes on behind it. -/
theorem step_costs (cpu : Cpu) (bus : FlatBus) :
    ((∃ ignored code, Encoded cpu.regs.pc bus ignored code) ↔ ∃ a, ¬ IsIndexPrefix (bus.memory.get a)) ∧
    ∀ ignored code, Encoded cpu.regs.pc bus ignored code →
      let after := cpu.step.run bus
      let taken := code.turn.taken cpu bus.memory
      after.2.clock = bus.clock + (4 * ignored + code.time + if taken then code.extra else 0) ∧
        (taken = false → after.1.regs.pc = cpu.regs.pc + UInt16.ofNat (ignored + code.length)) := by
  refine ⟨cpu.exists_encoded_iff_other bus, fun ignored code h => ?_⟩
  obtain ⟨instruction, hcode⟩ := h.occurs.exists_instruction
  obtain ⟨pages, hends⟩ := h.ends hcode
  have hcosts := Encoding.costs_ready hcode (cpu.passing ignored) { bus with clock := bus.clock + 4 * ignored }
  dsimp only at hcosts
  rw [code.turn.taken_passing] at hcosts
  rw [hends.run_step, chargeFetches_flat]
  refine ⟨?_, fun hnot => ?_⟩
  · rw [hcosts.1]
    omega
  · rw [hcosts.2 hnot, UInt16.ofNat_add, ← UInt16.add_assoc]
    rfl

/-! `LDIR` behind a prefix without effect, over the top of memory. -/

def wrappedCopy : Memory := ((Memory.blank.set 0xFFFE 0xDD).set 0xFFFF 0xED).set 0 0xB0

theorem get_wrappedCopy : wrappedCopy.get 0xFFFE = 0xDD ∧ wrappedCopy.get 0xFFFF = 0xED ∧ wrappedCopy.get 0 = 0xB0 := by
  simp [wrappedCopy, Memory.get_set]

theorem encoded_wrappedCopy : Encoded 0xFFFE ({ memory := wrappedCopy } : FlatBus) 1 (.extended 0xB0) := by
  obtain ⟨hindex, hextended, hcopy⟩ := get_wrappedCopy
  have hprefix : opcodeAt 0xFFFE ({ memory := wrappedCopy } : FlatBus) = IndexRegister.ix.opcode :=
    (opcodeAt_flat _ _).trans hindex
  have hsecond : ∀ time, opcodeAt (0xFFFE + 1) ({ memory := wrappedCopy, clock := time } : FlatBus) = 0xED :=
    fun _ => (opcodeAt_flat _ _).trans hextended
  have hlast : ∀ time, opcodeAt (0xFFFE + 1 + 1) ({ memory := wrappedCopy, clock := time } : FlatBus) = 0xB0 :=
    fun _ => (opcodeAt_flat _ _).trans hcopy
  refine .ignored hprefix ?_ ?_ (.extended (hsecond 4) (hlast 8))
  · exact (hsecond 4).symm ▸ by decide
  · exact (hsecond 4).symm ▸ by decide

theorem step_costs_wrapped :
    let bus : FlatBus := { memory := wrappedCopy }
    let twice : Cpu := { regs := { c := 2, pc := 0xFFFE } }
    let once : Cpu := { regs := { c := 1, pc := 0xFFFE } }
    (∃ a, ¬ IsIndexPrefix (wrappedCopy.get a)) ∧ Encoded 0xFFFE bus 1 (.extended 0xB0) ∧
    (twice.step.run bus).2.clock = 25 ∧ (once.step.run bus).2.clock = 20 ∧ (once.step.run bus).1.regs.pc = 1 := by
  intro bus twice once
  have hturn : (Encoding.extended 0xB0).turn = .copying := by decide +kernel
  obtain ⟨htime, hextra, hlength⟩ : (Encoding.extended 0xB0).time = 16 ∧ (Encoding.extended 0xB0).extra = 5 ∧
      (Encoding.extended 0xB0).length = 2 := by decide +kernel
  have htaken : Turn.copying.taken twice wrappedCopy = true := by
    change (Word.ofBytes 0 2 - 1 != 0) = true
    decide
  have hstraight : Turn.copying.taken once wrappedCopy = false := by
    change (Word.ofBytes 0 1 - 1 != 0) = false
    decide
  obtain ⟨hbytes, hcosts⟩ := step_costs twice bus
  obtain ⟨htwice, -⟩ := hcosts 1 _ encoded_wrappedCopy
  obtain ⟨honce, hpc⟩ := (step_costs once bus).2 1 _ encoded_wrappedCopy
  rw [hturn, htime, hextra, htaken] at htwice
  rw [hturn, htime, hstraight] at honce
  rw [hturn, hlength] at hpc
  have hwrapped : (0xFFFE : UInt16) + UInt16.ofNat (1 + 2) = 1 := by decide
  exact ⟨hbytes.mp ⟨1, _, encoded_wrappedCopy⟩, encoded_wrappedCopy, htwice, honce, (hpc hstraight).trans hwrapped⟩

end Cpu

end ZxSpectrum
