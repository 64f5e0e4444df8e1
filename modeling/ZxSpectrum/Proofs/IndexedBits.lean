import ZxSpectrum.Proofs.IndexPages

/-!
# Bit operations on an indexed byte

A bit operation does to the byte at a displaced address, and to the flags, what it does to the byte at HL (`step_indexedBits`).
The digit of its opcode that names a register elsewhere says where the new byte is copied to; a test makes no use of it. Wherever
the byte is, one function says what becomes of it and of the flags (`Decode.bitOutcome`, `Cpu.run_bitOperation`).
-/

namespace ZxSpectrum

/-! ## Opcodes -/

namespace Decode

/-- The opcode of the same bit operation on the byte at HL. -/
def onMemory (opcode : UInt8) : UInt8 := (opcode &&& 0xF8) ||| 6

/-- Whether a bit operation tests a bit. -/
def isTest (opcode : UInt8) : Bool := opcode >>> 6 == 1

theorem digits_onMemory (opcode : UInt8) : onMemory opcode >>> 6 = opcode >>> 6 ∧
    onMemory opcode >>> 3 &&& (7 : UInt8) = opcode >>> 3 &&& (7 : UInt8) ∧ onMemory opcode &&& 7 = 6 := by
  have hall : ∀ n < 256, onMemory (UInt8.ofNat n) >>> 6 = UInt8.ofNat n >>> 6 ∧
      onMemory (UInt8.ofNat n) >>> 3 &&& (7 : UInt8) = UInt8.ofNat n >>> 3 &&& (7 : UInt8) ∧
      onMemory (UInt8.ofNat n) &&& 7 = 6 := by
    decide +kernel
  have hone := hall opcode.toNat opcode.toNat_lt
  rwa [UInt8.ofNat_toNat] at hone

/-- The first two digits decide on the operation. -/
theorem bitOperation_onMemory (opcode : UInt8) (target : Operand) (copy : Option Reg8) :
    bitOperation (onMemory opcode) target copy = bitOperation opcode target copy := by
  obtain ⟨hfirst, hsecond, -⟩ := digits_onMemory opcode
  rw [bitOperation, bitOperation, hfirst, hsecond]

/-- A bit operation tests its operand or changes it, wherever the operand is. -/
theorem bitOperation_cases (opcode : UInt8) :
    (isTest opcode = true ∧ ∃ bit, ∀ target copy, bitOperation opcode target copy = .testBit bit target) ∨
    (isTest opcode = false ∧ ∃ operation, ∀ target copy, bitOperation opcode target copy = .change operation target copy) := by
  unfold isTest bitOperation
  split
  · rename_i hdigit
    exact Or.inr ⟨by rw [hdigit]; rfl, _, fun _ _ => rfl⟩
  · rename_i hdigit
    exact Or.inl ⟨by rw [hdigit]; rfl, _, fun _ _ => rfl⟩
  · rename_i hdigit
    exact Or.inr ⟨by rw [hdigit]; rfl, _, fun _ _ => rfl⟩
  · rename_i hdigit _
    exact Or.inr ⟨beq_false_of_ne hdigit, _, fun _ _ => rfl⟩

/-- What a bit operation makes of a byte and the flags. Those that a test leaves undocumented are copied from `source`. -/
def bitOutcome (opcode value source f : UInt8) : Alu.Outcome :=
  match bitOperation opcode (.memory .hl) none with
  | .testBit bit _ => ⟨value, Alu.testBit bit value source f⟩
  | .change operation _ _ => operation.apply value f
  | _ => ⟨value, f⟩

end Decode

theorem Page.decode_bits_onMemory (opcode : UInt8) :
    Page.bits.decode (Decode.onMemory opcode) = .run (Decode.bitOperation opcode (.memory .hl) none) := by
  rw [decode, (Decode.digits_onMemory opcode).2.2, Decode.bitOperation_onMemory]
  rfl

/-! ## Flags of a test -/

/-- Only the two undocumented flags of a test depend on where they are copied from. -/
theorem Alu.testBit_source (n value source other f : UInt8) :
    (testBit n value source f &&& ~~~Flags.undocumented) ||| (other &&& Flags.undocumented) = testBit n value other f := by
  have hcarry : carryIn f &&& ~~~Flags.undocumented = carryIn f := UInt8.and_assoc f Flags.carry _
  have hsource : source &&& Flags.undocumented &&& ~~~Flags.undocumented = 0 := by
    rw [UInt8.and_assoc]
    exact UInt8.and_zero
  have hflags : ∀ flag condition, flag &&& ~~~Flags.undocumented = flag →
      Flags.when flag condition &&& ~~~Flags.undocumented = Flags.when flag condition := by
    intro flag condition hflag
    rw [Flags.when_and, hflag]
  unfold testBit
  rw [or_and_mask, or_and_mask, or_and_mask, or_and_mask, hcarry, hsource, hflags _ _ rfl, hflags _ _ rfl,
    show Flags.half &&& ~~~Flags.undocumented = Flags.half from rfl, UInt8.or_zero]
  ac_rfl

/-- What a bit operation makes of a byte does not depend on the source of undocumented flags. -/
theorem Decode.bitOutcome_source (opcode value source other f : UInt8) :
    let outcome := bitOutcome opcode value source f
    (bitOutcome opcode value other f).value = outcome.value ∧
    (bitOutcome opcode value other f).flags = if isTest opcode then
      (outcome.flags &&& ~~~Flags.undocumented) ||| (other &&& Flags.undocumented) else outcome.flags := by
  unfold bitOutcome
  rcases bitOperation_cases opcode with ⟨htest, bit, hoperation⟩ | ⟨htest, operation, hoperation⟩
  · rw [hoperation, htest]
    exact ⟨rfl, (Alu.testBit_source bit value source other f).symm⟩
  · rw [hoperation, htest]
    exact ⟨rfl, rfl⟩

/-! ## Execution -/

namespace Cpu

open BusProgram

/-- Copies a byte to a register, where one is named. -/
def copyTo (cpu : Cpu) (register : Option Reg8) (value : UInt8) : Cpu :=
  match register with
  | none => cpu
  | some r => cpu.setReg r value

variable {cpu : Cpu} {pointer : Pointer} {address : UInt16}

/-- Where a test of a byte in memory copies the undocumented flags from. -/
def testSource (address : UInt16) (value : UInt8) : Pointer → UInt8
  | .hl => value
  | _ => Word.high address

/-- A bit operation on a byte in memory. Only a change has a new byte to copy, and it takes a write cycle more. -/
theorem run_bitOperation (h : cpu.resolve pointer = pure (address, cpu)) (opcode : UInt8) (copy : Option Reg8)
    (bus : FlatBus) : ((Decode.bitOperation opcode (.memory pointer) copy).execute cpu).run bus =
      let value := bus.memory.get address
      let outcome := Decode.bitOutcome opcode value (testSource address value pointer) cpu.regs.f
      ((cpu.setFlags outcome.flags).copyTo (if Decode.isTest opcode then none else copy) outcome.value,
        { bus with
          memory := bus.memory.set address outcome.value
          clock := bus.clock + if Decode.isTest opcode then 4 else 7 }) := by
  unfold Decode.bitOutcome
  rcases Decode.bitOperation_cases opcode with ⟨htest, bit, hoperation⟩ | ⟨htest, operation, hoperation⟩
  · rw [hoperation, hoperation, htest]
    dsimp only
    rw [Memory.set_get]
    simp only [Instruction.execute, h, pure_bind', run_bind]
    cases pointer <;> rfl
  · rw [hoperation, hoperation, htest]
    simp only [Instruction.execute, modifyOperand, h, pure_bind', run_bind]
    cases copy <;> rfl

/-- A bit operation on the byte at HL. -/
theorem run_step_of_bits {bus : FlatBus} {opcode : UInt8} (hfirst : bus.memory.get cpu.regs.pc = 0xCB)
    (hopcode : bus.memory.get (cpu.regs.pc + 1) = Decode.onMemory opcode) : cpu.step.run bus =
      ((Decode.bitOperation opcode (.memory .hl) none).execute cpu.fetched.fetched).run (bus.later 8) := by
  have hslot : Page.base.decode (bus.memory.get cpu.regs.pc) = .enter .bits := by rw [hfirst]; rfl
  have hnext : Page.bits.decode (bus.memory.get (cpu.regs.pc + 1)) = .run (Decode.bitOperation opcode (.memory .hl) none) := by
    rw [hopcode, Page.decode_bits_onMemory]
  exact run_step_of_enter hslot hnext

/-- The processor when a bit operation on the byte at a displaced address has been read. -/
def latching (cpu : Cpu) (address : UInt16) : Cpu :=
  { cpu with regs.pc := cpu.regs.pc + 4, regs.r := (cpu.regs.r + 2) &&& 0x7F, latch := address }

/-- The fetch of displacement and opcode. -/
theorem run_fetchIndexed (cpu : Cpu) (i : IndexRegister) (bus : FlatBus) :
    (cpu.fetched.fetched.fetchIndexed i).run (chargeFetches 2 cpu.regs.pc bus) =
      ((bus.memory.get (cpu.regs.pc + 3), cpu.latching (Word.displace (cpu.index i) (bus.memory.get (cpu.regs.pc + 2)))),
        bus.later 16) := by
  have hopcode : cpu.regs.pc + 2 + 1 = cpu.regs.pc + 3 := UInt16.add_assoc _ 2 1
  have hend : cpu.regs.pc + 2 + 2 = cpu.regs.pc + 4 := UInt16.add_assoc _ 2 2
  rw [fetched_fetched, latching, ← hopcode, ← hend]
  cases i <;> rfl

/-- A bit operation on the byte at a displaced address. -/
theorem run_step_of_indexedBits {i : IndexRegister} {bus : FlatBus} {opcode : UInt8}
    (hfirst : bus.memory.get cpu.regs.pc = i.opcode) (hbits : bus.memory.get (cpu.regs.pc + 1) = 0xCB)
    (hopcode : bus.memory.get (cpu.regs.pc + 3) = opcode)
    (haddress : address = Word.displace (cpu.index i) (bus.memory.get (cpu.regs.pc + 2))) : cpu.step.run bus =
      ((Decode.bitOperation opcode (.memory .latched) (Reg8.ofDigit? (opcode &&& 7))).execute (cpu.latching address)).run
        (bus.later 16) := by
  have hslot : (Page.index i).decode (bus.memory.get (cpu.regs.pc + 1)) = .enterIndexedBits i := by
    rw [hbits]
    cases i <;> rfl
  have hlast : Completes 1 .indexedBits opcode (cpu.latching address) (bus.later 16) _ := .run rfl
  have hfetched := run_fetchIndexed cpu i bus
  rw [hopcode, ← haddress] at hfetched
  have hends : cpu.Ends 3 bus _ := ends_of_index hfirst (.enterIndexedBits hslot (by rw [hfetched]; exact hlast))
  exact hends.run_step

/-- A bit operation on the byte at a displaced address leaves there, and in the flags, what it leaves at HL if HL holds that
address; but the undocumented flags of a test are copied from the address. The new byte is copied to the register that the opcode
names, unless it is a test. Nothing else changes beside the program counter, the refresh register, the latch and the clock. -/
theorem step_indexedBits (i : IndexRegister) (cpu plain : Cpu) (bus other : FlatBus) (opcode : UInt8) (address : UInt16)
    (hfirst : bus.memory.get cpu.regs.pc = i.opcode) (hbits : bus.memory.get (cpu.regs.pc + 1) = 0xCB)
    (hopcode : bus.memory.get (cpu.regs.pc + 3) = opcode)
    (haddress : address = Word.displace (cpu.index i) (bus.memory.get (cpu.regs.pc + 2)))
    (hplainFirst : other.memory.get plain.regs.pc = 0xCB)
    (hplainOpcode : other.memory.get (plain.regs.pc + 1) = Decode.onMemory opcode)
    (hplainAddress : plain.regs.hl = address) (hflags : plain.regs.f = cpu.regs.f)
    (hbyte : other.memory.get address = bus.memory.get address) :
    let unindexed := plain.step.run other
    let value := unindexed.2.memory.get address
    let flags := if Decode.isTest opcode then
        (unindexed.1.regs.f &&& ~~~Flags.undocumented) ||| (Word.high address &&& Flags.undocumented)
      else unindexed.1.regs.f
    let register := if Decode.isTest opcode then none else Reg8.ofDigit? (opcode &&& 7)
    let time := if Decode.isTest opcode then 20 else 23
    cpu.step.run bus = (((cpu.latching address).setFlags flags).copyTo register value,
      { bus with memory := bus.memory.set address value, clock := bus.clock + time }) := by
  intro unindexed value flags register time
  have hresolve : (cpu.latching address).resolve .latched = pure (address, cpu.latching address) := rfl
  have hplainResolve : plain.fetched.fetched.resolve .hl = pure (address, plain.fetched.fetched) := by
    rw [← hplainAddress]
    rfl
  have hrun := run_step_of_indexedBits hfirst hbits hopcode haddress
  rw [run_bitOperation hresolve] at hrun
  have hplain : unindexed = _ := run_step_of_bits hplainFirst hplainOpcode
  rw [run_bitOperation hplainResolve, ite_self] at hplain
  let outcome := Decode.bitOutcome opcode (bus.memory.get address) (bus.memory.get address) cpu.regs.f
  have houtcome : Decode.bitOutcome opcode (other.memory.get address) (other.memory.get address) plain.regs.f = outcome := by
    rw [hbyte, hflags]
  have hvalue : value = outcome.value := by
    rw [← houtcome]
    exact (congrArg (·.2.memory.get address) hplain).trans (Memory.get_set_self _ _ _)
  have hleft : unindexed.1.regs.f = outcome.flags := by
    rw [← houtcome]
    exact congrArg (·.1.regs.f) hplain
  -- Now only the source of the undocumented flags differs.
  obtain ⟨hsame, hsource⟩ :=
    Decode.bitOutcome_source opcode (bus.memory.get address) (bus.memory.get address) (Word.high address) cpu.regs.f
  let indexed := Decode.bitOutcome opcode (bus.memory.get address) (Word.high address) cpu.regs.f
  have hindexedValue : indexed.value = value := hsame.trans hvalue.symm
  have hindexedFlags : indexed.flags = flags := by
    simp only [flags, hleft]
    exact hsource
  rw [hrun, ← hindexedValue, ← hindexedFlags]
  simp only [register, time]
  cases Decode.isTest opcode <;> rfl

/-! `DD CB FE 04` (`RLC (IX-2)` with a copy to H), and `CB 06` (`RLC (HL)`). -/

def rotatingBus : FlatBus := { indexBus 0xDD 0xCB 0xFE with memory := (indexBus 0xDD 0xCB 0xFE).memory.set 0x8003 0x04 }

def rotatingCpu : Cpu := { regs := { h := 0x8F, l := 0xFE, pc := 0x8000 } }

theorem run_rotatingCpu : rotatingCpu.step.run (indexBus 0xCB 0x06 0) =
    ({ rotatingCpu.fetched.fetched with regs.f := 0xA4 },
      { indexBus 0xCB 0x06 0 with memory := (indexBus 0xCB 0x06 0).memory.set 0x8FFE 0xB4, clock := 15 }) := by
  obtain ⟨hfirst, hopcode, -, hbyte⟩ := get_indexBus 0xCB 0x06 0
  have hcode : (indexBus 0xCB 0x06 0).memory.get (rotatingCpu.regs.pc + 1) = Decode.onMemory 0x04 := hopcode
  have hresolve : rotatingCpu.fetched.fetched.resolve .hl = pure (0x8FFE, rotatingCpu.fetched.fetched) := rfl
  have hlater : ((indexBus 0xCB 0x06 0).later 8).memory.get 0x8FFE = 0x5A := hbyte
  have hrun : rotatingCpu.step.run (indexBus 0xCB 0x06 0) = _ := run_step_of_bits hfirst hcode
  rw [hrun, run_bitOperation hresolve, hlater]
  rfl

theorem step_indexedBits_copied : indexCpu.step.run rotatingBus =
    (((indexCpu.latching 0x8FFE).setFlags 0xA4).setReg .h 0xB4,
      { rotatingBus with memory := rotatingBus.memory.set 0x8FFE 0xB4, clock := 23 }) := by
  obtain ⟨hfirst, hbits, hdisplacement, hbyte⟩ := get_indexBus 0xDD 0xCB 0xFE
  obtain ⟨hplainFirst, hplainOpcode, -, hplainByte⟩ := get_indexBus 0xCB 0x06 0
  have hother : ∀ a ≠ 0x8003, rotatingBus.memory.get a = (indexBus 0xDD 0xCB 0xFE).memory.get a := fun a ha =>
    Memory.get_set_of_ne _ _ (Ne.symm ha)
  have hstep := step_indexedBits .ix indexCpu rotatingCpu rotatingBus (indexBus 0xCB 0x06 0) 0x04 0x8FFE
    (by rw [hother _ (by decide)]; exact hfirst) (by rw [hother _ (by decide)]; exact hbits) (Memory.get_set_self _ _ _)
    (by rw [hother _ (by decide), show indexCpu.regs.pc + 2 = 0x8002 from rfl, hdisplacement]; decide)
    hplainFirst hplainOpcode (by decide) rfl (by rw [hother _ (by decide), hbyte, hplainByte])
  rw [run_rotatingCpu] at hstep
  simp only [Memory.get_set_self] at hstep
  exact hstep

end Cpu

end ZxSpectrum
