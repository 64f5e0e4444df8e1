import ZxSpectrum.Bus
import ZxSpectrum.Cpu.Decode
import ZxSpectrum.Cpu.Registers

/-!
# Executing instructions

The effect of each instruction as a bus program. Its opcode bytes have been fetched already; what follows them is read
here. `Instruction.execute` is the table, the definitions before it are the steps that instructions share.
-/

namespace ZxSpectrum

/-- The state of the processor. -/
structure Cpu where
  regs : Registers := {}
  halted : Bool := false
  /-- The address of the last bit operation on an indexed byte. -/
  latch : UInt16 := 0
deriving DecidableEq, Inhabited

namespace Cpu

open BusProgram

/-- The value of an index register. -/
def index (cpu : Cpu) : IndexRegister → UInt16
  | .ix => cpu.regs.ix
  | .iy => cpu.regs.iy

/-- The value of a byte register. -/
def reg (cpu : Cpu) : Reg8 → UInt8
  | .a => cpu.regs.a
  | .b => cpu.regs.b
  | .c => cpu.regs.c
  | .d => cpu.regs.d
  | .e => cpu.regs.e
  | .h => cpu.regs.h
  | .l => cpu.regs.l
  | .indexHigh .ix => cpu.regs.ixh
  | .indexLow .ix => cpu.regs.ixl
  | .indexHigh .iy => cpu.regs.iyh
  | .indexLow .iy => cpu.regs.iyl

def setReg (cpu : Cpu) (r : Reg8) (value : UInt8) : Cpu :=
  match r with
  | .a => { cpu with regs.a := value }
  | .b => { cpu with regs.b := value }
  | .c => { cpu with regs.c := value }
  | .d => { cpu with regs.d := value }
  | .e => { cpu with regs.e := value }
  | .h => { cpu with regs.h := value }
  | .l => { cpu with regs.l := value }
  | .indexHigh .ix => { cpu with regs.ixh := value }
  | .indexLow .ix => { cpu with regs.ixl := value }
  | .indexHigh .iy => { cpu with regs.iyh := value }
  | .indexLow .iy => { cpu with regs.iyl := value }

/-- The value of a word register. -/
def wide (cpu : Cpu) : Reg16 → UInt16
  | .af => cpu.regs.af
  | .bc => cpu.regs.bc
  | .de => cpu.regs.de
  | .hl => cpu.regs.hl
  | .sp => cpu.regs.sp
  | .index i => cpu.index i

def setWide (cpu : Cpu) (r : Reg16) (value : UInt16) : Cpu :=
  match r with
  | .af => { cpu with regs := cpu.regs.setAf value }
  | .bc => { cpu with regs := cpu.regs.setBc value }
  | .de => { cpu with regs := cpu.regs.setDe value }
  | .hl => { cpu with regs := cpu.regs.setHl value }
  | .sp => { cpu with regs.sp := value }
  | .index .ix => { cpu with regs := cpu.regs.setIx value }
  | .index .iy => { cpu with regs := cpu.regs.setIy value }

@[inline] def setFlags (cpu : Cpu) (f : UInt8) : Cpu := { cpu with regs.f := f }

/-- Continues at an address. -/
@[inline] def jumpTo (cpu : Cpu) (address : UInt16) : Cpu := { cpu with regs.pc := address }

/-- Goes `n` bytes on in the program. -/
@[inline] def skip (cpu : Cpu) (n : UInt16) : Cpu := cpu.jumpTo (cpu.regs.pc + n)

/-- Goes back to the two opcode bytes of a block instruction, to execute it once more. -/
def rewind (cpu : Cpu) : Cpu := cpu.jumpTo (cpu.regs.pc - 2)

/-- Takes an accumulator operation's result. -/
def accept (cpu : Cpu) (outcome : Alu.Outcome) : Cpu :=
  { cpu with regs.a := outcome.value, regs.f := outcome.flags }

/-- Whether a condition holds of the flags. -/
def holds (cpu : Cpu) : Condition → Bool
  | .nz => !Flags.test cpu.regs.f Flags.zero
  | .z => Flags.test cpu.regs.f Flags.zero
  | .nc => !Flags.test cpu.regs.f Flags.carry
  | .c => Flags.test cpu.regs.f Flags.carry
  | .po => !Flags.test cpu.regs.f Flags.parity
  | .pe => Flags.test cpu.regs.f Flags.parity
  | .p => !Flags.test cpu.regs.f Flags.sign
  | .m => Flags.test cpu.regs.f Flags.sign

/-- Whether a condition holds, where there is one. -/
def permits (cpu : Cpu) : Option Condition → Bool
  | none => true
  | some condition => cpu.holds condition

/-- Internal cycles with the interrupt and refresh registers on the bus. -/
def pause (cpu : Cpu) (time : Nat) : BusProgram Unit := internal cpu.regs.ir time

/-- Reads the byte at PC and goes past it. -/
def nextByte (cpu : Cpu) : BusProgram (UInt8 × Cpu) := do
  let value ← read cpu.regs.pc
  pure (value, cpu.skip 1)

/-- Reads the word at PC and goes past it. -/
def nextWord (cpu : Cpu) : BusProgram (UInt16 × Cpu) := do
  let (low, cpu) ← cpu.nextByte
  let (high, cpu) ← cpu.nextByte
  pure (Word.ofBytes high low, cpu)

/-- Pushes a word, its high byte first. -/
def pushWord (cpu : Cpu) (value : UInt16) : BusProgram Cpu := do
  write (cpu.regs.sp - 1) (Word.high value)
  write (cpu.regs.sp - 2) (Word.low value)
  pure { cpu with regs.sp := cpu.regs.sp - 2 }

/-- Pops a word, its low byte first. -/
def popWord (cpu : Cpu) : BusProgram (UInt16 × Cpu) := do
  let value ← readWord cpu.regs.sp
  pure (value, { cpu with regs.sp := cpu.regs.sp + 2 })

/-- Pops the program counter. -/
def popPc (cpu : Cpu) : BusProgram Cpu := do
  let (target, cpu) ← cpu.popWord
  pure (cpu.jumpTo target)

/-- Jumps to the word at PC. -/
def jumpAbsolute (cpu : Cpu) : BusProgram Cpu := do
  let target ← readWord cpu.regs.pc
  pure (cpu.jumpTo target)

/-- Jumps as far as the byte at PC says, seen from the byte after it. -/
def jumpDisplaced (cpu : Cpu) : BusProgram Cpu := do
  let displacement ← read cpu.regs.pc
  internal cpu.regs.pc 5
  pure (cpu.jumpTo (Word.displace cpu.regs.pc displacement + 1))

/-- Goes past the displacement of a jump that is not taken. -/
def skipByte (cpu : Cpu) : BusProgram Cpu := do
  hold cpu.regs.pc 3
  pure (cpu.skip 1)

/-- Goes past the address of a jump or call that is not taken. -/
def skipWord (cpu : Cpu) : BusProgram Cpu := do
  hold cpu.regs.pc 3
  hold (cpu.regs.pc + 1) 3
  pure (cpu.skip 2)

/-- Calls the word at PC. -/
def callAbsolute (cpu : Cpu) : BusProgram Cpu := do
  let target ← readWord cpu.regs.pc
  hold (cpu.regs.pc + 1) 1
  let cpu := cpu.skip 2
  let cpu ← cpu.pushWord cpu.regs.pc
  pure (cpu.jumpTo target)

/-- The address of a memory operand. Reading a displacement takes five internal cycles more. -/
def resolve (cpu : Cpu) : Pointer → BusProgram (UInt16 × Cpu)
  | .hl => pure (cpu.regs.hl, cpu)
  | .displaced i => do
    let displacement ← read cpu.regs.pc
    internal cpu.regs.pc 5
    pure (Word.displace (cpu.index i) displacement, cpu.skip 1)
  | .latched => pure (cpu.latch, cpu)

/-- The value of a byte operand. -/
def readOperand (cpu : Cpu) : Operand → BusProgram (UInt8 × Cpu)
  | .reg r => pure (cpu.reg r, cpu)
  | .memory p => do
    let (address, cpu) ← cpu.resolve p
    let value ← read address
    pure (value, cpu)

/-- Changes a byte operand. -/
def writeOperand (cpu : Cpu) (target : Operand) (value : UInt8) : BusProgram Cpu :=
  match target with
  | .reg r => pure (cpu.setReg r value)
  | .memory p => do
    let (address, cpu) ← cpu.resolve p
    write address value
    pure cpu

/-- Replaces a byte operand by what `f` makes of it and the flags. In memory there is one internal cycle between the read
and the write. The new value is handed on. -/
def modifyOperand (cpu : Cpu) (target : Operand) (f : UInt8 → UInt8 → Alu.Outcome) : BusProgram (UInt8 × Cpu) :=
  match target with
  | .reg r =>
    let outcome := f (cpu.reg r) cpu.regs.f
    pure (outcome.value, (cpu.setFlags outcome.flags).setReg r outcome.value)
  | .memory p => do
    let (address, cpu) ← cpu.resolve p
    let value ← read address
    hold address 1
    let outcome := f value cpu.regs.f
    write address outcome.value
    pure (outcome.value, cpu.setFlags outcome.flags)

/-- The second operand of an accumulator operation. -/
def readSource (cpu : Cpu) : Source → BusProgram (UInt8 × Cpu)
  | .operand o => cpu.readOperand o
  | .immediate => cpu.nextByte

/-- The next address of a block, in its direction. -/
def advance (address : UInt16) : Direction → UInt16
  | .up => address + 1
  | .down => address - 1

/-- Moves the byte at HL to DE and counts BC down. -/
def blockLoad (cpu : Cpu) (direction : Direction) (repeats : Bool) : BusProgram Cpu := do
  let hl := cpu.regs.hl
  let de := cpu.regs.de
  let value ← read hl
  write de value
  internal de 2
  let bc := cpu.regs.bc - 1
  let more := bc != 0
  let cpu := (cpu.setWide .bc bc).setFlags (Alu.blockLoadFlags value cpu.regs.a cpu.regs.f more)
  let cpu := (cpu.setWide .hl (advance hl direction)).setWide .de (advance de direction)
  if repeats && more then
    internal de 5
    pure cpu.rewind
  else
    pure cpu

/-- Compares the accumulator with the byte at HL and counts BC down. A match ends the repetition. -/
def blockCompare (cpu : Cpu) (direction : Direction) (repeats : Bool) : BusProgram Cpu := do
  let hl := cpu.regs.hl
  let value ← read hl
  internal hl 5
  let bc := cpu.regs.bc - 1
  let f := Alu.blockCompareFlags value cpu.regs.a cpu.regs.f (bc != 0)
  let cpu := (cpu.setWide .bc bc).setFlags f
  let cpu := cpu.setWide .hl (advance hl direction)
  if repeats && f &&& (Flags.parity ||| Flags.zero) == Flags.parity then
    internal hl 5
    pure cpu.rewind
  else
    pure cpu

/-- Stores a byte from the port BC at HL and counts B down. -/
def blockInput (cpu : Cpu) (direction : Direction) (repeats : Bool) : BusProgram Cpu := do
  cpu.pause 1
  let value ← readPort cpu.regs.bc
  let hl := cpu.regs.hl
  write hl value
  let b := cpu.regs.b - 1
  let c := match direction with
    | .up => cpu.regs.c + 1
    | .down => cpu.regs.c - 1
  let cpu := (cpu.setReg .b b).setFlags (Alu.blockPortFlags value (value + c) b)
  let cpu := cpu.setWide .hl (advance hl direction)
  if repeats && b != 0 then
    internal hl 5
    pure cpu.rewind
  else
    pure cpu

/-- Counts B down and sends the byte at HL to the port BC. -/
def blockOutput (cpu : Cpu) (direction : Direction) (repeats : Bool) : BusProgram Cpu := do
  cpu.pause 1
  let hl := cpu.regs.hl
  let value ← read hl
  let b := cpu.regs.b - 1
  let cpu := cpu.setReg .b b
  writePort cpu.regs.bc value
  let cpu := cpu.setWide .hl (advance hl direction)
  let cpu := cpu.setFlags (Alu.blockPortFlags value (value + cpu.regs.l) b)
  if repeats && b != 0 then
    internal cpu.regs.bc 5
    pure cpu.rewind
  else
    pure cpu

/-- Exchanges a word register with the word on top of the stack. -/
def exchangeStack (cpu : Cpu) (target : Reg16) : BusProgram Cpu := do
  let sp := cpu.regs.sp
  let value ← readWord sp
  hold (sp + 1) 1
  write (sp + 1) (Word.high (cpu.wide target))
  write sp (Word.low (cpu.wide target))
  internal sp 2
  pure (cpu.setWide target value)

/-- Rotates the digits of the byte at HL and the low digit of the accumulator; `byte` and `digit` pick the results. -/
def rotateDigit (cpu : Cpu) (byte digit : UInt8 → UInt8 → UInt8) : BusProgram Cpu := do
  let hl := cpu.regs.hl
  let value ← read hl
  internal hl 4
  write hl (byte cpu.regs.a value)
  let a := (cpu.regs.a &&& 0xF0) ||| digit cpu.regs.a value
  pure (cpu.accept ⟨a, Alu.portFlags a cpu.regs.f⟩)

/-- Loads the accumulator from the interrupt or refresh register. -/
def readSystem (cpu : Cpu) (value : UInt8) : BusProgram Cpu := do
  cpu.pause 1
  pure (cpu.accept ⟨value, Alu.interruptFlags value cpu.regs.f cpu.regs.iff2⟩)

end Cpu

/-- What a bit instruction makes of a byte and the flags. -/
def BitChange.apply (operation : BitChange) (value f : UInt8) : Alu.Outcome :=
  match operation with
  | .rotate rotation => Alu.rotate rotation value f
  | .reset bit => ⟨value &&& ~~~Alu.bitMask bit, f⟩
  | .set bit => ⟨value ||| Alu.bitMask bit, f⟩

open BusProgram in
/-- The effect of an instruction, from the byte after its opcode on. -/
def Instruction.execute (instruction : Instruction) (cpu : Cpu) : BusProgram Cpu :=
  match instruction with
  | .nop => pure cpu
  | .halt => pure { cpu.jumpTo (cpu.regs.pc - 1) with halted := true }
  | .di => pure { cpu with regs.iff1 := false, regs.iff2 := false }
  | .ei => pure { cpu with regs.iff1 := true, regs.iff2 := true }
  | .im mode => pure { cpu with regs.im := mode }
  | .load target source => do
    let (value, cpu) ← cpu.readOperand source
    cpu.writeOperand target value
  | .loadImmediate (.memory (.displaced i)) => do
    let (displacement, cpu) ← cpu.nextByte
    let value ← read cpu.regs.pc
    internal cpu.regs.pc 2
    write (Word.displace (cpu.index i) displacement) value
    pure (cpu.skip 1)
  | .loadImmediate target => do
    let (value, cpu) ← cpu.nextByte
    cpu.writeOperand target value
  | .loadAccumulator pointer => do
    let value ← read (cpu.wide pointer)
    pure (cpu.setReg .a value)
  | .storeAccumulator pointer => do
    write (cpu.wide pointer) cpu.regs.a
    pure cpu
  | .loadAccumulatorAbsolute => do
    let (address, cpu) ← cpu.nextWord
    let value ← read address
    pure (cpu.setReg .a value)
  | .storeAccumulatorAbsolute => do
    let (address, cpu) ← cpu.nextWord
    write address cpu.regs.a
    pure cpu
  | .loadInterrupt => do
    cpu.pause 1
    pure { cpu with regs.i := cpu.regs.a }
  | .loadRefresh => do
    cpu.pause 1
    pure { cpu with regs := cpu.regs.setRefresh cpu.regs.a }
  | .readInterrupt => cpu.readSystem cpu.regs.i
  | .readRefresh => cpu.readSystem cpu.regs.refresh
  | .loadWordImmediate target => do
    let (value, cpu) ← cpu.nextWord
    pure (cpu.setWide target value)
  | .loadWord target => do
    let (address, cpu) ← cpu.nextWord
    let value ← readWord address
    pure (cpu.setWide target value)
  | .storeWord source => do
    let (address, cpu) ← cpu.nextWord
    writeWord address (cpu.wide source)
    pure cpu
  | .loadStackPointer source => do
    cpu.pause 2
    pure { cpu with regs.sp := cpu.wide source }
  | .push source => do
    cpu.pause 1
    cpu.pushWord (cpu.wide source)
  | .pop target => do
    let (value, cpu) ← cpu.popWord
    pure (cpu.setWide target value)
  | .exchangeAf => pure { cpu with regs := cpu.regs.exchangeAf }
  | .exchangeMain => pure { cpu with regs := cpu.regs.exchangeMain }
  | .exchangeDeHl => pure ((cpu.setWide .de cpu.regs.hl).setWide .hl cpu.regs.de)
  | .exchangeStack target => cpu.exchangeStack target
  | .alu operation source => do
    let (value, cpu) ← cpu.readSource source
    pure (cpu.accept (Alu.apply operation cpu.regs.a cpu.regs.f value))
  | .increment target => do
    let (_, cpu) ← cpu.modifyOperand target Alu.increment
    pure cpu
  | .decrement target => do
    let (_, cpu) ← cpu.modifyOperand target Alu.decrement
    pure cpu
  | .add target source => do
    cpu.pause 7
    let sum := Alu.addWide (cpu.wide target) (cpu.wide source) cpu.regs.f
    pure ((cpu.setWide target sum.value).setFlags sum.flags)
  | .adc source => do
    cpu.pause 7
    let sum := Alu.adcWide cpu.regs.hl (cpu.wide source) cpu.regs.f
    pure ((cpu.setWide .hl sum.value).setFlags sum.flags)
  | .sbc source => do
    cpu.pause 7
    let difference := Alu.sbcWide cpu.regs.hl (cpu.wide source) cpu.regs.f
    pure ((cpu.setWide .hl difference.value).setFlags difference.flags)
  | .incrementWord target => do
    cpu.pause 2
    pure (cpu.setWide target (cpu.wide target + 1))
  | .decrementWord target => do
    cpu.pause 2
    pure (cpu.setWide target (cpu.wide target - 1))
  | .decimalAdjust => pure (cpu.accept (Alu.decimalAdjust cpu.regs.a cpu.regs.f))
  | .complement => pure (cpu.accept (Alu.complement cpu.regs.a cpu.regs.f))
  | .negate => pure (cpu.accept (Alu.negate cpu.regs.a))
  | .setCarry => pure (cpu.setFlags (Alu.setCarry cpu.regs.a cpu.regs.f))
  | .invertCarry => pure (cpu.setFlags (Alu.invertCarry cpu.regs.a cpu.regs.f))
  | .rotateAccumulator rotation => pure (cpu.accept (Alu.rotateAccumulator rotation cpu.regs.a cpu.regs.f))
  | .change operation target copy => do
    let (value, cpu) ← cpu.modifyOperand target operation.apply
    match copy with
    | none => pure cpu
    | some r => pure (cpu.setReg r value)
  | .testBit bit (.reg r) =>
    pure (cpu.setFlags (Alu.testBit bit (cpu.reg r) (cpu.reg r) cpu.regs.f))
  | .testBit bit (.memory p) => do
    let (address, cpu) ← cpu.resolve p
    let value ← read address
    hold address 1
    let source := match p with
      | .hl => value
      | _ => Word.high address
    pure (cpu.setFlags (Alu.testBit bit value source cpu.regs.f))
  | .rotateDigitRight => cpu.rotateDigit (fun a value => (a <<< 4) ||| (value >>> 4)) fun _ value => value &&& 0x0F
  | .rotateDigitLeft => cpu.rotateDigit (fun a value => (value <<< 4) ||| (a &&& 0x0F)) fun _ value => value >>> 4
  | .jump condition => if cpu.permits condition then cpu.jumpAbsolute else cpu.skipWord
  | .jumpRegister target => pure (cpu.jumpTo (cpu.wide target))
  | .jumpRelative condition => if cpu.permits condition then cpu.jumpDisplaced else cpu.skipByte
  | .jumpCounted => do
    cpu.pause 1
    let b := cpu.regs.b - 1
    let cpu := cpu.setReg .b b
    if b == 0 then cpu.skipByte else cpu.jumpDisplaced
  | .call condition => if cpu.permits condition then cpu.callAbsolute else cpu.skipWord
  | .ret none => cpu.popPc
  | .ret (some condition) => do
    cpu.pause 1
    if cpu.holds condition then cpu.popPc else pure cpu
  | .retInterrupt => { cpu with regs.iff1 := cpu.regs.iff2 }.popPc
  | .restart address => do
    cpu.pause 1
    let cpu ← cpu.pushWord cpu.regs.pc
    pure (cpu.jumpTo address)
  | .inputAccumulator => do
    let (low, cpu) ← cpu.nextByte
    let value ← readPort (Word.ofBytes cpu.regs.a low)
    pure (cpu.setReg .a value)
  | .outputAccumulator => do
    let (low, cpu) ← cpu.nextByte
    writePort (Word.ofBytes cpu.regs.a low) cpu.regs.a
    pure cpu
  | .input target => do
    let value ← readPort cpu.regs.bc
    let cpu := cpu.setFlags (Alu.portFlags value cpu.regs.f)
    match target with
    | none => pure cpu
    | some r => pure (cpu.setReg r value)
  | .output source => do
    let value := match source with
      | none => 0
      | some r => cpu.reg r
    writePort cpu.regs.bc value
    pure cpu
  | .blockLoad direction repeats => cpu.blockLoad direction repeats
  | .blockCompare direction repeats => cpu.blockCompare direction repeats
  | .blockInput direction repeats => cpu.blockInput direction repeats
  | .blockOutput direction repeats => cpu.blockOutput direction repeats

end ZxSpectrum
