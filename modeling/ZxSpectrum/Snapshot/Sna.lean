import ZxSpectrum.Bytes
import ZxSpectrum.Cpu
import ZxSpectrum.Snapshot

/-!
# The SNA format

A header of 27 bytes, then RAM. The header has no room for the program counter: it lies on top of the stack, where saving
pushed it, and loading pops it as a return from a non-maskable interrupt would.

| place | bytes | content |
|-------|-------|---------|
| 0     | 1     | I |
| 1     | 8     | alternate HL, DE, BC, AF |
| 9     | 6     | HL, DE, BC |
| 15    | 4     | IY, IX |
| 19    | 1     | interrupts enabled in bit 2 |
| 20    | 1     | R |
| 21    | 4     | AF, SP |
| 25    | 1     | interrupt mode |
| 26    | 1     | border colour |
-/

namespace ZxSpectrum.Sna

open Bytes

def headerSize : Nat := 27

def fileSize : Nat := headerSize + Memory.ramSize

/-- The bit that says whether interrupts are enabled. -/
def interruptBit : UInt8 := 0x04

/-- The registers of a header, without program counter and stack pointer. -/
def readRegisters (data : List UInt8) : Registers :=
  let enabled := byteAt data 19 &&& interruptBit != 0
  { a := byteAt data 22, f := byteAt data 21
    b := byteAt data 14, c := byteAt data 13, d := byteAt data 12, e := byteAt data 11
    h := byteAt data 10, l := byteAt data 9
    alternate :=
      { a := byteAt data 8, f := byteAt data 7
        b := byteAt data 6, c := byteAt data 5, d := byteAt data 4, e := byteAt data 3
        h := byteAt data 2, l := byteAt data 1 }
    iyl := byteAt data 15, iyh := byteAt data 16, ixl := byteAt data 17, ixh := byteAt data 18
    i := byteAt data 0, r := byteAt data 20 &&& 0x7F, r7 := byteAt data 20 &&& 0x80
    iff1 := enabled, iff2 := enabled, im := byteAt data 25 }

/-- Reads a file. The clock is past the interrupt if interrupts are enabled. The byte after the last address of RAM, where
a stack at the very top has its high byte, reads 0. -/
def decode (data : List UInt8) : Except SnapshotError Snapshot :=
  if data.length ≠ fileSize then .error (.invalidSize fileSize data.length)
  else
    let registers := readRegisters data
    let sp := wordAt data 23
    if 2 < registers.im then .error (.invalidInterruptMode registers.im)
    else if Memory.isRom sp then .error .stackOutsideRam
    else
      let snapshot : Snapshot := { border := byteAt data 26 &&& 0x07, ram := data.drop headerSize }
      let pc := Word.ofBytes (snapshot.peek (sp + 1)) (snapshot.peek sp)
      .ok { snapshot with
        cpu :=
          { registers := { registers with pc := pc, sp := sp + 2 }
            tstates := if registers.iff1 then Cpu.interruptLength else 0 } }

/-- The place in RAM of a word on the stack, if both of its bytes lie in RAM. -/
def stackSlot (address : UInt16) : Option Nat :=
  if !Memory.isRom address && address < 0xFFFF then some (address - Memory.ramBase).toNat else none

/-- The header for registers whose program counter has been pushed, so that the stack pointer is `sp`. -/
def header (regs : Registers) (sp : UInt16) (border : UInt8) : List UInt8 :=
  [regs.i, regs.alternate.l, regs.alternate.h, regs.alternate.e, regs.alternate.d, regs.alternate.c, regs.alternate.b,
    regs.alternate.f, regs.alternate.a, regs.l, regs.h, regs.e, regs.d, regs.c, regs.b, regs.iyl, regs.iyh, regs.ixl,
    regs.ixh, if regs.iff1 then interruptBit else 0, regs.refresh, regs.f, regs.a, Word.low sp, Word.high sp, regs.im,
    border &&& 0x07]

/-- Writes a file, with the program counter pushed onto the stack in RAM. -/
def encode (snapshot : Snapshot) : Except SnapshotError (List UInt8) :=
  match snapshot.problem? with
  | some error => .error error
  | none =>
    let regs := snapshot.cpu.registers
    let sp := regs.sp - 2
    match stackSlot sp with
    | none => .error .stackOutsideRam
    | some slot =>
      let ram := (snapshot.ram.set slot (Word.low regs.pc)).set (slot + 1) (Word.high regs.pc)
      .ok (header regs sp snapshot.border ++ ram)

theorem length_header (regs : Registers) (sp : UInt16) (border : UInt8) : (header regs sp border).length = headerSize :=
  rfl

end ZxSpectrum.Sna
