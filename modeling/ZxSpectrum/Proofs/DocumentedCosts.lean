import ZxSpectrum.Proofs.Encodings

/-!
# Documented costs

The documented T-states and lengths of all instructions, by their encodings, and when the processor goes on elsewhere than behind
an instruction (`Turn`). An undocumented instruction takes as long as the documented one that it repeats (`Encoding.sibling`).
-/

namespace ZxSpectrum

/-! ## Turns -/

/-- When an instruction makes the processor go on elsewhere than behind it. -/
inductive Turn where
  | never
  /-- Jumps, calls and returns without a condition, restarts, and `HALT`, which stays where it is. -/
  | always
  | when (condition : Condition)
  /-- Unless B, counted down, comes to zero. -/
  | counting
  /-- Unless BC, counted down, comes to zero. -/
  | copying
  /-- Unless BC, counted down, comes to zero, or the byte at HL is the accumulator. -/
  | searching
deriving DecidableEq, Repr

/-- Whether it does, as processor and memory stand before the instruction. -/
def Turn.taken (turn : Turn) (cpu : Cpu) (memory : Memory) : Bool :=
  match turn with
  | .never => false
  | .always => true
  | .when condition => cpu.holds condition
  | .counting => cpu.regs.b - 1 != 0
  | .copying => cpu.regs.bc - 1 != 0
  | .searching => cpu.regs.bc - 1 != 0 && memory.get cpu.regs.hl != cpu.regs.a

namespace Encoding

def turn : Encoding → Turn
  | .plain opcode =>
    match opcode.toNat with
    | 0x76 | 0x18 | 0xC3 | 0xC9 | 0xCD | 0xE9 | 0xC7 | 0xCF | 0xD7 | 0xDF | 0xE7 | 0xEF | 0xF7 | 0xFF => .always
    | 0x10 => .counting
    | 0x20 | 0xC0 | 0xC2 | 0xC4 => .when .nz
    | 0x28 | 0xC8 | 0xCA | 0xCC => .when .z
    | 0x30 | 0xD0 | 0xD2 | 0xD4 => .when .nc
    | 0x38 | 0xD8 | 0xDA | 0xDC => .when .c
    | 0xE0 | 0xE2 | 0xE4 => .when .po
    | 0xE8 | 0xEA | 0xEC => .when .pe
    | 0xF0 | 0xF2 | 0xF4 => .when .p
    | 0xF8 | 0xFA | 0xFC => .when .m
    | _ => .never
  | .extended opcode =>
    match opcode.toNat with
    | 0x45 | 0x4D | 0x55 | 0x5D | 0x65 | 0x6D | 0x75 | 0x7D => .always
    | 0xB0 | 0xB8 => .copying
    | 0xB1 | 0xB9 => .searching
    | 0xB2 | 0xB3 | 0xBA | 0xBB => .counting
    | _ => .never
  | .index _ opcode => if opcode = 0xE9 then .always else .never
  | _ => .never

/-! ## Documented times -/

/-- T-states of the unprefixed instructions, sixteen in a row; of conditional ones, when they go straight on. 0 stands in place of
the prefixes. -/
def plainTimes : List (List Nat) :=
  [[4, 10, 7, 6, 4, 4, 7, 4, 4, 11, 7, 6, 4, 4, 7, 4],
   [8, 10, 7, 6, 4, 4, 7, 4, 12, 11, 7, 6, 4, 4, 7, 4],
   [7, 10, 16, 6, 4, 4, 7, 4, 7, 11, 16, 6, 4, 4, 7, 4],
   [7, 10, 13, 6, 11, 11, 10, 4, 7, 11, 13, 6, 4, 4, 7, 4],
   [4, 4, 4, 4, 4, 4, 7, 4, 4, 4, 4, 4, 4, 4, 7, 4],
   [4, 4, 4, 4, 4, 4, 7, 4, 4, 4, 4, 4, 4, 4, 7, 4],
   [4, 4, 4, 4, 4, 4, 7, 4, 4, 4, 4, 4, 4, 4, 7, 4],
   [7, 7, 7, 7, 7, 7, 4, 7, 4, 4, 4, 4, 4, 4, 7, 4],
   [4, 4, 4, 4, 4, 4, 7, 4, 4, 4, 4, 4, 4, 4, 7, 4],
   [4, 4, 4, 4, 4, 4, 7, 4, 4, 4, 4, 4, 4, 4, 7, 4],
   [4, 4, 4, 4, 4, 4, 7, 4, 4, 4, 4, 4, 4, 4, 7, 4],
   [4, 4, 4, 4, 4, 4, 7, 4, 4, 4, 4, 4, 4, 4, 7, 4],
   [5, 10, 10, 10, 10, 11, 7, 11, 5, 10, 10, 0, 10, 17, 7, 11],
   [5, 10, 10, 11, 10, 11, 7, 11, 5, 4, 10, 11, 10, 0, 7, 11],
   [5, 10, 10, 19, 10, 11, 7, 11, 5, 4, 10, 4, 10, 0, 7, 11],
   [5, 10, 10, 4, 10, 11, 7, 11, 5, 6, 10, 4, 10, 0, 7, 11]]

/-- The same of the instructions `ED 40` to `ED 7F`; 0 stands where none is documented. -/
def extendedTimes : List (List Nat) :=
  [[12, 12, 15, 20, 8, 14, 8, 9, 12, 12, 15, 20, 0, 14, 0, 9],
   [12, 12, 15, 20, 0, 0, 8, 9, 12, 12, 15, 20, 0, 0, 8, 9],
   [12, 12, 15, 20, 0, 0, 0, 18, 12, 12, 15, 20, 0, 0, 0, 18],
   [0, 0, 15, 20, 0, 0, 0, 0, 12, 12, 15, 20, 0, 0, 0, 0]]

/-- The entry in a row and a column. -/
def entry (rows : List (List Nat)) (row column : Nat) : Nat := (rows.getD row []).getD column 0

/-- T-states of the documented instructions; 0 where none is documented. -/
def documentedTime : Encoding → Nat
  | .plain opcode => entry plainTimes (opcode.toNat / 16) (opcode.toNat % 16)
  | .bits opcode =>
    if opcode &&& 0xF8 = 0x30 then 0
    else if opcode &&& 7 ≠ 6 then 8
    else if opcode >>> 6 = 1 then 12 else 15
  | .extended opcode =>
    -- The block instructions stand in the first columns of two rows.
    if opcode &&& 0xE4 = 0xA0 then 16
    else if opcode >>> 6 = 1 then entry extendedTimes (opcode.toNat / 16 - 4) (opcode.toNat % 16) else 0
  | .index _ opcode =>
    match opcode.toNat with
    | 0x09 | 0x19 | 0x29 | 0x39 | 0xE5 => 15
    | 0x21 | 0xE1 => 14
    | 0x22 | 0x2A => 20
    | 0x23 | 0x2B | 0xF9 => 10
    | 0x34 | 0x35 | 0xE3 => 23
    | 0x36 | 0x46 | 0x4E | 0x56 | 0x5E | 0x66 | 0x6E | 0x7E | 0x70 | 0x71 | 0x72 | 0x73 | 0x74 | 0x75 | 0x77 => 19
    | 0x86 | 0x8E | 0x96 | 0x9E | 0xA6 | 0xAE | 0xB6 | 0xBE => 19
    | 0xE9 => 8
    | _ => 0
  | .indexedBits _ opcode =>
    if opcode &&& 7 ≠ 6 ∨ opcode = 0x36 then 0
    else if opcode >>> 6 = 1 then 20 else 23

/-- A bit operation that is not documented repeats a documented one: `SLL` shifts like `SLA`. -/
def siblingShift (opcode : UInt8) : UInt8 := if opcode &&& 0xF8 = 0x30 then opcode - 0x10 else opcode

/-- The documented instruction that an undocumented one repeats, and how much longer that one takes. Halves of index registers stand
for H and L; a bit operation on an indexed byte may leave a copy in a register; `NEG`, `RETN` and `IM` occur several times. -/
def sibling : Encoding → Option (Encoding × Nat)
  | .bits opcode => some (.bits (siblingShift opcode), 0)
  | .index _ opcode => some (.plain opcode, 4)
  | .indexedBits i opcode => some (.indexedBits i ((siblingShift opcode &&& 0xF8) ||| 6), 0)
  | .extended opcode =>
    match opcode.toNat with
    | 0x4C | 0x54 | 0x5C | 0x64 | 0x6C | 0x74 | 0x7C => some (.extended 0x44, 0)
    | 0x55 | 0x5D | 0x65 | 0x6D | 0x75 | 0x7D => some (.extended 0x45, 0)
    | 0x4E | 0x66 | 0x6E => some (.extended 0x46, 0)
    | 0x76 => some (.extended 0x56, 0)
    | 0x7E => some (.extended 0x5E, 0)
    | 0x70 => some (.extended 0x78, 0)
    | 0x71 => some (.extended 0x79, 0)
    | _ => none
  | .plain _ => none

/-- T-states of an instruction that goes straight on. Opcodes that mean nothing take their two fetches. -/
def time (code : Encoding) : Nat :=
  if code.documentedTime ≠ 0 then code.documentedTime
  else match code.sibling with
    | some (documented, more) => documented.documentedTime + more
    | none => 8

/-- T-states that a turn takes more. -/
def extra : Encoding → Nat
  | .plain opcode =>
    match opcode.toNat with
    | 0x10 | 0x20 | 0x28 | 0x30 | 0x38 => 5
    | 0xC0 | 0xC8 | 0xD0 | 0xD8 | 0xE0 | 0xE8 | 0xF0 | 0xF8 => 6
    | 0xC4 | 0xCC | 0xD4 | 0xDC | 0xE4 | 0xEC | 0xF4 | 0xFC => 7
    | _ => 0
  | .extended opcode =>
    match opcode.toNat with
    | 0xB0 | 0xB1 | 0xB2 | 0xB3 | 0xB8 | 0xB9 | 0xBA | 0xBB => 5
    | _ => 0
  | _ => 0

/-! ## Lengths -/

/-- Bytes that follow an unprefixed opcode. -/
def plainOperands (opcode : UInt8) : Nat :=
  match opcode.toNat with
  | 0x06 | 0x0E | 0x16 | 0x1E | 0x26 | 0x2E | 0x36 | 0x3E | 0xC6 | 0xCE | 0xD6 | 0xDE | 0xE6 | 0xEE | 0xF6 | 0xFE => 1
  | 0x10 | 0x18 | 0x20 | 0x28 | 0x30 | 0x38 | 0xD3 | 0xDB => 1
  | 0x01 | 0x11 | 0x21 | 0x31 | 0x22 | 0x2A | 0x32 | 0x3A => 2
  | 0xC2 | 0xC3 | 0xCA | 0xD2 | 0xDA | 0xE2 | 0xEA | 0xF2 | 0xFA => 2
  | 0xC4 | 0xCC | 0xCD | 0xD4 | 0xDC | 0xE4 | 0xEC | 0xF4 | 0xFC => 2
  | _ => 0

/-- Displacements that follow an opcode behind an index prefix: one where the unprefixed instruction reaches the byte at HL. -/
def displacements (opcode : UInt8) : Nat :=
  match opcode.toNat with
  | 0x34 | 0x35 | 0x36 | 0x46 | 0x4E | 0x56 | 0x5E | 0x66 | 0x6E | 0x7E | 0x70 | 0x71 | 0x72 | 0x73 | 0x74 | 0x75 | 0x77 => 1
  | 0x86 | 0x8E | 0x96 | 0x9E | 0xA6 | 0xAE | 0xB6 | 0xBE => 1
  | _ => 0

/-- Bytes of an instruction, its prefix included. -/
def length : Encoding → Nat
  | .plain opcode => 1 + plainOperands opcode
  | .bits _ => 2
  | .extended opcode =>
    match opcode.toNat with
    | 0x43 | 0x4B | 0x53 | 0x5B | 0x63 | 0x6B | 0x73 | 0x7B => 4
    | _ => 2
  | .index _ opcode => 2 + plainOperands opcode + displacements opcode
  | .indexedBits _ _ => 4

end Encoding

end ZxSpectrum
