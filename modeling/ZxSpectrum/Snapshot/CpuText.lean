import ZxSpectrum.JsonValue
import ZxSpectrum.Snapshot

/-!
# The text of the processor state

Registers and clock as a JSON object, one field a line, and back. Bit 7 of the refresh register is a field of its own,
and flip-flops are booleans.
-/

namespace ZxSpectrum

/-- The names of the register fields, in the order in which they are written. -/
def Registers.fieldNames : List String :=
  ["a", "f", "b", "c", "d", "e", "h", "l", "a_alt", "f_alt", "b_alt", "c_alt", "d_alt", "e_alt", "h_alt", "l_alt", "ixh",
    "ixl", "iyh", "iyl", "sp", "pc", "i", "r", "r7", "iff1", "iff2", "im"]

/-- The texts of the register fields, in the same order. -/
def Registers.fieldTexts (regs : Registers) : List String :=
  let bytes (l : List UInt8) : List String := l.map fun byte => toString byte.toNat
  let flag (value : Bool) : String := if value then "true" else "false"
  let bank := regs.alternate
  bytes [regs.a, regs.f, regs.b, regs.c, regs.d, regs.e, regs.h, regs.l, bank.a, bank.f, bank.b, bank.c, bank.d, bank.e,
    bank.h, bank.l, regs.ixh, regs.ixl, regs.iyh, regs.iyl] ++ [toString regs.sp.toNat, toString regs.pc.toNat] ++
    bytes [regs.i, regs.r, regs.r7] ++ [flag regs.iff1, flag regs.iff2] ++ bytes [regs.im]

/-- The registers that the values of the fields give. -/
def Registers.ofFields? : List JsonValue → Option Registers
  | [a, f, b, c, d, e, h, l, altA, altF, altB, altC, altD, altE, altH, altL, ixh, ixl, iyh, iyl, sp, pc, i, r, r7, iff1,
      iff2, im] => do
    let alternate : Bank :=
      { a := ← altA.byte?, f := ← altF.byte?, b := ← altB.byte?, c := ← altC.byte?, d := ← altD.byte?
        e := ← altE.byte?, h := ← altH.byte?, l := ← altL.byte? }
    pure
      { a := ← a.byte?, f := ← f.byte?, b := ← b.byte?, c := ← c.byte?, d := ← d.byte?, e := ← e.byte?, h := ← h.byte?
        l := ← l.byte?, alternate := alternate, ixh := ← ixh.byte?, ixl := ← ixl.byte?, iyh := ← iyh.byte?
        iyl := ← iyl.byte?, sp := ← sp.word?, pc := ← pc.word?, i := ← i.byte?, r := ← r.byte?, r7 := ← r7.byte?
        iff1 := ← iff1.bool?, iff2 := ← iff2.bool?, im := ← im.byte? }
  | _ => none

namespace CpuState

/-- The state as indented text. -/
def text (state : CpuState) : String :=
  let field (name value : String) : String := "    \"" ++ name ++ "\": " ++ value
  let fields := List.zipWith field Registers.fieldNames state.registers.fieldTexts
  "\x7b\n  \"registers\": \x7b\n" ++ ",\n".intercalate fields ++ "\n  \x7d,\n  \"tstates\": " ++ toString state.tstates ++
    "\n\x7d"

/-- Reads a state back; the clock must fit into 32 bits. -/
def ofText? (text : String) : Option CpuState := do
  let json ← JsonValue.parse text
  match ← json.record? ["registers", "tstates"] with
  | [registers, tstates] =>
    let fields ← registers.record? Registers.fieldNames
    pure { registers := ← Registers.ofFields? fields, tstates := ← tstates.below? 4294967296 }
  | _ => none

end CpuState

end ZxSpectrum
