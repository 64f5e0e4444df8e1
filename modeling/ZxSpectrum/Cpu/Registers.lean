import ZxSpectrum.Word

/-!
# The register file

Eight-bit registers are fields of their own; pairs are read and written through `Word`. The refresh register is kept in
two halves, the seven bits that count and the top bit that only a load changes; `refresh` joins them.
-/

namespace ZxSpectrum

/-- The eight registers that exist twice. -/
structure Bank where
  a : UInt8 := 0
  f : UInt8 := 0
  b : UInt8 := 0
  c : UInt8 := 0
  d : UInt8 := 0
  e : UInt8 := 0
  h : UInt8 := 0
  l : UInt8 := 0
deriving DecidableEq

/-- The accumulator and flags as a word. -/
def Bank.af (bank : Bank) : UInt16 := Word.ofBytes bank.a bank.f

def Bank.bc (bank : Bank) : UInt16 := Word.ofBytes bank.b bank.c

def Bank.de (bank : Bank) : UInt16 := Word.ofBytes bank.d bank.e

def Bank.hl (bank : Bank) : UInt16 := Word.ofBytes bank.h bank.l

/-- The bank with the given four pairs. -/
def Bank.ofPairs (af bc de hl : UInt16) : Bank :=
  ⟨Word.high af, Word.low af, Word.high bc, Word.low bc, Word.high de, Word.low de, Word.high hl, Word.low hl⟩

/-- The registers of the processor, the interrupt state included. -/
structure Registers where
  a : UInt8 := 0
  f : UInt8 := 0
  b : UInt8 := 0
  c : UInt8 := 0
  d : UInt8 := 0
  e : UInt8 := 0
  h : UInt8 := 0
  l : UInt8 := 0
  /-- The bank that the exchange instructions swap in. -/
  alternate : Bank := {}
  ixh : UInt8 := 0
  ixl : UInt8 := 0
  iyh : UInt8 := 0
  iyl : UInt8 := 0
  sp : UInt16 := 0
  pc : UInt16 := 0
  /-- The high byte of interrupt vectors. -/
  i : UInt8 := 0
  /-- The refresh counter; only its low seven bits count. -/
  r : UInt8 := 0
  /-- Its top bit holds bit 7 of the refresh register. -/
  r7 : UInt8 := 0
  iff1 : Bool := false
  iff2 : Bool := false
  /-- The interrupt mode, 0 to 2. -/
  im : UInt8 := 0
deriving DecidableEq, Inhabited

namespace Registers

@[inline] def af (regs : Registers) : UInt16 := Word.ofBytes regs.a regs.f

@[inline] def bc (regs : Registers) : UInt16 := Word.ofBytes regs.b regs.c

@[inline] def de (regs : Registers) : UInt16 := Word.ofBytes regs.d regs.e

@[inline] def hl (regs : Registers) : UInt16 := Word.ofBytes regs.h regs.l

@[inline] def ix (regs : Registers) : UInt16 := Word.ofBytes regs.ixh regs.ixl

@[inline] def iy (regs : Registers) : UInt16 := Word.ofBytes regs.iyh regs.iyl

@[inline] def setAf (regs : Registers) (w : UInt16) : Registers := { regs with a := Word.high w, f := Word.low w }

@[inline] def setBc (regs : Registers) (w : UInt16) : Registers := { regs with b := Word.high w, c := Word.low w }

@[inline] def setDe (regs : Registers) (w : UInt16) : Registers := { regs with d := Word.high w, e := Word.low w }

@[inline] def setHl (regs : Registers) (w : UInt16) : Registers := { regs with h := Word.high w, l := Word.low w }

@[inline] def setIx (regs : Registers) (w : UInt16) : Registers := { regs with ixh := Word.high w, ixl := Word.low w }

@[inline] def setIy (regs : Registers) (w : UInt16) : Registers := { regs with iyh := Word.high w, iyl := Word.low w }

/-- The refresh register as an instruction reads it. -/
def refresh (regs : Registers) : UInt8 := (regs.r &&& 0x7F) ||| (regs.r7 &&& 0x80)

/-- Loads both halves of the refresh register. -/
def setRefresh (regs : Registers) (value : UInt8) : Registers :=
  { regs with r := value &&& 0x7F, r7 := value &&& 0x80 }

/-- The refresh register reads as it was loaded. -/
@[simp] theorem refresh_setRefresh (regs : Registers) (value : UInt8) :
    (regs.setRefresh value).refresh = value := by
  change (value &&& 0x7F &&& 0x7F) ||| (value &&& 0x80 &&& 0x80) = value
  apply UInt8.toBitVec_inj.mp
  simp only [UInt8.toBitVec_or, UInt8.toBitVec_and]
  rw [BitVec.and_assoc, BitVec.and_assoc, BitVec.and_self, BitVec.and_self, ← BitVec.and_or_distrib_left]
  exact BitVec.and_allOnes

/-- Counts one opcode fetch; bit 7 stays. -/
@[inline] def countRefresh (regs : Registers) : Registers := { regs with r := (regs.r + 1) &&& 0x7F }

/-- The interrupt and refresh registers as they stand on the address bus. -/
def ir (regs : Registers) : UInt16 := Word.ofBytes regs.i regs.refresh

/-- Swaps the accumulator and the flags with the alternate ones. -/
def exchangeAf (regs : Registers) : Registers :=
  { regs with a := regs.alternate.a, f := regs.alternate.f, alternate := { regs.alternate with a := regs.a, f := regs.f } }

/-- Swaps the other six registers with the alternate ones. -/
def exchangeMain (regs : Registers) : Registers :=
  let bank := regs.alternate
  { regs with
    b := bank.b, c := bank.c, d := bank.d, e := bank.e, h := bank.h, l := bank.l
    alternate := { bank with b := regs.b, c := regs.c, d := regs.d, e := regs.e, h := regs.h, l := regs.l } }

theorem exchangeAf_exchangeAf (regs : Registers) : regs.exchangeAf.exchangeAf = regs := rfl

theorem exchangeMain_exchangeMain (regs : Registers) : regs.exchangeMain.exchangeMain = regs := rfl

/-- Two registers that are used together as a word. -/
inductive Pair where
  | af | bc | de | hl | ix | iy | afAlternate | bcAlternate | deAlternate | hlAlternate

/-- The value of a pair. -/
def pair (regs : Registers) : Pair → UInt16
  | .af => regs.af
  | .bc => regs.bc
  | .de => regs.de
  | .hl => regs.hl
  | .ix => regs.ix
  | .iy => regs.iy
  | .afAlternate => regs.alternate.af
  | .bcAlternate => regs.alternate.bc
  | .deAlternate => regs.alternate.de
  | .hlAlternate => regs.alternate.hl

/-- Changes the value of a pair. -/
def setPair (regs : Registers) (p : Pair) (w : UInt16) : Registers :=
  match p with
  | .af => regs.setAf w
  | .bc => regs.setBc w
  | .de => regs.setDe w
  | .hl => regs.setHl w
  | .ix => regs.setIx w
  | .iy => regs.setIy w
  | .afAlternate => { regs with alternate := { regs.alternate with a := Word.high w, f := Word.low w } }
  | .bcAlternate => { regs with alternate := { regs.alternate with b := Word.high w, c := Word.low w } }
  | .deAlternate => { regs with alternate := { regs.alternate with d := Word.high w, e := Word.low w } }
  | .hlAlternate => { regs with alternate := { regs.alternate with h := Word.high w, l := Word.low w } }

/-- What is written to a pair is read from it. -/
@[simp] theorem pair_setPair (regs : Registers) (p : Pair) (w : UInt16) : (regs.setPair p w).pair p = w := by
  cases p <;> exact Word.ofBytes_high_low w

end Registers

end ZxSpectrum
