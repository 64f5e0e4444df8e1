import Mathlib.Data.Int.ModEq
import Mathlib.Tactic.IntervalCases
import ZxSpectrum.Proofs.BitFields
import ZxSpectrum.Cpu.Alu

/-!
# The flags of additions and subtractions

`Alu.calculation` says in numbers what an addition or a subtraction comes to, for any width: carry, half carry and overflow are all
set when an exact result does not fit. The tables are right about the bits that they are asked for (`reading_entry`), and so the
operations of the processor do what `calculation` says, each of them up to the flags that it takes from elsewhere
(`arithmetic_reports`).
-/

namespace ZxSpectrum

namespace Flags

/-! ## Flags one by one -/

/-- The eight flags, each by its name. -/
structure Reading where
  carry : Bool := false
  subtract : Bool := false
  parity : Bool := false
  bit3 : Bool := false
  half : Bool := false
  bit5 : Bool := false
  zero : Bool := false
  sign : Bool := false
deriving DecidableEq

/-- What a flag byte says. -/
def reading (f : UInt8) : Reading where
  carry := test f carry
  subtract := test f subtract
  parity := test f parity
  bit3 := test f bit3
  half := test f half
  bit5 := test f bit5
  zero := test f zero
  sign := test f sign

/-- Two readings combined flag by flag. -/
def Reading.combine (op : Bool → Bool → Bool) (first second : Reading) : Reading where
  carry := op first.carry second.carry
  subtract := op first.subtract second.subtract
  parity := op first.parity second.parity
  bit3 := op first.bit3 second.bit3
  half := op first.half second.half
  bit5 := op first.bit5 second.bit5
  zero := op first.zero second.zero
  sign := op first.sign second.sign

/-- A flag is a bit of the byte. -/
theorem test_eq_testBit (f : UInt8) {mask : UInt8} (j : Nat) (h : mask.toNat = 2 ^ j) : test f mask = f.toNat.testBit j := by
  rw [test, and_bit_ne_zero f j h, Nat.testBit_eq_decide_div_mod_eq]
  rfl

theorem reading_eq_testBit (f : UInt8) : reading f =
    ⟨f.toNat.testBit 0, f.toNat.testBit 1, f.toNat.testBit 2, f.toNat.testBit 3, f.toNat.testBit 4, f.toNat.testBit 5,
      f.toNat.testBit 6, f.toNat.testBit 7⟩ := by
  unfold reading
  rw [test_eq_testBit f 0 rfl, test_eq_testBit f 1 rfl, test_eq_testBit f 2 rfl, test_eq_testBit f 3 rfl,
    test_eq_testBit f 4 rfl, test_eq_testBit f 5 rfl, test_eq_testBit f 6 rfl, test_eq_testBit f 7 rfl]

@[simp] theorem reading_or (x y : UInt8) : reading (x ||| y) = (reading x).combine or (reading y) := by
  simp only [reading_eq_testBit, Reading.combine, UInt8.toNat_or, Nat.testBit_or]

@[simp] theorem reading_and (x y : UInt8) : reading (x &&& y) = (reading x).combine and (reading y) := by
  simp only [reading_eq_testBit, Reading.combine, UInt8.toNat_and, Nat.testBit_and]

@[simp] theorem reading_when (flag : UInt8) (condition : Bool) :
    reading (when flag condition) = (reading flag).combine (fun set _ => set && condition) (reading flag) := by
  cases condition
  · have hnone : when flag false = 0 := rfl
    simp only [hnone, Reading.combine, Bool.and_false]
    rfl
  · simp only [Reading.combine, Bool.and_true]
    rfl

@[simp] theorem reading_carry : reading carry = { carry := true } := rfl

@[simp] theorem reading_subtract : reading subtract = { subtract := true } := rfl

@[simp] theorem reading_parity : reading parity = { parity := true } := rfl

@[simp] theorem reading_bit3 : reading bit3 = { bit3 := true } := rfl

@[simp] theorem reading_half : reading half = { half := true } := rfl

@[simp] theorem reading_bit5 : reading bit5 = { bit5 := true } := rfl

@[simp] theorem reading_zero : reading zero = { zero := true } := rfl

@[simp] theorem reading_sign : reading sign = { sign := true } := rfl

@[simp] theorem reading_undocumented : reading undocumented = { bit3 := true, bit5 := true } := rfl

/-- The flags that a value of `width` bits shows itself; the undocumented ones are bits 3 and 5 of its top byte. -/
def Reading.ofValue (width value : Nat) : Reading where
  bit3 := value.testBit (width - 5)
  bit5 := value.testBit (width - 3)
  zero := value = 0
  sign := value.testBit (width - 1)

@[simp] theorem reading_kept : reading 0xA8 = { bit3 := true, bit5 := true, sign := true } := rfl

theorem beq_zero_eq (value : UInt8) : (value == 0) = decide (value.toNat = 0) := by
  rw [Bool.eq_iff_iff, beq_iff_eq, decide_eq_true_iff, ← UInt8.toNat_inj]
  rfl

@[simp] theorem reading_ofResult (value : UInt8) : reading (ofResult value) = .ofValue 8 value.toNat := by
  simp [ofResult, Reading.combine, Reading.ofValue, beq_zero_eq]
  simp [reading_eq_testBit]

end Flags

namespace Alu

open Flags

/-! ## What an addition or a subtraction comes to -/

/-- A value and the flags that go with it. -/
structure Report where
  value : Nat
  flags : Reading
deriving DecidableEq

/-- The exact result, which need not fit. -/
def exact (subtracts : Bool) (x y c : Int) : Int :=
  match subtracts with
  | false => x + y + c
  | true => x - y - c

/-- Whether a number does not fit between two limits. -/
def outside (low high number : Int) : Bool := number < low || high ≤ number

/-- The result of an addition or a subtraction of numbers of `width` bits and a carry, and its flags. There is a carry when the
exact result does not fit, a half carry when that of the parts below the top four bits does not, and an overflow when that of the
signed numbers does not. -/
def calculation (subtracts : Bool) (width : Nat) (x y c : Nat) : Report :=
  let value := (exact subtracts x y c % 2 ^ width).toNat
  { value
    flags :=
      { Reading.ofValue width value with
        carry := outside 0 (2 ^ width) (exact subtracts x y c)
        subtract := subtracts
        parity := outside (-2 ^ (width - 1)) (2 ^ (width - 1))
          (exact subtracts ((x : Int).bmod (2 ^ width)) ((y : Int).bmod (2 ^ width)) c)
        half := outside 0 (2 ^ (width - 4)) (exact subtracts (x % 2 ^ (width - 4) : Nat) (y % 2 ^ (width - 4) : Nat) c) } }

def Outcome.report (outcome : Outcome) : Report := ⟨outcome.value.toNat, reading outcome.flags⟩

def WideOutcome.report (outcome : WideOutcome) : Report := ⟨outcome.value.toNat, reading outcome.flags⟩

/-- The carry out of a bit, from that bit of both operands and of the result. -/
def carryOut (subtracts x y r : Bool) : Bool :=
  match subtracts with
  | false => x && y || (x || y) && !r
  | true => !x && y || (!x || y) && r

/-- The overflow, from the signs of both operands and of the result. -/
def overflow (subtracts x y r : Bool) : Bool := (x ^^ r) && (y ^^ r ^^ subtracts)

/-! ## Bits of sums and differences -/

/-- A number read as a signed one. -/
theorem bmod_eq {n s : Nat} (h : n < 2 * s) : (n : Int).bmod (2 * s) = if n < s then (n : Int) else n - 2 * s := by
  rw [Int.bmod_def, Int.emod_eq_of_lt (by omega) (by omega)]
  push_cast
  split <;> split <;> omega

/-- The top bit of a number. -/
theorem testBit_top {n k : Nat} (h : n < 2 * 2 ^ k) : n.testBit k = decide (2 ^ k ≤ n) := by
  have hdiv : n / 2 ^ k < 2 := Nat.div_lt_of_lt_mul (by rwa [Nat.mul_comm])
  have hpos : 0 < n / 2 ^ k ↔ 2 ^ k ≤ n := Nat.div_pos_iff.trans (and_iff_right (Nat.two_pow_pos k))
  rw [Nat.testBit_eq_decide_div_mod_eq, decide_eq_decide, Nat.mod_eq_of_lt hdiv]
  omega

/-- A bit is the top bit of what is left without the bits above it. -/
theorem testBit_eq_le_mod (n k : Nat) : n.testBit k = decide (2 ^ k ≤ n % (2 * 2 ^ k)) := by
  have hdouble : 2 ^ (k + 1) = 2 * 2 ^ k := Nat.pow_succ'
  have hlow : n % (2 * 2 ^ k) < 2 * 2 ^ k := Nat.mod_lt n (hdouble ▸ Nat.two_pow_pos (k + 1))
  rw [← testBit_top hlow, ← hdouble, Nat.testBit_mod_two_pow, decide_eq_true (Nat.lt_succ_self k), Bool.true_and]

theorem outside_iff {low high number : Int} : outside low high number = true ↔ number < low ∨ high ≤ number := by
  simp only [outside, Bool.or_eq_true, decide_eq_true_eq]

section

variable {subtracts : Bool} {x y c r n : Nat}

theorem lt_of_exact (hn : 0 < n) (hr : (r : Int) = exact subtracts x y c % n) : r < n := by
  have hmod := Int.emod_lt_of_pos (exact subtracts x y c) (show (0 : Int) < n by omega)
  omega

/-- A result fits, or wraps once. -/
theorem exact_cases (hx : x < n) (hy : y < n) (hc : c ≤ 1) (hr : (r : Int) = exact subtracts x y c % n) :
    exact subtracts x y c = r ∨ exact subtracts x y c = if subtracts then (r : Int) - n else r + n := by
  cases subtracts
  · by_cases hfits : x + y + c < n
    · left
      rw [hr, exact, Int.emod_eq_of_lt (by omega) (by omega)]
    · right
      rw [hr, exact, if_neg Bool.false_ne_true, ← Int.sub_emod_right, Int.emod_eq_of_lt (by omega) (by omega)]
      omega
  · by_cases hfits : y + c ≤ x
    · left
      rw [hr, exact, Int.emod_eq_of_lt (by omega) (by omega)]
    · right
      rw [hr, exact, if_pos rfl, ← Int.add_emod_right, Int.emod_eq_of_lt (by omega) (by omega)]
      omega

/-- What leaves the top bit of a sum or of a difference. -/
theorem outside_eq_carryOut {s : Nat} (hx : x < 2 * s) (hy : y < 2 * s) (hc : c ≤ 1)
    (hr : (r : Int) = exact subtracts x y c % (2 * s : Nat)) :
    outside 0 (2 * s) (exact subtracts x y c) = carryOut subtracts (s ≤ x) (s ≤ y) (s ≤ r) := by
  have hcases := exact_cases hx hy hc hr
  have hlt : r < 2 * s := lt_of_exact (by omega) hr
  rw [Bool.eq_iff_iff, outside_iff]
  cases subtracts <;> simp only [exact, carryOut, if_true, if_false, Bool.false_eq_true, Bool.or_eq_true, Bool.and_eq_true,
    Bool.not_eq_true', decide_eq_true_eq, decide_eq_false_iff_not] at hcases ⊢ <;> omega

/-- A sum overflows when its sign is neither that of one operand nor that of the other, a difference when its sign is that of the
second operand only. -/
theorem overflow_iff {s : Nat} (hx : x < 2 * s) (hy : y < 2 * s) (hc : c ≤ 1)
    (hr : (r : Int) = exact subtracts x y c % (2 * s : Nat)) :
    outside (-s) s (exact subtracts ((x : Int).bmod (2 * s)) ((y : Int).bmod (2 * s)) c) = true ↔
      ¬ (s ≤ x ↔ s ≤ r) ∧ ((s ≤ y ↔ s ≤ r) ↔ subtracts = true) := by
  have hcases := exact_cases hx hy hc hr
  have hlt : r < 2 * s := lt_of_exact (by omega) hr
  rw [bmod_eq hx, bmod_eq hy, outside_iff]
  cases subtracts <;> simp only [exact, if_true, if_false, reduceCtorEq, iff_true, iff_false] at hcases ⊢ <;>
    by_cases hsx : x < s <;> by_cases hsy : y < s <;> simp only [hsx, hsy, if_true, if_false] <;> omega

/-- What is above a bit of the operands does not show below it in the result. -/
theorem exact_emod (subtracts : Bool) (x y c n : Nat) :
    exact subtracts (x % n : Nat) (y % n : Nat) c % n = exact subtracts x y c % n := by
  have hx : ((x % n : Nat) : Int) ≡ x [ZMOD n] := Int.mod_modEq x n
  have hy : ((y % n : Nat) : Int) ≡ y [ZMOD n] := Int.mod_modEq y n
  cases subtracts
  · exact (hx.add hy).add_right c
  · exact (hx.sub hy).sub_right c

/-- The lower bits of a result do not depend on how many bits it was computed in. -/
theorem low_of_exact {d k big : Nat} (hk : k ≤ big) (hd : (d : Int) = exact subtracts x y c % (2 ^ big : Nat)) :
    ((d % 2 ^ k : Nat) : Int) = exact subtracts (x % 2 ^ k : Nat) (y % 2 ^ k : Nat) c % (2 ^ k : Nat) := by
  have hdvd : ((2 ^ k : Nat) : Int) ∣ (2 ^ big : Nat) := Int.natCast_dvd_natCast.mpr (Nat.pow_dvd_pow 2 hk)
  rw [exact_emod, Int.natCast_mod, hd, Int.emod_emod_of_dvd _ hdvd]

/-- The half carry is told by one bit of the operands and of the result. -/
theorem half_eq {k big : Nat} (hk : k < big) (hc : c ≤ 1) (hr : (r : Int) = exact subtracts x y c % (2 ^ big : Nat)) :
    outside 0 (2 ^ (k + 1)) (exact subtracts (x % 2 ^ (k + 1) : Nat) (y % 2 ^ (k + 1) : Nat) c) =
      carryOut subtracts (x.testBit k) (y.testBit k) (r.testBit k) := by
  have hdouble : 2 ^ (k + 1) = 2 * 2 ^ k := Nat.pow_succ'
  have hlow : ∀ n : Nat, n % (2 * 2 ^ k) < 2 * 2 ^ k := fun n => Nat.mod_lt n (hdouble ▸ Nat.two_pow_pos (k + 1))
  have hparts := low_of_exact hk hr
  rw [hdouble] at hparts
  have hcarry := outside_eq_carryOut (hlow x) (hlow y) hc hparts
  rw [testBit_eq_le_mod x, testBit_eq_le_mod y, testBit_eq_le_mod r, ← hcarry, hdouble]
  push_cast
  rw [Int.pow_succ, Int.mul_comm]

/-- The carry is the bit above the result, computed in more bits. -/
theorem carry_eq {d k big : Nat} (hk : k < big) (hx : x < 2 ^ k) (hy : y < 2 ^ k) (hc : c ≤ 1)
    (hd : (d : Int) = exact subtracts x y c % (2 ^ big : Nat)) :
    outside 0 (2 ^ k : Nat) (exact subtracts x y c) = d.testBit k := by
  have hdouble : 2 ^ (k + 1) = 2 * 2 ^ k := Nat.pow_succ'
  have hlow := low_of_exact hk hd
  rw [hdouble, Nat.mod_eq_of_lt (show x < 2 * 2 ^ k by omega), Nat.mod_eq_of_lt (show y < 2 * 2 ^ k by omega)] at hlow
  rw [testBit_eq_le_mod]
  generalize d % (2 * 2 ^ k) = e at hlow
  generalize 2 ^ k = s at *
  have hcases := exact_cases (show x < 2 * s by omega) (show y < 2 * s by omega) hc hlow
  have hlt : e < 2 * s := lt_of_exact (by omega) hlow
  rw [Bool.eq_iff_iff, outside_iff, decide_eq_true_eq]
  cases subtracts <;> simp only [exact, if_true, if_false, Bool.false_eq_true] at hcases ⊢ <;> omega

/-- An overflow is told by the signs of the operands and of the result. -/
theorem parity_eq {k : Nat} (hx : x < 2 ^ (k + 1)) (hy : y < 2 ^ (k + 1)) (hc : c ≤ 1)
    (hr : (r : Int) = exact subtracts x y c % (2 ^ (k + 1) : Nat)) :
    outside (-2 ^ k) (2 ^ k) (exact subtracts ((x : Int).bmod (2 ^ (k + 1))) ((y : Int).bmod (2 ^ (k + 1))) c) =
      overflow subtracts (x.testBit k) (y.testBit k) (r.testBit k) := by
  have hdouble : 2 ^ (k + 1) = 2 * 2 ^ k := Nat.pow_succ'
  rw [hdouble] at hx hy hr
  have hover := overflow_iff hx hy hc hr
  have hsigns : ∀ a b r s : Bool, overflow s a b r = true ↔
      ¬ (a = true ↔ r = true) ∧ ((b = true ↔ r = true) ↔ s = true) := by decide
  rw [Bool.eq_iff_iff, hsigns, testBit_top hx, testBit_top hy, testBit_top (lt_of_exact (by omega) hr), decide_eq_true_eq,
    decide_eq_true_eq, decide_eq_true_eq, ← hover, hdouble]
  push_cast
  rfl

/-- The calculation, from the bits of the operands and of a result `d` that was computed in more bits. -/
theorem calculation_eq {d k big : Nat} (hbig : k + 5 < big) (hx : x < 2 ^ (k + 5)) (hy : y < 2 ^ (k + 5)) (hc : c ≤ 1)
    (hd : (d : Int) = exact subtracts x y c % (2 ^ big : Nat)) (hr : r = d % 2 ^ (k + 5)) :
    calculation subtracts (k + 5) x y c =
      { value := r
        flags :=
          { Reading.ofValue (k + 5) r with
            carry := d.testBit (k + 5)
            subtract := subtracts
            parity := overflow subtracts (x.testBit (k + 4)) (y.testBit (k + 4)) (r.testBit (k + 4))
            half := carryOut subtracts (x.testBit k) (y.testBit k) (r.testBit k) } } := by
  have hresult : (r : Int) = exact subtracts x y c % (2 ^ (k + 5) : Nat) := by
    have hlow := low_of_exact (Nat.le_of_lt hbig) hd
    rwa [← hr, Nat.mod_eq_of_lt hx, Nat.mod_eq_of_lt hy] at hlow
  have hvalue : (exact subtracts x y c % 2 ^ (k + 5)).toNat = r := by
    push_cast at hresult
    rw [← hresult, Int.toNat_natCast]
  have hcarry := carry_eq hbig hx hy hc hd
  have hhalf := half_eq (show k < k + 5 by omega) hc hresult
  have hparity := parity_eq hx hy hc hresult
  push_cast at hcarry
  unfold calculation
  rw [hvalue, hcarry, show k + 5 - 1 = k + 4 from rfl, hparity, show k + 5 - 4 = k + 1 from rfl, hhalf]

end

/-! ## The tables -/

/-- The place of three bits. -/
def place (x y r : Bool) : UInt8 := when 1 x ||| when 2 y ||| when 4 r

/-- The tables are right for any three bits. -/
theorem reading_entry : ∀ x y r : Bool,
    reading (entry halfOfSum (place x y r)) = { half := carryOut false x y r } ∧
    reading (entry halfOfDifference (place x y r)) = { half := carryOut true x y r } ∧
    reading (entry overflowOfSum (place x y r)) = { parity := overflow false x y r } ∧
    reading (entry overflowOfDifference (place x y r)) = { parity := overflow true x y r } := by
  decide

theorem or_shiftRight (x y k : UInt8) : (x ||| y) >>> k = (x >>> k) ||| (y >>> k) :=
  UInt8.toBitVec_inj.mp (BitVec.ushiftRight_or_distrib x.toBitVec y.toBitVec _)

/-- The lower half of the places is that of bits 3. -/
theorem places_low (x y r : UInt8) :
    places x y r &&& 0x07 = place (x.toNat.testBit 3) (y.toNat.testBit 3) (r.toNat.testBit 3) := by
  have hbits : ∀ byte : UInt8, ((byte &&& 0x88) >>> 3) &&& 0x07 = when 1 (byte.toNat.testBit 3) ∧
      ((byte &&& 0x88) >>> 2) &&& 0x07 = when 2 (byte.toNat.testBit 3) ∧
      ((byte &&& 0x88) >>> 1) &&& 0x07 = when 4 (byte.toNat.testBit 3) :=
    forall_byte (by decide +kernel)
  rw [places, or_and_mask, or_and_mask, (hbits x).1, (hbits y).2.1, (hbits r).2.2, place]

/-- The upper half of the places is that of bits 7. -/
theorem places_high (x y r : UInt8) :
    places x y r >>> 4 = place (x.toNat.testBit 7) (y.toNat.testBit 7) (r.toNat.testBit 7) := by
  have hbits : ∀ byte : UInt8, ((byte &&& 0x88) >>> 3) >>> 4 = when 1 (byte.toNat.testBit 7) ∧
      ((byte &&& 0x88) >>> 2) >>> 4 = when 2 (byte.toNat.testBit 7) ∧
      ((byte &&& 0x88) >>> 1) >>> 4 = when 4 (byte.toNat.testBit 7) :=
    forall_byte (by decide +kernel)
  rw [places, or_shiftRight, or_shiftRight, (hbits x).1, (hbits y).2.1, (hbits r).2.2, place]

/-- The places of words are those of their high bytes. -/
theorem widePlaces_eq (x y r : UInt16) : widePlaces x y r = places (Word.high x) (Word.high y) (Word.high r) := by
  apply UInt8.toBitVec_inj.mp
  ext i hi
  simp only [widePlaces, places, Word.high]
  interval_cases i <;> simp

/-- Without bits 15 the places have nothing in their upper half. -/
theorem widePlaces_masked (x y r : UInt16) :
    widePlaces (x &&& 0x0800) (y &&& 0x0800) (r &&& 0x0800) = widePlaces x y r &&& 0x07 := by
  apply UInt8.toBitVec_inj.mp
  ext i hi
  simp only [widePlaces]
  interval_cases i <;> simp

section

variable (x y r : UInt8)

@[simp] theorem reading_halfOfSum : reading (entry halfOfSum (places x y r &&& 0x07)) =
    { half := carryOut false (x.toNat.testBit 3) (y.toNat.testBit 3) (r.toNat.testBit 3) } := by
  rw [places_low]
  exact (reading_entry _ _ _).1

@[simp] theorem reading_halfOfDifference : reading (entry halfOfDifference (places x y r &&& 0x07)) =
    { half := carryOut true (x.toNat.testBit 3) (y.toNat.testBit 3) (r.toNat.testBit 3) } := by
  rw [places_low]
  exact (reading_entry _ _ _).2.1

@[simp] theorem reading_overflowOfSum : reading (entry overflowOfSum (places x y r >>> 4)) =
    { parity := overflow false (x.toNat.testBit 7) (y.toNat.testBit 7) (r.toNat.testBit 7) } := by
  rw [places_high]
  exact (reading_entry _ _ _).2.2.1

@[simp] theorem reading_overflowOfDifference : reading (entry overflowOfDifference (places x y r >>> 4)) =
    { parity := overflow true (x.toNat.testBit 7) (y.toNat.testBit 7) (r.toNat.testBit 7) } := by
  rw [places_high]
  exact (reading_entry _ _ _).2.2.2

end

/-! ## Bytes -/

theorem and_two_pow_ne_zero (n j : Nat) : n &&& 2 ^ j ≠ 0 ↔ n.testBit j = true := by
  have hfield := and_field n j 1
  have hpos : 0 < 2 ^ j := Nat.two_pow_pos j
  rw [Nat.pow_one, Nat.one_mul] at hfield
  rw [hfield, Nat.testBit_eq_decide_div_mod_eq, decide_eq_true_eq, Ne, Nat.mul_eq_zero]
  omega

/-- The bit above a byte. -/
theorem carry_of_byte (d : UInt16) : (d &&& 0x100 != 0) = d.toNat.testBit 8 := by
  rw [Bool.eq_iff_iff, bne_iff_ne, Ne, ← UInt16.toNat_inj, UInt16.toNat_and]
  exact and_two_pow_ne_zero d.toNat 8

theorem report_add (x y : UInt8) {c : UInt8} (hc : c.toNat ≤ 1) :
    (add x y c).report = calculation false 8 x.toNat y.toNat c.toNat := by
  have hd : ((x.toUInt16 + y.toUInt16 + c.toUInt16).toNat : Int) = exact false x.toNat y.toNat c.toNat % (2 ^ 16 : Nat) := by
    simp only [UInt16.toNat_add, UInt8.toNat_toUInt16, exact]
    omega
  simp only [Outcome.report, add]
  generalize x.toUInt16 + y.toUInt16 + c.toUInt16 = d at hd
  rw [calculation_eq (k := 3) (by decide) x.toNat_lt y.toNat_lt hc hd d.toNat_toUInt8]
  simp [Reading.combine, Reading.ofValue, carry_of_byte]

theorem report_sub (x y : UInt8) {c : UInt8} (hc : c.toNat ≤ 1) :
    (sub x y c).report = calculation true 8 x.toNat y.toNat c.toNat := by
  have hd : ((x.toUInt16 - y.toUInt16 - c.toUInt16).toNat : Int) = exact true x.toNat y.toNat c.toNat % (2 ^ 16 : Nat) := by
    have hx := x.toNat_lt
    have hy := y.toNat_lt
    simp only [UInt16.toNat_sub, UInt8.toNat_toUInt16, exact]
    omega
  simp only [Outcome.report, sub]
  generalize x.toUInt16 - y.toUInt16 - c.toUInt16 = d at hd
  rw [calculation_eq (k := 3) (by decide) x.toNat_lt y.toNat_lt hc hd d.toNat_toUInt8]
  simp [Reading.combine, Reading.ofValue, carry_of_byte]

/-- A comparison leaves the flags of the difference, but two of them are copied from the operand. -/
theorem reading_compare (x y : UInt8) : reading (compare x y) =
    { reading (sub x y 0).flags with bit3 := test y bit3, bit5 := test y bit5 } := by
  have hborrow : (x.toUInt16 - y.toUInt16 &&& 0x100 != 0) = true → (x.toUInt16 - y.toUInt16).toNat % 256 ≠ 0 := by
    have hx := x.toNat_lt
    have hy := y.toNat_lt
    rw [carry_of_byte, testBit_eq_le_mod, decide_eq_true_eq, UInt16.toNat_sub, UInt8.toNat_toUInt16, UInt8.toNat_toUInt16]
    omega
  have hzero : x.toUInt16 - y.toUInt16 - (0 : UInt8).toUInt16 = x.toUInt16 - y.toUInt16 := UInt16.sub_zero _
  simp only [compare, sub, hzero]
  generalize x.toUInt16 - y.toUInt16 = d at hborrow
  -- a borrow and a result of zero never go together
  by_cases hcarry : (d &&& 0x100 != 0) = true
  · simp [hcarry, Reading.combine, Reading.ofValue]
    exact ⟨rfl, rfl, hborrow hcarry, test_eq_testBit d.toUInt8 7 rfl⟩
  · simp [hcarry, beq_zero_eq, Reading.combine, Reading.ofValue]
    exact ⟨rfl, rfl, test_eq_testBit d.toUInt8 7 rfl⟩

theorem toNat_carryIn (f : UInt8) : (carryIn f).toNat = (test f carry).toNat := by
  rw [carryIn, toNat_and_field f 0 1 rfl, test_eq_testBit f 0 rfl, Nat.testBit_eq_decide_div_mod_eq]
  simp only [Nat.pow_zero, Nat.div_one, Nat.mul_one, Nat.pow_one]
  rcases Nat.mod_two_eq_zero_or_one f.toNat with hbit | hbit <;> rw [hbit] <;> rfl

theorem carryIn_le (f : UInt8) : (carryIn f).toNat ≤ 1 := by
  rw [toNat_carryIn]
  exact Bool.toNat_le _

/-- Flags whose carry is replaced by another. -/
theorem reading_carryIn_or (f flags : UInt8) :
    reading (carryIn f ||| (flags &&& ~~~carry)) = { reading flags with carry := test f carry } := by
  have hmask : reading (~~~carry) = ⟨false, true, true, true, true, true, true, true⟩ := rfl
  simp [carryIn, hmask, Reading.combine]
  rfl

theorem report_increment (value f : UInt8) : (increment value f).report =
    { (add value 1 0).report with flags.carry := test f carry } := by
  have hvalue : ∀ value : UInt8, (increment value 0).value = (add value 1 0).value := forall_byte (by decide +kernel)
  have hclear : ∀ value : UInt8, (increment value 0).flags = (add value 1 0).flags &&& ~~~carry :=
    forall_byte (by decide +kernel)
  have hflags : (increment value f).flags = carryIn f ||| (increment value 0).flags := by
    simp [increment, carryIn, UInt8.or_assoc]
  rw [Outcome.report, show (increment value f).value = _ from hvalue value, hflags, hclear, reading_carryIn_or]
  rfl

theorem report_decrement (value f : UInt8) : (decrement value f).report =
    { (sub value 1 0).report with flags.carry := test f carry } := by
  have hvalue : ∀ value : UInt8, (decrement value 0).value = (sub value 1 0).value := forall_byte (by decide +kernel)
  have hclear : ∀ value : UInt8, (decrement value 0).flags = (sub value 1 0).flags &&& ~~~carry :=
    forall_byte (by decide +kernel)
  have hflags : (decrement value f).flags = carryIn f ||| (decrement value 0).flags := by
    simp [decrement, carryIn, UInt8.or_assoc]
  rw [Outcome.report, show (decrement value f).value = _ from hvalue value, hflags, hclear, reading_carryIn_or]
  rfl

/-! ## Words -/

theorem wide_beq_zero_eq (value : UInt16) : (value == 0) = decide (value.toNat = 0) := by
  rw [Bool.eq_iff_iff, beq_iff_eq, decide_eq_true_iff, ← UInt16.toNat_inj]
  rfl

theorem testBit_high (w : UInt16) (j : Nat) : (Word.high w).toNat.testBit j = w.toNat.testBit (j + 8) := by
  rw [Word.toNat_high, show 256 = 2 ^ 8 from rfl, Nat.testBit_div_two_pow]

@[simp] theorem reading_high (w : UInt16) : reading (Word.high w) =
    ⟨w.toNat.testBit 8, w.toNat.testBit 9, w.toNat.testBit 10, w.toNat.testBit 11, w.toNat.testBit 12, w.toNat.testBit 13,
      w.toNat.testBit 14, w.toNat.testBit 15⟩ := by
  simp only [reading_eq_testBit, testBit_high]

/-- The bit above a word. -/
theorem carry_of_word (d : UInt32) : (d &&& 0x10000 != 0) = d.toNat.testBit 16 := by
  rw [Bool.eq_iff_iff, bne_iff_ne, Ne, ← UInt32.toNat_inj, UInt32.toNat_and]
  exact and_two_pow_ne_zero d.toNat 16

theorem report_addWide (x y : UInt16) (f : UInt8) : (addWide x y f).report =
    { calculation false 16 x.toNat y.toNat 0 with
      flags.parity := test f parity, flags.zero := test f zero, flags.sign := test f sign } := by
  have hd : ((x.toUInt32 + y.toUInt32).toNat : Int) = exact false x.toNat y.toNat (0 : Nat) % (2 ^ 32 : Nat) := by
    simp only [UInt32.toNat_add, UInt16.toNat_toUInt32, exact]
    omega
  simp only [WideOutcome.report, addWide]
  rw [widePlaces_masked, widePlaces_eq]
  generalize x.toUInt32 + y.toUInt32 = d at hd
  rw [calculation_eq (k := 11) (by decide) x.toNat_lt y.toNat_lt (Nat.zero_le 1) hd d.toNat_toUInt16]
  simp [Reading.combine, Reading.ofValue, testBit_high, carry_of_word]
  exact ⟨rfl, rfl, rfl⟩

theorem report_adcWide (x y : UInt16) (f : UInt8) :
    (adcWide x y f).report = calculation false 16 x.toNat y.toNat (carryIn f).toNat := by
  have hd : ((x.toUInt32 + y.toUInt32 + (carryIn f).toUInt32).toNat : Int) =
      exact false x.toNat y.toNat (carryIn f).toNat % (2 ^ 32 : Nat) := by
    simp only [UInt32.toNat_add, UInt16.toNat_toUInt32, UInt8.toNat_toUInt32, exact]
    omega
  simp only [WideOutcome.report, adcWide, widePlaces_eq]
  generalize x.toUInt32 + y.toUInt32 + (carryIn f).toUInt32 = d at hd
  rw [calculation_eq (k := 11) (by decide) x.toNat_lt y.toNat_lt (carryIn_le f) hd d.toNat_toUInt16]
  simp [Reading.combine, Reading.ofValue, testBit_high, carry_of_word, wide_beq_zero_eq]

theorem report_sbcWide (x y : UInt16) (f : UInt8) :
    (sbcWide x y f).report = calculation true 16 x.toNat y.toNat (carryIn f).toNat := by
  have hd : ((x.toUInt32 - y.toUInt32 - (carryIn f).toUInt32).toNat : Int) =
      exact true x.toNat y.toNat (carryIn f).toNat % (2 ^ 32 : Nat) := by
    have hx := x.toNat_lt
    have hy := y.toNat_lt
    have hc := carryIn_le f
    simp only [UInt32.toNat_sub, UInt16.toNat_toUInt32, UInt8.toNat_toUInt32, exact]
    omega
  simp only [WideOutcome.report, sbcWide, widePlaces_eq]
  generalize x.toUInt32 - y.toUInt32 - (carryIn f).toUInt32 = d at hd
  rw [calculation_eq (k := 11) (by decide) x.toNat_lt y.toNat_lt (carryIn_le f) hd d.toNat_toUInt16]
  simp [Reading.combine, Reading.ofValue, testBit_high, carry_of_word, wide_beq_zero_eq]

/-- Every addition and every subtraction gives the exact result, as far as it fits, and the flags that go with it: carry, half
carry and overflow when the exact result does not fit, the others as the result has them. A comparison keeps the accumulator and
takes the undocumented flags from the operand; counting up or down keeps the carry; the sum of two words keeps overflow, zero and
sign. -/
theorem arithmetic_reports (a operand f : UInt8) (x y : UInt16) :
    let c := (test f carry).toNat
    (apply .add a f operand).report = calculation false 8 a.toNat operand.toNat 0 ∧
    (apply .adc a f operand).report = calculation false 8 a.toNat operand.toNat c ∧
    (apply .sub a f operand).report = calculation true 8 a.toNat operand.toNat 0 ∧
    (apply .sbc a f operand).report = calculation true 8 a.toNat operand.toNat c ∧
    (apply .cp a f operand).report =
      { calculation true 8 a.toNat operand.toNat 0 with
        value := a.toNat, flags.bit3 := test operand bit3, flags.bit5 := test operand bit5 } ∧
    (negate a).report = calculation true 8 0 a.toNat 0 ∧
    (increment a f).report = { calculation false 8 a.toNat 1 0 with flags.carry := test f carry } ∧
    (decrement a f).report = { calculation true 8 a.toNat 1 0 with flags.carry := test f carry } ∧
    (addWide x y f).report =
      { calculation false 16 x.toNat y.toNat 0 with
        flags.parity := test f parity, flags.zero := test f zero, flags.sign := test f sign } ∧
    (adcWide x y f).report = calculation false 16 x.toNat y.toNat c ∧
    (sbcWide x y f).report = calculation true 16 x.toNat y.toNat c := by
  intro c
  have hc : (carryIn f).toNat = c := toNat_carryIn f
  have hzero : (0 : UInt8).toNat ≤ 1 := Nat.zero_le 1
  refine ⟨report_add a operand hzero, ?_, report_sub a operand hzero, ?_, ?_, report_sub 0 a hzero, ?_, ?_,
    report_addWide x y f, ?_, ?_⟩
  · rw [← hc]
    exact report_add a operand (carryIn_le f)
  · rw [← hc]
    exact report_sub a operand (carryIn_le f)
  · rw [← UInt8.toNat_zero, ← report_sub a operand hzero, Outcome.report, apply, reading_compare]
    rfl
  · rw [report_increment, report_add a 1 hzero]
    rfl
  · rw [report_decrement, report_sub a 1 hzero]
    rfl
  · rw [← hc]
    exact report_adcWide x y f
  · rw [← hc]
    exact report_sbcWide x y f

/-- 127 and 1 are 128, which is no signed byte. -/
example : calculation false 8 127 1 0 = { value := 128, flags := { parity := true, half := true, sign := true } } := by
  decide

end Alu

end ZxSpectrum
