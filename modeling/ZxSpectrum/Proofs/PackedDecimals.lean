import Mathlib.Tactic.LinearCombination
import Mathlib.Tactic.Ring
import ZxSpectrum.Proofs.ArithmeticFlags

/-!
# Arithmetic of packed decimals

A byte with two decimal digits is added or subtracted as a number and then adjusted, which gives the two digits of the decimal
result and its carry (`decimalStep_spec`). Numbers of any length go byte by byte, each byte taking the carry of the one before
(`decimal_arithmetic`).
-/

namespace ZxSpectrum.Alu

open Flags

/-- Both halves of the byte are decimal digits. -/
def IsPacked (byte : UInt8) : Prop := byte.toNat / 16 ≤ 9 ∧ byte.toNat % 16 ≤ 9

/-- The number that two digits stand for. -/
def decimal (byte : UInt8) : Nat := 10 * (byte.toNat / 16) + byte.toNat % 16

/-- The number that bytes of two digits stand for, the least significant byte first. -/
def decimals : List UInt8 → Nat
  | [] => 0
  | byte :: rest => 100 * decimals rest + decimal byte

/-- A number of `n` bytes with two decimal digits each, the least significant byte first. -/
structure PackedDecimal (n : Nat) where
  bytes : List UInt8
  length_eq : bytes.length = n
  isPacked : ∀ byte ∈ bytes, IsPacked byte

def PackedDecimal.value {n : Nat} (number : PackedDecimal n) : Nat := decimals number.bytes

/-- An operation on two bytes, made decimal again. -/
def decimalStep (operation : Operation) (x f y : UInt8) : Outcome :=
  let plain := apply operation x f y
  decimalAdjust plain.value plain.flags

/-- The operation on two numbers byte by byte, each byte with the flags of the one before: the bytes of the result and the flags at
the end. -/
def decimalChain (operation : Operation) : List UInt8 → List UInt8 → UInt8 → List UInt8 × UInt8
  | x :: xs, y :: ys, f =>
    let byte := decimalStep operation x f y
    let rest := decimalChain operation xs ys byte.flags
    (byte.value :: rest.1, rest.2)
  | _, _, f => ([], f)

/-- The operation that takes the carry in. -/
def withCarry (subtracts : Bool) : Operation :=
  match subtracts with
  | false => .adc
  | true => .sbc

/-! ## One byte -/

theorem report_withCarry (subtracts : Bool) (x f y : UInt8) : (apply (withCarry subtracts) x f y).report =
    calculation subtracts 8 x.toNat y.toNat (test f carry).toNat := by
  rw [← toNat_carryIn]
  cases subtracts
  · exact report_add x y (carryIn_le f)
  · exact report_sub x y (carryIn_le f)

/-- What a calculation says of the flags that the adjustment looks at. -/
theorem of_report {outcome : Outcome} {subtracts : Bool} {x y c : Nat} (h : outcome.report = calculation subtracts 8 x y c) :
    (outcome.value.toNat : Int) = exact subtracts x y c % 256 ∧
    test outcome.flags carry = outside 0 256 (exact subtracts x y c) ∧
    test outcome.flags half = outside 0 16 (exact subtracts (x % 16 : Nat) (y % 16 : Nat) c) ∧
    test outcome.flags subtract = subtracts := by
  refine ⟨?_, congrArg (·.flags.carry) h, congrArg (·.flags.half) h, congrArg (·.flags.subtract) h⟩
  have hvalue : outcome.value.toNat = (exact subtracts x y c % 256).toNat := congrArg Report.value h
  rw [hvalue]
  exact Int.toNat_of_nonneg (Int.emod_nonneg _ (by decide))

/-- The adjustment adds or subtracts a six for each digit that is not decimal or had a carry, and leaves the carry of the upper. -/
theorem decimalAdjust_spec (a f : UInt8) : ∃ low high : Bool,
    (low = true ↔ test f half = true ∨ 9 < a.toNat % 16) ∧
    (high = true ↔ test f carry = true ∨ 0x99 < a.toNat) ∧
    ((decimalAdjust a f).value.toNat : Int) =
      exact (test f subtract) a.toNat (6 * low.toNat + 96 * high.toNat : Nat) (0 : Nat) % 256 ∧
    test (decimalAdjust a f).flags carry = high := by
  have hlow : a &&& 0x0F > 9 ↔ 9 < a.toNat % 16 := by
    rw [gt_iff_lt, UInt8.lt_iff_toNat_lt, UInt8.toNat_and]
    exact Iff.of_eq (congrArg (9 < ·) (Nat.and_two_pow_sub_one_eq_mod a.toNat 4))
  have hsixes : ∀ low high : Bool, (when 0x06 low ||| when 0x60 high).toNat = 6 * low.toNat + 96 * high.toNat := by
    decide
  have hzero : (0 : UInt8).toNat ≤ 1 := Nat.zero_le 1
  refine ⟨test f half || decide (a &&& 0x0F > 9), test f carry || decide (a > 0x99), ?_, ?_, ?_, ?_⟩
  · rw [Bool.or_eq_true, decide_eq_true_eq, hlow]
  · rw [Bool.or_eq_true, decide_eq_true_eq]
    rfl
  · rw [← hsixes]
    unfold decimalAdjust
    cases test f subtract
    · exact (of_report (report_add a _ hzero)).1
    · exact (of_report (report_sub a _ hzero)).1
  · have hmask : reading (~~~(carry ||| parity)) =
        { subtract := true, bit3 := true, half := true, bit5 := true, zero := true, sign := true } := rfl
    change (reading _).carry = _
    simp [decimalAdjust, hmask, ofParity, Reading.combine]

section

/-! The sums, or the differences, of the lower digits with the carry and of the upper digits. -/

variable {lower upper a r : Int} {low high : Bool}

/-- A binary sum is adjusted where the decimal digits carry, and becomes the decimal sum. -/
theorem decimal_sum (hl : 0 ≤ lower ∧ lower ≤ 19) (hu : 0 ≤ upper ∧ upper ≤ 18) (ha : a = (16 * upper + lower) % 256)
    (hlow : low = true ↔ 16 ≤ lower ∨ 9 < a % 16) (hhigh : high = true ↔ 256 ≤ 16 * upper + lower ∨ 0x99 < a)
    (hr : r = (a + (6 * low.toNat + 96 * high.toNat)) % 256) :
    (r / 16 ≤ 9 ∧ r % 16 ≤ 9) ∧ 10 * (r / 16) + r % 16 = (10 * upper + lower) % 100 ∧
    (high = true ↔ 100 ≤ 10 * upper + lower) := by
  have hlower : low = true ↔ 10 ≤ lower := by
    rw [hlow]
    omega
  -- the upper digit is looked at before the lower one is adjusted: with a lower carry to come, 0x9A already counts as a carry
  have hbinary : high = true ↔ 154 ≤ 16 * upper + lower := by
    rw [hhigh]
    omega
  have hupper : high = true ↔ 10 ≤ upper + low.toNat := by
    rw [hbinary]
    cases low <;>
      simp only [true_iff, false_iff, Bool.false_eq_true, Bool.toNat_true, Bool.toNat_false] at hlower ⊢ <;> omega
  clear hlow hhigh
  have hdigits : r = 16 * (upper + low.toNat - 10 * high.toNat) + (lower - 10 * low.toNat) := by
    cases low <;> cases high <;>
      simp only [true_iff, false_iff, Bool.false_eq_true, Bool.toNat_true, Bool.toNat_false] at hlower hbinary hr ⊢ <;> omega
  clear ha hr hbinary
  rw [hupper]
  cases low <;> cases high <;>
    simp only [true_iff, false_iff, Bool.false_eq_true, Bool.toNat_true, Bool.toNat_false] at hlower hupper hdigits ⊢ <;> omega

/-- A binary difference is adjusted where the decimal digits borrow, and becomes the decimal difference. -/
theorem decimal_difference (hl : -10 ≤ lower ∧ lower ≤ 9) (hu : -9 ≤ upper ∧ upper ≤ 9)
    (ha : a = (16 * upper + lower) % 256) (hlow : low = true ↔ lower < 0 ∨ 9 < a % 16)
    (hhigh : high = true ↔ 16 * upper + lower < 0 ∨ 0x99 < a)
    (hr : r = (a - (6 * low.toNat + 96 * high.toNat)) % 256) :
    (r / 16 ≤ 9 ∧ r % 16 ≤ 9) ∧ 10 * (r / 16) + r % 16 = (10 * upper + lower) % 100 ∧
    (high = true ↔ 10 * upper + lower < 0) := by
  have hlower : low = true ↔ lower < 0 := by
    rw [hlow]
    omega
  -- without a borrow the difference is at most 0x99, so that the second test never adjusts
  have hbinary : high = true ↔ 16 * upper + lower < 0 := by
    rw [hhigh]
    omega
  have hupper : high = true ↔ upper - low.toNat < 0 := by
    rw [hbinary]
    cases low <;>
      simp only [true_iff, false_iff, Bool.false_eq_true, Bool.toNat_true, Bool.toNat_false] at hlower ⊢ <;> omega
  clear hlow hhigh
  have hdigits : r = 16 * (upper - low.toNat + 10 * high.toNat) + (lower + 10 * low.toNat) := by
    cases low <;> cases high <;>
      simp only [true_iff, false_iff, Bool.false_eq_true, Bool.toNat_true, Bool.toNat_false] at hlower hbinary hr ⊢ <;> omega
  clear ha hr hbinary
  rw [hupper]
  cases low <;> cases high <;>
    simp only [true_iff, false_iff, Bool.false_eq_true, Bool.toNat_true, Bool.toNat_false] at hlower hupper hdigits ⊢ <;> omega

end

/-- A result from those of the lower and of the upper parts of the operands. -/
theorem exact_parts (subtracts : Bool) (n upper lower uppers lowers c : Nat) :
    exact subtracts (n * upper + lower : Nat) (n * uppers + lowers : Nat) c =
      n * exact subtracts upper uppers (0 : Nat) + exact subtracts lower lowers c := by
  cases subtracts <;> simp only [exact] <;> push_cast <;> ring

/-- Two bytes of decimal digits and a carry give a byte of decimal digits and a carry. -/
theorem decimalStep_spec (subtracts : Bool) {x y : UInt8} (f : UInt8) (hx : IsPacked x) (hy : IsPacked y) :
    let total := exact subtracts (decimal x) (decimal y) (test f carry).toNat
    let byte := decimalStep (withCarry subtracts) x f y
    IsPacked byte.value ∧ (decimal byte.value : Int) = total % 100 ∧ test byte.flags carry = outside 0 100 total := by
  intro total byte
  obtain ⟨ha, hcarry, hhalf, hsubtract⟩ := of_report (report_withCarry subtracts x f y)
  obtain ⟨low, high, hlow, hhigh, hr, hout⟩ :=
    decimalAdjust_spec (apply (withCarry subtracts) x f y).value (apply (withCarry subtracts) x f y).flags
  have hc : (test f carry).toNat ≤ 1 := Bool.toNat_le _
  have hwhole := exact_parts subtracts 16 (x.toNat / 16) (x.toNat % 16) (y.toNat / 16) (y.toNat % 16) (test f carry).toNat
  have htotal : total = _ :=
    exact_parts subtracts 10 (x.toNat / 16) (x.toNat % 16) (y.toNat / 16) (y.toNat % 16) (test f carry).toNat
  rw [Nat.div_add_mod, Nat.div_add_mod] at hwhole
  rw [hwhole] at ha
  rw [hhalf, outside_iff] at hlow
  rw [hcarry, outside_iff, hwhole] at hhigh
  rw [hsubtract, show (decimalAdjust _ _).value = byte.value from rfl] at hr
  rw [show test byte.flags carry = high from hout, Bool.eq_iff_iff, outside_iff, htotal]
  obtain ⟨hxs, hxl⟩ := hx
  obtain ⟨hys, hyl⟩ := hy
  unfold IsPacked decimal
  generalize byte.value.toNat = r at *
  generalize (apply (withCarry subtracts) x f y).value.toNat = a at *
  generalize hlower : exact subtracts (x.toNat % 16 : Nat) (y.toNat % 16 : Nat) (test f carry).toNat = lower at *
  generalize hupper : exact subtracts (x.toNat / 16 : Nat) (y.toNat / 16 : Nat) (0 : Nat) = upper at *
  cases subtracts
  · simp only [exact] at hlower hupper hr
    have hsum := decimal_sum (show 0 ≤ lower ∧ lower ≤ 19 by omega) (show 0 ≤ upper ∧ upper ≤ 18 by omega) ha
      (hlow.trans (show _ ↔ 16 ≤ lower ∨ 9 < (a : Int) % 16 by omega))
      (hhigh.trans (show _ ↔ 256 ≤ 16 * upper + lower ∨ 0x99 < (a : Int) by omega))
      (show (r : Int) = (a + (6 * low.toNat + 96 * high.toNat)) % 256 by omega)
    exact ⟨by omega, by omega, hsum.2.2.trans (by omega)⟩
  · simp only [exact] at hlower hupper hr
    have hdifference := decimal_difference (show -10 ≤ lower ∧ lower ≤ 9 by omega)
      (show -9 ≤ upper ∧ upper ≤ 9 by omega) ha
      (hlow.trans (show _ ↔ lower < 0 ∨ 9 < (a : Int) % 16 by omega))
      (hhigh.trans (show _ ↔ 16 * upper + lower < 0 ∨ 0x99 < (a : Int) by omega))
      (show (r : Int) = (a - (6 * low.toNat + 96 * high.toNat)) % 256 by omega)
    exact ⟨by omega, by omega, hdifference.2.2.trans (by omega)⟩

/-! ## Any number of bytes -/

theorem decimal_lt {byte : UInt8} (h : IsPacked byte) : decimal byte < 100 := by
  obtain ⟨hhigh, hlow⟩ := h
  unfold decimal
  omega

/-- The carry of the lowest byte goes into the calculation with the others. -/
theorem exact_carried (subtracts : Bool) {x y c : Nat} (hx : x < 100) (hy : y < 100) (hc : c ≤ 1) (xs ys : Nat) :
    exact subtracts (100 * xs + x : Nat) (100 * ys + y : Nat) c =
      100 * exact subtracts xs ys (outside 0 100 (exact subtracts x y c)).toNat + exact subtracts x y c % 100 := by
  have hout := @outside_iff 0 100 (exact subtracts x y c)
  rw [exact_parts]
  cases hcarry : outside 0 100 (exact subtracts x y c) <;> rw [hcarry] at hout <;> cases subtracts <;>
    simp [exact] at hout ⊢ <;> omega

/-- A number wraps, and fits, as what is above its lowest two digits does. -/
theorem above_digits {total rest digits : Int} {m : Nat} (h : total = 100 * rest + digits)
    (hdigits : 0 ≤ digits ∧ digits < 100) (hm : 0 < m) :
    total % (100 * m : Nat) = 100 * (rest % m) + digits ∧ outside 0 (100 * m : Nat) total = outside 0 m rest := by
  constructor
  · have hsplit : total = 100 * (rest % m) + digits + (100 * m : Nat) * (rest / m) := by
      have hparts := Int.emod_add_mul_ediv rest m
      rw [h]
      push_cast
      linear_combination -100 * hparts
    have hlt : rest % m < m := Int.emod_lt_of_pos rest (by omega)
    have hnonneg : 0 ≤ rest % m := Int.emod_nonneg rest (by omega)
    rw [hsplit, Int.add_mul_emod_self_left, Int.emod_eq_of_lt (by omega) (by push_cast; omega)]
  · rw [Bool.eq_iff_iff, outside_iff, outside_iff, h]
    push_cast
    omega

/-- A chain of bytes gives the digits of the decimal result, as many as there are, and its carry. -/
theorem decimalChain_spec (subtracts : Bool) {xs ys : List UInt8} (f : UInt8) (hlength : xs.length = ys.length)
    (hxs : ∀ x ∈ xs, IsPacked x) (hys : ∀ y ∈ ys, IsPacked y) :
    let total := exact subtracts (decimals xs) (decimals ys) (test f carry).toNat
    let result := decimalChain (withCarry subtracts) xs ys f
    (result.1.length = xs.length ∧ ∀ byte ∈ result.1, IsPacked byte) ∧
    (decimals result.1 : Int) = total % (100 ^ xs.length : Nat) ∧
    test result.2 carry = outside 0 (100 ^ xs.length : Nat) total := by
  -- the flags that a byte leaves are those that the next one starts with
  induction xs generalizing ys f with
  | nil =>
    intro total result
    have hresult : result = ([], f) := by
      simp only [result, decimalChain]
    have htotal : total = exact subtracts 0 0 (test f carry).toNat := by
      simp only [total, decimals, List.eq_nil_of_length_eq_zero hlength.symm, Nat.cast_zero]
    rw [hresult, htotal]
    refine ⟨⟨rfl, fun byte hbyte => nomatch hbyte⟩, (Int.emod_one _).symm, ?_⟩
    cases subtracts <;> cases test f carry <;> rfl
  | cons x xs ih =>
    cases ys with
    | nil => nomatch hlength
    | cons y ys =>
      intro total result
      have hx := hxs x List.mem_cons_self
      have hy := hys y List.mem_cons_self
      obtain ⟨hpacked, hvalue, hcarry⟩ := decimalStep_spec subtracts f hx hy
      obtain ⟨⟨hlen, hall⟩, hrest, hout⟩ := ih (decimalStep (withCarry subtracts) x f y).flags (Nat.succ.inj hlength)
        (fun byte hbyte => hxs byte (List.mem_cons_of_mem x hbyte)) (fun byte hbyte => hys byte (List.mem_cons_of_mem y hbyte))
      have htotal : total = _ := exact_carried subtracts (decimal_lt hx) (decimal_lt hy) (Bool.toNat_le (test f carry))
        (decimals xs) (decimals ys)
      have hdigits := decimal_lt hpacked
      rw [← hcarry, ← hvalue] at htotal
      obtain ⟨hmod, hfits⟩ := above_digits htotal (by omega) (Nat.pow_pos (show 0 < 100 by decide))
      rw [← hrest] at hmod
      rw [← hout] at hfits
      rw [List.length_cons, Nat.pow_succ']
      refine ⟨⟨congrArg (· + 1) hlen, ?_⟩, ?_, hfits.symm⟩
      · intro byte hbyte
        rcases List.mem_cons.mp hbyte with rfl | hbyte
        · exact hpacked
        · exact hall byte hbyte
      · rw [hmod]
        rfl

/-- A number fits in its bytes. -/
theorem decimals_lt {bytes : List UInt8} (h : ∀ byte ∈ bytes, IsPacked byte) : decimals bytes < 100 ^ bytes.length := by
  induction bytes with
  | nil => exact Nat.one_pos
  | cons byte rest ih =>
    have hbyte := decimal_lt (h byte List.mem_cons_self)
    have hrest := ih (fun other hother => h other (List.mem_cons_of_mem byte hother))
    rw [decimals, List.length_cons, Nat.pow_succ']
    omega

theorem PackedDecimal.value_lt {n : Nat} (number : PackedDecimal n) : number.value < 100 ^ n := by
  have hlt := decimals_lt number.isPacked
  rwa [number.length_eq] at hlt

/-- A sum does not fit when it is too large. -/
theorem outside_sum (x y c m : Nat) : outside 0 m (exact false x y c) = decide (m ≤ x + y + c) := by
  rw [Bool.eq_iff_iff, outside_iff, decide_eq_true_eq, exact]
  omega

/-- A difference does not fit when it is negative. -/
theorem outside_difference {x m : Nat} (hx : x < m) (y c : Nat) : outside 0 m (exact true x y c) = decide (x < y + c) := by
  rw [Bool.eq_iff_iff, outside_iff, decide_eq_true_eq, exact]
  omega

/-- Numbers of `n` decimal bytes, added or subtracted byte by byte with a carry into the first: the result is the decimal one
without what does not fit, and the carry out of the last byte says whether anything did not. -/
theorem decimal_arithmetic {n : Nat} (x y : PackedDecimal n) (f : UInt8) :
    let c := (test f carry).toNat
    let sum := decimalChain .adc x.bytes y.bytes f
    let difference := decimalChain .sbc x.bytes y.bytes f
    (∃ number : PackedDecimal n, number.bytes = sum.1 ∧ number.value = (x.value + y.value + c) % 100 ^ n) ∧
    test sum.2 carry = decide (100 ^ n ≤ x.value + y.value + c) ∧
    (∃ number : PackedDecimal n, number.bytes = difference.1 ∧ (number.value : Int) = (x.value - y.value - c) % 100 ^ n) ∧
    test difference.2 carry = decide (x.value < y.value + c) := by
  intro c sum difference
  have hlength : x.bytes.length = y.bytes.length := x.length_eq.trans y.length_eq.symm
  obtain ⟨⟨hslen, hsall⟩, hsum, hscarry⟩ := decimalChain_spec false f hlength x.isPacked y.isPacked
  obtain ⟨⟨hdlen, hdall⟩, hdifference, hdcarry⟩ := decimalChain_spec true f hlength x.isPacked y.isPacked
  rw [x.length_eq] at hslen hsum hscarry hdlen hdifference hdcarry
  refine ⟨⟨⟨sum.1, hslen, hsall⟩, rfl, ?_⟩, ?_, ⟨⟨difference.1, hdlen, hdall⟩, rfl, ?_⟩, ?_⟩
  · have hvalue : (decimals sum.1 : Int) = ((x.value + y.value + c : Nat) : Int) % (100 ^ n : Nat) := hsum
    exact_mod_cast hvalue
  · rw [← outside_sum]
    exact hscarry
  · have hvalue : (decimals difference.1 : Int) = (x.value - y.value - c) % (100 ^ n : Nat) := hdifference
    rwa [Nat.cast_pow] at hvalue
  · rw [← outside_difference x.value_lt]
    exact hdcarry

/-- 1599 and 2701 are 4300, and 1500 less 2701 is 8799 with a borrow. -/
example : (decimalChain .adc [0x99, 0x15] [0x01, 0x27] 0).1 = [0x00, 0x43] ∧
    (decimalChain .sbc [0x00, 0x15] [0x01, 0x27] 0).1 = [0x99, 0x87] := by
  decide

end ZxSpectrum.Alu
