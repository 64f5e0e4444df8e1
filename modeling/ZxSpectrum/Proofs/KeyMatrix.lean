import ZxSpectrum.Keyboard
import ZxSpectrum.Proofs.ArithmeticFlags

/-!
# The key matrix

The keyboard is a table of bits (`Keyboard.bit`), each of which belongs to one key at most (`Key.eq_of_place`). Presses and
releases set the bit of their key and no other, so that those of different keys can change places (`Keyboard.move_comm`), and a
read is low in a column if one of the selected half-rows is (`Keyboard.testBit_read`).
-/

namespace ZxSpectrum

/-! ## Bits of bytes -/

theorem toNat_bit {column : Nat} (h : column < 8) : ((1 : UInt8) <<< UInt8.ofNat column).toNat = 2 ^ column := by
  have hall : ∀ column < 8, ((1 : UInt8) <<< UInt8.ofNat column).toNat = 2 ^ column := by decide
  exact hall column h

theorem testBit_toNat_not (byte : UInt8) {column : Nat} (h : column < 8) :
    (~~~byte).toNat.testBit column = !byte.toNat.testBit column := by
  have hnot := BitVec.getLsbD_not (x := byte.toBitVec) (i := column)
  rw [decide_eq_true h, Bool.true_and] at hnot
  exact hnot

/-- Bytes with the same bits are equal. -/
theorem byte_ext {one two : UInt8} (h : ∀ column < 8, one.toNat.testBit column = two.toNat.testBit column) : one = two :=
  UInt8.toBitVec_inj.mp (BitVec.eq_of_getLsbD_eq h)

/-! ## The matrix -/

namespace Key

/-- The bit of a key in its half-row. -/
def column (key : Key) : Nat := key.index % 5

theorem column_lt (key : Key) : key.column < 5 := Nat.mod_lt _ (Nat.succ_pos 4)

theorem getElem?_all (key : Key) : all[key.index]? = some key := by cases key <;> rfl

/-- No two keys have the same place. -/
theorem eq_of_place {key other : Key} (hrow : key.row = other.row) (hcolumn : key.column = other.column) : key = other := by
  have hdiv : key.index / 5 = other.index / 5 := congrArg Fin.val hrow
  have hmod : key.index % 5 = other.index % 5 := hcolumn
  have hindex : key.index = other.index := by omega
  have hsame := key.getElem?_all
  rw [hindex, other.getElem?_all] at hsame
  exact (Option.some.inj hsame).symm

theorem testBit_mask (key : Key) (column : Nat) : key.mask.toNat.testBit column = decide (key.column = column) := by
  have hlt := key.column_lt
  rw [mask, ← Key.column, toNat_bit (by omega), Nat.testBit_two_pow]

end Key

namespace Keyboard

/-- A bit of a half-row. -/
def bit (keyboard : Keyboard) (row : Fin 8) (column : Nat) : Bool := (keyboard.rows.get row).toNat.testBit column

/-- Keyboards with the same bits are equal. -/
theorem ext_bit {keyboard other : Keyboard} (h : ∀ row, ∀ column < 8, keyboard.bit row column = other.bit row column) :
    keyboard = other := by
  have hrows : keyboard.rows = other.rows :=
    Vector.ext fun row hrow => byte_ext fun column hcolumn => h ⟨row, hrow⟩ column hcolumn
  cases keyboard
  cases other
  exact congrArg Keyboard.mk hrows

theorem bit_released (row : Fin 8) {column : Nat} (h : column < 8) : released.bit row column = true := by
  have hall : ∀ column < 8, (0xFF : UInt8).toNat.testBit column = true := by decide
  have hrow : released.rows.get row = 0xFF := Vector.getElem_replicate _
  rw [bit, hrow]
  exact hall column h

theorem bit_modifyRow (keyboard : Keyboard) (key : Key) (f : UInt8 → UInt8) (row : Fin 8) (column : Nat) :
    (keyboard.modifyRow key f).bit row column =
      if key.row = row then (f (keyboard.rows.get key.row)).toNat.testBit column else keyboard.bit row column := by
  by_cases hrow : key.row = row
  · subst hrow
    rw [if_pos rfl]
    exact congrArg (fun byte : UInt8 => byte.toNat.testBit column) (Vector.getElem_set_self _)
  · rw [if_neg hrow]
    exact congrArg (fun byte : UInt8 => byte.toNat.testBit column)
      (Vector.getElem_set_ne key.row.isLt row.isLt fun heq => hrow (Fin.ext heq))

/-- A key that is pressed clears its bit. -/
theorem bit_press (keyboard : Keyboard) (key : Key) (row : Fin 8) {column : Nat} (h : column < 8) :
    (keyboard.press key).bit row column =
      if key.row = row ∧ key.column = column then false else keyboard.bit row column := by
  rw [press, bit_modifyRow, UInt8.toNat_and, Nat.testBit_and, testBit_toNat_not _ h, key.testBit_mask]
  by_cases hrow : key.row = row
  · subst hrow
    by_cases hcolumn : key.column = column <;> simp [hcolumn, bit]
  · simp [hrow]

/-- A key that is released sets its bit. -/
theorem bit_release (keyboard : Keyboard) (key : Key) (row : Fin 8) (column : Nat) :
    (keyboard.release key).bit row column =
      if key.row = row ∧ key.column = column then true else keyboard.bit row column := by
  rw [release, bit_modifyRow, UInt8.toNat_or, Nat.testBit_or, key.testBit_mask]
  by_cases hrow : key.row = row
  · subst hrow
    by_cases hcolumn : key.column = column <;> simp [hcolumn, bit]
  · simp [hrow]

section Moves

variable {move again : Keyboard → Key → Keyboard} (hmove : move = press ∨ move = release)

include hmove

/-- A press or a release sets the bit of its key to a level of its own and leaves all others. -/
theorem bit_move : ∃ level, ∀ (keyboard : Keyboard) (key : Key) (row : Fin 8), ∀ column < 8,
    (move keyboard key).bit row column = if key.row = row ∧ key.column = column then level else keyboard.bit row column := by
  rcases hmove with rfl | rfl
  · exact ⟨false, fun keyboard key row _ h => bit_press keyboard key row h⟩
  · exact ⟨true, fun keyboard key row column _ => bit_release keyboard key row column⟩

/-- Moves of different keys can change places. -/
theorem move_comm (hagain : again = press ∨ again = release) {key other : Key} (hne : key ≠ other) (keyboard : Keyboard) :
    again (move keyboard key) other = move (again keyboard other) key := by
  obtain ⟨level, hlevel⟩ := bit_move hmove
  obtain ⟨level', hlevel'⟩ := bit_move hagain
  refine ext_bit fun row column h => ?_
  simp only [hlevel _ _ _ _ h, hlevel' _ _ _ _ h]
  by_cases hkey : key.row = row ∧ key.column = column
  · have hother : ¬(other.row = row ∧ other.column = column) := fun hother =>
      hne (Key.eq_of_place (hkey.1.trans hother.1.symm) (hkey.2.trans hother.2.symm))
    rw [if_neg hother, if_pos hkey, if_pos hkey]
  · rw [if_neg hkey, if_neg hkey]

/-- A move made twice is made once. -/
theorem move_move (keyboard : Keyboard) (key : Key) : move (move keyboard key) key = move keyboard key := by
  obtain ⟨level, hlevel⟩ := bit_move hmove
  refine ext_bit fun row column h => ?_
  rw [hlevel _ _ _ _ h, hlevel _ _ _ _ h]
  by_cases hkey : key.row = row ∧ key.column = column
  · rw [if_pos hkey, if_pos hkey]
  · rw [if_neg hkey]

end Moves

/-- A low bit of the selecting byte selects a half-row. -/
theorem selects_eq (select : UInt8) (row : Fin 8) :
    (select &&& (1 : UInt8) <<< UInt8.ofNat row.val == 0) = !select.toNat.testBit row := by
  rw [← Flags.test_eq_testBit select row (toNat_bit row.isLt)]
  exact (Bool.not_not _).symm

/-- A column of some half-rows read after others: what was low stays low. -/
theorem testBit_foldl (keyboard : Keyboard) (select : UInt8) (column : Nat) (rows : List (Fin 8)) (keys : UInt8) :
    (rows.foldl (fun keys (row : Fin 8) =>
      if select &&& (1 : UInt8) <<< UInt8.ofNat row.val == 0 then keys &&& keyboard.rows.get row else keys) keys).toNat.testBit
        column = (keys.toNat.testBit column && rows.all fun row => select.toNat.testBit row || keyboard.bit row column) := by
  induction rows generalizing keys with
  | nil => exact (Bool.and_true _).symm
  | cons row rows ih =>
    rw [List.foldl_cons, ih, List.all_cons, selects_eq, ← Bool.and_assoc]
    cases select.toNat.testBit row.val with
    | true => rw [Bool.not_true, if_neg Bool.false_ne_true, Bool.true_or, Bool.and_true]
    | false => rw [Bool.not_false, if_pos rfl, UInt8.toNat_and, Nat.testBit_and, Bool.false_or, bit]

/-- Of all selected half-rows at once, a column is low if it is low in one of them. -/
theorem testBit_read (keyboard : Keyboard) (select : UInt8) {column : Nat} (h : column < 8) :
    (keyboard.read select).toNat.testBit column = false ↔
      ∃ row : Fin 8, select.toNat.testBit row = false ∧ keyboard.bit row column = false := by
  have hfull : (0xFF : UInt8).toNat.testBit column = true := bit_released 0 h
  have hfold := testBit_foldl keyboard select column (List.finRange 8) 0xFF
  rw [hfull, Bool.true_and] at hfold
  have hread : (keyboard.read select).toNat.testBit column = (List.finRange 8).all _ := hfold
  rw [hread, List.all_eq_false]
  simp [List.mem_finRange]

end Keyboard

end ZxSpectrum
