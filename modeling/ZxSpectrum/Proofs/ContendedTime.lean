import Mathlib.Order.Monotone.Basic
import Mathlib.Order.Iterate
import ZxSpectrum.Proofs.BusRuns

/-!
# Contended time

The waits of a frame can be tabulated line by line, as many columns as screen bytes are fetched in; looked up in that table they
are those of `delay` (`tabulated_getD`). A T-state later the wait is at most one T-state shorter (`delay_le_succ`), so an access
that begins later never ends earlier, and neither does any sequence of accesses (`waits_keep_order`).
-/

namespace ZxSpectrum

namespace Ula

/-! ## The table of waits -/

/-- The table with values written into it one after the other, from a place on. -/
def writeRow {size : Nat} (values : Nat → Nat) (start count : Nat) (fits : start + count ≤ size) (table : Vector Nat size) :
    Vector Nat size :=
  count.fold (fun i h table => table.set (start + i) (values i) (by omega)) table

/-- The waits of a line of the bitmap lie in the table. -/
theorem line_fits {line : Nat} (h : line < screenLines) :
    contentionStart + line * tstatesPerLine + fetchLength ≤ delayTableLength := by
  have hlines : line < 192 := h
  change 14335 + line * 224 + 128 ≤ 69988
  omega

/-- The table once the waits of the first lines of the bitmap have been written into it. -/
def tabulate (lines : Nat) (h : lines ≤ screenLines) : Vector Nat delayTableLength :=
  lines.fold (fun line hline => writeRow (fun column => contentionPattern[column % 8]) (contentionStart + line * tstatesPerLine)
    fetchLength (line_fits (Nat.lt_of_lt_of_le hline h))) (Vector.replicate delayTableLength 0)

/-- The table of all waits. -/
def tabulated : Vector Nat delayTableLength := tabulate screenLines (Nat.le_refl _)

/-- A row changes the places that it covers. -/
theorem getElem_writeRow {size : Nat} (values : Nat → Nat) (start count : Nat) (fits : start + count ≤ size)
    (table : Vector Nat size) {t : Nat} (ht : t < size) : (writeRow values start count fits table)[t] =
      if start ≤ t ∧ t < start + count then values (t - start) else table[t] := by
  induction count with
  | zero =>
    rw [if_neg (by omega)]
    rfl
  | succ count ih =>
    have hrow : writeRow values start (count + 1) fits table =
        (writeRow values start count (by omega) table).set (start + count) (values count) (by omega) := by
      simp only [writeRow, Nat.fold_succ]
    rw [hrow, Vector.getElem_set]
    by_cases hlast : start + count = t
    · rw [if_pos hlast, if_pos (by omega), ← hlast, Nat.add_sub_cancel_left]
    · rw [if_neg hlast, ih (by omega)]
      by_cases hcovered : start ≤ t ∧ t < start + count
      · rw [if_pos hcovered, if_pos (by omega)]
      · rw [if_neg hcovered, if_neg (by omega)]

theorem getElem_contentionPattern {i : Nat} (h : i < 8) : contentionPattern[i] = 6 - i := by
  have hall : ∀ i (h : i < 8), contentionPattern[i] = 6 - i := by decide
  exact hall i h

/-- A wait counts down from six T-states in each group of eight, on the lines of the bitmap and while bytes are fetched. -/
theorem delay_eq (t : Nat) : delay t =
    if 14335 ≤ t ∧ t < 14335 + 192 * 224 ∧ (t - 14335) % 224 < 128 then 6 - (t - 14335) % 224 % 8 else 0 := by
  unfold delay
  change (if 14335 ≤ t ∧ t < 14335 + 192 * 224 then
    if (t - 14335) % 224 < 128 then contentionPattern[(t - 14335) % 224 % 8] else 0 else 0) = _
  rw [getElem_contentionPattern]
  by_cases hlines : 14335 ≤ t ∧ t < 14335 + 192 * 224
  · simp only [hlines, true_and, if_true]
  · rw [if_neg hlines, if_neg fun h => hlines ⟨h.1, h.2.1⟩]

/-- After its first lines the table holds the waits up to there. -/
theorem getElem_tabulate {lines : Nat} (h : lines ≤ screenLines) {t : Nat} (ht : t < delayTableLength) :
    (tabulate lines h)[t] =
      if 14335 ≤ t ∧ t < 14335 + lines * 224 ∧ (t - 14335) % 224 < 128 then 6 - (t - 14335) % 224 % 8 else 0 := by
  induction lines with
  | zero =>
    rw [if_neg (by omega)]
    exact Vector.getElem_replicate ht
  | succ lines ih =>
    have hline : tabulate (lines + 1) h =
        writeRow (fun column => contentionPattern[column % 8]) (contentionStart + lines * tstatesPerLine) fetchLength
          (line_fits h) (tabulate lines (Nat.le_of_succ_le h)) := by
      simp only [tabulate, Nat.fold_succ]
    have hstart : contentionStart = 14335 := rfl
    have hwidth : tstatesPerLine = 224 ∧ fetchLength = 128 := ⟨rfl, rfl⟩
    rw [hline, getElem_writeRow, ih, getElem_contentionPattern, hstart, hwidth.1, hwidth.2]
    by_cases hcovered : 14335 + lines * 224 ≤ t ∧ t < 14335 + lines * 224 + 128
    · rw [if_pos hcovered, if_pos (by omega)]
      omega
    · rw [if_neg hcovered]
      by_cases hbefore : 14335 ≤ t ∧ t < 14335 + lines * 224 ∧ (t - 14335) % 224 < 128
      · rw [if_pos hbefore, if_pos (by omega)]
      · rw [if_neg hbefore, if_neg (by omega)]

/-- What is looked up in the table is the wait, also past its end. -/
theorem tabulated_getD (t : Nat) : tabulated[t]?.getD 0 = delay t := by
  rw [delay_eq]
  by_cases ht : t < delayTableLength
  · rw [Vector.getElem?_eq_getElem ht, Option.getD_some, tabulated, getElem_tabulate _ ht]
    rfl
  · have hlate : 69988 ≤ t := Nat.le_of_not_lt ht
    rw [Vector.getElem?_eq_none (Nat.le_of_not_lt ht), if_neg (by omega)]
    rfl

/-! ## Waits at later times -/

/-- A T-state later the wait is at most one T-state shorter. -/
theorem delay_le_succ (t : Nat) : delay t ≤ delay (t + 1) + 1 := by
  rw [delay_eq, delay_eq]
  split
  · split <;> omega
  · exact Nat.zero_le _

/-- Who has waited does not wait again. -/
theorem delay_add_delay (t : Nat) : delay (t + delay t) = 0 := by
  have hwait := delay_eq t
  split at hwait
  · rw [delay_eq, hwait]
    split <;> omega
  · rw [hwait, Nat.add_zero, hwait]

theorem monotone_contend (time : Nat) : Monotone (contend time) := by
  refine monotone_nat_of_le_succ fun t => ?_
  have hwait := delay_le_succ t
  unfold contend
  omega

theorem monotone_access (address : UInt16) (time : Nat) : Monotone (access address time) := by
  intro t t' h
  unfold access
  split
  · exact monotone_contend time h
  · omega

theorem monotone_beforePort (port : UInt16) : Monotone (beforePort port) := monotone_access port 1

theorem monotone_afterPort (port : UInt16) : Monotone (afterPort port) := by
  intro t t' h
  unfold afterPort
  split
  · exact monotone_contend 3 h
  · split
    · exact monotone_contend 1 (monotone_contend 1 (monotone_contend 1 h))
    · omega

end Ula

/-! ## Accesses one after the other -/

open Ula

/-- What a processor does on the bus. -/
inductive Access where
  | read (address : UInt16)
  | write (address : UInt16) (value : UInt8)
  /-- An address is put on the bus for some time, without data. -/
  | hold (address : UInt16) (time : Nat)
  /-- An address stays on the bus for a number of internal cycles. -/
  | internal (address : UInt16) (count : Nat)
  | readPort (port : UInt16)
  | writePort (port : UInt16) (value : UInt8)
  /-- Time passes with nothing on the bus. -/
  | wait (time : Nat)

namespace Access

/-- The board after an access. -/
def perform (board : Board) : Access → Board
  | read address => ((BusProgram.read address).run board).2
  | write address value => ((BusProgram.write address value).run board).2
  | hold address time => ((BusProgram.hold address time).run board).2
  | internal address count => ((BusProgram.internal address count).run board).2
  | readPort port => ((BusProgram.readPort port).run board).2
  | writePort port value => ((BusProgram.writePort port value).run board).2
  | wait time => ((BusProgram.wait time).run board).2

/-- The clock after an access. -/
def clockAfter : Access → Nat → Nat
  | read address | write address _ => Ula.access address 3
  | hold address time => Ula.access address time
  | internal address count => (Ula.access address 1)^[count]
  | readPort port | writePort port _ => afterPort port ∘ beforePort port
  | wait time => (· + time)

/-- When an access ends depends on nothing but the time at which it begins. -/
theorem clock_perform (board : Board) (access : Access) : (perform board access).clock = access.clockAfter board.clock := by
  cases access with
  | write address value => exact (Board.clock_poke address value _).1
  | internal address count =>
    change ((BusProgram.internal address count).run board).2.clock = (Ula.access address 1)^[count] board.clock
    induction count generalizing board with
    | zero => rfl
    | succ count ih => exact ih (Bus.contend address 1 board)
  | _ => rfl

theorem monotone_clockAfter (access : Access) : Monotone access.clockAfter := by
  cases access with
  | read address => exact monotone_access address 3
  | write address value => exact monotone_access address 3
  | hold address time => exact monotone_access address time
  | internal address count => exact (monotone_access address 1).iterate count
  | readPort port => exact (monotone_afterPort port).comp (monotone_beforePort port)
  | writePort port value => exact (monotone_afterPort port).comp (monotone_beforePort port)
  | wait time => exact fun t t' h => Nat.add_le_add_right h time

/-- An access that begins later ends no earlier. -/
theorem clock_perform_mono (access : Access) {board later : Board} (h : board.clock ≤ later.clock) :
    (perform board access).clock ≤ (perform later access).clock := by
  rw [clock_perform, clock_perform]
  exact access.monotone_clockAfter h

end Access

/-- Waiting is a matter of time alone. Looked up in the table or past its end, the wait at a T-state counts down from six in each
group of eight T-states, on each line of the bitmap while bytes are fetched, and is none at all other times. Who has waited
does not wait again. And of two boards that do the same on the bus, whatever is in their memories, the one that begins no later
ends no later. -/
theorem waits_keep_order :
    (∀ t, tabulated[t]?.getD 0 = delay t ∧
      delay t = (if 14335 ≤ t ∧ t < 14335 + 192 * 224 ∧ (t - 14335) % 224 < 128 then 6 - (t - 14335) % 224 % 8 else 0) ∧
      delay (t + delay t) = 0) ∧
    ∀ (accesses : List Access) (board later : Board), board.clock ≤ later.clock →
      (accesses.foldl Access.perform board).clock ≤ (accesses.foldl Access.perform later).clock := by
  refine ⟨fun t => ⟨tabulated_getD t, delay_eq t, delay_add_delay t⟩, fun accesses => ?_⟩
  induction accesses with
  | nil => exact fun board later h => h
  | cons access rest ih => exact fun board later h => ih _ _ (access.clock_perform_mono h)

/-- One board begins with the first wait of the frame and the other after it. -/
theorem waits_keep_order_firstLine : ∃ accesses : List Access, ∃ board later : Board, board.clock ≤ later.clock ∧
    board.clock = 14335 ∧ later.clock = 14342 ∧ (accesses.foldl Access.perform board).clock = 14361 ∧
      (accesses.foldl Access.perform board).clock ≤ (accesses.foldl Access.perform later).clock :=
  ⟨[.read 0x4000, .internal 0x5800 2, .readPort 0x40FE], { clock := 14335 }, { clock := 14342 }, by decide, rfl, rfl, by decide,
    waits_keep_order.2 _ _ _ (by decide)⟩

end ZxSpectrum
