import ZxSpectrum.Text.Blank

/-!
# Sets of characters

Sets of code points as ranges, in order and with gaps between them, and their operations.
-/

namespace ZxSpectrum.Pattern

structure CharSet where
  /-- First and last code points. -/
  ranges : List (Nat × Nat)
deriving DecidableEq, Repr

namespace CharSet

/-- The greatest code point. -/
def top : Nat := 0x10ffff

/-- Adds a range to ranges in order, the last one first, none of which begins after it. -/
def addRange (ranges : List (Nat × Nat)) (range : Nat × Nat) : List (Nat × Nat) :=
  match ranges with
  | last :: before => if range.1 ≤ last.2 + 1 then (last.1, max last.2 range.2) :: before else range :: ranges
  | [] => [range]

/-- The set of some ranges in any order. -/
def ofRanges (ranges : List (Nat × Nat)) : CharSet :=
  ⟨((ranges.mergeSort fun a b => a.1 ≤ b.1).foldl addRange []).reverse⟩

/-- What lies between ranges, from a code point on up to another one. -/
def gaps (first last : Nat) : List (Nat × Nat) → List (Nat × Nat)
  | [] => if first ≤ last then [(first, last)] else []
  | range :: ranges => (if first < range.1 then [(first, range.1 - 1)] else []) ++ gaps (range.2 + 1) last ranges

def empty : CharSet := ⟨[]⟩

def singleton (c : Char) : CharSet := ⟨[(c.toNat, c.toNat)]⟩

/-- The code points up to the given one that are not in a set. -/
def complement (last : Nat) (s : CharSet) : CharSet := ⟨gaps 0 last s.ranges⟩

def union (s t : CharSet) : CharSet := ofRanges (s.ranges ++ t.ranges)

def inter (s t : CharSet) : CharSet := ((s.complement top).union (t.complement top)).complement top

def diff (s t : CharSet) : CharSet := s.inter (t.complement top)

def symmDiff (s t : CharSet) : CharSet := (s.union t).diff (s.inter t)

/-- The letters without accents of a set in both cases, with the rest of the set. -/
def bothCases (s : CharSet) : CharSet :=
  let capitals := s.inter ⟨[(0x41, 0x5a)]⟩
  let small := s.inter ⟨[(0x61, 0x7a)]⟩
  ofRanges (s.ranges ++ capitals.ranges.map (fun range => (range.1 + 32, range.2 + 32)) ++
    small.ranges.map fun range => (range.1 - 32, range.2 - 32))

def isEmpty (s : CharSet) : Bool := s.ranges.isEmpty

def isAscii (s : CharSet) : Bool := s.ranges.all fun range => range.2 < 0x80

def contains (s : CharSet) (c : Char) : Bool := Text.inRanges s.ranges c.toNat

theorem contains_iff (s : CharSet) (c : Char) :
    s.contains c = true ↔ ∃ range ∈ s.ranges, range.1 ≤ c.toNat ∧ c.toNat ≤ range.2 := by
  simp [contains, Text.inRanges]

theorem contains_singleton (c d : Char) : (singleton c).contains d = true ↔ d = c := by
  simp only [contains_iff, singleton, List.mem_singleton, exists_eq_left]
  constructor
  · rintro ⟨above, below⟩
    exact Char.toNat_inj.mp (Nat.le_antisymm below above)
  · rintro rfl
    exact ⟨Nat.le_refl _, Nat.le_refl _⟩

end CharSet

end ZxSpectrum.Pattern
