import ZxSpectrum.Pattern.Expr

/-!
# Expressions in texts

Whether a text holds something that an expression takes. `Expr.follow` goes from the places where an expression may begin to
those where it may end. Places are counted from the front of the text, and a set of places is a number, of which bit `i`
tells of place `i` (`testBit_charsMask`).
-/

namespace ZxSpectrum.Pattern

abbrev Places := Nat

/-- The places before the characters that pass a test. -/
def charsMask (p : Char → Bool) : List Char → Places
  | [] => 0
  | c :: rest => (p c).toNat + 2 * charsMask p rest

/-- The places where the characters before and after pass a test; there is none before the first place and after the
last. -/
def edgesMask (p : Option Char → Option Char → Bool) : Option Char → List Char → Places
  | before, [] => (p before none).toNat
  | before, c :: rest => (p before (some c)).toNat + 2 * edgesMask p (some c) rest

/-- The places of a text with the given number of characters. -/
def allPlaces (length : Nat) : Places := Nat.pow 2 (length + 1) - 1

/-- Whether a character belongs to an ASCII word. -/
def isWordPart (c : Char) : Bool := c.isAlphanum || c = '_'

namespace WordEdge

/-- Whether there is an edge between what belongs to a word, or not, before a place and after it. -/
def holds (edge : WordEdge) (before after : Bool) : Bool :=
  match edge with
  | .boundary => before != after
  | .noBoundary => before == after
  | .start => !before && after
  | .stop => before && !after
  | .startHalf => !before
  | .stopHalf => !after

end WordEdge

namespace Look

/-- Whether a place between two characters is what is asked for. -/
def holds (look : Look) (before after : Option Char) : Bool :=
  match look with
  | .startText => before.isNone
  | .endText => after.isNone
  | .startLine false => before.isNone || before = some '\n'
  | .endLine false => after.isNone || after = some '\n'
  | .startLine true => before.isNone || before = some '\n' || (before = some '\r' && after ≠ some '\n')
  | .endLine true => after.isNone || after = some '\r' || (after = some '\n' && before ≠ some '\r')
  | .word edge _ => edge.holds (before.any isWordPart) (after.any isWordPart)

end Look

/-- Goes on some number of times, until nothing changes. -/
def times (f : Places → Places) : Nat → Places → Places
  | 0, places => places
  | count + 1, places =>
    let next := f places
    if next = places then places else times f count next

/-- Goes on up to some number of times and keeps the places on the way, until none is new. -/
def upToTimes (f : Places → Places) : Nat → Places → Places
  | 0, places => places
  | count + 1, places =>
    let next := places ||| f places
    if next = places then places else upToTimes f count next

namespace Expr

/-- The places where an expression may end that begins at one of the given places. A loop without a limit finds no new
place after as many steps as there are characters. -/
def follow (text : List Char) : Expr → Places → Places
  | .empty => fun places => places
  | .set s => fun places => (places &&& charsMask s.contains text) <<< 1
  | .look asked => fun places => places &&& edgesMask asked.holds none text
  | .seq a b => fun places => b.follow text (a.follow text places)
  | .either a b => fun places => a.follow text places ||| b.follow text places
  | .captured inner => inner.follow text
  | .loop inner least most => fun places =>
    let more := match most with
      | some most => most - least
      | none => text.length + 1
    upToTimes (inner.follow text) more (times (inner.follow text) least places)

/-- Whether an expression takes some part of a text. -/
def isIn (expr : Expr) (text : String) : Bool :=
  let chars := text.toList
  expr.follow chars (allPlaces chars.length) ≠ 0

end Expr

theorem testBit_charsMask (p : Char → Bool) (text : List Char) (i : Nat) :
    (charsMask p text).testBit i = text[i]?.any p := by
  induction text generalizing i with
  | nil => simp [charsMask]
  | cons c rest ih =>
    cases i with
    | zero => cases h : p c <;> simp [charsMask, Nat.testBit_zero, h]
    | succ i =>
      have half : ((p c).toNat + 2 * charsMask p rest) / 2 = charsMask p rest := by
        have := Bool.toNat_le (p c)
        omega
      rw [charsMask, Nat.testBit_succ, half, ih, List.getElem?_cons_succ]

end ZxSpectrum.Pattern
