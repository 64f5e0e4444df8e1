import ZxSpectrum.Pattern.Expr

/-!
# Sizes of automata

The memory that the automaton of an expression takes, in bytes. A character of several bytes is taken byte by byte. An
automaton that reads backwards shares the beginnings of characters instead of their ends and does not capture.
-/

namespace ZxSpectrum.Pattern

namespace CharSet

/-- The first and the last value of a byte, or of what a byte adds to those before it. -/
abbrev ByteRange := Nat × Nat

/-- The ways to write the numbers of a range as one value with a number of digits in base 64 after it, in rows of ranges. -/
def rows : Nat → Nat → Nat → List (List ByteRange)
  | 0, low, high => [[(low, high)]]
  | digits + 1, low, high =>
    let unit := Nat.pow 64 (digits + 1)
    let first := low / unit
    let last := high / unit
    let led (lead : Nat) (low high : Nat) : List (List ByteRange) := (rows digits low high).map ((lead, lead) :: ·)
    if first = last then led first (low % unit) (high % unit)
    else
      let head := if low % unit = 0 then [] else led first (low % unit) (unit - 1)
      let tail := if high % unit = unit - 1 then [] else led last 0 (high % unit)
      let start := if low % unit = 0 then first else first + 1
      let stop := if high % unit = unit - 1 then last + 1 else last
      let middle := if start < stop then (rows digits 0 (unit - 1)).map ((start, stop - 1) :: ·) else []
      head ++ middle ++ tail

/-- The code points that one, two, three and four bytes write, without surrogates, and the digits after the first byte. -/
def blocks : List (Nat × Nat × Nat) :=
  [(0, 0, 0x7f), (1, 0x80, 0x7ff), (2, 0x800, 0xd7ff), (2, 0xe000, 0xffff), (3, 0x10000, 0x10ffff)]

/-- The first bytes of different lengths are told apart by an offset. -/
def lengthOffset : Nat := 0x1000

/-- The byte sequences of the characters of a set, as rows of ranges. -/
def byteRows (s : CharSet) : List (List ByteRange) :=
  s.ranges.flatMap fun (low, high) =>
    blocks.flatMap fun (digits, first, last) =>
      let low := max low first
      let high := min high last
      if low ≤ high then
        (rows digits low high).map fun row =>
          match row with
          | (a, b) :: rest => (a + digits * lengthOffset, b + digits * lengthOffset) :: rest
          | [] => []
      else []

/-- What may follow each first range of some rows. -/
def followers (rows : List (List ByteRange)) : List (List (List ByteRange)) :=
  (rows.filterMap List.head?).eraseDups.map fun first => (rows.filter (·.head? = some first)).map List.tail

/-- The states that rows lead to, by what may still follow, with the rows themselves as the first. -/
def residuals : Nat → List (List ByteRange) → List (List (List ByteRange))
  | 0, _ => []
  | depth + 1, rows =>
    if rows.all List.isEmpty then []
    else rows :: (followers rows).flatMap (residuals depth)

/-- The bytes of one state. -/
def stateSize : Nat := 32

/-- The bytes of a way from one state to another on a range of bytes. -/
def transitionSize : Nat := 8

/-- The bytes of a way from one state to another. -/
def branchSize : Nat := 4

/-- The size of the automaton of a set, which leads into one more state at its end. -/
def automatonSize (reverse : Bool) (s : CharSet) : Nat :=
  match s.ranges with
  | [(low, high)] =>
    if low = high then stateSize * (Char.ofNat low).utf8Size else several
  | _ => several
where
  several : Nat :=
    if s.isAscii then 2 * stateSize + transitionSize * s.ranges.length
    else
      let rows := s.byteRows
      if reverse then
        let beginnings := (rows.flatMap fun row => (List.range row.length).map fun n => row.take (n + 1)).eraseDups
        stateSize * (2 + beginnings.length) + branchSize * rows.length
      else
        let states := (residuals 4 rows).eraseDups
        stateSize * (1 + states.length) + transitionSize * (states.flatMap followers).length

end CharSet

namespace Expr

open CharSet (stateSize branchSize)

/-- Whether an expression takes a character in any case. -/
def takesSome : Expr → Bool
  | .empty | .look _ => false
  | .set s => !s.isEmpty
  | .seq a b => a.takesSome || b.takesSome
  | .either a b => a.takesSome && b.takesSome
  | .captured inner => inner.takesSome
  | .loop inner least _ => least ≠ 0 && inner.takesSome

/-- The size of a loop around an expression of the given size. -/
def loopSize (takesSome : Bool) (size least : Nat) : Option Nat → Nat
  | none =>
    if least = 0 then
      if takesSome then stateSize + 2 * branchSize + size else 3 * stateSize + 4 * branchSize + size
    else least * size + stateSize + 2 * branchSize
  | some most =>
    if least = 0 ∧ most = 1 then 2 * stateSize + 2 * branchSize + size
    else if least = most then least * size
    else
      (if least = 0 then stateSize else least * size) + stateSize + (most - least) * (size + stateSize + 2 * branchSize)

/-- The size of the automaton of an expression. The branches of an alternation share the states around all of them. -/
def sizeAs (reverse : Bool) : Bool → Expr → Nat
  | isBranch, .either a b =>
    (if isBranch then 0 else 2 * stateSize) + sizeAs reverse true a + sizeAs reverse true b
  | isBranch, .empty | isBranch, .look _ => ofBranch isBranch stateSize
  | isBranch, .set s => ofBranch isBranch (s.automatonSize reverse)
  | isBranch, .seq a b => ofBranch isBranch (sizeAs reverse false a + sizeAs reverse false b)
  | isBranch, .captured inner =>
    ofBranch isBranch ((if reverse then 0 else 2 * stateSize) + sizeAs reverse false inner)
  | isBranch, .loop inner least most =>
    ofBranch isBranch (loopSize inner.takesSome (sizeAs reverse false inner) least most)
where
  /-- A branch takes the way to it, too. -/
  ofBranch (isBranch : Bool) (size : Nat) : Nat := if isBranch then branchSize + size else size

/-- The size of the automaton that looks for an expression anywhere in a text: it passes over any bytes first. Forwards
it captures the whole, too. -/
def size (reverse : Bool) (expr : Expr) : Nat :=
  sizeAs reverse false expr + 4 * stateSize + 2 * branchSize + CharSet.transitionSize +
    if reverse then 0 else 2 * stateSize

end Expr

end ZxSpectrum.Pattern
