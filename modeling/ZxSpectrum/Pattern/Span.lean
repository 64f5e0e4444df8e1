/-!
# Places in a pattern

Where the parts of a pattern stand, by line and column, both counted from one.
-/

namespace ZxSpectrum.Pattern

structure Position where
  line : Nat := 1
  column : Nat := 1
deriving DecidableEq, Repr

namespace Position

/-- The position after a character. -/
def next (position : Position) (c : Char) : Position :=
  if c = '\n' then ⟨position.line + 1, 1⟩ else ⟨position.line, position.column + 1⟩

/-- Whether a position does not come after another one. -/
def notAfter (a b : Position) : Bool := a.line < b.line || (a.line = b.line && a.column ≤ b.column)

end Position

/-- A part of a pattern, up to the position that follows it. -/
structure Span where
  start : Position
  stop : Position
deriving DecidableEq, Repr

namespace Span

/-- The empty part at a position. -/
def point (position : Position) : Span := ⟨position, position⟩

/-- The part that one character takes. -/
def ofChar (position : Position) (c : Char) : Span := ⟨position, position.next c⟩

/-- Whether a part begins no later than another one and, if both begin together, ends no later. -/
def notAfter (a b : Span) : Bool :=
  if a.start = b.start then a.stop.notAfter b.stop else a.start.notAfter b.start

end Span

end ZxSpectrum.Pattern
