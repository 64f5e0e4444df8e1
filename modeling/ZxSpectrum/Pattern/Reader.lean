import ZxSpectrum.Pattern.Tree
import ZxSpectrum.Text.Blank

/-!
# Readers of patterns

A reader takes characters from the front of a pattern and may find a flaw. In the verbose form of patterns, blanks may
stand between the parts, and comments from a number sign to the end of the line.
-/

namespace ZxSpectrum.Pattern

/-- Where reading stands. -/
structure Cursor where
  rest : List Char
  position : Position := {}
  /-- Whether the pattern is in the verbose form here. -/
  verbose : Bool := false
  /-- The names of the groups so far. -/
  names : List (String × Span) := []

namespace Cursor

/-- The cursor after one character, if there is one. -/
def next (cursor : Cursor) : Cursor :=
  match cursor.rest with
  | [] => cursor
  | c :: rest => { cursor with rest := rest, position := cursor.position.next c }

/-- What follows the blanks and comments at the front, and where it stands. -/
def afterBlanks (inComment : Bool) : List Char → Position → List Char × Position
  | [], position => ([], position)
  | c :: rest, position =>
    if inComment then afterBlanks (c ≠ '\n') rest (position.next c)
    else if Text.isBlank c then afterBlanks false rest (position.next c)
    else if c = '#' then afterBlanks true rest (position.next c)
    else (c :: rest, position)

/-- The cursor after blanks and comments, if the form is verbose. -/
def skipBlanks (cursor : Cursor) : Cursor :=
  if cursor.verbose then
    let (rest, position) := afterBlanks false cursor.rest cursor.position
    { cursor with rest := rest, position := position }
  else cursor

/-- The part that the character at the cursor takes. -/
def span (cursor : Cursor) : Span :=
  match cursor.rest with
  | [] => .point cursor.position
  | c :: _ => .ofChar cursor.position c

/-- The character after the one at the cursor, past blanks in the verbose form. Of a comment only the number sign is
passed. -/
def lookAhead? (cursor : Cursor) : Option Char :=
  let rest := cursor.rest.tail
  if cursor.verbose then
    let text := match rest.dropWhile Text.isBlank with
      | '#' :: comment => comment.dropWhile Text.isBlank
      | text => text
    if text.isEmpty then rest.head? else text.head?
  else rest.head?

end Cursor

abbrev Reader : Type → Type := StateT Cursor (Except Flaw)

namespace Reader

variable {α : Type}

/-- Ends reading with a flaw. -/
def fail (fault : Fault) (span : Span) : Reader α := throw ⟨fault, span, none⟩

/-- The character at the cursor. -/
def current? : Reader (Option Char) := return (← get).rest.head?

def position : Reader Position := return (← get).position

/-- What has been read since a position. -/
def since (start : Position) : Reader Span := return ⟨start, ← position⟩

/-- Takes a character; says whether another one follows. -/
def take : Reader Bool := do
  modify Cursor.next
  return !(← get).rest.isEmpty

/-- Takes a character and the blanks after it; says whether anything follows. -/
def advance : Reader Bool := do
  modify fun cursor => cursor.next.skipBlanks
  return !(← get).rest.isEmpty

/-- Takes a text if it comes next. -/
def takeText? (text : String) : Reader Bool := do
  if text.toList.isPrefixOf (← get).rest then
    text.toList.forM fun _ => modify Cursor.next
    return true
  else return false

/-- Repeats a step until it gives nothing, some number of times at most. -/
def upTo (step : Reader (Option α)) : Nat → Reader (List α)
  | 0 => pure []
  | count + 1 => do
    match ← step with
    | some a => return a :: (← upTo step count)
    | none => return []

/-- Repeats a step that takes characters until it gives nothing. -/
def many (step : Reader (Option α)) : Reader (List α) := do upTo step ((← get).rest.length + 1)

/-- Takes a character if it passes a test, and the blanks after it. -/
def takeIf (p : Char → Bool) : Reader (Option Char) := do
  match ← current? with
  | some c =>
    if p c then
      let _ ← advance
      return some c
    else return none
  | none => return none

end Reader

end ZxSpectrum.Pattern
