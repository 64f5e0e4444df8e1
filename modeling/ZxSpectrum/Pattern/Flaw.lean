import ZxSpectrum.Pattern.Span

/-!
# Flaws of patterns

What is wrong with a text that is not a pattern, where, and the drawing that shows it.
-/

namespace ZxSpectrum.Pattern

/-- What is wrong. -/
inductive Fault where
  | bracketEscape | rangeOrder | rangeBound | bracketUnclosed
  | decimalInvalid
  | hexEmpty | hexInvalid | hexDigit
  | escapeIncomplete | escapeUnknown
  | flagDangling | flagTwice | flagNegatedTwice | flagMissing | flagUnknown
  | groupNameTwice | groupNameEmpty | groupNameInvalid | groupNameUnclosed | groupUnclosed | groupUnopened
  | tooDeep (limit : Nat)
  | countOrder | countEmpty | countUnclosed | countAlone
  | boundaryUnclosed | boundaryUnknown | boundaryIncomplete
  | propertyInvalid | backReference | lookAround
  | unicodeNotAllowed | invalidUtf8 | propertyUnknown | propertyValueUnknown | shorthandUnavailable | caseUnavailable
deriving DecidableEq, Repr

def Fault.message : Fault → String
  | .bracketEscape => "invalid escape sequence found in character class"
  | .rangeOrder => "invalid character class range, the start must be <= the end"
  | .rangeBound => "invalid range boundary, must be a literal"
  | .bracketUnclosed => "unclosed character class"
  | .decimalInvalid => "decimal literal invalid"
  | .hexEmpty => "hexadecimal literal empty"
  | .hexInvalid => "hexadecimal literal is not a Unicode scalar value"
  | .hexDigit => "invalid hexadecimal digit"
  | .escapeIncomplete => "incomplete escape sequence, reached end of pattern prematurely"
  | .escapeUnknown => "unrecognized escape sequence"
  | .flagDangling => "dangling flag negation operator"
  | .flagTwice => "duplicate flag"
  | .flagNegatedTwice => "flag negation operator repeated"
  | .flagMissing => "expected flag but got end of regex"
  | .flagUnknown => "unrecognized flag"
  | .groupNameTwice => "duplicate capture group name"
  | .groupNameEmpty => "empty capture group name"
  | .groupNameInvalid => "invalid capture group character"
  | .groupNameUnclosed => "unclosed capture group name"
  | .groupUnclosed => "unclosed group"
  | .groupUnopened => "unopened group"
  | .tooDeep limit => s!"exceed the maximum number of nested parentheses/brackets ({limit})"
  | .countOrder => "invalid repetition count range, the start must be <= the end"
  | .countEmpty => "repetition quantifier expects a valid decimal"
  | .countUnclosed => "unclosed counted repetition"
  | .countAlone => "repetition operator missing expression"
  | .boundaryUnclosed => "special word boundary assertion is either unclosed or contains an invalid character"
  | .boundaryUnknown =>
    "unrecognized special word boundary assertion, valid choices are: start, end, start-half or end-half"
  | .boundaryIncomplete =>
    "found either the beginning of a special word boundary or a bounded repetition on a \\b with an opening brace, " ++
      "but no closing brace"
  | .propertyInvalid => "invalid Unicode character class"
  | .backReference => "backreferences are not supported"
  | .lookAround => "look-around, including look-ahead and look-behind, is not supported"
  | .unicodeNotAllowed => "Unicode not allowed here"
  | .invalidUtf8 => "pattern can match invalid UTF-8"
  | .propertyUnknown => "Unicode property not found"
  | .propertyValueUnknown => "Unicode property value not found"
  | .shorthandUnavailable =>
    "Unicode-aware Perl class not found (make sure the unicode-perl feature is enabled)"
  | .caseUnavailable =>
    "Unicode-aware case insensitivity matching is not available (make sure the unicode-case feature is enabled)"

structure Flaw where
  fault : Fault
  span : Span
  /-- An earlier part that makes this one wrong. -/
  related : Option Span := none
deriving DecidableEq, Repr

namespace Flaw

/-- The lines of a text; a line end at the end of the text begins no new line. -/
def linesOf (text : String) : List String :=
  match (text.splitOn "\n").reverse with
  | [] => []
  | last :: ended =>
    let ended := ended.map fun line => if line.endsWith "\r" then (line.dropEnd 1).toString else line
    (if last = "" then ended else last :: ended).reverse

/-- A row of one character. -/
def row (count : Nat) (c : Char) : String := String.ofList (List.replicate count c)

/-- Carets below the parts of a line, one at least for each, from a column counted from zero on. -/
def carets : Nat → List Span → String
  | _, [] => ""
  | column, span :: spans =>
    let gap := span.start.column - 1 - column
    let width := max 1 (span.stop.column - span.start.column)
    row gap ' ' ++ row width '^' ++ carets (column + gap + width) spans

/-- The parts that a drawing marks, in order. -/
def marks (flaw : Flaw) : List Span := (flaw.span :: flaw.related.toList).mergeSort Span.notAfter

/-- The parts within one line. -/
def inLine (flaw : Flaw) (line : Nat) : List Span :=
  flaw.marks.filter fun span => span.start.line = line && span.stop.line = line

/-- A line of the pattern after its margin, and the carets below it. -/
def drawLine (flaw : Flaw) (number margin : Nat) (left line : String) : String :=
  let below := match flaw.inLine number with
    | [] => ""
    | spans => row margin ' ' ++ carets 0 spans ++ "\n"
  left ++ line ++ "\n" ++ below

/-- The places of a part that runs over several lines. -/
def placesOf (span : Span) : String :=
  s!"on line {span.start.line} (column {span.start.column}) through line {span.stop.line} " ++
    s!"(column {span.stop.column - 1})"

/-- The pattern with its flaw marked, its lines numbered if there are several, and what is wrong. -/
def text (flaw : Flaw) (pattern : String) : String :=
  let lines := linesOf pattern
  let count := lines.length + if pattern.endsWith "\n" then 1 else 0
  let drawn (margin : Nat) (left : Nat → String) : String :=
    String.join (lines.mapIdx fun i line => flaw.drawLine (i + 1) margin (left (i + 1)) line)
  let last := "error: " ++ flaw.fault.message
  if pattern.contains '\n' then
    let width := if count ≤ 1 then 0 else (toString count).length
    let number (n : Nat) : String := row (width - (toString n).length) ' ' ++ toString n ++ ": "
    let long := flaw.marks.filter fun span => span.start.line ≠ span.stop.line
    let places := if long.isEmpty then "" else "\n".intercalate (long.map placesOf) ++ "\n"
    let divider := row 79 '~' ++ "\n"
    "regex parse error:\n" ++ divider ++ drawn (width + 2) number ++ divider ++ places ++ last
  else "regex parse error:\n" ++ drawn 4 (fun _ => "    ") ++ last

end Flaw

end ZxSpectrum.Pattern
