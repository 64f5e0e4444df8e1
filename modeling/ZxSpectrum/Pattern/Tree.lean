import ZxSpectrum.Pattern.Flaw

/-!
# Patterns as trees

What a pattern says, part by part, before anything is known about the characters that it takes. `Node.tooDeep?` finds the
first part that lies deeper than a limit.
-/

namespace ZxSpectrum.Pattern

/-- What may be switched on and off within a pattern. -/
inductive Flag where
  | ignoreCase | multiLine | dotAll | swapGreed | crlf | unicode | verbose
deriving DecidableEq, Repr

namespace Flag

/-- The flag that a letter names. -/
def ofChar? : Char → Option Flag
  | 'i' => some .ignoreCase
  | 'm' => some .multiLine
  | 's' => some .dotAll
  | 'U' => some .swapGreed
  | 'R' => some .crlf
  | 'u' => some .unicode
  | 'x' => some .verbose
  | _ => none

end Flag

/-- Flags and whether they are switched on. -/
abbrev FlagChanges := List (Flag × Bool)

/-- A character that stands for itself. -/
structure Literal where
  char : Char
  span : Span
  /-- Whether it is written as a byte, by two hexadecimal digits. -/
  isByte : Bool := false
deriving DecidableEq, Repr

/-- The kinds of words' edges. -/
inductive WordEdge where
  | boundary | noBoundary | start | stop | startHalf | stopHalf
deriving DecidableEq, Repr

/-- What may be asked of a place between two characters. -/
inductive Assertion where
  | startLine | endLine | startText | endText
  | word (edge : WordEdge)
deriving DecidableEq, Repr

/-- The classes that a letter after a backslash names. -/
inductive Shorthand where
  | digit | space | word
deriving DecidableEq, Repr

/-- The classes with names between colons. -/
inductive NamedClass where
  | alnum | alpha | ascii | blank | cntrl | digit | graph | lower | print | punct | space | upper | word | xdigit
deriving DecidableEq, Repr

def NamedClass.ofName? : String → Option NamedClass
  | "alnum" => some .alnum
  | "alpha" => some .alpha
  | "ascii" => some .ascii
  | "blank" => some .blank
  | "cntrl" => some .cntrl
  | "digit" => some .digit
  | "graph" => some .graph
  | "lower" => some .lower
  | "print" => some .print
  | "punct" => some .punct
  | "space" => some .space
  | "upper" => some .upper
  | "word" => some .word
  | "xdigit" => some .xdigit
  | _ => none

/-- How two sets of characters are put together. -/
inductive SetOperator where
  | intersection | difference | symmetricDifference
deriving DecidableEq, Repr

/-- What stands between brackets. -/
inductive Bracket where
  | literal (literal : Literal)
  | range (span : Span) (first last : Literal)
  | named (span : Span) (name : NamedClass) (negated : Bool)
  | property (span : Span) (name : String)
  | shorthand (span : Span) (kind : Shorthand) (negated : Bool)
  | nested (span : Span) (negated : Bool) (content : Bracket)
  | union (span : Span) (items : List Bracket)
  | operation (span : Span) (operator : SetOperator) (left right : Bracket)

def Bracket.span : Bracket → Span
  | .literal one => one.span
  | .range span .. | .named span .. | .property span .. | .shorthand span .. | .nested span .. | .union span ..
  | .operation span .. => span

/-- A part of a pattern. -/
inductive Node where
  | empty (span : Span)
  | flags (span : Span) (changes : FlagChanges)
  | literal (literal : Literal)
  | dot (span : Span)
  | assertion (span : Span) (assertion : Assertion)
  | property (span : Span) (name : String)
  | shorthand (span : Span) (kind : Shorthand) (negated : Bool)
  | bracketed (span : Span) (negated : Bool) (content : Bracket)
  /-- Some number of times, or no fewer than that if there is no most. -/
  | repetition (span : Span) (node : Node) (least : Nat) (most : Option Nat)
  /-- A group that captures, or changes flags within it. -/
  | group (span : Span) (changes : FlagChanges) (captures : Bool) (node : Node)
  | alternation (span : Span) (branches : List Node)
  | sequence (span : Span) (items : List Node)

def Node.span : Node → Span
  | .literal one => one.span
  | .empty span | .flags span _ | .dot span | .assertion span _ | .property span _ | .shorthand span ..
  | .bracketed span .. | .repetition span .. | .group span .. | .alternation span _ | .sequence span _ => span

/-- A part that has parts of its own needs a level. -/
def needsLevel (levels : Nat) (span : Span) (inside : Nat → Option Span) : Option Span :=
  match levels with
  | 0 => some span
  | levels + 1 => inside levels

mutual

/-- The first part of what stands between brackets that has no level left. -/
def Bracket.tooDeep? : Bracket → Nat → Option Span
  | .nested span _ content, levels => needsLevel levels span content.tooDeep?
  | .union span items, levels => if items.isEmpty then none else needsLevel levels span (anyTooDeep? items)
  | .operation span _ left right, levels =>
    needsLevel levels span fun levels => (left.tooDeep? levels).or (right.tooDeep? levels)
  | .literal _, _ | .range .., _ | .named .., _ | .property .., _ | .shorthand .., _ => none

/-- The first of some parts between brackets that has no level left. -/
def anyTooDeep? : List Bracket → Nat → Option Span
  | [], _ => none
  | item :: items, levels => (item.tooDeep? levels).or (anyTooDeep? items levels)

end

mutual

/-- The first part of a pattern that has no level left. -/
def Node.tooDeep? : Node → Nat → Option Span
  | .bracketed span _ content, levels => needsLevel levels span content.tooDeep?
  | .repetition span node .., levels => needsLevel levels span node.tooDeep?
  | .group span _ _ node, levels => needsLevel levels span node.tooDeep?
  | .alternation span branches, levels => needsLevel levels span (anyNodeTooDeep? branches)
  | .sequence span items, levels => needsLevel levels span (anyNodeTooDeep? items)
  | .empty _, _ | .flags .., _ | .literal _, _ | .dot _, _ | .assertion .., _ | .property .., _ | .shorthand .., _ =>
    none

/-- The first of some parts that has no level left. -/
def anyNodeTooDeep? : List Node → Nat → Option Span
  | [], _ => none
  | node :: nodes, levels => (node.tooDeep? levels).or (anyNodeTooDeep? nodes levels)

end

end ZxSpectrum.Pattern
