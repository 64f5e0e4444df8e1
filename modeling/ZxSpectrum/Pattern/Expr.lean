import ZxSpectrum.Pattern.CharSet
import ZxSpectrum.Pattern.Tree

/-!
# Expressions

What a pattern takes, in terms of sets of characters and of places between characters. `Node.toExpr` gives the expression
of a tree: it follows the flags and finds what cannot be taken.
-/

namespace ZxSpectrum.Pattern

/-- What is asked of a place by the characters next to it. -/
inductive Look where
  | startText | endText
  /-- Carriage returns end lines too if `crlf` holds, but not between themselves and a line feed. -/
  | startLine (crlf : Bool)
  | endLine (crlf : Bool)
  /-- Words consist of ASCII characters if `unicode` does not hold. -/
  | word (edge : WordEdge) (unicode : Bool)
deriving DecidableEq, Repr

inductive Expr where
  | empty
  | set (chars : CharSet)
  | look (look : Look)
  | seq (first second : Expr)
  | either (first second : Expr)
  | captured (inner : Expr)
  /-- Some number of times, without a limit if there is no most. -/
  | loop (inner : Expr) (least : Nat) (most : Option Nat)

namespace Expr

/-- Whether an expression takes no character. -/
def takesNothing : Expr → Bool
  | .empty | .look _ => true
  | .set _ => false
  | .seq a b | .either a b => a.takesNothing && b.takesNothing
  | .captured inner | .loop inner .. => inner.takesNothing

/-- One expression after another. -/
def andThen : Expr → Expr → Expr
  | .empty, b => b
  | a, .empty => a
  | a, b => .seq a b

/-- One of two expressions. Two sets are one. -/
def orElse : Expr → Expr → Expr
  | .set s, .set t => .set (s.union t)
  | a, b => .either a b

/-- An expression some number of times. Where it takes nothing, once is as good as more often. -/
def repeated (inner : Expr) (least : Nat) (most : Option Nat) : Expr :=
  let (least, most) :=
    if inner.takesNothing then (min least 1, some (min (most.getD 1) 1)) else (least, most)
  if most = some 0 then .empty
  else if least = 1 ∧ most = some 1 then inner
  else .loop inner least most

/-- Whether an expression asks for an edge of words of Unicode. -/
def needsWords : Expr → Bool
  | .look (.word _ unicode) => unicode
  | .empty | .set _ | .look _ => false
  | .seq a b | .either a b => a.needsWords || b.needsWords
  | .captured inner | .loop inner .. => inner.needsWords

end Expr

/-- The flags at a place of a pattern, without those that do not change what it takes. -/
structure Mode where
  ignoreCase : Bool := false
  multiLine : Bool := false
  dotAll : Bool := false
  crlf : Bool := false
  unicode : Bool := true

namespace Mode

def change (mode : Mode) : Flag × Bool → Mode
  | (.ignoreCase, isOn) => { mode with ignoreCase := isOn }
  | (.multiLine, isOn) => { mode with multiLine := isOn }
  | (.dotAll, isOn) => { mode with dotAll := isOn }
  | (.crlf, isOn) => { mode with crlf := isOn }
  | (.unicode, isOn) => { mode with unicode := isOn }
  | (.swapGreed, _) | (.verbose, _) => mode

/-- A set in both cases if case does not count. There is no table of the cases of all characters. -/
def folded (mode : Mode) (span : Span) (s : CharSet) : Except Flaw CharSet :=
  if !mode.ignoreCase || s.isEmpty then .ok s
  else if mode.unicode then .error ⟨.caseUnavailable, span, none⟩
  else .ok s.bothCases

/-- A set or what is not in it. Without Unicode, bytes from 0x80 on would not be in it, which are no characters. -/
def negatedIf (mode : Mode) (span : Span) (negated : Bool) (s : CharSet) : Except Flaw CharSet :=
  let s := if negated then s.complement (if mode.unicode then CharSet.top else 0xff) else s
  if !mode.unicode && !s.isAscii then .error ⟨.invalidUtf8, span, none⟩ else .ok s

/-- A class in both cases if case does not count, negated if asked for. -/
def classOf (mode : Mode) (span : Span) (negated : Bool) (s : CharSet) : Except Flaw CharSet := do
  mode.negatedIf span negated (← mode.folded span s)

/-- Without Unicode a character written as a byte has to be an ASCII character. -/
def checkByte (mode : Mode) (literal : Literal) : Except Flaw Unit :=
  if !mode.unicode && literal.isByte && 0x80 ≤ literal.char.toNat then .error ⟨.invalidUtf8, literal.span, none⟩
  else .ok ()

/-- A character between brackets. Without Unicode it has to be an ASCII character. -/
def bound (mode : Mode) (literal : Literal) : Except Flaw Nat := do
  mode.checkByte literal
  if !mode.unicode && 0x80 ≤ literal.char.toNat then .error ⟨.unicodeNotAllowed, literal.span, none⟩
  else .ok literal.char.toNat

/-- The flaw of a property: there is no table of properties, and for three names none of categories and scripts. -/
def propertyFlaw (mode : Mode) (span : Span) (name : String) : Flaw :=
  let isPrefixed := "is".toList.isPrefixOf ((name.toList.take 2).map Char.toLower)
  let letters := ((name.toList.drop (if isPrefixed then 2 else 0)).filter fun c =>
    c.toNat < 0x80 && c ≠ ' ' && c ≠ '_' && c ≠ '-').map Char.toLower
  let isCategory := ["cf", "sc", "lc"].contains (String.ofList letters)
  ⟨if !mode.unicode then .unicodeNotAllowed else if isCategory then .propertyValueUnknown else .propertyUnknown, span,
    none⟩

end Mode

/-- The ASCII characters of a class with a name. -/
def NamedClass.ranges : NamedClass → List (Nat × Nat)
  | .alnum => [(0x30, 0x39), (0x41, 0x5a), (0x61, 0x7a)]
  | .alpha => [(0x41, 0x5a), (0x61, 0x7a)]
  | .ascii => [(0x00, 0x7f)]
  | .blank => [(0x09, 0x09), (0x20, 0x20)]
  | .cntrl => [(0x00, 0x1f), (0x7f, 0x7f)]
  | .digit => [(0x30, 0x39)]
  | .graph => [(0x21, 0x7e)]
  | .lower => [(0x61, 0x7a)]
  | .print => [(0x20, 0x7e)]
  | .punct => [(0x21, 0x2f), (0x3a, 0x40), (0x5b, 0x60), (0x7b, 0x7e)]
  | .space => [(0x09, 0x0d), (0x20, 0x20)]
  | .upper => [(0x41, 0x5a)]
  | .word => [(0x30, 0x39), (0x41, 0x5a), (0x5f, 0x5f), (0x61, 0x7a)]
  | .xdigit => [(0x30, 0x39), (0x41, 0x46), (0x61, 0x66)]

/-- The class of ASCII characters that a shorthand stands for. -/
def Shorthand.named : Shorthand → NamedClass
  | .digit => .digit
  | .space => .space
  | .word => .word

/-- The characters of a shorthand. There is no table for those of Unicode. -/
def Mode.shorthand (mode : Mode) (span : Span) (kind : Shorthand) (negated : Bool) : Except Flaw CharSet :=
  if mode.unicode then .error ⟨.shorthandUnavailable, span, none⟩
  else mode.negatedIf span negated ⟨kind.named.ranges⟩

def SetOperator.apply : SetOperator → CharSet → CharSet → CharSet
  | .intersection => CharSet.inter
  | .difference => CharSet.diff
  | .symmetricDifference => CharSet.symmDiff

mutual

/-- The characters of what stands between brackets. -/
def Bracket.toSet (mode : Mode) : Bracket → Except Flaw CharSet
  | .literal literal => do
    let n ← mode.bound literal
    return ⟨[(n, n)]⟩
  | .range _ first last => do
    let low ← mode.bound first
    let high ← mode.bound last
    return ⟨[(low, high)]⟩
  | .named span name negated => mode.classOf span negated ⟨name.ranges⟩
  | .property span name => .error (mode.propertyFlaw span name)
  | .shorthand span kind negated => mode.shorthand span kind negated
  | .nested span negated content => do mode.classOf span negated (← content.toSet mode)
  | .union _ items => unionOf mode items
  | .operation _ operator left right => do
    let s ← left.toSet mode
    let t ← right.toSet mode
    let t ← mode.folded right.span t
    let s ← mode.folded left.span s
    return operator.apply s t

/-- The characters of several parts between brackets. -/
def unionOf (mode : Mode) : List Bracket → Except Flaw CharSet
  | [] => .ok .empty
  | item :: items => do
    let s ← item.toSet mode
    return s.union (← unionOf mode items)

end

/-- The place that an assertion asks for. -/
def Mode.look (mode : Mode) : Assertion → Look
  | .startLine => if mode.multiLine then .startLine mode.crlf else .startText
  | .endLine => if mode.multiLine then .endLine mode.crlf else .endText
  | .startText => .startText
  | .endText => .endText
  | .word edge => .word edge mode.unicode

/-- The characters that a dot stands for. -/
def Mode.dot (mode : Mode) (span : Span) : Except Flaw CharSet :=
  if !mode.unicode then .error ⟨.invalidUtf8, span, none⟩
  else .ok ((if mode.dotAll then CharSet.empty
    else if mode.crlf then .ofRanges [(0x0a, 0x0a), (0x0d, 0x0d)]
    else .singleton '\n').complement CharSet.top)

/-- Follows the flags through a pattern. -/
abbrev Elaboration : Type → Type := StateT Mode (Except Flaw)

mutual

/-- The expression of a part of a pattern. -/
def Node.elaborate : Node → Elaboration Expr
  | .empty _ => return .empty
  | .flags _ changes => do
    modify fun mode => changes.foldl Mode.change mode
    return .empty
  | .literal literal => do
    let mode ← get
    mode.checkByte literal
    return .set (← mode.folded literal.span (.singleton literal.char))
  | .dot span => do return .set (← (← get).dot span)
  | .assertion _ assertion => do return .look ((← get).look assertion)
  | .property span name => do throw ((← get).propertyFlaw span name)
  | .shorthand span kind negated => do return .set (← (← get).shorthand span kind negated)
  | .bracketed span negated content => do
    let mode ← get
    return .set (← mode.classOf span negated (← content.toSet mode))
  | .repetition _ node least most => do return (← node.elaborate).repeated least most
  | .group _ changes captures node => do
    let mode ← get
    set (changes.foldl Mode.change mode)
    let inner ← node.elaborate
    set mode
    return if captures then .captured inner else inner
  | .alternation _ branches => do return (← elaborateBranches branches).getD .empty
  | .sequence _ items => elaborateItems items

/-- The expression of parts that follow each other. -/
def elaborateItems : List Node → Elaboration Expr
  | [] => return .empty
  | item :: items => do
    let first ← item.elaborate
    return first.andThen (← elaborateItems items)

/-- The expression of parts of which one is taken. -/
def elaborateBranches : List Node → Elaboration (Option Expr)
  | [] => return none
  | branch :: branches => do
    let first ← branch.elaborate
    match ← elaborateBranches branches with
    | some others => return some (first.orElse others)
    | none => return some first

end

/-- The expression of a pattern. -/
def Node.toExpr (node : Node) : Except Flaw Expr := do
  let (expr, _) ← node.elaborate.run {}
  return expr

end ZxSpectrum.Pattern
