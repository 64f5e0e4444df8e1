import ZxSpectrum.Decimal.Digits
import ZxSpectrum.Pattern.Reader.Bracket
import ZxSpectrum.Text.Letter

/-!
# Sequences, groups and repetitions

The reader of whole patterns, `Node.ofText`.
-/

namespace ZxSpectrum.Pattern

namespace Reader

/-! ## Repetitions -/

/-- The part that a repetition repeats, and what stands before it. -/
def operand : List Node → Reader (Node × List Node)
  | [] | .empty _ :: _ | .flags .. :: _ => do fail .countAlone (.point (← position))
  | node :: before => return (node, before)

/-- Repeats a part as often as given, after a mark that asks for few repetitions rather than many. -/
def repeated (node : Node) (least : Nat) (most : Option Nat) : Reader Node := do
  if (← current?) = some '?' then
    let _ ← take
  return .repetition ⟨node.span.start, ← position⟩ node least most

/-- A repetition by one character. -/
def readMark (node : Node) (least : Nat) (most : Option Nat) : Reader Node := do
  let _ ← take
  repeated node least most

/-- A decimal number with blanks around it. A missing or large number is a flaw only where it is needed. -/
def readDecimal : Reader (Except Flaw Nat) := do
  let blank := do
    if (← current?).any Text.isBlank then
      let _ ← take
      return some ()
    return none
  let _ ← many blank
  let start ← position
  let digits ← many (takeIf Digits.isDigit)
  let span ← since start
  let _ ← many (takeIf Text.isBlank)
  let n := Digits.value digits
  return if digits.isEmpty then .error ⟨.countEmpty, span, none⟩
    else if n < Nat.pow 2 32 then .ok n
    else .error ⟨.decimalInvalid, span, none⟩

/-- The least and the greatest number of repetitions, before the closing brace. -/
def readBounds (start : Position) : Reader (Nat × Option Nat) := do
  let unclosed {α : Type} : Reader α := do fail .countUnclosed (← since start)
  unless ← advance do unclosed
  let first ← readDecimal
  match ← current? with
  | none => unclosed
  | some ',' =>
    unless ← advance do unclosed
    if (← current?) = some '\x7d' then return (← first, none)
    let least ← first
    let most ← (← readDecimal)
    return (least, some most)
  | some _ =>
    let count ← first
    return (count, some count)

/-- A repetition with its number between braces. -/
def readCounted (node : Node) : Reader Node := do
  let start ← position
  let (least, most) ← readBounds start
  unless (← current?) = some '\x7d' do fail .countUnclosed (← since start)
  let _ ← advance
  let node ← repeated node least most
  if most.any (· < least) then fail .countOrder (← since start)
  return node

/-! ## Groups -/

/-- Whether a character may stand in the name of a group. -/
def isNamePart (isFirst : Bool) (c : Char) : Bool :=
  c = '_' || Text.isLetter c || (!isFirst && (Text.isNumber c || c = '.' || c = '[' || c = ']'))

/-- The name of a group, up to its closing bracket. -/
def readName : Reader Unit := do
  let start ← position
  let name ← many do
    match ← current? with
    | none | some '>' => return none
    | some c =>
      unless isNamePart ((← position) = start) c do fail .groupNameInvalid (← get).span
      let _ ← take
      return some c
  let span ← since start
  if (← current?).isNone then fail .groupNameUnclosed (.point (← position))
  let _ ← take
  let name := String.ofList name
  if name = "" then fail .groupNameEmpty (.point start)
  match (← get).names.lookup name with
  | some original => throw ⟨.groupNameTwice, span, some original⟩
  | none => modify fun cursor => { cursor with names := (name, span) :: cursor.names }

/-- The flag at the cursor; the sign that negates the flags after it gives none. -/
def flagHere (c : Char) : Reader (Option Flag) := do
  if c = '-' then return none
  match Flag.ofChar? c with
  | some flag => return some flag
  | none => fail .flagUnknown (← get).span

/-- Flags and signs up to a colon or a closing bracket, the last one first, after those that have been read. The second
argument bounds their number. -/
def readMarks (seen : List (Option Flag × Span)) : Nat → Reader (List (Option Flag × Span))
  | 0 => return seen
  | count + 1 => do
    match ← current? with
    | none | some ':' | some ')' => return seen
    | some c =>
      let flag ← flagHere c
      let span := (← get).span
      if let some original := seen.lookup flag then
        throw ⟨if flag.isNone then .flagNegatedTwice else .flagTwice, span, some original⟩
      unless ← take do fail .flagMissing (.point (← position))
      readMarks ((flag, span) :: seen) count

/-- What flags and signs change. -/
def changesOf (isOn : Bool) : List (Option Flag) → FlagChanges
  | [] => []
  | none :: marks => changesOf false marks
  | some flag :: marks => (flag, isOn) :: changesOf isOn marks

/-- Flags and signs up to a colon or a closing bracket. -/
def readFlags : Reader FlagChanges := do
  let marks ← readMarks [] (← get).rest.length
  if let (none, span) :: _ := marks then fail .flagDangling span
  return changesOf true (marks.reverse.map (·.1))

/-- What an opening bracket begins. -/
inductive Opening where
  /-- A group; its part is the bracket. -/
  | group (span : Span) (changes : FlagChanges) (captures : Bool)
  /-- A change of flags for the rest of the group around it. -/
  | flags (span : Span) (changes : FlagChanges)

/-- What an opening bracket begins, up to the content of the group. -/
def readGroupStart : Reader Opening := do
  let span := (← get).span
  let _ ← advance
  for mark in ["?=", "?!", "?<=", "?<!"] do
    if ← takeText? mark then fail .lookAround (← since span.start)
  let mark ← position
  let named ← if ← takeText? "?P<" then pure true else takeText? "?<"
  if named then
    readName
    return .group span [] true
  else if ← takeText? "?" then
    if (← current?).isNone then fail .groupUnclosed span
    let changes ← readFlags
    let isDirective := (← current?) = some ')'
    let _ ← take
    if !isDirective then return .group span changes false
    else if changes.isEmpty then fail .countAlone (.point mark)
    else return .flags (← since span.start) changes
  else return .group span [] true

/-- Whether the form is verbose after a change of flags. -/
def setVerbose (changes : FlagChanges) : Reader Unit :=
  modify fun cursor => { cursor with verbose := (changes.lookup .verbose).getD cursor.verbose }

/-! ## Sequences and alternations -/

/-- An alternation that is being read, the last parts first. -/
structure Branches where
  /-- Where the first branch begins. -/
  start : Position
  branches : List Node := []
  /-- Where the last branch begins. -/
  branchStart : Position
  items : List Node := []

namespace Branches

/-- The last branch, which ends at a position. -/
def lastBranch (content : Branches) (stop : Position) : Node :=
  match content.items with
  | [] => .empty ⟨content.branchStart, stop⟩
  | [item] => item
  | items => .sequence ⟨content.branchStart, stop⟩ items.reverse

/-- All branches, the last of which ends at a position. -/
def toNode (content : Branches) (stop : Position) : Node :=
  match content.branches with
  | [] => content.lastBranch stop
  | branches => .alternation ⟨content.start, stop⟩ (content.lastBranch stop :: branches).reverse

end Branches

/-- One part that is neither a group nor a repetition. -/
def readSingle (c : Char) : Reader Node := do
  let span := (← get).span
  let one (node : Node) : Reader Node := do
    let _ ← take
    return node
  match c with
  | '\\' => readEscape
  | '[' => readBracketed
  | '.' => one (.dot span)
  | '^' => one (.assertion span .startLine)
  | '$' => one (.assertion span .endLine)
  | c => one (.literal ⟨c, span, false⟩)

/-- The repetition that a character asks for. -/
def readRepetition? (node : Node) : Char → Option (Reader Node)
  | '?' => some (readMark node 0 (some 1))
  | '*' => some (readMark node 0 none)
  | '+' => some (readMark node 1 none)
  | '\x7b' => some (readCounted node)
  | _ => none

/-- Whether a character asks for a repetition. -/
def isRepetition (c : Char) : Bool := c = '?' || c = '*' || c = '+' || c = '\x7b'

/-- The rest of a group up to its closing bracket, which is not taken, or of the pattern if there is no group. The first
argument bounds the number of parts. -/
def readContent : Nat → Option Span → Branches → Reader Node
  | 0, _, content => return content.toNode (← position)
  | count + 1, group, content => do
    modify Cursor.skipBlanks
    let here ← position
    let push (node : Node) : Branches := { content with items := node :: content.items }
    match ← current? with
    | none =>
      if let some span := group then fail .groupUnclosed span
      return content.toNode here
    | some ')' =>
      if group.isNone then fail .groupUnopened (← get).span
      return content.toNode here
    | some '|' =>
      let _ ← take
      readContent count group
        ⟨content.start, content.lastBranch here :: content.branches, ← position, []⟩
    | some '(' =>
      match ← readGroupStart with
      | .flags span changes =>
        setVerbose changes
        readContent count group (push (.flags span changes))
      | .group span changes captures =>
        let verbose := (← get).verbose
        setVerbose changes
        let start ← position
        let inner ← readContent count (some span) { start := start, branchStart := start }
        modify fun cursor => { cursor with verbose := verbose }
        let _ ← take
        readContent count group (push (.group ⟨here, ← position⟩ changes captures inner))
    | some c =>
      if isRepetition c then
        let (node, before) ← operand content.items
        let node ← (readRepetition? node c).getD (pure node)
        readContent count group { content with items := node :: before }
      else
        let node ← readSingle c
        readContent count group (push node)

end Reader

/-- The most levels that parts may lie within one another. -/
def levelLimit : Nat := 250

/-- Reads a pattern. -/
def Node.ofText (text : String) : Except Flaw Node := do
  let chars := text.toList
  let (node, _) ← (Reader.readContent (chars.length + 1) none { start := {}, branchStart := {} }).run { rest := chars }
  match node.tooDeep? levelLimit with
  | some span => .error ⟨.tooDeep levelLimit, span, none⟩
  | none => .ok node

end ZxSpectrum.Pattern
