import ZxSpectrum.Pattern.Reader.Escape

/-!
# Bracketed classes

Sets of characters between brackets: characters, ranges, classes with names, sets within sets, and operators between sets,
which bind from the left.
-/

namespace ZxSpectrum.Pattern.Reader

/-- The parts of a union that have been read, the last one first, and where they stand. -/
structure Items where
  span : Span
  items : List Bracket := []

namespace Items

def push (union : Items) (item : Bracket) : Items :=
  let start := if union.items.isEmpty then item.span.start else union.span.start
  ⟨⟨start, item.span.stop⟩, item :: union.items⟩

/-- A union of one part is that part. -/
def toBracket (union : Items) : Bracket :=
  match union.items with
  | [item] => item
  | items => .union union.span items.reverse

end Items

/-- The character at the cursor, as what it is. -/
def literalHere (c : Char) : Reader Bracket := return .literal ⟨c, (← get).span, false⟩

/-- What begins a bracketed class: its bracket, the sign that negates it and the characters that stand for themselves only
there. Gives the part read, whether the class is negated and the characters. -/
def readOpening : Reader (Span × Bool × Items) := do
  let start ← position
  unless ← advance do fail .bracketUnclosed (← since start)
  let negated := (← current?) = some '^'
  if negated then
    unless ← advance do fail .bracketUnclosed (← since start)
  let first ← position
  let dashes ← many do
    if (← current?) ≠ some '-' then return none
    let dash ← literalHere '-'
    unless ← advance do fail .bracketUnclosed (.point start)
    return some dash
  let union := dashes.foldl Items.push { span := .point first }
  if dashes.isEmpty && (← current?) = some ']' then
    let bracket ← literalHere ']'
    unless ← advance do fail .bracketUnclosed (← since start)
    return (← since start, negated, union.push bracket)
  return (← since start, negated, union)

/-- A class with a name between colons, if one comes next. -/
def readNamed? : Reader (Option Bracket) := do
  let start ← position
  let (sign, name) := match (← get).rest with
    | '[' :: ':' :: '^' :: rest => ("[:^", rest.takeWhile (· ≠ ':'))
    | '[' :: ':' :: rest => ("[:", rest.takeWhile (· ≠ ':'))
    | _ => ("", [])
  match NamedClass.ofName? (String.ofList name) with
  | some named =>
    if ← takeText? (sign ++ String.ofList name ++ ":]") then
      return some (.named (← since start) named (sign = "[:^"))
    return none
  | none => return none

/-- A character or an escape. -/
def readItem : Reader Node := do
  match ← current? with
  | some '\\' => readEscape
  | some c =>
    let span := (← get).span
    let _ ← take
    return .literal ⟨c, span, false⟩
  | none => return .empty (.point (← position))

/-- What an escape stands for between brackets. -/
def toBracket : Node → Reader Bracket
  | .literal literal => return .literal literal
  | .property span name => return .property span name
  | .shorthand span kind negated => return .shorthand span kind negated
  | node => fail .bracketEscape node.span

/-- An end of a range. -/
def toBound : Node → Reader Literal
  | .literal literal => return literal
  | node => fail .rangeBound node.span

/-- A range of characters, or what stands alone. `opening` is the beginning of the class. -/
def readRange (opening : Span) : Reader Bracket := do
  let first ← readItem
  modify Cursor.skipBlanks
  if (← current?).isNone then fail .bracketUnclosed opening
  let next := (← get).lookAhead?
  if (← current?) ≠ some '-' || next = some ']' || next = some '-' then toBracket first
  else
    unless ← advance do fail .bracketUnclosed opening
    let last ← readItem
    let low ← toBound first
    let high ← toBound last
    let span : Span := ⟨first.span.start, last.span.stop⟩
    if high.char < low.char then fail .rangeOrder span
    return .range span low high

/-- The operator that comes next, which is a character written twice. -/
def takeOperator? : Reader (Option SetOperator) := do
  if ← takeText? "&&" then return some .intersection
  else if ← takeText? "--" then return some .difference
  else if ← takeText? "~~" then return some .symmetricDifference
  else return none

/-- A set and what an operator before it takes. -/
def joined (left : Option (Bracket × SetOperator)) (right : Bracket) : Bracket :=
  match left with
  | some (left, operator) => .operation ⟨left.span.start, right.span.stop⟩ operator left right
  | none => right

/-- The rest of a bracketed class, up to its closing bracket, which is not taken. The first argument bounds the number of
parts. -/
def readRest : Nat → Span → Option (Bracket × SetOperator) → Items → Reader Bracket
  | 0, opening, _, _ => fail .bracketUnclosed opening
  | count + 1, opening, left, union => do
    modify Cursor.skipBlanks
    match ← current? with
    | none => fail .bracketUnclosed opening
    | some ']' => return joined left union.toBracket
    | some '[' =>
      match ← readNamed? with
      | some named => readRest count opening left (union.push named)
      | none =>
        let start ← position
        let (inner, negated, items) ← readOpening
        let content ← readRest count inner none items
        let _ ← take
        readRest count opening left (union.push (.nested (← since start) negated content))
    | some _ =>
      match ← takeOperator? with
      | some operator =>
        readRest count opening (some (joined left union.toBracket, operator)) { span := .point (← position) }
      | none => readRest count opening left (union.push (← readRange opening))

/-- A bracketed class. -/
def readBracketed : Reader Node := do
  let start ← position
  let count := (← get).rest.length
  let (opening, negated, items) ← readOpening
  let content ← readRest count opening none items
  let _ ← take
  return .bracketed (← since start) negated content

end ZxSpectrum.Pattern.Reader
