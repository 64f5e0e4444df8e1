import ZxSpectrum.Hex
import ZxSpectrum.Pattern.Reader

/-!
# Escapes

What a backslash and the characters after it say: characters that are hard to write, classes of characters, edges of words
and of the text.
-/

namespace ZxSpectrum.Pattern.Reader

/-- Whether a character has a meaning of its own in patterns. -/
def isMeta (c : Char) : Bool := "\\.+*?()|[]\x7b\x7d^$#&-~".toList.contains c

/-- Whether a backslash before a character leaves the character itself. -/
def isEscapable (c : Char) : Bool := isMeta c || (c.toNat < 0x80 && !c.isAlphanum && c ≠ '<' && c ≠ '>')

/-- The character that hexadecimal digits write. -/
def hexChar? (digits : List Nat) : Option Char :=
  let n := digits.foldl (fun n digit => 16 * n + digit) 0
  if n.isValidChar then some (Char.ofNat n) else none

/-- The hexadecimal digit at the cursor, which stays there. -/
def hexDigit : Reader Nat := do
  match (← current?).bind Hex.digitValue? with
  | some digit => return digit
  | none => fail .hexDigit (← get).span

/-- Some number of hexadecimal digits. -/
def readHexDigits (start : Position) (count : Nat) : Reader Literal := do
  let first ← position
  let digits ← (List.range count).mapM fun i => do
    if i ≠ 0 then
      unless ← advance do fail .escapeIncomplete (.point (← position))
    hexDigit
  let _ ← advance
  match hexChar? digits with
  | some c => return ⟨c, ← since start, count = 2⟩
  | none => fail .hexInvalid (← since first)

/-- Hexadecimal digits between braces. -/
def readHexBraces (start : Position) : Reader Literal := do
  let brace ← position
  let first := (← get).span.stop
  let digits ← many do
    if !(← advance) || (← current?) = some '\x7d' then return none
    return some (← hexDigit)
  if (← current?).isNone then fail .escapeIncomplete (← since brace)
  let stop ← position
  let _ ← advance
  if digits.isEmpty then fail .hexEmpty (← since brace)
  match hexChar? digits with
  | some c => return ⟨c, ← since start, false⟩
  | none => fail .hexInvalid ⟨first, stop⟩

/-- A character by its number: so many digits, or any number of them between braces. -/
def readHex (start : Position) (count : Nat) : Reader Node := do
  unless ← advance do fail .escapeIncomplete (.point (← position))
  return .literal (← if (← current?) = some '\x7b' then readHexBraces start else readHexDigits start count)

/-- A property of characters: one letter, or a name between braces. -/
def readProperty (start : Position) : Reader Node := do
  unless ← advance do fail .escapeIncomplete (.point (← position))
  match ← current? with
  | some '\x7b' =>
    let name ← many do
      if !(← advance) || (← current?) = some '\x7d' then return none
      current?
    if (← current?).isNone then fail .escapeIncomplete (.point (← position))
    let _ ← take
    return .property (← since start) (String.ofList name)
  | c =>
    if c = some '\\' then fail .propertyInvalid (← get).span
    let _ ← advance
    return .property (← since start) (String.ofList c.toList)

/-- The name of a word's edge between braces, if the brace does not begin a number of repetitions. -/
def readEdge? (start : Position) : Reader (Option WordEdge) := do
  let isNamePart (c : Char) : Bool := c.isAlpha || c = '-'
  let before ← get
  unless ← advance do fail .boundaryIncomplete (← since start)
  let first ← position
  unless (← current?).any isNamePart do
    set before
    return none
  let name ← many (takeIf isNamePart)
  unless (← current?) = some '\x7d' do fail .boundaryUnclosed (← since before.position)
  let stop ← position
  let _ ← take
  match String.ofList name with
  | "start" => return some .start
  | "end" => return some .stop
  | "start-half" => return some .startHalf
  | "end-half" => return some .stopHalf
  | _ => fail .boundaryUnknown ⟨first, stop⟩

/-- The edge of a word, which may be told more closely between braces. -/
def readBoundary (start : Position) : Reader Node := do
  let span ← since start
  if (← current?) = some '\x7b' then
    if let some edge ← readEdge? start then
      return .assertion (← since start) (.word edge)
  return .assertion span (.word .boundary)

/-- The shorthand that a letter names; capitals name what is not in it. -/
def shorthand? : Char → Option (Shorthand × Bool)
  | 'd' => some (.digit, false)
  | 'D' => some (.digit, true)
  | 's' => some (.space, false)
  | 'S' => some (.space, true)
  | 'w' => some (.word, false)
  | 'W' => some (.word, true)
  | _ => none

/-- The control character that a letter names. -/
def control? : Char → Option Char
  | 'a' => some '\x07'
  | 'f' => some '\x0c'
  | 't' => some '\t'
  | 'n' => some '\n'
  | 'r' => some '\r'
  | 'v' => some '\x0b'
  | _ => none

/-- The assertion that a character names. -/
def assertion? : Char → Option Assertion
  | 'A' => some .startText
  | 'z' => some .endText
  | 'B' => some (.word .noBoundary)
  | '<' => some (.word .start)
  | '>' => some (.word .stop)
  | _ => none

/-- An escape that is one character after the backslash. -/
def readLetter (start : Position) (c : Char) : Reader Node := do
  let _ ← take
  let span ← since start
  if c = 'b' then readBoundary start
  else if isEscapable c then return .literal ⟨c, span, false⟩
  else if let some (kind, negated) := shorthand? c then return .shorthand span kind negated
  else if let some control := control? c then return .literal ⟨control, span, false⟩
  else if let some assertion := assertion? c then return .assertion span assertion
  else fail .escapeUnknown span

/-- An escape, from its backslash on. -/
def readEscape : Reader Node := do
  let start ← position
  let _ ← take
  match ← current? with
  | none => fail .escapeIncomplete (← since start)
  | some 'x' => readHex start 2
  | some 'u' => readHex start 4
  | some 'U' => readHex start 8
  | some 'p' | some 'P' => readProperty start
  | some c => if c.isDigit then fail .backReference ⟨start, (← get).span.stop⟩ else readLetter start c

end ZxSpectrum.Pattern.Reader
