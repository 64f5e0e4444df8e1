import ZxSpectrum.Decimal.Digits
import ZxSpectrum.Hex

/-!
# JSON text

A total reader for JSON. It keeps of a number only whether it is a natural number written without sign, fraction and
exponent, and of a string only its text, which a string with an unpaired surrogate does not have.
-/

namespace ZxSpectrum

/-- A JSON value. -/
inductive JsonValue where
  | null
  | bool (value : Bool)
  | natural (value : Nat)
  /-- A number that is negative or written with a sign, a fraction or an exponent. -/
  | otherNumber
  | string (text : Option String)
  | array (items : List JsonValue)
  | object (members : List (Option String × JsonValue))

namespace JsonValue

/-- A reader takes characters from the front and leaves the rest. -/
abbrev Reader (α : Type) := List Char → Option (α × List Char)

def isBlank (c : Char) : Bool := c == ' ' || c == '\n' || c == '\t' || c == '\r'

def skipBlanks (cs : List Char) : List Char := cs.dropWhile isBlank

/-- What follows the given character. -/
def after? (c : Char) : List Char → Option (List Char)
  | d :: rest => if c = d then some rest else none
  | [] => none

/-- One digit or more. -/
def readDigits : Reader (List Char) := fun cs =>
  match cs.takeWhile Digits.isDigit with
  | [] => none
  | digits => some (digits, cs.dropWhile Digits.isDigit)

/-- An integer part: zero, or digits that do not begin with zero. -/
def readInteger : Reader Nat
  | '0' :: rest => some (0, rest)
  | cs => (readDigits cs).map fun (digits, rest) => (Digits.value digits, rest)

/-- A fraction, if there is one; says whether there was. -/
def readFraction : Reader Bool
  | '.' :: rest => (readDigits rest).map fun (_, rest) => (true, rest)
  | cs => some (false, cs)

/-- An exponent, if there is one; says whether there was. -/
def readExponent : Reader Bool
  | c :: rest =>
    if c = 'e' ∨ c = 'E' then
      let digits := match rest with
        | '+' :: digits | '-' :: digits => digits
        | digits => digits
      (readDigits digits).map fun (_, rest) => (true, rest)
    else some (false, c :: rest)
  | [] => some (false, [])

def readNumber : Reader JsonValue := fun cs => do
  let (negative, cs) := match cs with
    | '-' :: rest => (true, rest)
    | _ => (false, cs)
  let (value, cs) ← readInteger cs
  let (fraction, cs) ← readFraction cs
  let (exponent, cs) ← readExponent cs
  pure (if negative || fraction || exponent then .otherNumber else .natural value, cs)

/-- The character that an escape of one letter stands for. -/
def escaped? : Char → Option Char
  | '"' => some '"'
  | '\\' => some '\\'
  | '/' => some '/'
  | 'b' => some '\x08'
  | 'f' => some '\x0c'
  | 'n' => some '\n'
  | 'r' => some '\r'
  | 't' => some '\t'
  | _ => none

/-- The number that four hexadecimal digits write. -/
def readHex4 : Reader Nat
  | a :: b :: c :: d :: rest => do
    let a ← Hex.digitValue? a
    let b ← Hex.digitValue? b
    let c ← Hex.digitValue? c
    let d ← Hex.digitValue? d
    pure (a * 4096 + b * 256 + c * 16 + d, rest)
  | _ => none

/-- The rest of a string after its opening quote, as code points; surrogates are not paired yet. -/
def readCodes : Nat → Reader (List Nat)
  | 0, _ => none
  | _ + 1, [] => none
  | _ + 1, '"' :: rest => some ([], rest)
  | fuel + 1, '\\' :: 'u' :: rest => do
    let (code, rest) ← readHex4 rest
    let (codes, rest) ← readCodes fuel rest
    pure (code :: codes, rest)
  | fuel + 1, '\\' :: c :: rest => do
    let c ← escaped? c
    let (codes, rest) ← readCodes fuel rest
    pure (c.toNat :: codes, rest)
  | fuel + 1, c :: rest =>
    if c.toNat < 32 ∨ c = '\\' then none
    else do
      let (codes, rest) ← readCodes fuel rest
      pure (c.toNat :: codes, rest)

def isHighSurrogate (code : Nat) : Bool := 0xD800 ≤ code && code < 0xDC00

def isLowSurrogate (code : Nat) : Bool := 0xDC00 ≤ code && code < 0xE000

/-- The text of code points; a surrogate without a partner has none. -/
def textOfCodes? : List Nat → Option (List Char)
  | high :: low :: rest =>
    if isHighSurrogate high then
      if isLowSurrogate low then
        (textOfCodes? rest).map (Char.ofNat (0x10000 + (high - 0xD800) * 1024 + (low - 0xDC00)) :: ·)
      else none
    else if isLowSurrogate high then none
    else (textOfCodes? (low :: rest)).map (Char.ofNat high :: ·)
  | [code] => if isHighSurrogate code || isLowSurrogate code then none else some [Char.ofNat code]
  | [] => some []

/-- A string after its opening quote. -/
def readText : Reader (Option String) := fun cs =>
  (readCodes (cs.length + 1) cs).map fun (codes, rest) => ((textOfCodes? codes).map String.ofList, rest)

/-- The characters of a word, if they come next. -/
def readWord (word : String) (value : JsonValue) : Reader JsonValue := fun cs =>
  let letters := word.toList
  if cs.take letters.length = letters then some (value, cs.drop letters.length) else none

mutual

/-- A value after blanks. Each character is read by at most two calls that take one from the fuel. -/
def readValue : Nat → Reader JsonValue
  | 0, _ => none
  | fuel + 1, cs =>
    match skipBlanks cs with
    | 'n' :: rest => readWord "ull" .null rest
    | 't' :: rest => readWord "rue" (.bool true) rest
    | 'f' :: rest => readWord "alse" (.bool false) rest
    | '"' :: rest => (readText rest).map fun (text, rest) => (.string text, rest)
    | '[' :: rest =>
      match skipBlanks rest with
      | ']' :: rest => some (.array [], rest)
      | rest => (readItems fuel rest).map fun (items, rest) => (.array items, rest)
    | '{' :: rest =>
      match skipBlanks rest with
      | '}' :: rest => some (.object [], rest)
      | rest => (readMembers fuel rest).map fun (members, rest) => (.object members, rest)
    | rest => readNumber rest

/-- The items of an array, at least one, and its closing bracket. -/
def readItems : Nat → Reader (List JsonValue)
  | 0, _ => none
  | fuel + 1, cs => do
    let (item, cs) ← readValue fuel cs
    match skipBlanks cs with
    | ',' :: cs =>
      let (items, cs) ← readItems fuel cs
      pure (item :: items, cs)
    | ']' :: cs => pure ([item], cs)
    | _ => none

/-- The members of an object, at least one, and its closing brace. -/
def readMembers : Nat → Reader (List (Option String × JsonValue))
  | 0, _ => none
  | fuel + 1, cs => do
    let cs ← after? '"' (skipBlanks cs)
    let (key, cs) ← readText cs
    let cs ← after? ':' (skipBlanks cs)
    let (value, cs) ← readValue fuel cs
    match skipBlanks cs with
    | ',' :: cs =>
      let (members, cs) ← readMembers fuel cs
      pure ((key, value) :: members, cs)
    | '}' :: cs => pure ([(key, value)], cs)
    | _ => none

end

/-- The value that a whole text writes. -/
def parse (text : String) : Option JsonValue :=
  let cs := text.toList
  match readValue (2 * cs.length + 2) cs with
  | some (value, rest) => if (skipBlanks rest).isEmpty then some value else none
  | none => none

/-- The value of the one member with the given name. -/
def member? (members : List (Option String × JsonValue)) (name : String) : Option JsonValue :=
  match members.filter fun (key, _) => key = some name with
  | [(_, value)] => some value
  | _ => none

/-- The values of a record with the given fields: an object that has each of them once, whatever else it has, or an array
of just these values in order. -/
def record? (names : List String) : JsonValue → Option (List JsonValue)
  | .array items => if items.length = names.length then some items else none
  | .object members => if members.all fun (key, _) => key.isSome then names.mapM (member? members) else none
  | _ => none

/-- A natural number below a bound. -/
def below? (bound : Nat) : JsonValue → Option Nat
  | .natural value => if value < bound then some value else none
  | _ => none

def byte? (json : JsonValue) : Option UInt8 := (below? 256 json).map UInt8.ofNat

def word? (json : JsonValue) : Option UInt16 := (below? 65536 json).map UInt16.ofNat

def bool? : JsonValue → Option Bool
  | .bool value => some value
  | _ => none

end JsonValue

end ZxSpectrum
