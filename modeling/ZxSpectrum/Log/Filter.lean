import ZxSpectrum.Log
import ZxSpectrum.Pattern
import ZxSpectrum.Text.Blank
import ZxSpectrum.Text.Terminal

/-!
# Log filters

Which log records are shown. A filter is read from text such as `info` or `emu_spectrum::task=debug,warn`: a list of
directives with commas between them, each a level, a source or a source with its level. For a record the directive with
the longest matching source counts. After a slash there may be a pattern that takes a part of each shown record.
-/

namespace ZxSpectrum

/-- The least severe level that is shown of the sources whose names begin with `source`. -/
structure LogDirective where
  /-- A directive without a source is for all sources. -/
  source : Option String
  /-- Nothing is shown if there is none. -/
  level : Option LogLevel
deriving DecidableEq, Repr

namespace LogDirective

/-- Whether a directive is for a source. -/
def isFor (directive : LogDirective) (source : String) : Bool :=
  directive.source.all fun start => start.toList.isPrefixOf source.toList

/-- How much of a source a directive names. -/
def length (directive : LogDirective) : Nat := (directive.source.getD "").length

/-- Puts a directive in the place of an earlier one for the same source, or at the end. -/
def putInto : List LogDirective → LogDirective → List LogDirective
  | [], directive => [directive]
  | first :: rest, directive =>
    if first.source = directive.source then directive :: rest else first :: putInto rest directive

end LogDirective

structure LogFilter where
  directives : List LogDirective
  /-- What shown records must hold. -/
  pattern : Option Pattern := none
  /-- What is wrong with the text of the filter. -/
  warnings : List String := []

namespace LogFilter

/-- The level that a word names, in either case; `off` names none. -/
def level? (word : String) : Option (Option LogLevel) :=
  match word.toUpper with
  | "OFF" => some none
  | "ERROR" => some (some .error)
  | "WARN" => some (some .warn)
  | "INFO" => some (some .info)
  | "DEBUG" => some (some .debug)
  | "TRACE" => some (some .trace)
  | _ => none

/-- Reads a directive. A word that names no level is a source of which everything is shown. -/
def directive? (text : String) : Except String LogDirective :=
  match text.splitOn "=" with
  | [word] =>
    match level? word with
    | some level => .ok ⟨none, level⟩
    | none => .ok ⟨some word, some .trace⟩
  | [source, word] =>
    let word := Text.trimmed word
    if word = "" then .ok ⟨some source, some .trace⟩
    else
      match level? word with
      | some level => .ok ⟨some source, level⟩
      | none => .error s!"invalid logging spec '{word}'"
  | _ => .error s!"invalid logging spec '{text}'"

/-- Reads a list of directives; those that cannot be read are left out, with a warning. -/
def readDirectives (text : String) : List LogDirective × List String :=
  let words := ((text.splitOn ",").map Text.trimmed).filter (· ≠ "")
  words.foldl (fun (found, warnings) word =>
    match directive? word with
    | .ok directive => (LogDirective.putInto found directive, warnings)
    | .error warning => (found, warnings ++ [warning])) ([], [])

/-- Reads what shown records must hold; what is no pattern is left out, with a warning. -/
def readPattern (text : String) : Option Pattern × List String :=
  match Pattern.ofText text with
  | .ok pattern => (some pattern, [])
  | .error error => (none, ["invalid regex filter - " ++ error.message text])

/-- A filter; without any directive only errors are shown. -/
def ofParts (directives : List LogDirective) (pattern : Option Pattern) (warnings : List String) : LogFilter :=
  ⟨if directives.isEmpty then [⟨none, some .error⟩] else directives, pattern, warnings⟩

/-- Reads a filter. -/
def ofText (text : String) : LogFilter :=
  match text.splitOn "/" with
  | [list] =>
    let (directives, warnings) := readDirectives list
    ofParts directives none warnings
  | [list, pattern] =>
    let (directives, warnings) := readDirectives list
    let (pattern, more) := readPattern pattern
    ofParts directives pattern (warnings ++ more)
  | _ => ofParts [] none [s!"invalid logging spec '{text}' (too many '/'s)"]

/-- The directive that counts for a source: the longest one that matches, of equals the last. -/
def directiveFor? (filter : LogFilter) (source : String) : Option LogDirective :=
  (filter.directives.filter (·.isFor source)).foldl (fun best directive =>
    if best.all fun found => found.length ≤ directive.length then some directive else best) none

/-- Whether a record is shown. -/
def shows (filter : LogFilter) (record : LogRecord) : Bool :=
  match (filter.directiveFor? record.source.target).bind (·.level) with
  | some level => record.level.severity ≤ level.severity && filter.pattern.all (·.isIn record.text)
  | none => false

end LogFilter

namespace LogRecord

/-- A record before what steers a terminal is taken out: its level in five places, its source, its text. Further lines
of the text begin with four blanks. -/
def rawLine (record : LogRecord) : String :=
  let level := record.level.name
  let padding := String.ofList (List.replicate (5 - level.length) ' ')
  "[" ++ level ++ padding ++ " " ++ record.source.target ++ "] " ++ "\n    ".intercalate (record.text.splitOn "\n") ++
    "\n"

/-- A record as a line. -/
def line (record : LogRecord) : String := Terminal.plain record.rawLine

end LogRecord

end ZxSpectrum
