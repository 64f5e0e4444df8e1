import ZxSpectrum.Pattern.Match
import ZxSpectrum.Pattern.Reader.Sequence
import ZxSpectrum.Pattern.Size

/-!
# Patterns

Regular expressions, read by `Pattern.ofText` and looked for in texts by `Pattern.isIn`. A pattern is refused if it has a
flaw, if its automaton would be too large, or if it asks for the edges of words of Unicode, for which there is no table.
-/

namespace ZxSpectrum

/-- Why there is no pattern for a text. -/
inductive PatternError where
  | flawed (flaw : Pattern.Flaw)
  | tooLarge
  | noWords
deriving DecidableEq, Repr

/-- A regular expression. -/
structure Pattern where
  expr : Pattern.Expr

/-- The most bytes that the automaton of a pattern may take. -/
def Pattern.sizeLimit : Nat := 10 * Nat.pow 2 20

/-- What is wrong with the text of a pattern. -/
def PatternError.message (text : String) : PatternError → String
  | .flawed flaw => flaw.text text
  | .tooLarge => s!"Compiled regex exceeds size limit of {Pattern.sizeLimit} bytes."
  | .noWords => "error building NFA"

namespace Pattern

/-- Reads a pattern. -/
def ofText (text : String) : Except PatternError Pattern := do
  let node ← (Node.ofText text).mapError .flawed
  let expr ← node.toExpr.mapError .flawed
  if sizeLimit < expr.size false then .error .tooLarge
  else if expr.needsWords then .error .noWords
  else if sizeLimit < expr.size true then .error .tooLarge
  else .ok ⟨expr⟩

/-- Whether a text holds a part that a pattern takes. -/
def isIn (pattern : Pattern) (text : String) : Bool := pattern.expr.isIn text

end Pattern

end ZxSpectrum
