/-!
# Blanks

The white space of Unicode, and texts without it at their ends.
-/

namespace ZxSpectrum.Text

/-- The code points of white space, as ranges. -/
def blankRanges : List (Nat × Nat) :=
  [(0x09, 0x0d), (0x20, 0x20), (0x85, 0x85), (0xa0, 0xa0), (0x1680, 0x1680), (0x2000, 0x200a), (0x2028, 0x2029),
    (0x202f, 0x202f), (0x205f, 0x205f), (0x3000, 0x3000)]

/-- Whether a code point lies in one of some ranges. -/
def inRanges (ranges : List (Nat × Nat)) (n : Nat) : Bool := ranges.any fun range => range.1 ≤ n && n ≤ range.2

/-- Whether a character is white space. -/
def isBlank (c : Char) : Bool := inRanges blankRanges c.toNat

/-- A text without the blanks around it. -/
def trimmed (text : String) : String :=
  let dropBlanks (l : List Char) : List Char := l.dropWhile isBlank
  String.ofList (dropBlanks (dropBlanks text.toList).reverse).reverse

theorem isBlank_of_isWhitespace {c : Char} (h : c.isWhitespace = true) : isBlank c = true := by
  simp only [Char.isWhitespace, Bool.or_eq_true, decide_eq_true_eq] at h
  rcases h with ((rfl | rfl) | rfl) | rfl <;> decide

example : trimmed "\u00a0 a b\u2003\x0b" = "a b" := by decide +kernel

end ZxSpectrum.Text
