/-!
# Blanks

A *blank* is a character with the Unicode property `White_Space`.  Blanks part
the fields of a line and the words of an input, and nothing else does.  In
particular the zero-width space, the byte order mark and the separators
`U+001C` to `U+001F` are not blanks.
-/

namespace ShiftReduce.Text

/-- The ranges of the property `White_Space`, both ends included. -/
def blankRanges : List (Char × Char) :=
  [('\u0009', '\u000D'), ('\u0020', '\u0020'), ('\u0085', '\u0085'), ('\u00A0', '\u00A0'),
   ('\u1680', '\u1680'), ('\u2000', '\u200A'), ('\u2028', '\u2029'), ('\u202F', '\u202F'),
   ('\u205F', '\u205F'), ('\u3000', '\u3000')]

/-- Whether a character is a blank. -/
def isBlank (c : Char) : Bool :=
  blankRanges.any fun range => decide (range.1 ≤ c) && decide (c ≤ range.2)

/-- A text without the blanks around it. -/
def trim (text : List Char) : List Char :=
  ((text.dropWhile isBlank).reverse.dropWhile isBlank).reverse

/-- A blank in front does not matter. -/
theorem trim_cons {c : Char} (h : isBlank c = true) (text : List Char) :
    trim (c :: text) = trim text := by
  simp [trim, h]

/-- The five ASCII blanks that the core library knows are blanks. -/
theorem isBlank_of_isWhitespace {c : Char} (h : c.isWhitespace = true) : isBlank c = true := by
  simp only [Char.isWhitespace, Bool.or_eq_true, decide_eq_true_eq] at h
  rcases h with ((rfl | rfl) | rfl) | rfl <;> decide

/-- The property holds of twenty-five characters. -/
example : (blankRanges.map fun range => range.2.toNat + 1 - range.1.toNat).sum = 25 := by decide

example : isBlank '\u000B' = true ∧ isBlank '\u3000' = true := by decide

example : isBlank '\u001F' = false ∧ isBlank '\u200B' = false ∧ isBlank '\uFEFF' = false := by
  decide

end ShiftReduce.Text
