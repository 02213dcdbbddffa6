import ShiftReduce.Text.Blank

/-!
# Lines and words

A text is cut into lines at its line feeds, and into *words* at its blanks.  A
word is a maximal run of characters that are not blanks, so it is never empty.

A carriage return before a line feed stays with its line.  It is a blank, so it
is in no word of the line.

`splitWords_append_cons` says that a blank parts the words on its two sides.
`splitWords_eq_singleton` says that a text without a blank is its own word.
Together they determine the words of every text, and `of_mem_splitWords` says
what a word is.
-/

namespace ShiftReduce.Text

/-! ## Lists of characters -/

/-- The maximal runs of characters that are not blanks, in order. -/
def splitWords (text : List Char) : List (List Char) :=
  (text.splitOnP isBlank).filter fun run => !run.isEmpty

@[simp] theorem splitWords_nil : splitWords [] = [] := by simp [splitWords]

/-- A blank parts the words before it from the words after it. -/
theorem splitWords_append_cons (before after : List Char) {c : Char} (h : isBlank c = true) :
    splitWords (before ++ c :: after) = splitWords before ++ splitWords after := by
  simp [splitWords, List.splitOnP_append_cons _ _ h]

/-- A blank at the front makes no word. -/
theorem splitWords_cons {c : Char} (h : isBlank c = true) (text : List Char) :
    splitWords (c :: text) = splitWords text := by
  simpa using splitWords_append_cons [] text h

/-- Characters that are not blanks, at least one of them, are one word. -/
theorem splitWords_eq_singleton {run : List Char} (hne : run ≠ [])
    (h : ∀ c ∈ run, isBlank c = false) : splitWords run = [run] := by
  simp [splitWords, List.splitOnP_eq_singleton h, hne]

/-- No piece of a list cut at its `p` elements holds one of them. -/
theorem not_of_mem_splitOnP {α : Type} {p : α → Bool} :
    ∀ {l piece : List α}, piece ∈ l.splitOnP p → ∀ a ∈ piece, p a = false
  | [], piece, h, a, ha => by
    rw [List.splitOnP_nil, List.mem_singleton] at h
    subst h; cases ha
  | x :: xs, piece, h, a, ha => by
    rw [List.splitOnP_cons_eq_if_modifyHead] at h
    split at h
    · rcases List.mem_cons.1 h with rfl | h
      · cases ha
      · exact not_of_mem_splitOnP h a ha
    · next hx =>
      obtain ⟨first, others, hs⟩ := List.exists_cons_of_ne_nil (List.splitOnP_ne_nil p xs)
      rw [hs, List.modifyHead_cons] at h
      rcases List.mem_cons.1 h with rfl | h
      · rcases List.mem_cons.1 ha with rfl | ha
        · simpa using hx
        · exact not_of_mem_splitOnP (hs ▸ List.mem_cons_self) a ha
      · exact not_of_mem_splitOnP (hs ▸ List.mem_cons_of_mem _ h) a ha

/-- A word is not empty and holds no blank. -/
theorem of_mem_splitWords {text run : List Char} (h : run ∈ splitWords text) :
    run ≠ [] ∧ ∀ c ∈ run, isBlank c = false := by
  obtain ⟨hmem, hne⟩ := List.mem_filter.1 h
  exact ⟨by simpa using hne, not_of_mem_splitOnP hmem⟩

/-! ## Texts -/

/-- The words of a text: its maximal runs of characters that are not blanks. -/
def words (text : String) : List String := (splitWords text.toList).map String.ofList

/-- The lines of a text, cut at every line feed.  There is one line more than
there are line feeds, and the last one may be empty. -/
def lines (text : String) : List String := (text.toList.splitOn '\n').map String.ofList

example : words " id  +\tid\n" = ["id", "+", "id"] := by decide

example : words "\u3000" = [] := by decide

example : lines "a b\n\nc" = ["a b", "", "c"] := by decide

end ShiftReduce.Text
