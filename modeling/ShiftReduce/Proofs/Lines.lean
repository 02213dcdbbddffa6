import ShiftReduce.Text.Split

/-!
# Words and lines of a written text

A word is a text that has no blank and is not empty (`Text.IsWord`).  Words that are
joined by spaces are read back as they were (`words_intercalate`), and so are lines
that are each ended by a line feed (`lines_join`).  A line feed between two texts parts
their lines (`lines_append`), and `length_lines` counts them.

A file ends its lines at line feeds, and a carriage return in front of a line feed
belongs to the end of the line.  `fileLines` takes both off.  The words of a line are
the same with the carriage return and without it (`words_withoutReturn`).
-/

namespace ShiftReduce.Text

/-! ## Words -/

/-- The text is one word. -/
def IsWord (text : String) : Prop := text ≠ "" ∧ ∀ c ∈ text.toList, isBlank c = false

instance : DecidablePred IsWord := fun text =>
  decidable_of_iff (text ≠ "" ∧ text.toList.all (fun c => !isBlank c) = true) (by simp [IsWord])

theorem isWord_singleton {c : Char} (h : isBlank c = false) : IsWord (String.singleton c) := by
  refine ⟨by simp, ?_⟩
  simpa using h

theorem IsWord.append {front back : String} (h : IsWord front) (h' : IsWord back) :
    IsWord (front ++ back) := by
  refine ⟨by simp [h.1], ?_⟩
  rw [String.toList_append, List.forall_mem_append]
  exact ⟨h.2, h'.2⟩

theorem isWord_of_mem_words {text word : String} (h : word ∈ words text) : IsWord word := by
  obtain ⟨run, hrun, rfl⟩ := List.mem_map.1 h
  obtain ⟨hne, hblank⟩ := of_mem_splitWords hrun
  refine ⟨fun he => hne ?_, by simpa using hblank⟩
  simpa using congrArg String.toList he

theorem splitWords_intercalate : ∀ {runs : List (List Char)},
    (∀ run ∈ runs, run ≠ [] ∧ ∀ c ∈ run, isBlank c = false) →
      splitWords ([' '].intercalate runs) = runs
  | [], _ => by simp
  | [run], h => by
      obtain ⟨hne, hblank⟩ := h run List.mem_cons_self
      simpa using splitWords_eq_singleton hne hblank
  | run :: next :: rest, h => by
      obtain ⟨hne, hblank⟩ := h run List.mem_cons_self
      have hsplit : [' '].intercalate (run :: next :: rest) =
          run ++ ' ' :: [' '].intercalate (next :: rest) := by
        simp
      rw [hsplit, splitWords_append_cons _ _ (by decide), splitWords_eq_singleton hne hblank,
        splitWords_intercalate fun run hm => h run (List.mem_cons_of_mem _ hm),
        List.singleton_append]

/-- Words that are joined by spaces are the words of the text. -/
theorem words_intercalate {list : List String} (h : ∀ word ∈ list, IsWord word) :
    words (" ".intercalate list) = list := by
  have hruns : ∀ run ∈ list.map String.toList, run ≠ [] ∧ ∀ c ∈ run, isBlank c = false := by
    intro run hm
    obtain ⟨word, hword, rfl⟩ := List.mem_map.1 hm
    obtain ⟨hne, hblank⟩ := h word hword
    exact ⟨by simpa using hne, hblank⟩
  rw [words, String.toList_intercalate]
  simp [splitWords_intercalate hruns]

/-! ## Lines -/

theorem eq_or_mem_of_mem_intercalate {α : Type} {a separator : α} : ∀ {runs : List (List α)},
    a ∈ [separator].intercalate runs → a = separator ∨ ∃ run ∈ runs, a ∈ run
  | [], h => by simp at h
  | [run], h => .inr ⟨run, List.mem_cons_self, by simpa using h⟩
  | run :: next :: rest, h => by
      rw [List.intercalate_cons_cons, List.mem_append, List.mem_append, List.mem_singleton] at h
      rcases h with (h | h) | h
      · exact .inr ⟨run, List.mem_cons_self, h⟩
      · exact .inl h
      · obtain h | ⟨run', hm, ha⟩ := eq_or_mem_of_mem_intercalate h
        · exact .inl h
        · exact .inr ⟨run', List.mem_cons_of_mem _ hm, ha⟩

/-- Words that are joined by spaces stay on one line. -/
theorem newline_notMem_intercalate {list : List String} (h : ∀ word ∈ list, IsWord word) :
    '\n' ∉ (" ".intercalate list).toList := by
  intro hm
  rw [String.toList_intercalate] at hm
  obtain hm | ⟨run, hrun, hm⟩ := eq_or_mem_of_mem_intercalate hm
  · exact absurd hm (by decide)
  · obtain ⟨word, hword, rfl⟩ := List.mem_map.1 hrun
    have hblank := (h word hword).2 '\n' hm
    revert hblank
    decide

theorem splitOn_line {line : List Char} (h : '\n' ∉ line) (rest : List Char) :
    (line ++ '\n' :: rest).splitOn '\n' = line :: rest.splitOn '\n' := by
  have hline : ∀ c ∈ line, (c == '\n') = false := by
    intro c hc
    exact beq_eq_false_iff_ne.2 fun he => h (he ▸ hc)
  have hcut := List.splitOnP_append_cons line rest (p := (· == '\n')) (beq_self_eq_true '\n')
  rw [List.splitOnP_eq_singleton hline] at hcut
  exact hcut

/-- Lines that are each ended by a line feed are the lines of the text, with an empty
one behind the last line feed. -/
theorem lines_join {list : List String} (h : ∀ line ∈ list, '\n' ∉ line.toList) :
    lines (String.join (list.map (· ++ "\n"))) = list ++ [""] := by
  have hsplit : ((String.join (list.map (· ++ "\n"))).toList).splitOn '\n' =
      list.map String.toList ++ [[]] := by
    induction list with
    | nil => simp
    | cons line rest ih =>
        rw [String.toList_join] at ih ⊢
        have hrest := ih fun line hm => h line (List.mem_cons_of_mem _ hm)
        have hcons := splitOn_line (h line List.mem_cons_self)
          ((rest.map (· ++ "\n")).flatMap String.toList)
        simpa [hrest] using hcons
  rw [lines, hsplit]
  simp

/-- A line feed between two texts parts their lines. -/
theorem lines_append (front back : String) :
    lines (front ++ "\n" ++ back) = lines front ++ lines back := by
  have hsplit : (front ++ "\n" ++ back).toList.splitOn '\n' =
      front.toList.splitOn '\n' ++ back.toList.splitOn '\n' := by
    have hcut := List.splitOnP_append_cons front.toList back.toList (p := (· == '\n'))
      (beq_self_eq_true '\n')
    simpa [List.splitOn] using hcut
  rw [lines, hsplit, List.map_append]
  rfl

/-- There is one line more than there are line feeds. -/
theorem length_lines (text : String) : (lines text).length = text.toList.count '\n' + 1 := by
  rw [lines, List.length_map]
  induction text.toList with
  | nil => rfl
  | cons c rest ih =>
      rw [List.splitOn, List.splitOnP_cons_eq_if_modifyHead, List.count_cons]
      split
      · rw [List.length_cons, ← List.splitOn, ih]
      · rw [List.length_modifyHead, ← List.splitOn, ih, Nat.add_zero]

/-! ## Lines of a file -/

/-- The line without a carriage return at its end. -/
def withoutReturn (line : String) : String :=
  if line.toList.getLast? = some '\r' then String.ofList line.toList.dropLast else line

/-- The lines of a file.  Each is ended by a line feed, and a carriage return right
before it is part of the end.  What follows the last line feed is a line only if there
is something. -/
def fileLines (text : String) : List String :=
  (lines text).dropLast.map withoutReturn ++
    (lines text).getLast?.toList.filter fun line => !line.isEmpty

/-- A carriage return at the end of a line is in none of its words. -/
theorem words_withoutReturn (line : String) : words (withoutReturn line) = words line := by
  unfold withoutReturn
  split
  · next h =>
      obtain ⟨front, hfront⟩ := List.getLast?_eq_some_iff.1 h
      have hblank := splitWords_append_cons front [] (c := '\r') (by decide)
      simp [words, hfront, hblank]
  · rfl

theorem lines_ne_nil (text : String) : lines text ≠ [] := by
  simp [lines, List.splitOn, List.splitOnP_ne_nil]

end ShiftReduce.Text
