import ShiftReduce.Input
import ShiftReduce.Proofs.RoundTrip

/-!
# The symbols of a text

A text *consists* of symbols if they stand in it one behind the other, with blanks in
front, between and behind.  Two words that follow each other have at least one blank
between them, and two characters may have none.  `Input.Consists` says so without
cutting the text anywhere.

Every text consists of the symbols that are found in it, and of no others
(`Input.consists_iff`).  So reading loses no symbol, merges no two and invents none.  One
half goes along the relation, where each gap parts the symbols on its two sides
(`Input.symbols_parts`).  The other half puts the characters in front one by one
(`Input.exists_consists`).  A character that is no blank begins a symbol, unless a word
follows it at once.

An end-marker is *admitted* if some table file declares it, and these are the words
(`TableFile.admits_iff`).  An input with such an end-marker is a list of words, so it is
read again from its words with spaces between them.
-/

namespace ShiftReduce

open ShiftReduce.Text

/-! ## Gaps -/

namespace Text

/-- The text holds nothing but blanks. -/
def IsGap (text : String) : Prop := ∀ c ∈ text.toList, isBlank c = true

instance : DecidablePred IsGap := fun text =>
  decidable_of_iff (text.toList.all isBlank = true) (by simp [IsGap])

theorem isGap_empty : IsGap "" := by simp [IsGap]

theorem isGap_singleton {c : Char} (h : isBlank c = true) : IsGap (String.singleton c) := by
  simpa [IsGap] using h

theorem IsGap.append {front back : String} (h : IsGap front) (h' : IsGap back) :
    IsGap (front ++ back) := by
  rw [IsGap, String.toList_append, List.forall_mem_append]
  exact ⟨h, h'⟩

/-- Blanks at the front make no word. -/
theorem splitWords_gap_append : ∀ {gap : List Char}, (∀ c ∈ gap, isBlank c = true) →
    ∀ text, splitWords (gap ++ text) = splitWords text
  | [], _, _ => rfl
  | c :: gap, h, text => by
      rw [List.forall_mem_cons] at h
      rw [List.cons_append, splitWords_cons h.1, splitWords_gap_append h.2]

end Text

namespace Input

variable {mode : Mode} {text gap symbol endMarker : String} {list : List Symbol}

/-! ## What a text consists of -/

/-- What can be a symbol of a text.  It has no blank, and where the characters are the
symbols it is one of them. -/
structure Mode.IsSymbol (mode : Mode) (symbol : Symbol) : Prop where
  isWord : IsWord symbol
  single : mode = .characters → symbol.length = 1

/-- What can stand between two symbols. -/
structure Mode.Parts (mode : Mode) (gap : String) : Prop where
  blank : IsGap gap
  notEmpty : mode = .words → gap ≠ ""

/-- The text begins with the first of the symbols, and the others follow it.  Each two are
parted, and there may be blanks behind the last one. -/
inductive Consecutive (mode : Mode) : String → List Symbol → Prop where
  | last {symbol gap : String} (isSymbol : mode.IsSymbol symbol) (blank : IsGap gap) :
      Consecutive mode (symbol ++ gap) [symbol]
  | more {symbol gap rest : String} {others : List Symbol} (isSymbol : mode.IsSymbol symbol)
      (parts : mode.Parts gap) (consecutive : Consecutive mode rest others) :
      Consecutive mode (symbol ++ gap ++ rest) (symbol :: others)

/-- The text consists of the symbols in this order, and of blanks. -/
inductive Consists (mode : Mode) : String → List Symbol → Prop where
  | nothing {gap : String} (blank : IsGap gap) : Consists mode gap []
  | behind {gap rest : String} {list : List Symbol} (blank : IsGap gap)
      (consecutive : Consecutive mode rest list) : Consists mode (gap ++ rest) list

/-! ## The symbols that are found -/

@[simp] theorem symbols_empty : symbols mode "" = [] := by
  cases mode with
  | words => simp [symbols, words]
  | characters => simp [symbols]

theorem symbols_gap_append (h : IsGap gap) (text : String) :
    symbols mode (gap ++ text) = symbols mode text := by
  cases mode with
  | words => rw [symbols, words, String.toList_append, splitWords_gap_append h, symbols, words]
  | characters =>
      have hnone : gap.toList.filter (fun c => !isBlank c) = [] :=
        List.filter_eq_nil_iff.2 fun c hc => by simp [h c hc]
      rw [symbols, String.toList_append, List.filter_append, hnone, List.nil_append, symbols]

/-- What parts two symbols parts the symbols on its two sides. -/
theorem symbols_parts (h : mode.Parts gap) (front back : String) :
    symbols mode (front ++ gap ++ back) = symbols mode front ++ symbols mode back := by
  cases mode with
  | words =>
      obtain ⟨c, rest, hgap⟩ : ∃ c rest, gap.toList = c :: rest :=
        List.exists_cons_of_ne_nil fun he => h.notEmpty rfl (String.toList_eq_nil_iff.1 he)
      have hblank := h.blank
      rw [IsGap, hgap, List.forall_mem_cons] at hblank
      have hsplit : splitWords (front ++ gap ++ back).toList =
          splitWords front.toList ++ splitWords back.toList := by
        rw [String.toList_append, String.toList_append, hgap, List.append_assoc,
          List.cons_append, splitWords_append_cons _ _ hblank.1, splitWords_gap_append hblank.2]
      rw [symbols, words, hsplit, List.map_append]
      rfl
  | characters =>
      have hback : symbols .characters (gap ++ back) = symbols .characters back :=
        symbols_gap_append h.blank back
      rw [String.append_assoc, symbols, String.toList_append, List.filter_append, List.map_append,
        ← symbols, ← symbols, hback]

theorem symbols_append_gap (h : IsGap gap) (text : String) :
    symbols mode (text ++ gap) = symbols mode text := by
  by_cases he : gap = ""
  · rw [he, String.append_empty]
  · have hparts : mode.Parts gap := ⟨h, fun _ => he⟩
    have hboth := symbols_parts hparts text ""
    rwa [String.append_empty, symbols_empty, List.append_nil] at hboth

theorem symbols_of_isSymbol (h : mode.IsSymbol symbol) : symbols mode symbol = [symbol] := by
  obtain ⟨hne, hblank⟩ := h.isWord
  cases mode with
  | words =>
      have hsplit := splitWords_eq_singleton (fun he => hne (String.toList_eq_nil_iff.1 he)) hblank
      rw [symbols, words, hsplit, List.map_singleton, String.ofList_toList]
  | characters =>
      obtain ⟨c, hc⟩ := List.length_eq_one_iff.1 (String.length_toList.trans (h.single rfl))
      have hsymbol : symbol = String.singleton c := String.toList_inj.1 (by simpa using hc)
      rw [hc, List.forall_mem_singleton] at hblank
      rw [symbols, hc, List.filter_singleton, hblank, hsymbol]
      rfl

/-! ## The symbols are found -/

theorem Consecutive.symbols_eq (h : Consecutive mode text list) : symbols mode text = list := by
  induction h with
  | last isSymbol blank => rw [symbols_append_gap blank, symbols_of_isSymbol isSymbol]
  | more isSymbol parts _ ih =>
      rw [symbols_parts parts, symbols_of_isSymbol isSymbol, ih, List.singleton_append]

theorem Consists.symbols_eq (h : Consists mode text list) : symbols mode text = list := by
  cases h with
  | nothing blank => rw [← String.append_empty (s := text), symbols_gap_append blank, symbols_empty]
  | behind blank consecutive => rw [symbols_gap_append blank, consecutive.symbols_eq]

/-! ## The found symbols make up the text -/

theorem isSymbol_singleton {c : Char} (hc : isBlank c = false) :
    mode.IsSymbol (String.singleton c) where
  isWord := isWord_singleton hc
  single _ := by simp

/-- A character in front of a word belongs to it. -/
theorem Consecutive.cons {c : Char} (h : Consecutive .words text list) (hc : isBlank c = false) :
    ∃ list, Consecutive .words (String.singleton c ++ text) list := by
  have hcons {word : String} (hword : Mode.words.IsSymbol word) :
      Mode.words.IsSymbol (String.singleton c ++ word) :=
    ⟨(isWord_singleton hc).append hword.isWord, fun he => by cases he⟩
  cases h with
  | last isSymbol blank =>
      rw [← String.append_assoc]
      exact ⟨_, .last (hcons isSymbol) blank⟩
  | more isSymbol parts consecutive =>
      rw [← String.append_assoc, ← String.append_assoc]
      exact ⟨_, .more (hcons isSymbol) parts consecutive⟩

theorem Consists.cons_blank {c : Char} (h : Consists mode text list) (hc : isBlank c = true) :
    Consists mode (String.singleton c ++ text) list := by
  cases h with
  | nothing blank => exact .nothing ((isGap_singleton hc).append blank)
  | behind blank consecutive =>
      rw [← String.append_assoc]
      exact .behind ((isGap_singleton hc).append blank) consecutive

/-- A character that is no blank begins a symbol of its own, unless a word follows it at
once. -/
theorem Consists.cons {c : Char} (h : Consists mode text list) (hc : isBlank c = false) :
    ∃ list, Consists mode (String.singleton c ++ text) list := by
  have hfront {text : String} {list : List Symbol} (h : Consecutive mode text list) :
      Consists mode text list := by
    have hbehind := Consists.behind isGap_empty h
    rwa [String.empty_append] at hbehind
  cases h with
  | nothing blank => exact ⟨_, hfront (.last (isSymbol_singleton hc) blank)⟩
  | @behind gap rest _ blank consecutive =>
      by_cases hparts : mode.Parts gap
      · rw [← String.append_assoc]
        exact ⟨_, hfront (.more (isSymbol_singleton hc) hparts consecutive)⟩
      · -- the character stands right before a word, so it is part of it
        obtain ⟨rfl, rfl⟩ : mode = .words ∧ gap = "" := by
          by_contra hnot
          exact hparts ⟨blank, fun hmode he => hnot ⟨hmode, he⟩⟩
        rw [String.empty_append]
        obtain ⟨list, hlist⟩ := consecutive.cons hc
        exact ⟨list, hfront hlist⟩

theorem exists_consists (mode : Mode) : ∀ text : List Char,
    ∃ list, Consists mode (String.ofList text) list
  | [] => ⟨[], .nothing isGap_empty⟩
  | c :: text => by
      obtain ⟨list, h⟩ := exists_consists mode text
      rw [String.ofList_cons]
      cases hc : isBlank c with
      | true => exact ⟨list, h.cons_blank hc⟩
      | false => exact h.cons hc

/-- A text consists of the symbols that are found in it, and of no others. -/
theorem consists_iff : Consists mode text list ↔ symbols mode text = list := by
  refine ⟨Consists.symbols_eq, ?_⟩
  rintro rfl
  obtain ⟨list, h⟩ := exists_consists mode text.toList
  rw [String.ofList_toList] at h
  rwa [h.symbols_eq]

/-! ## Inputs -/

theorem Consecutive.isSymbol (h : Consecutive mode text list) :
    ∀ symbol ∈ list, mode.IsSymbol symbol := by
  induction h with
  | last isSymbol _ => rwa [List.forall_mem_singleton]
  | more isSymbol _ _ ih => exact List.forall_mem_cons.2 ⟨isSymbol, ih⟩

theorem Consists.isSymbol (h : Consists mode text list) :
    ∀ symbol ∈ list, mode.IsSymbol symbol := by
  cases h with
  | nothing => exact List.forall_mem_nil _
  | behind _ consecutive => exact consecutive.isSymbol

/-- Every symbol of an input that was read is one word. -/
theorem isWord_of_mem_read (h : IsWord endMarker) (hm : symbol ∈ read mode endMarker text) :
    IsWord symbol := by
  have hsymbols : ∀ symbol ∈ symbols mode text, IsWord symbol := fun symbol hm =>
    ((consists_iff.2 rfl).isSymbol symbol hm).isWord
  unfold read terminate at hm
  split at hm
  · exact hsymbols symbol hm
  · rcases List.mem_append.1 hm with hm | hm
    · exact hsymbols symbol hm
    · exact List.mem_singleton.1 hm ▸ h

/-- An input is read again from its symbols with spaces between them. -/
theorem read_intercalate_read (h : IsWord endMarker) :
    read .words endMarker (" ".intercalate (read mode endMarker text)) =
      read mode endMarker text := by
  have hwords : symbols .words (" ".intercalate (read mode endMarker text)) =
      read mode endMarker text :=
    words_intercalate fun symbol hm => isWord_of_mem_read h hm
  rw [read, hwords, terminate, if_pos (getLast?_read ..)]

end Input

/-! ## End-markers that are admitted -/

/-- Some table file declares tables with the end-marker. -/
def TableFile.Admits (endMarker : Symbol) : Prop :=
  ∃ file tables, TableFile.read file = .ok tables ∧ tables.endMarker = endMarker

theorem TableFile.admits_iff {endMarker : Symbol} : Admits endMarker ↔ IsWord endMarker := by
  constructor
  · rintro ⟨file, tables, hread, rfl⟩
    exact (Tables.writable_of_read hread).endMarker
  · intro h
    have hwritable : Tables.Writable { Tables.empty with endMarker } :=
      { Tables.writable_empty with endMarker := h }
    exact ⟨_, _, hwritable.read_fileText, rfl⟩

namespace Input

/-- Every text consists of one list of symbols, and its input is this list, with the
end-marker added unless it is last.  Where the characters are the symbols, they are those
that are no blanks.  The input is read again from its symbols with spaces between them, if
the end-marker is one that a table file can declare. -/
theorem read_exact :
    (∀ mode text, ∃! list, Consists mode text list) ∧
    (∀ mode text list, Consists mode text list → ∀ endMarker,
      read mode endMarker text =
        if list.getLast? = some endMarker then list else list ++ [endMarker]) ∧
    (∀ text list, Consists .characters text list ↔
      list = (text.toList.filter fun c => !isBlank c).map String.singleton) ∧
    (∀ endMarker, TableFile.Admits endMarker ↔ IsWord endMarker) ∧
    ∀ mode text endMarker, TableFile.Admits endMarker →
      read .words endMarker (" ".intercalate (read mode endMarker text)) =
        read mode endMarker text := by
  refine ⟨fun mode text => ?_, fun mode text list h endMarker => ?_, fun text list => ?_,
    fun endMarker => TableFile.admits_iff, fun mode text endMarker h => ?_⟩
  · exact ⟨symbols mode text, consists_iff.2 rfl, fun list h => h.symbols_eq.symm⟩
  · rw [read, h.symbols_eq, terminate]
  · exact consists_iff.trans eq_comm
  · exact read_intercalate_read (TableFile.admits_iff.1 h)

/-- Two words between wide blanks, and an end-marker of more than one character that is
the last word but not the last character. -/
theorem read_exact_wideBlanks :
    let text := "\u3000ab\u00A0\n$$ "
    Consists .words text ["ab", "$$"] ∧ read .words "$$" text = ["ab", "$$"] ∧
      Consists .characters text ["a", "b", "$", "$"] ∧
      read .characters "$$" text = ["a", "b", "$", "$", "$$"] ∧ TableFile.Admits "$$" ∧
      read .words "$$" (" ".intercalate (read .characters "$$" text)) =
        read .characters "$$" text := by
  intro text
  have hlast : Consecutive .words "$$ " ["$$"] :=
    @Consecutive.last .words "$$" " " ⟨by decide, by decide⟩ (by decide)
  have hboth : Consecutive .words "ab\u00A0\n$$ " ["ab", "$$"] :=
    @Consecutive.more .words "ab" "\u00A0\n" _ _ ⟨by decide, by decide⟩ ⟨by decide, by decide⟩
      hlast
  have hwords : Consists .words text ["ab", "$$"] :=
    @Consists.behind .words "\u3000" _ _ (by decide) hboth
  have hcharacters : Consists .characters text ["a", "b", "$", "$"] :=
    (read_exact.2.2.1 text _).2 (by decide)
  have hadmits : TableFile.Admits "$$" := ⟨"eof $$", { endMarker := "$$" }, rfl, rfl⟩
  refine ⟨hwords, read_exact.2.1 _ _ _ hwords "$$", hcharacters,
    read_exact.2.1 _ _ _ hcharacters "$$", hadmits, ?_⟩
  exact read_exact.2.2.2.2 .characters text "$$" hadmits

end Input

end ShiftReduce
