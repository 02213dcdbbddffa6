import ShiftReduce.Proofs.Format

/-!
# Writing tables and loading them again

The text of tables is loaded without a fault if the tables are *writable*.  Each of
their symbols is one word then, whatever it starts with, and each length fits into
32 bits.  What is loaded are the tables that were written, in the order of their
listing (`TableFile.fileText_roundTrip`).

Tables that were loaded from any text are writable.

The proof goes over the declarations that the tables are written as.  The words of a
declaration have the shape that declares it (`Declaration.Writable.declares`), and the
declarations of tables build them again (`Tables.declareAll_declarations`).
-/

namespace ShiftReduce

open ShiftReduce.Text

/-! ## What can be written -/

/-- Symbols that are words, or a length that fits into 32 bits. -/
def RightHandSide.Writable : RightHandSide → Prop
  | .symbols list => ∀ symbol ∈ list, IsWord symbol
  | .length count => count < UInt32.size

instance : DecidablePred RightHandSide.Writable
  | .symbols list => inferInstanceAs (Decidable (∀ symbol ∈ list, IsWord symbol))
  | .length count => inferInstanceAs (Decidable (count < UInt32.size))

def Production.Writable (production : Production) : Prop :=
  IsWord production.lhs ∧ production.rhs.Writable

instance : DecidablePred Production.Writable := fun production =>
  inferInstanceAs (Decidable (IsWord production.lhs ∧ production.rhs.Writable))

def Declaration.Writable : Declaration → Prop
  | .endMarker terminal => IsWord terminal
  | .production _ rule => rule.Writable
  | .action _ terminal _ => IsWord terminal
  | .goto _ nonTerminal _ => IsWord nonTerminal

/-- Every symbol of the tables is a word, and every length fits into 32 bits. -/
structure Tables.Writable (tables : Tables) : Prop where
  endMarker : IsWord tables.endMarker
  actions : ∀ entry ∈ tables.actions.toList, IsWord entry.1.2
  gotos : ∀ entry ∈ tables.gotos.toList, IsWord entry.1.2
  productions : ∀ entry ∈ tables.productions.toList, entry.2.Writable

instance : DecidablePred Tables.Writable := fun tables =>
  decidable_of_iff
    (IsWord tables.endMarker ∧ (∀ entry ∈ tables.actions.toList, IsWord entry.1.2) ∧
      (∀ entry ∈ tables.gotos.toList, IsWord entry.1.2) ∧
      ∀ entry ∈ tables.productions.toList, entry.2.Writable)
    ⟨fun ⟨endMarker, actions, gotos, productions⟩ => ⟨endMarker, actions, gotos, productions⟩,
      fun h => ⟨h.endMarker, h.actions, h.gotos, h.productions⟩⟩

/-! ## The words of a declaration -/

theorem isWord_of_spells {text : String} {n : Nat} (h : Numeral.Spells text.toList n) :
    IsWord text :=
  ⟨fun he => h.ne_nil (by rw [he]; rfl), fun _ hc => h.isBlank_eq_false hc⟩

/-- A letter in front of a numeral makes one word. -/
theorem isWord_of_toList_cons {text : String} {letter : Char} {numeral : List Char} {n : Nat}
    (h : text.toList = letter :: numeral) (hletter : isBlank letter = false)
    (hnumeral : Numeral.Spells numeral n) : IsWord text := by
  refine ⟨fun he => ?_, ?_⟩
  · rw [he] at h
    cases h
  · rw [h, List.forall_mem_cons]
    exact ⟨hletter, fun _ hc => hnumeral.isBlank_eq_false hc⟩

theorem toList_shift (next : State) :
    (Action.shift next).text.toList = 's' :: (toString next).toList := String.toList_append

theorem toList_reduce (id : ProductionId) :
    (Action.reduce id).text.toList = 'r' :: (toString id).toList := String.toList_append

theorem spellsAction_text (action : Action) :
    TableFile.SpellsAction action.text.toList action := by
  cases action with
  | shift next =>
      rw [toList_shift]
      exact .shift rfl (Numeral.spells_toString_uint32 next)
  | reduce id =>
      rw [toList_reduce]
      exact .reduce rfl (Numeral.spells_toString_uint32 id)
  | accept => exact .accept (.inl rfl)
  | error => exact .error (.inl rfl)

theorem isWord_actionText (action : Action) : IsWord action.text := by
  cases action with
  | shift next =>
      exact isWord_of_toList_cons (toList_shift next) rfl (Numeral.spells_toString_uint32 next)
  | reduce id =>
      exact isWord_of_toList_cons (toList_reduce id) rfl (Numeral.spells_toString_uint32 id)
  | accept => decide
  | error => decide

namespace Declaration.Writable

variable {declaration : Declaration}

/-- A writable declaration is written in words. -/
theorem isWord (h : declaration.Writable) : ∀ word ∈ declaration.words, IsWord word := by
  have hnumber (n : UInt32) : IsWord (toString n) :=
    isWord_of_spells (Numeral.spells_toString_uint32 n)
  have hkeyword : IsWord "eof" ∧ IsWord "prod" ∧ IsWord "action" ∧ IsWord "goto" ∧ IsWord "->" := by
    decide
  obtain ⟨heof, hprod, haction, hgoto, harrow⟩ := hkeyword
  cases declaration with
  | endMarker terminal =>
      simp only [words, List.forall_mem_cons]
      exact ⟨heof, h, by simp⟩
  | action state terminal what =>
      simp only [words, List.forall_mem_cons]
      exact ⟨haction, hnumber state, h, isWord_actionText what, by simp⟩
  | goto state nonTerminal next =>
      simp only [words, List.forall_mem_cons]
      exact ⟨hgoto, hnumber state, h, hnumber next, by simp⟩
  | production id rule =>
      obtain ⟨lhs, list | count⟩ := rule
      · simp only [words, List.forall_mem_cons]
        exact ⟨hprod, hnumber id, h.1, harrow, h.2⟩
      · simp only [words, List.forall_mem_cons]
        exact ⟨hprod, hnumber id, h.1, isWord_of_spells (Numeral.spells_toString count), by simp⟩

/-- The words of a writable declaration declare it. -/
theorem declares (h : declaration.Writable) :
    TableFile.Declares declaration.words declaration [] := by
  cases declaration with
  | endMarker terminal => exact .endMarker terminal []
  | action state terminal what =>
      exact .action terminal [] (Numeral.spells_toString_uint32 state) (spellsAction_text what)
  | goto state nonTerminal next =>
      exact .goto nonTerminal [] (Numeral.spells_toString_uint32 state)
        (Numeral.spells_toString_uint32 next)
  | production id rule =>
      obtain ⟨lhs, list | count⟩ := rule
      · exact .rule lhs list (Numeral.spells_toString_uint32 id)
      · have hcount : (UInt32.ofNat count).toNat = count := UInt32.toNat_ofNat_of_lt' h.2
        have hsize := Numeral.spells_toString (UInt32.ofNat count).toNat
        have hdeclares := TableFile.Declares.length lhs [] (Numeral.spells_toString_uint32 id) hsize
        rwa [hcount] at hdeclares

end Declaration.Writable

/-! ## Writing -/

namespace Tables

variable {tables : Tables}

/-- Writable tables are written as writable declarations. -/
theorem Writable.declaration (h : tables.Writable) {declaration : Declaration}
    (hm : declaration ∈ tables.declarations) : declaration.Writable := by
  simp only [declarations, List.mem_cons, List.mem_append, List.mem_map, Prod.exists,
    OrderedMap.mem_byRow] at hm
  rcases hm with rfl | (⟨id, rule, hm, rfl⟩ | ⟨state, terminal, what, hm, rfl⟩) |
    ⟨state, nonTerminal, next, hm, rfl⟩
  · exact h.endMarker
  · exact h.productions _ hm
  · exact h.actions _ hm
  · exact h.gotos _ hm

/-- The text of writable tables is loaded, with their entries grouped. -/
theorem Writable.read_fileText (h : tables.Writable) :
    TableFile.read tables.fileText = .ok tables.grouped := by
  have hlines : lines tables.fileText = tables.declarations.map Declaration.line ++ [""] := by
    rw [fileText, ← lines_join, List.map_map]
    · rfl
    · intro line hline
      obtain ⟨declaration, hm, rfl⟩ := List.mem_map.1 hline
      exact newline_notMem_intercalate (h.declaration hm).isWord
  rw [TableFile.read, hlines, TableFile.applyLines_append_empty, TableFile.applyLines_eq_ok_iff]
  refine ⟨tables.declarations.map fun declaration => [declaration], ?_, ?_⟩
  · rw [List.map_map, List.forall₂_map_left_iff, List.forall₂_map_right_iff, List.forall₂_same]
    intro declaration hm
    have hwords : words declaration.line = declaration.words :=
      words_intercalate (h.declaration hm).isWord
    rw [Function.comp_apply, hwords]
    exact .declaration (h.declaration hm).declares (by simp)
  · rw [← List.flatMap_def, List.flatMap_singleton']
    exact declareAll_declarations tables

end Tables

/-! ## Loading -/

/-- A declaration that is made by words is writable. -/
theorem TableFile.Declares.writable {words rest : List String} {declaration : Declaration}
    (h : Declares words declaration rest) (hwords : ∀ word ∈ words, IsWord word) :
    declaration.Writable := by
  cases h with
  | endMarker terminal rest => exact hwords _ (by simp)
  | rule lhs list hid => exact ⟨hwords _ (by simp), fun symbol hm => hwords _ (by simp [hm])⟩
  | @length number count id size lhs rest hid hsize =>
      exact ⟨hwords _ (by simp), size.toNat_lt⟩
  | action terminal rest hstate hwhat => exact hwords _ (by simp)
  | goto nonTerminal rest hstate hnext => exact hwords _ (by simp)

/-- What lines of words declare is writable. -/
theorem TableFile.writable_of_lineDeclares {lists : List (List String)}
    {steps : List (List Declaration)} (h : List.Forall₂ LineDeclares lists steps)
    (hwords : ∀ words ∈ lists, ∀ word ∈ words, IsWord word) :
    ∀ declaration ∈ steps.flatten, declaration.Writable := by
  induction h with
  | nil => simp
  | cons hline _ ih =>
      rw [List.forall_mem_cons] at hwords
      rw [List.flatten_cons, List.forall_mem_append]
      refine ⟨?_, ih hwords.2⟩
      cases hline with
      | blank => simp
      | comment => simp
      | declaration declares => simpa using declares.writable hwords.1

namespace Tables

variable {tables extended : Tables} {declaration : Declaration}

theorem writable_empty : empty.Writable where
  endMarker := by decide
  actions := by simp [empty, OrderedMap.empty]
  gotos := by simp [empty, OrderedMap.empty]
  productions := by simp [empty, OrderedMap.empty]

/-- A writable declaration keeps tables writable. -/
theorem Writable.extends (h : tables.Writable) (hd : declaration.Writable)
    (hextends : tables.Extends declaration extended) : extended.Writable := by
  cases hextends with
  | endMarker terminal => exact { h with endMarker := hd }
  | action what new =>
      refine { h with actions := fun entry hm => ?_ }
      rw [OrderedMap.toList_insertIfNew what new, List.mem_append, List.mem_singleton] at hm
      rcases hm with hm | rfl
      · exact h.actions entry hm
      · exact hd
  | actionAgain => exact h
  | goto next new =>
      refine { h with gotos := fun entry hm => ?_ }
      rw [OrderedMap.toList_insertIfNew next new, List.mem_append, List.mem_singleton] at hm
      rcases hm with hm | rfl
      · exact h.gotos entry hm
      · exact hd
  | gotoAgain => exact h
  | production rule new =>
      refine { h with productions := fun entry hm => ?_ }
      rw [OrderedMap.toList_insertIfNew rule new, List.mem_append, List.mem_singleton] at hm
      rcases hm with hm | rfl
      · exact h.productions entry hm
      · exact hd

/-- Tables that were loaded are writable. -/
theorem writable_of_read {text : String} (h : TableFile.read text = .ok tables) :
    tables.Writable := by
  obtain ⟨steps, hsteps, hbuild⟩ := TableFile.applyLines_eq_ok_iff.1 h
  have hwritable := TableFile.writable_of_lineDeclares hsteps fun words hwords word hword => by
    obtain ⟨line, -, rfl⟩ := List.mem_map.1 hwords
    exact isWord_of_mem_words hword
  refine declareAll_induction writable_empty (fun t d extended hm ht hd => ?_) hbuild
  exact ht.extends (hwritable d hm) (declare_eq_ok_iff.1 hd)

end Tables

/-! ## Round trips -/

/-- The tables are the same, and their entries are listed in the same order. -/
structure Tables.ListedAlike (a b : Tables) : Prop where
  same : a.same b = true
  actions : a.actions.byRow = b.actions.byRow
  gotos : a.gotos.byRow = b.gotos.byRow
  productions : a.productions.toList = b.productions.toList

theorem Tables.grouped_listedAlike (tables : Tables) : tables.grouped.ListedAlike tables where
  same := by
    have hproductions : tables.productions.sameEntries tables.productions = true :=
      OrderedMap.sameEntries_iff.2 (.refl _)
    simp [same, grouped, OrderedMap.sameEntries_grouped, hproductions]
  actions := tables.actions.byRow_grouped
  gotos := tables.gotos.byRow_grouped
  productions := rfl

/-- Writable tables are loaded from their text as they are, in the order of their
listing.  Tables that were loaded from any text are writable, so they are loaded as
they are from their own text. -/
theorem fileText_roundTrip :
    (∀ tables : Tables, tables.Writable →
      ∃ loaded, TableFile.read tables.fileText = .ok loaded ∧ loaded.ListedAlike tables) ∧
    ∀ (text : String) (tables : Tables), TableFile.read text = .ok tables →
      tables.Writable ∧
        ∃ loaded, TableFile.read tables.fileText = .ok loaded ∧ loaded.ListedAlike tables := by
  have hwritten (tables : Tables) (h : tables.Writable) :
      ∃ loaded, TableFile.read tables.fileText = .ok loaded ∧ loaded.ListedAlike tables :=
    ⟨tables.grouped, h.read_fileText, tables.grouped_listedAlike⟩
  refine ⟨hwritten, fun text tables h => ?_⟩
  have hwritable := Tables.writable_of_read h
  exact ⟨hwritable, hwritten tables hwritable⟩

/-- Symbols that look like comments, arrows and numbers are written and loaded. -/
theorem fileText_roundTrip_hash :
    let tables := Tables.ofDeclarations
      [.endMarker "#", .production 1 ⟨"->", .symbols ["#x", "12"]⟩, .production 0 ⟨"12", .length 7⟩,
        .action 2 "#" .accept, .action 0 "#x" (.shift 2), .goto 0 "->" 2]
    TableFile.read "eof #\n" = .ok { endMarker := "#" } ∧ tables.Writable ∧
      (∃ loaded, TableFile.read tables.fileText = .ok loaded ∧ loaded.ListedAlike tables) ∧
      ∃ loaded, TableFile.read (Tables.fileText { endMarker := "#" }) = .ok loaded ∧
        loaded.ListedAlike { endMarker := "#" } := by
  have hread : TableFile.read "eof #\n" = .ok { endMarker := "#" } := by rfl
  refine ⟨hread, by decide, fileText_roundTrip.1 _ (by decide), ?_⟩
  exact (fileText_roundTrip.2 _ _ hread).2

end ShiftReduce
