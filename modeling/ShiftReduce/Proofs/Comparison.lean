import ShiftReduce.Proofs.FirstDeclared
import ShiftReduce.Proofs.Format

/-!
# Comparing tables

Two tables are compared by their entries, whatever the order of these is.  This comes to
comparing what they answer (`Tables.AnswerAlike`), since no key stands twice.

Tables that are kept row by row are compared row by row, and an empty row would count.
None is ever left behind by what builds tables, be it declarations, some of them refused,
or the lines of a file (`Built`).  So these tables too are the same exactly if they answer
alike.
-/

namespace ShiftReduce

/-! ## Tables in one piece -/

/-- The tables have the same end-marker and answer every look-up alike. -/
structure Tables.AnswerAlike (a b : Tables) : Prop where
  endMarker : a.endMarker = b.endMarker
  action : ∀ state terminal, a.action? state terminal = b.action? state terminal
  goto : ∀ state nonTerminal, a.goto? state nonTerminal = b.goto? state nonTerminal
  production : ∀ id, a.production? id = b.production? id

namespace Tables

variable {a b : Tables}

theorem sameActions_iff :
    a.actions.sameEntries b.actions = true ↔
      ∀ state terminal, a.action? state terminal = b.action? state terminal := by
  rw [OrderedMap.sameEntries_iff_get?, Prod.forall]
  rfl

theorem sameGotos_iff :
    a.gotos.sameEntries b.gotos = true ↔
      ∀ state nonTerminal, a.goto? state nonTerminal = b.goto? state nonTerminal := by
  rw [OrderedMap.sameEntries_iff_get?, Prod.forall]
  rfl

theorem sameProductions_iff :
    a.productions.sameEntries b.productions = true ↔
      ∀ id, a.production? id = b.production? id := OrderedMap.sameEntries_iff_get?

theorem same_iff_answerAlike : a.same b = true ↔ a.AnswerAlike b := by
  simp only [same, Bool.and_eq_true, decide_eq_true_eq, sameActions_iff, sameGotos_iff,
    sameProductions_iff]
  constructor
  · rintro ⟨⟨⟨action, goto⟩, production⟩, endMarker⟩
    exact { endMarker, action, goto, production }
  · intro h
    exact ⟨⟨⟨h.action, h.goto⟩, h.production⟩, h.endMarker⟩

end Tables

/-! ## Tables in rows -/

/-- The tables in rows have the same end-marker and answer every look-up alike. -/
structure RowTables.AnswerAlike (a b : RowTables) : Prop where
  endMarker : a.endMarker = b.endMarker
  action : ∀ state terminal, a.actions.get? state terminal = b.actions.get? state terminal
  goto : ∀ state nonTerminal, a.gotos.get? state nonTerminal = b.gotos.get? state nonTerminal
  production : ∀ id, a.productions.get? id = b.productions.get? id

/-- No row of the tables is empty. -/
structure RowTables.Tidy (tables : RowTables) : Prop where
  actions : tables.actions.Tidy
  gotos : tables.gotos.Tidy

theorem Tables.tidy_inRows (tables : Tables) : tables.inRows.Tidy where
  actions := tables.actions.tidy_inRows
  gotos := tables.gotos.tidy_inRows

namespace RowTables

variable {a b : RowTables}

/-- Without empty rows, tables are the same exactly if they answer alike. -/
theorem Tidy.same_iff_answerAlike (ha : a.Tidy) (hb : b.Tidy) :
    a.same b = true ↔ a.AnswerAlike b := by
  simp only [same, Bool.and_eq_true, decide_eq_true_eq, RowMap.same_iff_get? ha.actions hb.actions,
    RowMap.same_iff_get? ha.gotos hb.gotos, OrderedMap.agrees_eq_iff]
  constructor
  · rintro ⟨⟨⟨action, goto⟩, production⟩, endMarker⟩
    exact { endMarker, action, goto, production }
  · intro h
    exact ⟨⟨⟨h.action, h.goto⟩, h.production⟩, h.endMarker⟩

/-- The rows show what the tables show. -/
structure Shows (rows : RowTables) (tables : Tables) : Prop where
  endMarker : rows.endMarker = tables.endMarker
  action : ∀ state terminal, rows.actions.get? state terminal = tables.action? state terminal
  goto : ∀ state nonTerminal, rows.gotos.get? state nonTerminal = tables.goto? state nonTerminal
  production : ∀ id, rows.productions.get? id = tables.production? id

theorem shows_inRows (tables : Tables) : tables.inRows.Shows tables where
  endMarker := rfl
  action := OrderedMap.get?_inRows tables.actions
  goto := OrderedMap.get?_inRows tables.gotos
  production _ := rfl

end RowTables

/-! ## Tables as they are built -/

/-- The tables, in one piece and in rows, have been built by the same declarations. -/
inductive Built : Tables → RowTables → Prop where
  /-- Those that are refused are passed over. -/
  | declared (declarations : List Declaration) :
      Built (.ofDeclarations declarations) (.ofDeclarations declarations)
  /-- The lines of a file make the declarations. -/
  | loaded {text : String} {tables : Tables} {steps : List (List Declaration)}
      (reads : TableFile.read text = .ok tables)
      (lines : List.Forall₂ TableFile.LineDeclares ((Text.fileLines text).map Text.words) steps) :
      Built tables (.ofDeclarations steps.flatten)

namespace Built

variable {tables tables' : Tables} {rows rows' : RowTables}

/-- Whatever is loaded has been built. -/
theorem exists_of_read {text : String} (h : TableFile.read text = .ok tables) :
    ∃ rows, Built tables rows := by
  have hlines := h
  rw [TableFile.read_eq_applyLines] at hlines
  obtain ⟨steps, hlines, -⟩ := TableFile.applyLines_eq_ok_iff.1 hlines
  exact ⟨_, .loaded h hlines⟩

/-- The rows are those of the tables. -/
theorem eq_inRows (h : Built tables rows) : rows = tables.inRows := by
  cases h with
  | declared declarations => exact RowTables.ofDeclarations_eq_inRows declarations
  | loaded reads lines =>
      rw [TableFile.read_eq_applyLines] at reads
      obtain ⟨steps', lines', hbuild⟩ := TableFile.applyLines_eq_ok_iff.1 reads
      obtain rfl := List.right_unique_forall₂' (fun _ _ _ h h' => h.unique h') lines lines'
      rw [Tables.eq_ofDeclarations hbuild]
      exact RowTables.ofDeclarations_eq_inRows _

theorem tidy (h : Built tables rows) : rows.Tidy := h.eq_inRows ▸ tables.tidy_inRows

end Built

/-- However two tables are built, by declarations or from files, they are the same exactly if
they answer alike, and so are their actions and their gotos.  It is the same whether they
are kept in rows or in one piece. -/
theorem comparison_extensional :
    (∀ text tables, TableFile.read text = .ok tables → ∃ rows, Built tables rows) ∧
    ∀ tables tables' rows rows', Built tables rows → Built tables' rows' →
      (rows.same rows' = true ↔ rows.AnswerAlike rows') ∧
      (rows.actions.same rows'.actions = true ↔ ∀ state terminal,
        rows.actions.get? state terminal = rows'.actions.get? state terminal) ∧
      (rows.gotos.same rows'.gotos = true ↔ ∀ state nonTerminal,
        rows.gotos.get? state nonTerminal = rows'.gotos.get? state nonTerminal) ∧
      rows.Shows tables ∧ tables.same tables' = rows.same rows' ∧
      tables.actions.sameEntries tables'.actions = rows.actions.same rows'.actions ∧
      tables.gotos.sameEntries tables'.gotos = rows.gotos.same rows'.gotos := by
  refine ⟨fun text tables => Built.exists_of_read, fun tables tables' rows rows' h h' => ?_⟩
  refine ⟨h.tidy.same_iff_answerAlike h'.tidy, RowMap.same_iff_get? h.tidy.actions h'.tidy.actions,
    RowMap.same_iff_get? h.tidy.gotos h'.tidy.gotos, ?_⟩
  obtain rfl := h.eq_inRows
  obtain rfl := h'.eq_inRows
  exact ⟨RowTables.shows_inRows tables, (Tables.same_inRows tables tables').symm,
    (OrderedMap.same_inRows tables.actions tables'.actions).symm,
    (OrderedMap.same_inRows tables.gotos tables'.gotos).symm⟩

/-- Declarations with one that is refused and one that is made again, and a file that has
neither. -/
theorem comparison_extensional_refused :
    let front : List Declaration := [.action 0 "x" (.shift 1), .goto 2 "E" 3]
    let declarations := front ++ [.action 0 "x" (.reduce 2), .goto 2 "E" 3]
    let rows := RowTables.ofDeclarations declarations
    let tables := Tables.ofDeclarations [.goto 2 "E" 3, .action 0 "x" (.shift 1)]
    ((RowTables.ofDeclarations front).declare (.action 0 "x" (.reduce 2))).1 =
        some (.actionConflict 0 "x" (.shift 1) (.reduce 2)) ∧
      TableFile.read "goto 2 E 3\naction 0 x s1\n" = .ok tables ∧
      ∃ rows', Built (.ofDeclarations declarations) rows ∧ Built tables rows' ∧
        rows.same rows' = true ∧ rows.AnswerAlike rows' := by
  intro front declarations rows tables
  have hread : TableFile.read "goto 2 E 3\naction 0 x s1\n" = .ok tables := by rfl
  obtain ⟨rows', hrows'⟩ := comparison_extensional.1 _ tables hread
  have hrows : Built (.ofDeclarations declarations) rows := .declared declarations
  obtain ⟨hiff, -, -, -, hflat, -⟩ := comparison_extensional.2 _ _ _ _ hrows hrows'
  have hsame : rows.same rows' = true := hflat.symm.trans (by decide)
  exact ⟨by decide, hread, rows', hrows, hrows', hsame, hiff.1 hsame⟩

end ShiftReduce
