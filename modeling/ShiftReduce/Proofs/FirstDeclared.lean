import ShiftReduce.Proofs.Rows

/-!
# The first declaration of a key counts

Tables that are built by declarations are told by the list of the declarations, without
the builder (`Tables.FirstDeclared`).  A key has the value that the first declaration
for it gives, whether later ones are refused or not.  The end-marker is the last one
declared.

`RefusedAfter` says by the list which declaration is refused next, and why.  One that is
refused changes nothing, and neither does one that repeats an action or a goto.
-/

namespace ShiftReduce

namespace Declaration

/-- The action that the declaration gives to the key. -/
def actionFor (state : State) (terminal : Symbol) : Declaration → Option Action
  | .action state' terminal' what =>
    if state = state' ∧ terminal = terminal' then some what else none
  | _ => none

/-- The goto that the declaration gives to the key. -/
def gotoFor (state : State) (nonTerminal : Symbol) : Declaration → Option State
  | .goto state' nonTerminal' next =>
    if state = state' ∧ nonTerminal = nonTerminal' then some next else none
  | _ => none

/-- The production that the declaration gives to the number. -/
def productionFor (id : ProductionId) : Declaration → Option Production
  | .production id' rule => if id = id' then some rule else none
  | _ => none

/-- The end-marker that is declared. -/
def endMarker? : Declaration → Option Symbol
  | .endMarker terminal => some terminal
  | _ => none

end Declaration

namespace Tables

variable {tables : Tables} {declarations : List Declaration} {declaration : Declaration}
  {error : TableError}

/-! ## One declaration

Tables that refuse an action have another one for its key.  So to keep them is to insert
the action if it is new, which is what is done with an action that is not refused.  The
same goes for gotos and productions. -/

@[simp] theorem declareOrKeep_action (tables : Tables) (state : State) (terminal : Symbol)
    (what : Action) :
    tables.declareOrKeep (.action state terminal what) =
      { tables with actions := tables.actions.insertIfNew (state, terminal) what } := by
  cases hget : tables.action? state terminal with
  | none => simp only [declareOrKeep, declare, hget]
  | some old =>
      have hkeep := OrderedMap.insertIfNew_of_get? what (hget.trans_ne (Option.some_ne_none old))
      by_cases hsame : old = what <;>
        simp only [declareOrKeep, declare, hget, hkeep, hsame, if_true, if_false]

@[simp] theorem declareOrKeep_goto (tables : Tables) (state : State) (nonTerminal : Symbol)
    (next : State) :
    tables.declareOrKeep (.goto state nonTerminal next) =
      { tables with gotos := tables.gotos.insertIfNew (state, nonTerminal) next } := by
  cases hget : tables.goto? state nonTerminal with
  | none => simp only [declareOrKeep, declare, hget]
  | some old =>
      have hkeep := OrderedMap.insertIfNew_of_get? next (hget.trans_ne (Option.some_ne_none old))
      by_cases hsame : old = next <;>
        simp only [declareOrKeep, declare, hget, hkeep, hsame, if_true, if_false]

@[simp] theorem declareOrKeep_production (tables : Tables) (id : ProductionId) (rule : Production) :
    tables.declareOrKeep (.production id rule) =
      { tables with productions := tables.productions.insertIfNew id rule } := by
  cases hget : tables.production? id with
  | none => simp only [declareOrKeep, declare, hget]
  | some old =>
      have hkeep := OrderedMap.insertIfNew_of_get? rule (hget.trans_ne (Option.some_ne_none old))
      simp only [declareOrKeep, declare, hget, hkeep]

@[simp] theorem declareOrKeep_endMarker (tables : Tables) (terminal : Symbol) :
    tables.declareOrKeep (.endMarker terminal) = { tables with endMarker := terminal } := rfl

/-- A declaration answers a look-up that had no answer. -/
theorem action?_declareOrKeep (tables : Tables) (declaration : Declaration) (state : State)
    (terminal : Symbol) :
    (tables.declareOrKeep declaration).action? state terminal =
      (tables.action? state terminal).or (declaration.actionFor state terminal) := by
  cases declaration with
  | action => simp [action?, OrderedMap.get?_insertIfNew, Declaration.actionFor]
  | goto | production | endMarker => simp [action?, Declaration.actionFor]

theorem goto?_declareOrKeep (tables : Tables) (declaration : Declaration) (state : State)
    (nonTerminal : Symbol) :
    (tables.declareOrKeep declaration).goto? state nonTerminal =
      (tables.goto? state nonTerminal).or (declaration.gotoFor state nonTerminal) := by
  cases declaration with
  | goto => simp [goto?, OrderedMap.get?_insertIfNew, Declaration.gotoFor]
  | action | production | endMarker => simp [goto?, Declaration.gotoFor]

theorem production?_declareOrKeep (tables : Tables) (declaration : Declaration)
    (id : ProductionId) :
    (tables.declareOrKeep declaration).production? id =
      (tables.production? id).or (declaration.productionFor id) := by
  cases declaration with
  | production => simp [production?, OrderedMap.get?_insertIfNew, Declaration.productionFor]
  | action | goto | endMarker => simp [production?, Declaration.productionFor]

theorem endMarker_declareOrKeep (tables : Tables) (declaration : Declaration) :
    (tables.declareOrKeep declaration).endMarker =
      declaration.endMarker?.getD tables.endMarker := by
  cases declaration with
  | action | goto | production | endMarker => simp [Declaration.endMarker?]

/-! ## Declarations in order -/

/-- What tables answer that are built by the declarations: what the first of them says
that says something.  The last end-marker counts, and without one it is `$`. -/
structure FirstDeclared (declarations : List Declaration) (tables : Tables) : Prop where
  action : ∀ state terminal, tables.action? state terminal =
    declarations.findSome? fun declaration => declaration.actionFor state terminal
  goto : ∀ state nonTerminal, tables.goto? state nonTerminal =
    declarations.findSome? fun declaration => declaration.gotoFor state nonTerminal
  production : ∀ id, tables.production? id =
    declarations.findSome? fun declaration => declaration.productionFor id
  endMarker : tables.endMarker =
    ((declarations.filterMap Declaration.endMarker?).getLast?).getD "$"

/-- The answer of a longer list is the old one, or that of its last declaration. -/
theorem findSome?_concat {α β : Type} (f : α → Option β) (front : List α) (last : α) :
    (front ++ [last]).findSome? f = (front.findSome? f).or (f last) := by
  rw [List.findSome?_append, List.findSome?_cons]
  cases f last <;> rfl

theorem firstDeclared_nil : FirstDeclared [] empty where
  action _ _ := rfl
  goto _ _ := rfl
  production _ := rfl
  endMarker := rfl

theorem FirstDeclared.concat (h : FirstDeclared declarations tables)
    (declaration : Declaration) :
    FirstDeclared (declarations ++ [declaration]) (tables.declareOrKeep declaration) where
  action state terminal := by rw [action?_declareOrKeep, h.action, findSome?_concat]
  goto state nonTerminal := by rw [goto?_declareOrKeep, h.goto, findSome?_concat]
  production id := by rw [production?_declareOrKeep, h.production, findSome?_concat]
  endMarker := by
    rw [endMarker_declareOrKeep, h.endMarker, List.filterMap_append, List.filterMap_cons]
    cases declaration.endMarker? with
    | none => simp
    | some terminal => simp

theorem ofDeclarations_concat (declarations : List Declaration) (declaration : Declaration) :
    ofDeclarations (declarations ++ [declaration]) =
      (ofDeclarations declarations).declareOrKeep declaration := List.foldl_concat ..

/-- If none is refused, it makes no difference that refused ones would be left out. -/
theorem eq_ofDeclarations {built : Tables} (h : empty.declareAll declarations = .ok built) :
    built = ofDeclarations declarations := by
  induction declarations using List.reverseRecOn generalizing built with
  | nil => exact (Except.ok.inj h).symm
  | append_singleton front last ih =>
      obtain ⟨middle, hfront, hlast⟩ := declareAll_append_eq_ok_iff.1 h
      rw [declareAll_singleton] at hlast
      rw [ofDeclarations_concat, ← ih hfront, declareOrKeep, hlast]

theorem firstDeclared_ofDeclarations (declarations : List Declaration) :
    FirstDeclared declarations (ofDeclarations declarations) := by
  induction declarations using List.reverseRecOn with
  | nil => exact firstDeclared_nil
  | append_singleton front last ih =>
      rw [ofDeclarations_concat]
      exact ih.concat last

end Tables

/-! ## Refusals -/

namespace Declaration

variable {declaration : Declaration} {state next : State} {terminal nonTerminal : Symbol}
  {what : Action} {id : ProductionId} {rule : Production}

theorem actionFor_eq_some_iff :
    declaration.actionFor state terminal = some what ↔
      declaration = .action state terminal what := by
  cases declaration with
  | action => grind [actionFor]
  | goto | production | endMarker => simp [actionFor]

theorem gotoFor_eq_some_iff :
    declaration.gotoFor state nonTerminal = some next ↔
      declaration = .goto state nonTerminal next := by
  cases declaration with
  | goto => grind [gotoFor]
  | action | production | endMarker => simp [gotoFor]

theorem productionFor_eq_some_iff :
    declaration.productionFor id = some rule ↔ declaration = .production id rule := by
  cases declaration with
  | production => grind [productionFor]
  | action | goto | endMarker => simp [productionFor]

end Declaration

/-- Why a declaration is refused after others.  The first one for its key gave another
value, or there is one for its number. -/
inductive RefusedAfter (declarations : List Declaration) : Declaration → TableError → Prop where
  | action {state : State} {terminal : Symbol} {old new : Action}
      (first : declarations.findSome? (fun declaration => declaration.actionFor state terminal) =
        some old)
      (differs : old ≠ new) :
      RefusedAfter declarations (.action state terminal new)
        (.actionConflict state terminal old new)
  | goto {state old new : State} {nonTerminal : Symbol}
      (first : declarations.findSome? (fun declaration => declaration.gotoFor state nonTerminal) =
        some old)
      (differs : old ≠ new) :
      RefusedAfter declarations (.goto state nonTerminal new)
        (.gotoConflict state nonTerminal old new)
  | production {id : ProductionId} {earlier : Production} (rule : Production)
      (given : .production id earlier ∈ declarations) :
      RefusedAfter declarations (.production id rule) (.duplicateProduction id)

namespace Tables

variable {tables : Tables} {declarations later : List Declaration} {declaration : Declaration}
  {error : TableError}

theorem FirstDeclared.exists_production_iff (h : FirstDeclared declarations tables)
    {id : ProductionId} :
    (∃ rule, tables.production? id = some rule) ↔ ∃ rule, .production id rule ∈ declarations := by
  simp only [h.production, ← Option.isSome_iff_exists, List.findSome?_isSome_iff]
  simp only [Option.isSome_iff_exists, Declaration.productionFor_eq_some_iff]
  constructor
  · rintro ⟨_, hmem, rule, rfl⟩
    exact ⟨rule, hmem⟩
  · rintro ⟨rule, hmem⟩
    exact ⟨_, hmem, rule, rfl⟩

theorem FirstDeclared.refuses_iff (h : FirstDeclared declarations tables) :
    tables.Refuses declaration error ↔ RefusedAfter declarations declaration error := by
  constructor
  · intro hrefuses
    cases hrefuses with
    | action taken differs => exact .action (h.action .. ▸ taken) differs
    | goto taken differs => exact .goto (h.goto .. ▸ taken) differs
    | production rule taken =>
        obtain ⟨earlier, given⟩ := h.exists_production_iff.1 ⟨_, taken⟩
        exact .production rule given
  · intro hrefused
    cases hrefused with
    | action first differs => exact .action (h.action .. ▸ first) differs
    | goto first differs => exact .goto (h.goto .. ▸ first) differs
    | production rule given =>
        obtain ⟨old, taken⟩ := h.exists_production_iff.2 ⟨_, given⟩
        exact .production rule taken

/-- A declaration that tables refuse changes nothing. -/
theorem declareOrKeep_of_error (h : tables.declare declaration = .error error) :
    tables.declareOrKeep declaration = tables := by
  rw [declareOrKeep, h]

/-- A declaration that was made before changes nothing, unless it is of the end-marker. -/
theorem FirstDeclared.declareOrKeep_of_mem (h : FirstDeclared declarations tables)
    (hmem : declaration ∈ declarations) (hentry : declaration.endMarker? = none) :
    tables.declareOrKeep declaration = tables := by
  have hfirst {β : Type} {f : Declaration → Option β} {value : β}
      (hf : f declaration = some value) : declarations.findSome? f ≠ none := by
    rw [ne_eq, List.findSome?_eq_none_iff]
    intro hnone
    cases hf.symm.trans (hnone declaration hmem)
  cases declaration with
  | endMarker => cases hentry
  | action state terminal what =>
      have hold := hfirst (Declaration.actionFor_eq_some_iff.2 rfl)
      rw [← h.action] at hold
      rw [declareOrKeep_action, OrderedMap.insertIfNew_of_get? what hold]
  | goto state nonTerminal next =>
      have hold := hfirst (Declaration.gotoFor_eq_some_iff.2 rfl)
      rw [← h.goto] at hold
      rw [declareOrKeep_goto, OrderedMap.insertIfNew_of_get? next hold]
  | production id rule =>
      have hold := hfirst (Declaration.productionFor_eq_some_iff.2 rfl)
      rw [← h.production] at hold
      rw [declareOrKeep_production, OrderedMap.insertIfNew_of_get? rule hold]

/-- A declaration that changes nothing can be left out. -/
theorem ofDeclarations_append_cons
    (h : (ofDeclarations declarations).declareOrKeep declaration = ofDeclarations declarations) :
    ofDeclarations (declarations ++ declaration :: later) =
      ofDeclarations (declarations ++ later) := by
  rw [ofDeclarations, ofDeclarations, List.foldl_append, List.foldl_append, List.foldl_cons,
    ← ofDeclarations, h]

end Tables

/-- The first declaration of a key counts.  The list of the declarations tells what the
tables answer, and which declaration they refuse next.  A declaration that is refused or
that repeats an action or a goto can be left out, and to keep the entries in rows makes
no difference. -/
theorem firstDeclaration_counts (declarations : List Declaration) :
    (Tables.ofDeclarations declarations).FirstDeclared declarations ∧
      (∀ declaration error,
        (Tables.ofDeclarations declarations).declare declaration = .error error ↔
          RefusedAfter declarations declaration error) ∧
      (∀ terminal, ∃ extended,
        (Tables.ofDeclarations declarations).declare (.endMarker terminal) = .ok extended) ∧
      (∀ declaration,
        (∃ error, RefusedAfter declarations declaration error) ∨
            declaration ∈ declarations ∧ declaration.endMarker? = none →
          ∀ later, Tables.ofDeclarations (declarations ++ declaration :: later) =
            Tables.ofDeclarations (declarations ++ later)) ∧
      (RowTables.ofDeclarations declarations).Mirrors (Tables.ofDeclarations declarations) := by
  have hfirst := Tables.firstDeclared_ofDeclarations declarations
  have hrefused (declaration : Declaration) (error : TableError) :
      (Tables.ofDeclarations declarations).declare declaration = .error error ↔
        RefusedAfter declarations declaration error :=
    Tables.declare_eq_error_iff.trans hfirst.refuses_iff
  refine ⟨hfirst, hrefused, fun terminal => ⟨_, rfl⟩, fun declaration h later => ?_,
    RowTables.mirrors_ofDeclarations declarations⟩
  refine Tables.ofDeclarations_append_cons ?_
  rcases h with ⟨error, h⟩ | ⟨hmem, hentry⟩
  · exact Tables.declareOrKeep_of_error ((hrefused declaration error).2 h)
  · exact hfirst.declareOrKeep_of_mem hmem hentry

/-- A second action for a key is refused, and it can be left out. -/
theorem firstDeclaration_counts_conflict :
    RefusedAfter [.action 0 "x" (.shift 1)] (.action 0 "x" (.reduce 2))
        (.actionConflict 0 "x" (.shift 1) (.reduce 2)) ∧
      Tables.ofDeclarations
          [.action 0 "x" (.shift 1), .action 0 "x" (.reduce 2), .goto 0 "E" 1] =
        Tables.ofDeclarations [.action 0 "x" (.shift 1), .goto 0 "E" 1] := by
  have hrefused : RefusedAfter [.action 0 "x" (.shift 1)] (.action 0 "x" (.reduce 2))
      (.actionConflict 0 "x" (.shift 1) (.reduce 2)) := .action (by decide) (by decide)
  obtain ⟨-, -, -, hleftOut, -⟩ := firstDeclaration_counts [.action 0 "x" (.shift 1)]
  exact ⟨hrefused, hleftOut _ (.inl ⟨_, hrefused⟩) [.goto 0 "E" 1]⟩

end ShiftReduce
