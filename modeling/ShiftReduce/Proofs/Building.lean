import ShiftReduce.Proofs.Grouping
import ShiftReduce.TableFile.Writer

/-!
# Building without a refusal

`Tables.Extends` says what one declaration can do (`declare_eq_ok_iff`), and
`Tables.Refuses` why one is refused (`declare_eq_error_iff`).

`Tables.declareAll` builds on tables by declarations in order, and stops at the first
one that is refused.  Building may be cut anywhere (`declareAll_append_eq_ok_iff`).

Tables are built again from the declarations that they are written as, with their
entries grouped (`declareAll_declarations`).  No declaration is refused, because
every key stands once.
-/

namespace ShiftReduce

/-- A computation succeeds exactly if both of its parts do. -/
theorem bind_eq_ok_iff {ε α β : Type} {first : Except ε α} {next : α → Except ε β} {b : β} :
    (first >>= next) = .ok b ↔ ∃ a, first = .ok a ∧ next a = .ok b := by
  cases first with
  | error e => exact ⟨fun h => (nomatch h), fun ⟨_, h, _⟩ => (nomatch h)⟩
  | ok a => exact ⟨fun h => ⟨a, rfl, h⟩, fun ⟨_, ha, h⟩ => Except.ok.inj ha ▸ h⟩

/-- A computation fails as its first part does, or as its second part does behind it. -/
theorem bind_eq_error_iff {ε α β : Type} {first : Except ε α} {next : α → Except ε β} {e : ε} :
    (first >>= next) = .error e ↔ first = .error e ∨ ∃ a, first = .ok a ∧ next a = .error e := by
  cases first with
  | error e' =>
      exact ⟨fun h => .inl (Except.error.inj h ▸ rfl),
        fun h => h.elim (fun h => Except.error.inj h ▸ rfl) fun ⟨_, h, _⟩ => (nomatch h)⟩
  | ok a =>
      exact ⟨fun h => .inr ⟨a, rfl, h⟩,
        fun h => h.elim (fun h => (nomatch h)) fun ⟨_, ha, h⟩ => Except.ok.inj ha ▸ h⟩

/-! ## One declaration -/

namespace Tables

/-- What a declaration makes of tables when it is not refused.  A new key goes to the
end of its map, and a key that has the same value already changes nothing.  The number
of a production must be new. -/
inductive Extends (tables : Tables) : Declaration → Tables → Prop where
  | endMarker (terminal : Symbol) :
      Extends tables (.endMarker terminal) { tables with endMarker := terminal }
  | action {state : State} {terminal : Symbol} (what : Action)
      (new : tables.action? state terminal = none) :
      Extends tables (.action state terminal what)
        { tables with actions := tables.actions.insertIfNew (state, terminal) what }
  | actionAgain {state : State} {terminal : Symbol} {what : Action}
      (old : tables.action? state terminal = some what) :
      Extends tables (.action state terminal what) tables
  | goto {state : State} {nonTerminal : Symbol} (next : State)
      (new : tables.goto? state nonTerminal = none) :
      Extends tables (.goto state nonTerminal next)
        { tables with gotos := tables.gotos.insertIfNew (state, nonTerminal) next }
  | gotoAgain {state next : State} {nonTerminal : Symbol}
      (old : tables.goto? state nonTerminal = some next) :
      Extends tables (.goto state nonTerminal next) tables
  | production {id : ProductionId} (rule : Production) (new : tables.production? id = none) :
      Extends tables (.production id rule)
        { tables with productions := tables.productions.insertIfNew id rule }

theorem declare_eq_ok_iff {tables extended : Tables} {declaration : Declaration} :
    tables.declare declaration = .ok extended ↔ tables.Extends declaration extended := by
  constructor
  · intro h
    cases declaration with
    | endMarker terminal =>
        obtain rfl := Except.ok.inj h
        exact .endMarker terminal
    | action state terminal what =>
        cases old : tables.action? state terminal with
        | none =>
            simp only [declare, old] at h
            obtain rfl := Except.ok.inj h
            exact .action what old
        | some what' =>
            simp only [declare, old] at h
            split at h
            · next hwhat =>
                obtain rfl := Except.ok.inj h
                exact .actionAgain (hwhat ▸ old)
            · cases h
    | goto state nonTerminal next =>
        cases old : tables.goto? state nonTerminal with
        | none =>
            simp only [declare, old] at h
            obtain rfl := Except.ok.inj h
            exact .goto next old
        | some next' =>
            simp only [declare, old] at h
            split at h
            · next hnext =>
                obtain rfl := Except.ok.inj h
                exact .gotoAgain (hnext ▸ old)
            · cases h
    | production id rule =>
        cases old : tables.production? id with
        | none =>
            simp only [declare, old] at h
            obtain rfl := Except.ok.inj h
            exact .production rule old
        | some rule' => simp only [declare, old] at h; cases h
  · intro h
    cases h with
    | endMarker => rfl
    | action what new => simp only [declare, new]
    | actionAgain old => simp only [declare, old, if_true]
    | goto next new => simp only [declare, new]
    | gotoAgain old => simp only [declare, old, if_true]
    | production rule new => simp only [declare, new]

/-- Why tables refuse a declaration.  It gives another value to a key that has one, or
its number is taken. -/
inductive Refuses (tables : Tables) : Declaration → TableError → Prop where
  | action {state : State} {terminal : Symbol} {old new : Action}
      (taken : tables.action? state terminal = some old) (differs : old ≠ new) :
      Refuses tables (.action state terminal new) (.actionConflict state terminal old new)
  | goto {state old new : State} {nonTerminal : Symbol}
      (taken : tables.goto? state nonTerminal = some old) (differs : old ≠ new) :
      Refuses tables (.goto state nonTerminal new) (.gotoConflict state nonTerminal old new)
  | production {id : ProductionId} {old : Production} (rule : Production)
      (taken : tables.production? id = some old) :
      Refuses tables (.production id rule) (.duplicateProduction id)

theorem declare_eq_error_iff {tables : Tables} {declaration : Declaration} {error : TableError} :
    tables.declare declaration = .error error ↔ tables.Refuses declaration error := by
  constructor
  · intro h
    cases declaration with
    | endMarker terminal => cases h
    | action state terminal new =>
        cases taken : tables.action? state terminal with
        | none => simp only [declare, taken] at h; cases h
        | some old =>
            simp only [declare, taken] at h
            split at h
            · cases h
            · next differs =>
                obtain rfl := Except.error.inj h
                exact .action taken differs
    | goto state nonTerminal new =>
        cases taken : tables.goto? state nonTerminal with
        | none => simp only [declare, taken] at h; cases h
        | some old =>
            simp only [declare, taken] at h
            split at h
            · cases h
            · next differs =>
                obtain rfl := Except.error.inj h
                exact .goto taken differs
    | production id rule =>
        cases taken : tables.production? id with
        | none => simp only [declare, taken] at h; cases h
        | some old =>
            simp only [declare, taken] at h
            obtain rfl := Except.error.inj h
            exact .production rule taken
  · intro h
    cases h with
    | action taken differs => simp only [declare, taken, differs, if_false]
    | goto taken differs => simp only [declare, taken, differs, if_false]
    | production rule taken => simp only [declare, taken]

/-- Tables are extended by a declaration, or they refuse it and stay as they are. -/
theorem declareOrKeep_cases (tables : Tables) (declaration : Declaration) :
    tables.Extends declaration (tables.declareOrKeep declaration) ∨
      (∃ error, tables.Refuses declaration error) ∧ tables.declareOrKeep declaration = tables := by
  unfold declareOrKeep
  cases h : tables.declare declaration with
  | ok extended => exact .inl (declare_eq_ok_iff.1 h)
  | error error => exact .inr ⟨⟨error, declare_eq_error_iff.1 h⟩, rfl⟩

end Tables

/-! ## Declarations in order -/

namespace Tables

/-- The tables with declarations in order, unless one of them is refused. -/
def declareAll (tables : Tables) (declarations : List Declaration) : Except TableError Tables :=
  declarations.foldlM declare tables

variable {tables built : Tables} {declaration : Declaration}
  {declarations later : List Declaration}

@[simp] theorem declareAll_nil : tables.declareAll [] = .ok tables := rfl

theorem declareAll_cons :
    tables.declareAll (declaration :: declarations) =
      tables.declare declaration >>= fun extended => extended.declareAll declarations :=
  List.foldlM_cons

theorem declareAll_singleton : tables.declareAll [declaration] = tables.declare declaration := by
  rw [declareAll_cons]
  cases tables.declare declaration <;> rfl

theorem declareAll_append_eq_ok_iff :
    tables.declareAll (declarations ++ later) = .ok built ↔
      ∃ middle, tables.declareAll declarations = .ok middle ∧
        middle.declareAll later = .ok built := by
  rw [declareAll, List.foldlM_append]
  exact bind_eq_ok_iff

/-- What every declaration keeps is kept by all of them. -/
theorem declareAll_induction {P : Tables → Prop} (hstart : P tables)
    (hstep : ∀ t d extended, d ∈ declarations → P t → t.declare d = .ok extended → P extended)
    (h : tables.declareAll declarations = .ok built) : P built := by
  induction declarations generalizing tables with
  | nil => exact Except.ok.inj h ▸ hstart
  | cons d rest ih =>
      rw [declareAll_cons] at h
      obtain ⟨extended, hd, hrest⟩ := bind_eq_ok_iff.1 h
      refine ih (hstep tables d extended List.mem_cons_self hstart hd) ?_ hrest
      exact fun t d' extended hm => hstep t d' extended (List.mem_cons_of_mem _ hm)

end Tables

/-! ## Entries with new keys -/

theorem OrderedMap.eq_of_toList {κ ν : Type} {m m' : OrderedMap κ ν}
    (h : m.toList = m'.toList) : m = m' := by
  cases m
  cases m'
  simpa using h

namespace Tables

/-- Entries whose keys are new are declared one after the other at the end of their
map.  `place` puts a map at its place in the tables. -/
theorem declareAll_entries {κ ν : Type} [DecidableEq κ] (place : OrderedMap κ ν → Tables)
    (entry : κ × ν → Declaration)
    (hdeclare : ∀ m key value, m.get? key = none →
      (place m).declare (entry (key, value)) = .ok (place (m.insertIfNew key value)))
    (m extended : OrderedMap κ ν) {entries : List (κ × ν)}
    (h : extended.toList = m.toList ++ entries) :
    (place m).declareAll (entries.map entry) = .ok (place extended) := by
  induction entries generalizing m with
  | nil =>
      rw [List.append_nil] at h
      rw [OrderedMap.eq_of_toList h]
      rfl
  | cons first rest ih =>
      obtain ⟨key, value⟩ := first
      have hnew : key ∉ m.keys := by
        have hnodup := extended.nodup_keys
        rw [h, List.map_append, List.nodup_append] at hnodup
        exact fun hm => hnodup.2.2 key hm key (by simp) rfl
      have hinsert := OrderedMap.get?_eq_none_iff.2 hnew
      rw [List.map_cons, declareAll_cons, hdeclare m key value hinsert]
      refine ih _ ?_
      rw [OrderedMap.toList_insertIfNew value hinsert, h, List.append_assoc, List.singleton_append]

/-! ## Building the tables again -/

/-- The tables with their entries grouped by state. -/
def grouped (tables : Tables) : Tables :=
  { tables with actions := tables.actions.grouped, gotos := tables.gotos.grouped }

/-- No declaration of the tables is refused, and they build the tables with their
entries grouped. -/
theorem declareAll_declarations (tables : Tables) :
    empty.declareAll tables.declarations = .ok tables.grouped := by
  obtain ⟨actions, gotos, productions, endMarker⟩ := tables
  -- each part is declared on top of the parts before it, which stay as they are
  have hproductions := declareAll_entries
    (fun m => { productions := m, endMarker }) (fun entry => .production entry.1 entry.2)
    (fun _ _ value new => declare_eq_ok_iff.2 (.production value new))
    .empty productions rfl
  have hactions := declareAll_entries
    (fun m => { actions := m, productions, endMarker })
    (fun entry => .action entry.1.1 entry.1.2 entry.2)
    (fun _ _ value new => declare_eq_ok_iff.2 (.action value new))
    .empty actions.grouped rfl
  have hgotos := declareAll_entries
    (fun m => { actions := actions.grouped, gotos := m, productions, endMarker })
    (fun entry => .goto entry.1.1 entry.1.2 entry.2)
    (fun _ _ value new => declare_eq_ok_iff.2 (.goto value new))
    .empty gotos.grouped rfl
  rw [declarations, declareAll_cons]
  refine bind_eq_ok_iff.2 ⟨_, rfl, ?_⟩
  rw [declareAll_append_eq_ok_iff]
  refine ⟨_, declareAll_append_eq_ok_iff.2 ⟨_, hproductions, hactions⟩, hgotos⟩

end Tables

end ShiftReduce
