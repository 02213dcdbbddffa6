import Mathlib.Data.List.Perm.Subperm
import ShiftReduce.Proofs.Building

/-!
# Tables kept row by row

A map with two-part keys can be kept in *rows*.  Then the first part of a key finds a
row, and the second part finds a value in it.  To insert an entry is to open its row, a
new one if need be, and to look for the key there.  A value that is found stays, so the
map has been touched before an entry is refused.

Every map with two-part keys has its rows (`OrderedMap.inRows`), and it cannot be told
from them.  Both answer every look-up alike (`get?_inRows`), take a new entry alike
(`insert_inRows_of_new`), list their entries alike (`entries_inRows`) and compare alike
(`same_inRows`).  The last of these needs that no row is empty (`RowMap.Tidy`), and an
entry that is not taken leaves none behind (`insert_inRows_of_get?`).

`RowTables` are tables in rows, which are changed in place by every declaration.  Built
by the same declarations, they mirror the tables (`RowTables.mirrors_ofDeclarations`).
-/

namespace ShiftReduce

namespace OrderedMap

variable {κ ν : Type} [DecidableEq κ]

/-- Changes the value of a key, if it has one. -/
def modify (m : OrderedMap κ ν) (key : κ) (change : ν → ν) : OrderedMap κ ν where
  toList := m.toList.map fun entry =>
    (entry.1, if entry.1 = key then change entry.2 else entry.2)
  nodup_keys := by
    rw [List.map_map]
    exact m.nodup_keys

theorem toList_modify (m : OrderedMap κ ν) (key : κ) (change : ν → ν) :
    (m.modify key change).toList = m.toList.map fun entry =>
      (entry.1, if entry.1 = key then change entry.2 else entry.2) := rfl

/-- Whether two maps have as many entries, and each key of the first has values in both
that pass the test. -/
def agrees (test : ν → ν → Bool) (a b : OrderedMap κ ν) : Bool :=
  a.size == b.size && a.toList.all fun entry => (b.get? entry.1).any (test entry.2)

/-- Two maps agree exactly if they have the same keys, with values that pass the test. -/
theorem agrees_iff {test : ν → ν → Bool} {a b : OrderedMap κ ν} :
    a.agrees test b = true ↔ (∀ key, key ∈ a.keys ↔ key ∈ b.keys) ∧
      ∀ key v w, a.get? key = some v → b.get? key = some w → test v w = true := by
  simp only [agrees, Bool.and_eq_true, beq_iff_eq, List.all_eq_true, Option.any_eq_true]
  constructor
  · rintro ⟨hsize, htest⟩
    have hsubset : a.keys ⊆ b.keys := by
      intro key hkey
      obtain ⟨entry, hentry, rfl⟩ := List.mem_map.1 hkey
      obtain ⟨w, hw, -⟩ := htest entry hentry
      exact mem_keys_iff.2 ⟨w, hw⟩
    -- no fewer keys and each of them in the other map, so they are the same
    have hlength : b.keys.length ≤ a.keys.length := by
      simpa [keys, size] using Nat.le_of_eq hsize.symm
    have hperm := (List.subperm_of_subset a.nodup_keys hsubset).perm_of_length_le hlength
    refine ⟨fun key => hperm.mem_iff, fun key v w hv hw => ?_⟩
    obtain ⟨w', hw', hpass⟩ := htest (key, v) (get?_eq_some_iff.1 hv)
    rwa [Option.some.inj (hw.symm.trans hw')]
  · rintro ⟨hkeys, htest⟩
    constructor
    · have hperm := (List.perm_ext_iff_of_nodup a.nodup_keys b.nodup_keys).2 hkeys
      simpa [keys, size] using hperm.length_eq
    · rintro ⟨key, v⟩ hentry
      have hv := get?_eq_some_iff.2 hentry
      obtain ⟨w, hw⟩ := mem_keys_iff.1 ((hkeys key).1 (mem_keys_iff.2 ⟨v, hv⟩))
      exact ⟨w, hw, htest key v w hv hw⟩

/-- Two maps agree in their values exactly if they answer every look-up alike. -/
theorem agrees_eq_iff [DecidableEq ν] {a b : OrderedMap κ ν} :
    a.agrees (fun v w => v = w) b = true ↔ ∀ key, a.get? key = b.get? key := by
  simp only [agrees_iff, mem_keys_iff, decide_eq_true_eq]
  constructor
  · rintro ⟨hkeys, hvalues⟩ key
    cases ha : a.get? key with
    | some v =>
        obtain ⟨w, hw⟩ := (hkeys key).1 ⟨v, ha⟩
        rw [hvalues key v w ha hw, hw]
    | none =>
        cases hb : b.get? key with
        | none => rfl
        | some w =>
            obtain ⟨v, hv⟩ := (hkeys key).2 ⟨w, hb⟩
            rw [ha] at hv
            cases hv
  · intro h
    refine ⟨fun key => by rw [h key], fun key v w hv hw => ?_⟩
    exact Option.some.inj (hv.symm.trans ((h key).trans hw))

end OrderedMap

/-! ## Maps in rows -/

/-- A map with two-part keys that is kept row by row. -/
structure RowMap (ρ κ ν : Type) where
  rows : OrderedMap ρ (OrderedMap κ ν)

namespace RowMap

variable {ρ κ ν : Type} [DecidableEq ρ] [DecidableEq κ]

/-- The map without rows. -/
def empty : RowMap ρ κ ν := ⟨.empty⟩

/-- The value of a key in a row. -/
def get? (m : RowMap ρ κ ν) (row : ρ) (key : κ) : Option ν :=
  (m.rows.get? row).bind fun entries => entries.get? key

/-- Opens a row, which is empty if it is new. -/
def openRow (m : RowMap ρ κ ν) (row : ρ) : RowMap ρ κ ν := ⟨m.rows.insertIfNew row .empty⟩

/-- Opens the row and then looks for the key in it.  A value that the key has already
stays, and is given back. -/
def insert (m : RowMap ρ κ ν) (row : ρ) (key : κ) (value : ν) : Option ν × RowMap ρ κ ν :=
  let opened := m.openRow row
  match opened.get? row key with
  | some old => (some old, opened)
  | none => (none, ⟨opened.rows.modify row fun entries => entries.insertIfNew key value⟩)

/-- The entries, row by row. -/
def entries (m : RowMap ρ κ ν) : List ((ρ × κ) × ν) :=
  m.rows.toList.flatMap fun row => row.2.toList.map fun entry => ((row.1, entry.1), entry.2)

/-- Whether two maps have as many rows, and each row of the first is equal to one of the
second. -/
def same [DecidableEq ν] (a b : RowMap ρ κ ν) : Bool :=
  a.rows.agrees (fun entries entries' => entries.agrees (fun v w => v = w) entries') b.rows

/-- No row is empty. -/
def Tidy (m : RowMap ρ κ ν) : Prop := ∀ row entries, m.rows.get? row = some entries →
  ∃ key value, entries.get? key = some value

/-- To open a row answers no look-up. -/
theorem get?_openRow (m : RowMap ρ κ ν) (row row' : ρ) (key : κ) :
    (m.openRow row).get? row' key = m.get? row' key := by
  simp only [get?, openRow, OrderedMap.get?_insertIfNew]
  cases m.rows.get? row' with
  | some entries => rfl
  | none => by_cases h : row' = row <;> simp [h]

/-- A map without empty rows has a row exactly if a look-up finds something in it. -/
theorem Tidy.mem_keys_iff {m : RowMap ρ κ ν} (h : m.Tidy) {row : ρ} :
    row ∈ m.rows.keys ↔ ∃ key value, m.get? row key = some value := by
  rw [OrderedMap.mem_keys_iff]
  constructor
  · rintro ⟨entries, hrow⟩
    obtain ⟨key, value, hvalue⟩ := h row entries hrow
    refine ⟨key, value, ?_⟩
    rw [get?, hrow, Option.bind_some, hvalue]
  · rintro ⟨key, value, hvalue⟩
    obtain ⟨entries, hrow, -⟩ := Option.bind_eq_some_iff.1 hvalue
    exact ⟨entries, hrow⟩

/-- Maps without empty rows are the same exactly if they answer every look-up alike. -/
theorem same_iff_get? [DecidableEq ν] {a b : RowMap ρ κ ν} (ha : a.Tidy) (hb : b.Tidy) :
    a.same b = true ↔ ∀ row key, a.get? row key = b.get? row key := by
  rw [same, OrderedMap.agrees_iff]
  simp only [OrderedMap.agrees_eq_iff]
  constructor
  · rintro ⟨hrows, hentries⟩ row key
    cases hrow : a.rows.get? row with
    | some entries =>
        obtain ⟨entries', hrow'⟩ := OrderedMap.mem_keys_iff.1
          ((hrows row).1 (OrderedMap.mem_keys_iff.2 ⟨entries, hrow⟩))
        simp only [get?, hrow, hrow', Option.bind_some]
        exact hentries row entries entries' hrow hrow' key
    | none =>
        have hrow' := OrderedMap.get?_eq_none_iff.2
          (mt (hrows row).2 (OrderedMap.get?_eq_none_iff.1 hrow))
        simp only [get?, hrow, hrow']
  · intro h
    refine ⟨fun row => by simp only [ha.mem_keys_iff, hb.mem_keys_iff, h], ?_⟩
    intro row entries entries' hrow hrow' key
    have hkey := h row key
    simpa only [get?, hrow, hrow', Option.bind_some] using hkey

/-- An empty row makes a difference that no look-up tells. -/
example : ((empty : RowMap Nat Nat Nat).openRow 0).same empty = false := by decide

end RowMap

/-! ## The rows of a map -/

namespace OrderedMap

section View

variable {ρ κ ν : Type} [DecidableEq ρ] {m : OrderedMap (ρ × κ) ν} {row : ρ}

/-- The entries of one row, in their order. -/
def rowAt (m : OrderedMap (ρ × κ) ν) (row : ρ) : OrderedMap κ ν where
  toList := (m.toList.filter fun entry => entry.1.1 = row).map fun entry => (entry.1.2, entry.2)
  nodup_keys := by
    have hkeys : ((m.toList.filter fun entry => entry.1.1 = row).map Prod.fst).Nodup :=
      m.nodup_keys.sublist (List.filter_sublist.map Prod.fst)
    have hrow : ∀ key ∈ (m.toList.filter fun entry => entry.1.1 = row).map Prod.fst,
        key.1 = row := by
      simp
    have hsnd := hkeys.map_on fun key hkey key' hkey' (he : key.2 = key'.2) =>
      Prod.ext ((hrow key hkey).trans (hrow key' hkey').symm) he
    rw [List.map_map] at hsnd ⊢
    exact hsnd

/-- The map, kept row by row. -/
def inRows (m : OrderedMap (ρ × κ) ν) : RowMap ρ κ ν where
  rows :=
    { toList := m.rows.map fun row => (row, m.rowAt row)
      nodup_keys := by
        rw [List.map_map]
        exact (List.map_id m.rows).symm ▸ m.nodup_rows }

theorem toList_inRows (m : OrderedMap (ρ × κ) ν) :
    m.inRows.rows.toList = m.rows.map fun row => (row, m.rowAt row) := rfl

theorem rowAt_eq_empty (h : row ∉ m.rows) : m.rowAt row = .empty := by
  refine eq_of_toList (List.map_eq_nil_iff.2 (List.filter_eq_nil_iff.2 fun entry hentry he => h ?_))
  exact mem_rows.2 ⟨entry, hentry, of_decide_eq_true he⟩

theorem get?_rows_inRows (m : OrderedMap (ρ × κ) ν) (row : ρ) :
    m.inRows.rows.get? row = if row ∈ m.rows then some (m.rowAt row) else none := by
  split
  · next h => exact get?_eq_some_iff.2 (List.mem_map_of_mem h)
  · next h =>
      rw [get?_eq_none_iff]
      simpa [keys, toList_inRows] using h

/-- The rows list the entries as the map does. -/
theorem entries_inRows (m : OrderedMap (ρ × κ) ν) : m.inRows.entries = m.byRow := by
  rw [byRow_eq, RowMap.entries, toList_inRows, List.flatMap_map]
  refine List.flatMap_congr fun row _ => ?_
  have hentry : ∀ entry ∈ m.toList.filter (fun entry => entry.1.1 = row),
      ((row, entry.1.2), entry.2) = id entry := by
    intro entry hm
    obtain rfl := of_decide_eq_true (List.mem_filter.1 hm).2
    rfl
  rw [rowAt, List.map_map]
  exact (List.map_congr_left hentry).trans (List.map_id _)

/-- To open a row changes nothing, or the row is new and empty. -/
theorem toList_openRow_inRows (m : OrderedMap (ρ × κ) ν) (row : ρ) :
    (m.inRows.openRow row).rows.toList =
      (if row ∈ m.rows then m.rows else m.rows ++ [row]).map fun row => (row, m.rowAt row) := by
  have hrow := m.get?_rows_inRows row
  split at hrow
  · next h => rw [RowMap.openRow, insertIfNew_of_get? _ (by simp [hrow]), if_pos h, toList_inRows]
  · next h =>
      rw [RowMap.openRow, toList_insertIfNew _ hrow, if_neg h, List.map_append, toList_inRows]
      simp [rowAt_eq_empty h]

end View

section LookUp

variable {ρ κ ν : Type} [DecidableEq ρ] [DecidableEq κ] {m : OrderedMap (ρ × κ) ν} {row : ρ}
  {key : κ}

theorem get?_rowAt (m : OrderedMap (ρ × κ) ν) (row : ρ) (key : κ) :
    (m.rowAt row).get? key = m.get? (row, key) := by
  refine Option.ext fun value => ?_
  rw [get?_eq_some_iff, get?_eq_some_iff]
  simp [rowAt]

theorem mem_rows_iff : row ∈ m.rows ↔ ∃ key value, m.get? (row, key) = some value := by
  simp only [mem_rows, get?_eq_some_iff]
  constructor
  · rintro ⟨⟨⟨_, key⟩, value⟩, hentry, rfl⟩
    exact ⟨key, value, hentry⟩
  · rintro ⟨key, value, hentry⟩
    exact ⟨_, hentry, rfl⟩

/-- The rows answer every look-up as the map does. -/
theorem get?_inRows (m : OrderedMap (ρ × κ) ν) (row : ρ) (key : κ) :
    m.inRows.get? row key = m.get? (row, key) := by
  rw [RowMap.get?, get?_rows_inRows, ← get?_rowAt]
  split
  · rfl
  · next h =>
      rw [rowAt_eq_empty h]
      rfl

theorem tidy_inRows (m : OrderedMap (ρ × κ) ν) : m.inRows.Tidy := by
  intro row entries hrow
  rw [get?_rows_inRows] at hrow
  split at hrow
  · next h =>
      obtain rfl := Option.some.inj hrow
      simpa only [get?_rowAt] using mem_rows_iff.1 h
  · cases hrow

/-- The rows are compared as the maps are. -/
theorem same_inRows [DecidableEq ν] (a b : OrderedMap (ρ × κ) ν) :
    a.inRows.same b.inRows = a.sameEntries b := by
  rw [Bool.eq_iff_iff, RowMap.same_iff_get? a.tidy_inRows b.tidy_inRows, sameEntries_iff_get?]
  simp only [get?_inRows, Prod.forall]

/-! ### Insertion -/

theorem rows_insertIfNew (value : ν) (h : m.get? (row, key) = none) :
    (m.insertIfNew (row, key) value).rows =
      if row ∈ m.rows then m.rows else m.rows ++ [row] := by
  simp only [rows, keys, toList_insertIfNew value h, List.map_append, List.map_cons, List.map_nil,
    eraseDups_concat, List.mem_eraseDups]

theorem rowAt_insertIfNew (value : ν) (h : m.get? (row, key) = none) (row' : ρ) :
    (m.insertIfNew (row, key) value).rowAt row' =
      if row' = row then (m.rowAt row').insertIfNew key value else m.rowAt row' := by
  refine eq_of_toList ?_
  split
  · next he =>
      subst he
      rw [toList_insertIfNew value ((m.get?_rowAt row' key).trans h)]
      simp [rowAt, toList_insertIfNew value h]
  · next he => simp [rowAt, toList_insertIfNew value h, Ne.symm he]

/-- The rows take a new entry as the map does. -/
theorem insert_inRows_of_new (value : ν) (h : m.get? (row, key) = none) :
    m.inRows.insert row key value = (none, (m.insertIfNew (row, key) value).inRows) := by
  have hrows : (m.inRows.openRow row).rows.modify row (fun entries =>
      entries.insertIfNew key value) = (m.insertIfNew (row, key) value).inRows.rows := by
    refine eq_of_toList ?_
    rw [toList_modify, toList_openRow_inRows, toList_inRows, rows_insertIfNew value h,
      List.map_map]
    simp only [rowAt_insertIfNew value h, Function.comp_def]
  simp only [RowMap.insert, RowMap.get?_openRow, get?_inRows, h]
  exact congrArg (fun rows => (none, RowMap.mk rows)) hrows

/-- The rows do not take an entry whose key has a value, and no row stays open for it. -/
theorem insert_inRows_of_get? {old : ν} (value : ν) (h : m.get? (row, key) = some old) :
    m.inRows.insert row key value = (some old, m.inRows) := by
  have hrows : (m.inRows.openRow row).rows = m.inRows.rows := by
    refine eq_of_toList ?_
    rw [toList_openRow_inRows, if_pos (mem_rows_iff.2 ⟨key, old, h⟩), toList_inRows]
  simp only [RowMap.insert, RowMap.get?_openRow, get?_inRows, h]
  exact congrArg (fun rows => (some old, RowMap.mk rows)) hrows

end LookUp

end OrderedMap

/-! ## Tables in rows -/

/-- Tables with a row for each state. -/
structure RowTables where
  actions : RowMap State Symbol Action := .empty
  gotos : RowMap State Symbol State := .empty
  productions : OrderedMap ProductionId Production := .empty
  endMarker : Symbol := "$"

namespace RowTables

/-- The tables without rows, with `$` as the end-marker. -/
def empty : RowTables := {}

/-- Makes a declaration.  What has been changed when it is refused stays changed. -/
def declare (tables : RowTables) : Declaration → Option TableError × RowTables
  | .endMarker terminal => (none, { tables with endMarker := terminal })
  | .action state terminal new =>
    let (old?, actions) := tables.actions.insert state terminal new
    (old?.bind fun old => if old = new then none else some (.actionConflict state terminal old new),
      { tables with actions })
  | .goto state nonTerminal new =>
    let (old?, gotos) := tables.gotos.insert state nonTerminal new
    (old?.bind fun old =>
        if old = new then none else some (.gotoConflict state nonTerminal old new),
      { tables with gotos })
  | .production id rule =>
    if (tables.productions.get? id).isSome then (some (.duplicateProduction id), tables)
    else (none, { tables with productions := tables.productions.insertIfNew id rule })

/-- The tables that declarations leave in order, whether they are refused or not. -/
def ofDeclarations (declarations : List Declaration) : RowTables :=
  declarations.foldl (fun tables declaration => (tables.declare declaration).2) empty

/-- Whether two tables have the same end-marker, equal rows and equal productions. -/
def same (a b : RowTables) : Bool :=
  a.actions.same b.actions && a.gotos.same b.gotos &&
    a.productions.agrees (fun rule rule' => rule = rule') b.productions &&
    decide (a.endMarker = b.endMarker)

end RowTables

namespace Tables

/-- The tables, kept row by row. -/
def inRows (tables : Tables) : RowTables where
  actions := tables.actions.inRows
  gotos := tables.gotos.inRows
  productions := tables.productions
  endMarker := tables.endMarker

variable {tables extended : Tables} {declaration : Declaration} {error : TableError}

/-- A declaration that extends tables extends their rows in the same way. -/
theorem Extends.declare_inRows (h : tables.Extends declaration extended) :
    tables.inRows.declare declaration = (none, extended.inRows) := by
  cases h with
  | endMarker terminal => rfl
  | action what new =>
      have hinsert := OrderedMap.insert_inRows_of_new what new
      simp only [inRows, RowTables.declare, hinsert, Option.bind_none]
  | @actionAgain state terminal what old =>
      have hinsert := OrderedMap.insert_inRows_of_get? what old
      simp only [inRows, RowTables.declare, hinsert, Option.bind_some, if_true]
  | goto next new =>
      have hinsert := OrderedMap.insert_inRows_of_new next new
      simp only [inRows, RowTables.declare, hinsert, Option.bind_none]
  | @gotoAgain state next nonTerminal old =>
      have hinsert := OrderedMap.insert_inRows_of_get? next old
      simp only [inRows, RowTables.declare, hinsert, Option.bind_some, if_true]
  | production rule new =>
      rw [production?] at new
      simp only [inRows, RowTables.declare, new, Option.isSome_none, Bool.false_eq_true, if_false]

/-- A declaration that tables refuse is refused by their rows, which are left as they
were. -/
theorem Refuses.declare_inRows (h : tables.Refuses declaration error) :
    tables.inRows.declare declaration = (some error, tables.inRows) := by
  cases h with
  | @action state terminal old new taken differs =>
      have hinsert := OrderedMap.insert_inRows_of_get? new taken
      simp only [inRows, RowTables.declare, hinsert, Option.bind_some, differs, if_false]
  | @goto state old new nonTerminal taken differs =>
      have hinsert := OrderedMap.insert_inRows_of_get? new taken
      simp only [inRows, RowTables.declare, hinsert, Option.bind_some, differs, if_false]
  | production rule taken =>
      rw [production?] at taken
      simp only [inRows, RowTables.declare, taken, Option.isSome_some, if_true]

/-- The rows of tables are compared as the tables are. -/
theorem same_inRows (a b : Tables) : a.inRows.same b.inRows = a.same b := by
  have hproductions : a.productions.agrees (fun rule rule' => rule = rule') b.productions =
      a.productions.sameEntries b.productions := by
    rw [Bool.eq_iff_iff, OrderedMap.agrees_eq_iff, OrderedMap.sameEntries_iff_get?]
  rw [same, ← OrderedMap.same_inRows a.actions, ← OrderedMap.same_inRows a.gotos, ← hproductions]
  rfl

end Tables

namespace RowTables

/-- The rows of the tables, which take and refuse the same declarations. -/
structure Mirrors (rows : RowTables) (tables : Tables) : Prop where
  eq : rows = tables.inRows
  accepts : ∀ declaration extended, tables.declare declaration = .ok extended →
    rows.declare declaration = (none, extended.inRows)
  refuses : ∀ declaration error, tables.declare declaration = .error error →
    rows.declare declaration = (some error, rows)

theorem mirrors_inRows (tables : Tables) : tables.inRows.Mirrors tables where
  eq := rfl
  accepts _ _ h := (Tables.declare_eq_ok_iff.1 h).declare_inRows
  refuses _ _ h := (Tables.declare_eq_error_iff.1 h).declare_inRows

theorem ofDeclarations_eq_inRows (declarations : List Declaration) :
    ofDeclarations declarations = (Tables.ofDeclarations declarations).inRows := by
  induction declarations using List.reverseRecOn with
  | nil => rfl
  | append_singleton front last ih =>
      rw [ofDeclarations, Tables.ofDeclarations, List.foldl_concat, List.foldl_concat,
        ← ofDeclarations, ← Tables.ofDeclarations, ih]
      rcases Tables.declareOrKeep_cases (Tables.ofDeclarations front) last with
        h | ⟨⟨error, h⟩, hkeep⟩
      · rw [h.declare_inRows]
      · rw [h.declare_inRows, hkeep]

/-- Rows and tables that are built by the same declarations cannot be told apart. -/
theorem mirrors_ofDeclarations (declarations : List Declaration) :
    (ofDeclarations declarations).Mirrors (Tables.ofDeclarations declarations) := by
  rw [ofDeclarations_eq_inRows]
  exact mirrors_inRows _

end RowTables

end ShiftReduce
