import ShiftReduce.Proofs.Reordering

/-!
# What tables list

Tables can be asked in four ways.  They list their entries, they answer look-ups, they
say how many entries they have, and whether they have any.  Each of these goes over the
entries in its own way, and tables in rows have other ways still.

All of them tell the same, the *history* of the tables (`Views.Tell`).  The history has
everything that was declared, also what was refused and what was repeated.  An entry
counts if it is the first with its key.  A listing has these entries and no others.  It
has them row by row, the rows in the order in which they came up, and each row in the
order of its history.

The invariant is that a new entry either comes behind all others or goes to a row whose
place stays (`OrderedMap.rows_ofHistory`, `OrderedMap.toList_ofHistory`).
-/

namespace ShiftReduce

/-! ## Histories -/

section Histories

variable {κ ν : Type} [DecidableEq κ]

/-- The entries that are the first with their key, without those whose key was seen
before. -/
def firstsAfter (seen : List κ) : List (κ × ν) → List (κ × ν)
  | [] => []
  | entry :: rest =>
    if entry.1 ∈ seen then firstsAfter seen rest
    else entry :: firstsAfter (entry.1 :: seen) rest

/-- The entries of a history that are the first with their key. -/
def firsts (history : List (κ × ν)) : List (κ × ν) := firstsAfter [] history

theorem firstsAfter_concat (seen : List κ) (front : List (κ × ν)) (last : κ × ν) :
    firstsAfter seen (front ++ [last]) =
      firstsAfter seen front ++
        if last.1 ∈ seen ∨ last.1 ∈ front.map Prod.fst then [] else [last] := by
  induction front generalizing seen with
  | nil =>
      by_cases hseen : last.1 ∈ seen
      · simp [firstsAfter, hseen]
      · simp [firstsAfter, hseen]
  | cons entry rest ih =>
      rw [List.cons_append, firstsAfter, firstsAfter]
      by_cases hseen : entry.1 ∈ seen
      · have hlast : last.1 ∈ seen ∨ last.1 ∈ rest.map Prod.fst ↔
            last.1 ∈ seen ∨ last.1 ∈ (entry :: rest).map Prod.fst := by
          rw [List.map_cons, List.mem_cons]
          constructor
          · exact Or.imp_right .inr
          · rintro (h | h | h)
            · exact .inl h
            · exact .inl (h ▸ hseen)
            · exact .inr h
        rw [if_pos hseen, if_pos hseen, ih, if_congr hlast rfl rfl]
      · have hlast : last.1 ∈ entry.1 :: seen ∨ last.1 ∈ rest.map Prod.fst ↔
            last.1 ∈ seen ∨ last.1 ∈ (entry :: rest).map Prod.fst := by
          rw [List.map_cons, List.mem_cons, List.mem_cons, or_comm (a := last.1 = entry.1),
            or_assoc]
        rw [if_neg hseen, if_neg hseen, ih, if_congr hlast rfl rfl, List.cons_append]

theorem firsts_concat (front : List (κ × ν)) (last : κ × ν) :
    firsts (front ++ [last]) =
      firsts front ++ if last.1 ∈ front.map Prod.fst then [] else [last] := by
  rw [firsts, firstsAfter_concat]
  simp only [List.not_mem_nil, false_or]
  rfl

/-- What comes up first stands first. -/
theorem pairwise_idxOf_eraseDups (list : List κ) :
    list.eraseDups.Pairwise fun x y => list.idxOf x < list.idxOf y := by
  induction list using List.reverseRecOn with
  | nil => exact .nil
  | append_singleton front last ih =>
      have hfront : front.eraseDups.Pairwise fun x y =>
          (front ++ [last]).idxOf x < (front ++ [last]).idxOf y := by
        refine ih.imp_of_mem fun hx hy hlt => ?_
        rwa [List.idxOf_append_of_mem (List.mem_eraseDups.1 hx),
          List.idxOf_append_of_mem (List.mem_eraseDups.1 hy)]
      rw [OrderedMap.eraseDups_concat]
      split
      · exact hfront
      · next hnew =>
          rw [List.pairwise_append]
          refine ⟨hfront, List.pairwise_singleton _ _, fun x hx y hy => ?_⟩
          have hx := List.mem_eraseDups.1 hx
          rw [List.mem_singleton.1 hy, List.idxOf_append_of_mem hx,
            List.idxOf_append_of_notMem hnew]
          exact Nat.lt_of_lt_of_le (List.idxOf_lt_length_iff.2 hx) (Nat.le_add_right _ _)

end Histories

/-! ## Views -/

/-- What a map with two-part keys shows from outside. -/
structure Views (ρ κ ν : Type) where
  listing : List ((ρ × κ) × ν)
  get? : ρ → κ → Option ν
  size : Nat
  isEmpty : Bool

/-- The row of each entry of a history. -/
def rowHistory {ρ κ ν : Type} (history : List ((ρ × κ) × ν)) : List ρ :=
  history.map fun entry => entry.1.1

/-- The views tell which entries were the first with their key.  They are listed row by
row, the rows in the order in which they came up, and each row in its own order. -/
structure Views.Tell {ρ κ ν : Type} [DecidableEq ρ] [DecidableEq κ]
    (history : List ((ρ × κ) × ν)) (views : Views ρ κ ν) : Prop where
  entries : views.listing.Perm (firsts history)
  rows : views.listing.Pairwise fun entry later =>
    (rowHistory history).idxOf entry.1.1 ≤ (rowHistory history).idxOf later.1.1
  row : ∀ row, views.listing.filter (fun entry => entry.1.1 = row) =
    (firsts history).filter fun entry => entry.1.1 = row
  nodup : (views.listing.map Prod.fst).Nodup
  get? : ∀ row key value, views.get? row key = some value ↔ ((row, key), value) ∈ views.listing
  size : views.size = views.listing.length
  isEmpty : views.isEmpty = true ↔ views.listing = []

namespace RowMap

variable {ρ κ ν : Type}

/-- The number of entries, added up over the rows. -/
def size (m : RowMap ρ κ ν) : Nat :=
  m.rows.toList.foldr (fun row total => row.2.size + total) 0

/-- Whether there is no entry.  A map of empty rows has none. -/
def isEmpty (m : RowMap ρ κ ν) : Bool := m.size == 0

def views [DecidableEq ρ] [DecidableEq κ] (m : RowMap ρ κ ν) : Views ρ κ ν :=
  ⟨m.entries, m.get?, m.size, m.isEmpty⟩

theorem size_eq_length_entries (m : RowMap ρ κ ν) : m.size = m.entries.length := by
  unfold size entries
  induction m.rows.toList with
  | nil => rfl
  | cons row rest ih =>
      rw [List.foldr_cons, ih, List.flatMap_cons, List.length_append, List.length_map]
      rfl

end RowMap

namespace OrderedMap

section Map

variable {κ ν : Type} [DecidableEq κ]

/-- The map of a history. -/
def ofHistory (history : List (κ × ν)) : OrderedMap κ ν :=
  history.foldl (fun m entry => m.insertIfNew entry.1 entry.2) .empty

theorem ofHistory_concat (front : List (κ × ν)) (last : κ × ν) :
    ofHistory (front ++ [last]) = (ofHistory front).insertIfNew last.1 last.2 :=
  List.foldl_concat ..

theorem mem_keys_ofHistory {key : κ} (history : List (κ × ν)) :
    key ∈ (ofHistory history).keys ↔ key ∈ history.map Prod.fst := by
  induction history using List.reverseRecOn with
  | nil => rfl
  | append_singleton front last ih =>
      rw [ofHistory_concat, List.map_append, List.mem_append, ← ih, mem_keys_iff, mem_keys_iff]
      simp only [get?_insertIfNew]
      cases (ofHistory front).get? key with
      | some value => simp
      | none => simp

theorem get?_ofHistory_eq_none_iff {key : κ} (history : List (κ × ν)) :
    (ofHistory history).get? key = none ↔ key ∉ history.map Prod.fst := by
  rw [get?_eq_none_iff, mem_keys_ofHistory]

/-- The map of a history keeps the first entry of each key, in order. -/
theorem toList_ofHistory (history : List (κ × ν)) :
    (ofHistory history).toList = firsts history := by
  induction history using List.reverseRecOn with
  | nil => rfl
  | append_singleton front last ih =>
      rw [ofHistory_concat, firsts_concat, ← ih]
      split
      · next hold =>
          have hget := mt (get?_ofHistory_eq_none_iff front).1 (not_not_intro hold)
          rw [insertIfNew_of_get? _ hget, List.append_nil]
      · next hnew =>
          rw [toList_insertIfNew _ ((get?_ofHistory_eq_none_iff front).2 hnew)]

end Map

section Rows

variable {ρ κ ν : Type} [DecidableEq ρ] [DecidableEq κ]

/-- A row comes up with its first entry and keeps its place. -/
theorem rows_ofHistory (history : List ((ρ × κ) × ν)) :
    (ofHistory history).rows = (rowHistory history).eraseDups := by
  induction history using List.reverseRecOn with
  | nil => rfl
  | append_singleton front last ih =>
      have hrow : last.1.1 ∈ rowHistory front ↔ last.1.1 ∈ (ofHistory front).rows := by
        rw [ih, List.mem_eraseDups]
      rw [ofHistory_concat, rowHistory, List.map_append, List.map_cons, List.map_nil,
        ← rowHistory, eraseDups_concat, ← ih, if_congr hrow rfl rfl]
      cases hget : (ofHistory front).get? last.1 with
      | none => exact rows_insertIfNew last.2 hget
      | some old =>
          have hold := hget.trans_ne (Option.some_ne_none old)
          rw [insertIfNew_of_get? last.2 hold, if_pos (mem_rows_iff.2 ⟨_, _, hget⟩)]

/-- A map is listed row by row, the rows in the order in which they came up. -/
theorem pairwise_byRow_ofHistory (history : List ((ρ × κ) × ν)) :
    (ofHistory history).byRow.Pairwise fun entry later =>
      (rowHistory history).idxOf entry.1.1 ≤ (rowHistory history).idxOf later.1.1 := by
  have hrows := pairwise_idxOf_eraseDups (rowHistory history)
  rw [← rows_ofHistory] at hrows
  rw [byRow_eq, List.pairwise_flatMap]
  constructor
  · intro row _
    refine List.pairwise_of_forall_mem_list fun entry hm later hm' => ?_
    have hentry : entry.1.1 = row := of_decide_eq_true (List.mem_filter.1 hm).2
    have hlater : later.1.1 = row := of_decide_eq_true (List.mem_filter.1 hm').2
    exact Nat.le_of_eq (by rw [hentry, hlater])
  · refine hrows.imp fun hlt entry hm later hm' => ?_
    rw [of_decide_eq_true (List.mem_filter.1 hm).2, of_decide_eq_true (List.mem_filter.1 hm').2]
    exact Nat.le_of_lt hlt

omit [DecidableEq κ] in
theorem byRow_eq_nil_iff {m : OrderedMap (ρ × κ) ν} : m.byRow = [] ↔ m.toList = [] := by
  rw [← List.length_eq_zero_iff, ← List.length_eq_zero_iff, m.perm_byRow.length_eq]

def views (m : OrderedMap (ρ × κ) ν) : Views ρ κ ν :=
  ⟨m.byRow, fun row key => m.get? (row, key), m.size, m.isEmpty⟩

theorem tell_ofHistory (history : List ((ρ × κ) × ν)) :
    (ofHistory history).views.Tell history where
  entries := toList_ofHistory history ▸ perm_byRow _
  rows := pairwise_byRow_ofHistory history
  row row := toList_ofHistory history ▸ filter_byRow _ row
  nodup := ((perm_byRow _).map Prod.fst).nodup_iff.2 (nodup_keys _)
  get? _ _ _ := get?_eq_some_iff.trans mem_byRow.symm
  size := (perm_byRow _).length_eq.symm
  isEmpty := List.isEmpty_iff.trans byRow_eq_nil_iff.symm

/-- A map and its rows show the same. -/
theorem views_inRows (m : OrderedMap (ρ × κ) ν) : m.inRows.views = m.views := by
  have hsize : m.inRows.size = m.size := by
    rw [RowMap.size_eq_length_entries, entries_inRows]
    exact m.perm_byRow.length_eq
  have hempty : m.inRows.isEmpty = m.isEmpty := by
    rw [RowMap.isEmpty, hsize, Bool.eq_iff_iff, beq_iff_eq, isEmpty, List.isEmpty_iff]
    exact List.length_eq_zero_iff
  rw [RowMap.views, views, entries_inRows, hsize, hempty]
  exact congrArg (fun get? => Views.mk m.byRow get? m.size m.isEmpty)
    (funext fun row => funext fun key => get?_inRows m row key)

end Rows

end OrderedMap

/-! ## Tables -/

namespace Declaration

/-- The action that is declared, with its key. -/
def asAction? : Declaration → Option ((State × Symbol) × Action)
  | .action state terminal what => some ((state, terminal), what)
  | .goto .. | .production .. | .endMarker .. => none

/-- The goto that is declared, with its key. -/
def asGoto? : Declaration → Option ((State × Symbol) × State)
  | .goto state nonTerminal next => some ((state, nonTerminal), next)
  | .action .. | .production .. | .endMarker .. => none

/-- The production that is declared, with its number. -/
def asProduction? : Declaration → Option (ProductionId × Production)
  | .production id rule => some (id, rule)
  | .action .. | .goto .. | .endMarker .. => none

end Declaration

namespace Tables

/-- What tables show is what the declarations made in this order come to, those included
that were refused. -/
structure TellHistory (declarations : List Declaration) (tables : Tables) : Prop where
  actions : tables.actions.views.Tell (declarations.filterMap Declaration.asAction?)
  gotos : tables.gotos.views.Tell (declarations.filterMap Declaration.asGoto?)
  productions : tables.productions.toList =
    firsts (declarations.filterMap Declaration.asProduction?)
  nodup : (tables.productions.toList.map Prod.fst).Nodup
  production : ∀ id rule, tables.production? id = some rule ↔
    (id, rule) ∈ tables.productions.toList
  /-- A production that keeps its symbols has as many as its size says. -/
  kept : ∀ entry ∈ tables.productions.toList, ∀ list, entry.2.rhs = .symbols list →
    entry.2.size = list.length
  inRows : RowTables.ofDeclarations declarations = tables.inRows
  actionRows : tables.inRows.actions.views = tables.actions.views
  gotoRows : tables.inRows.gotos.views = tables.gotos.views

/-- A part of the tables that takes entries from declarations is the map of these
entries. -/
theorem part_ofDeclarations {κ ν : Type} [DecidableEq κ] (part : Tables → OrderedMap κ ν)
    (given? : Declaration → Option (κ × ν)) (hempty : part empty = .empty)
    (hstep : ∀ tables declaration, part (tables.declareOrKeep declaration) =
      match given? declaration with
      | some entry => (part tables).insertIfNew entry.1 entry.2
      | none => part tables)
    (declarations : List Declaration) :
    part (ofDeclarations declarations) = .ofHistory (declarations.filterMap given?) := by
  induction declarations using List.reverseRecOn with
  | nil => exact hempty
  | append_singleton front last ih =>
      rw [ofDeclarations_concat, hstep, ih, List.filterMap_append, List.filterMap_cons,
        List.filterMap_nil]
      cases given? last with
      | none => rw [List.append_nil]
      | some entry => rw [OrderedMap.ofHistory_concat]

theorem actions_ofDeclarations (declarations : List Declaration) :
    (ofDeclarations declarations).actions =
      .ofHistory (declarations.filterMap Declaration.asAction?) := by
  refine part_ofDeclarations _ _ rfl (fun tables declaration => ?_) declarations
  cases declaration with
  | action | goto | production | endMarker => simp [Declaration.asAction?]

theorem gotos_ofDeclarations (declarations : List Declaration) :
    (ofDeclarations declarations).gotos =
      .ofHistory (declarations.filterMap Declaration.asGoto?) := by
  refine part_ofDeclarations _ _ rfl (fun tables declaration => ?_) declarations
  cases declaration with
  | action | goto | production | endMarker => simp [Declaration.asGoto?]

theorem productions_ofDeclarations (declarations : List Declaration) :
    (ofDeclarations declarations).productions =
      .ofHistory (declarations.filterMap Declaration.asProduction?) := by
  refine part_ofDeclarations _ _ rfl (fun tables declaration => ?_) declarations
  cases declaration with
  | action | goto | production | endMarker => simp [Declaration.asProduction?]

theorem tellHistory_ofDeclarations (declarations : List Declaration) :
    (ofDeclarations declarations).TellHistory declarations where
  actions := actions_ofDeclarations declarations ▸ OrderedMap.tell_ofHistory _
  gotos := gotos_ofDeclarations declarations ▸ OrderedMap.tell_ofHistory _
  productions := productions_ofDeclarations declarations ▸ OrderedMap.toList_ofHistory _
  nodup := OrderedMap.nodup_keys _
  production _ _ := OrderedMap.get?_eq_some_iff
  kept := by
    rintro ⟨id, lhs, rhs⟩ - list rfl
    rfl
  inRows := RowTables.ofDeclarations_eq_inRows declarations
  actionRows := OrderedMap.views_inRows _
  gotoRows := OrderedMap.views_inRows _

end Tables

/-- Listings, look-ups, sizes and emptiness of tables tell one history, the declarations
that were made or that the lines of a file make.  Tables that are kept in rows tell the
same. -/
theorem iteration_tells_history :
    (∀ declarations, (Tables.ofDeclarations declarations).TellHistory declarations) ∧
    ∀ text tables, TableFile.read text = .ok tables →
      ∃ steps, List.Forall₂ TableFile.LineDeclares ((Text.fileLines text).map Text.words) steps ∧
        tables.TellHistory steps.flatten := by
  refine ⟨Tables.tellHistory_ofDeclarations, fun text tables h => ?_⟩
  rw [TableFile.read_eq_applyLines] at h
  obtain ⟨steps, hsteps, hbuild⟩ := TableFile.applyLines_eq_ok_iff.1 h
  obtain rfl := Tables.eq_ofDeclarations hbuild
  exact ⟨steps, hsteps, Tables.tellHistory_ofDeclarations steps.flatten⟩

/-- A file in which a state comes up again after another one. -/
theorem iteration_tells_history_interleaved :
    let text := "action 3 b s4\naction 0 a s3\naction 3 a s3\naction 3 b s4\nprod 1 S -> A A\n"
    let tables := Tables.ofDeclarations
      [.action 3 "b" (.shift 4), .action 0 "a" (.shift 3), .action 3 "a" (.shift 3),
        .production 1 ⟨"S", .symbols ["A", "A"]⟩]
    TableFile.read text = .ok tables ∧
      tables.actions.views.listing =
        [((3, "b"), .shift 4), ((3, "a"), .shift 3), ((0, "a"), .shift 3)] ∧
      ∃ steps, List.Forall₂ TableFile.LineDeclares ((Text.fileLines text).map Text.words) steps ∧
        tables.TellHistory steps.flatten := by
  intro text tables
  have hread : TableFile.read text = .ok tables := by
    unfold text tables
    rfl
  exact ⟨hread, by decide, iteration_tells_history.2 text tables hread⟩

end ShiftReduce
