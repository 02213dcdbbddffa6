import Mathlib.Data.List.Nodup
import Mathlib.Data.List.Induction
import ShiftReduce.OrderedMap

/-!
# Grouped maps

`OrderedMap.byRow` lists the entries of a map group by group.  That is the same
entries in another order (`perm_byRow`), so it is a map again, the *grouped* one.
Each group is in the order that its entries had before (`filter_byRow`), and
grouping a second time changes nothing (`byRow_grouped`).
-/

namespace ShiftReduce.OrderedMap

variable {κ ν ρ : Type} [DecidableEq ρ]

/-! ## First occurrences -/

theorem eraseDups_concat (front : List ρ) (last : ρ) :
    (front ++ [last]).eraseDups =
      if last ∈ front then front.eraseDups else front.eraseDups ++ [last] := by
  rw [List.eraseDups_append]
  by_cases hm : last ∈ front
  · simp [List.removeAll, hm]
  · have hlast : [last].removeAll front = [last] := by simp [List.removeAll, hm]
    rw [hlast, if_neg hm]
    simp [List.eraseDups_cons]

theorem nodup_eraseDups (list : List ρ) : list.eraseDups.Nodup := by
  induction list using List.reverseRecOn with
  | nil => simp
  | append_singleton front last ih =>
      rw [eraseDups_concat]
      split
      · exact ih
      · next hm =>
          rw [List.nodup_append]
          refine ⟨ih, List.nodup_singleton last, fun x hx y hy => ?_⟩
          rw [List.mem_singleton.1 hy]
          rintro rfl
          exact hm (List.mem_eraseDups.1 hx)

/-- What comes in runs of equal elements, a run for each, has these elements as its
first occurrences. -/
theorem eraseDups_flatMap {rows : List ρ} {run : ρ → List ρ} (hnodup : rows.Nodup)
    (hne : ∀ row ∈ rows, run row ≠ []) (hrun : ∀ row ∈ rows, ∀ x ∈ run row, x = row) :
    (rows.flatMap run).eraseDups = rows := by
  induction rows with
  | nil => simp
  | cons row rest ih =>
      obtain ⟨hnotin, hnodup⟩ := List.nodup_cons.1 hnodup
      have hfirst : (run row).eraseDups = [row] := by
        obtain ⟨x, xs, hx⟩ := List.exists_cons_of_ne_nil (hne row List.mem_cons_self)
        have hall := hrun row List.mem_cons_self
        rw [hx, List.forall_mem_cons] at hall
        obtain ⟨rfl, hxs⟩ := hall
        have hfilter : xs.filter (fun y => !y == x) = [] := by
          simpa [List.filter_eq_nil_iff] using hxs
        rw [hx, List.eraseDups_cons, hfilter, List.eraseDups_nil]
      have hlater : (rest.flatMap run).removeAll (run row) = rest.flatMap run := by
        refine List.filter_eq_self.2 fun x hx => ?_
        obtain ⟨row', hrow', hx⟩ := List.mem_flatMap.1 hx
        obtain rfl := hrun row' (List.mem_cons_of_mem _ hrow') x hx
        have hnot : x ∉ run row := fun hm => hnotin (hrun row List.mem_cons_self x hm ▸ hrow')
        simpa using hnot
      rw [List.flatMap_cons, List.eraseDups_append, hfirst, hlater,
        ih hnodup (fun r hr => hne r (List.mem_cons_of_mem _ hr))
          fun r hr => hrun r (List.mem_cons_of_mem _ hr)]
      rfl

/-! ## Groups -/

/-- The rows in the order of their first entries. -/
def rows (m : OrderedMap (ρ × κ) ν) : List ρ := (m.keys.map Prod.fst).eraseDups

theorem byRow_eq (m : OrderedMap (ρ × κ) ν) :
    m.byRow = m.rows.flatMap fun row => m.toList.filter fun entry => entry.1.1 = row := rfl

theorem nodup_rows (m : OrderedMap (ρ × κ) ν) : m.rows.Nodup := nodup_eraseDups _

theorem mem_rows {m : OrderedMap (ρ × κ) ν} {row : ρ} :
    row ∈ m.rows ↔ ∃ entry ∈ m.toList, entry.1.1 = row := by
  simp [rows, keys, List.mem_eraseDups]

/-- The entries of one row stand in one group and nowhere else. -/
theorem filter_flatMap {list : List ((ρ × κ) × ν)} {rows : List ρ} (h : rows.Nodup) (row : ρ) :
    (rows.flatMap fun row => list.filter fun entry => entry.1.1 = row).filter
        (fun entry => entry.1.1 = row) =
      if row ∈ rows then list.filter (fun entry => entry.1.1 = row) else [] := by
  induction rows with
  | nil => simp
  | cons first rest ih =>
      obtain ⟨hnotin, hnodup⟩ := List.nodup_cons.1 h
      rw [List.flatMap_cons, List.filter_append, ih hnodup, List.filter_filter]
      by_cases hrow : row = first
      · subst hrow
        simp [hnotin]
      · have hnone : list.filter (fun entry =>
            decide (entry.1.1 = row) && decide (entry.1.1 = first)) = [] := by
          rw [List.filter_eq_nil_iff]
          intro entry _ he
          simp only [Bool.and_eq_true, decide_eq_true_eq] at he
          exact hrow (he.1.symm.trans he.2)
        simp [hnone, hrow]

/-- Grouping keeps the order in each group. -/
theorem filter_byRow (m : OrderedMap (ρ × κ) ν) (row : ρ) :
    m.byRow.filter (fun entry => entry.1.1 = row) =
      m.toList.filter fun entry => entry.1.1 = row := by
  rw [byRow_eq, filter_flatMap m.nodup_rows]
  split
  · rfl
  · next h =>
      refine (List.filter_eq_nil_iff.2 fun entry hm he => h ?_).symm
      exact mem_rows.2 ⟨entry, hm, by simpa using he⟩

/-- Grouping lists the same entries. -/
theorem perm_byRow (m : OrderedMap (ρ × κ) ν) : m.byRow.Perm m.toList := by
  have hentries := m.nodup_toList
  refine (List.perm_ext_iff_of_nodup ?_ hentries).2 fun entry => mem_byRow
  rw [byRow_eq, List.nodup_flatMap]
  refine ⟨fun row _ => hentries.filter _, m.nodup_rows.imp fun {row row'} hne => ?_⟩
  intro entry hm hm'
  simp only [List.mem_filter, decide_eq_true_eq] at hm hm'
  exact hne (hm.2.symm.trans hm'.2)

/-- The map with its entries group by group. -/
def grouped (m : OrderedMap (ρ × κ) ν) : OrderedMap (ρ × κ) ν :=
  ⟨m.byRow, (m.perm_byRow.map Prod.fst).nodup_iff.2 m.nodup_keys⟩

theorem sameEntries_grouped [DecidableEq κ] [DecidableEq ν] (m : OrderedMap (ρ × κ) ν) :
    m.grouped.sameEntries m = true := sameEntries_iff.2 m.perm_byRow

theorem rows_grouped (m : OrderedMap (ρ × κ) ν) : m.grouped.rows = m.rows := by
  have hrows : m.grouped.keys.map Prod.fst = m.rows.flatMap fun row =>
      (m.toList.filter fun entry => entry.1.1 = row).map fun entry => entry.1.1 := by
    simp [keys, grouped, byRow_eq, List.map_flatMap, Function.comp_def]
  rw [rows, hrows]
  refine eraseDups_flatMap m.nodup_rows (fun row hrow => ?_) fun row _ x hx => ?_
  · obtain ⟨entry, hm, he⟩ := mem_rows.1 hrow
    have hgroup : entry ∈ m.toList.filter fun entry => entry.1.1 = row :=
      List.mem_filter.2 ⟨hm, by simpa using he⟩
    exact List.ne_nil_of_mem (List.mem_map_of_mem hgroup)
  · obtain ⟨entry, hm, rfl⟩ := List.mem_map.1 hx
    simpa using (List.mem_filter.1 hm).2

/-- A map that is grouped is listed as it is. -/
theorem byRow_grouped (m : OrderedMap (ρ × κ) ν) : m.grouped.byRow = m.byRow := by
  rw [byRow_eq, rows_grouped, byRow_eq m]
  refine congrArg m.rows.flatMap (funext fun row => ?_)
  exact filter_byRow m row

end ShiftReduce.OrderedMap
