/-!
# Maps in the order of insertion

An *ordered map* is a list of entries in which no key stands twice.  The entry
added first stands first.  An entry is never replaced and never taken out, so
the value of a key is the first one it was given.

Two ordered maps have the *same entries* when their lists are permutations of
one another.  The order is for listings only.

`get?_eq_some_iff` ties look-up to the list, and `get?_insertIfNew` says what
an insertion does to every look-up.
-/

namespace ShiftReduce

/-- Entries in the order in which they were added, no key twice. -/
structure OrderedMap (κ ν : Type) where
  /-- The entries, the first one added first. -/
  toList : List (κ × ν)
  nodup_keys : (toList.map Prod.fst).Nodup
deriving DecidableEq, Repr

namespace OrderedMap

variable {κ ν ρ : Type}

/-- The map without entries. -/
def empty : OrderedMap κ ν := ⟨[], List.nodup_nil⟩

/-- The keys, the first one added first. -/
def keys (m : OrderedMap κ ν) : List κ := m.toList.map Prod.fst

/-- The number of entries. -/
def size (m : OrderedMap κ ν) : Nat := m.toList.length

/-- Whether there is no entry. -/
def isEmpty (m : OrderedMap κ ν) : Bool := m.toList.isEmpty

/-- The value of a key. -/
def get? [DecidableEq κ] (m : OrderedMap κ ν) (key : κ) : Option ν := m.toList.lookup key

/-- Adds an entry at the end, unless the key has a value already. -/
def insertIfNew [DecidableEq κ] (m : OrderedMap κ ν) (key : κ) (value : ν) : OrderedMap κ ν :=
  if h : key ∈ m.keys then m
  else
    { toList := m.toList ++ [(key, value)]
      nodup_keys := by
        rw [List.map_append, List.nodup_append]
        refine ⟨m.nodup_keys, by simp, ?_⟩
        intro a ha b hb
        simp only [List.map_cons, List.map_nil, List.mem_singleton] at hb
        rintro rfl
        exact h (hb ▸ ha) }

/-- Whether two maps have the same entries, in whatever order. -/
def sameEntries [DecidableEq κ] [DecidableEq ν] (m m' : OrderedMap κ ν) : Bool :=
  m.toList.isPerm m'.toList

/-- The entries of a map with two-part keys, grouped by the first part.  The
groups come in the order of their first entries, and a group keeps the order of
its own. -/
def byRow [DecidableEq ρ] (m : OrderedMap (ρ × κ) ν) : List ((ρ × κ) × ν) :=
  (m.keys.map Prod.fst).eraseDups.flatMap fun row => m.toList.filter fun entry => entry.1.1 = row

/-! ## Look-up -/

section LookUp

variable [DecidableEq κ]

/-- A map without entries has no value for any key. -/
@[simp] theorem get?_empty (key : κ) : (empty : OrderedMap κ ν).get? key = none := rfl

/-- A key has no value exactly if it is none of the keys. -/
theorem get?_eq_none_iff {m : OrderedMap κ ν} {key : κ} : m.get? key = none ↔ key ∉ m.keys := by
  simp only [get?, keys, List.lookup_eq_none_iff, bne_iff_ne, ne_eq, List.mem_map, not_exists,
    not_and]
  exact ⟨fun h entry hm he => h entry hm he.symm, fun h entry hm he => h entry hm he.symm⟩

/-- A key is one of the keys exactly if it has a value. -/
theorem mem_keys_iff {m : OrderedMap κ ν} {key : κ} :
    key ∈ m.keys ↔ ∃ value, m.get? key = some value := by
  rw [← Option.ne_none_iff_exists', ne_eq, get?_eq_none_iff, Decidable.not_not]

/-- A key has a value exactly if the two are an entry. -/
theorem get?_eq_some_iff {m : OrderedMap κ ν} {key : κ} {value : ν} :
    m.get? key = some value ↔ (key, value) ∈ m.toList := by
  obtain ⟨l, hl⟩ := m
  simp only [get?]
  induction l with
  | nil => simp
  | cons entry rest ih =>
    obtain ⟨key', value'⟩ := entry
    simp only [List.map_cons, List.nodup_cons] at hl
    by_cases hk : key = key'
    · subst hk
      simp only [List.lookup_cons_self, Option.some.injEq, List.mem_cons, Prod.mk.injEq, true_and]
      refine ⟨fun h => .inl h.symm, ?_⟩
      rintro (h | h)
      · exact h.symm
      · exact absurd (List.mem_map_of_mem (f := Prod.fst) h) hl.1
    · rw [List.lookup_cons]
      simp only [beq_eq_false_iff_ne.2 hk, ih hl.2, List.mem_cons, Prod.mk.injEq, hk, false_and,
        false_or]

/-- An insertion gives its value to its key if the key had none, and changes no
other look-up. -/
theorem get?_insertIfNew (m : OrderedMap κ ν) (key : κ) (value : ν) (key' : κ) :
    (m.insertIfNew key value).get? key' =
      (m.get? key').or (if key' = key then some value else none) := by
  unfold insertIfNew
  split
  · next h =>
    by_cases hk : key' = key
    · subst hk
      cases hg : m.get? key' with
      | none => exact absurd h (get?_eq_none_iff.1 hg)
      | some v => rfl
    · simp [hk]
  · simp only [get?, List.lookup_append]
    congr 1
    by_cases hk : key' = key
    · simp [hk]
    · simp [List.lookup_cons, beq_eq_false_iff_ne.2 hk, hk]

/-- An entry with a new key goes to the end. -/
theorem toList_insertIfNew {m : OrderedMap κ ν} {key : κ} (value : ν) (h : m.get? key = none) :
    (m.insertIfNew key value).toList = m.toList ++ [(key, value)] := by
  simp [insertIfNew, get?_eq_none_iff.1 h]

/-- An entry with an old key changes nothing. -/
theorem insertIfNew_of_get? {m : OrderedMap κ ν} {key : κ} (value : ν) (h : m.get? key ≠ none) :
    m.insertIfNew key value = m := by
  have : key ∈ m.keys := Decidable.not_not.1 fun hk => h (get?_eq_none_iff.2 hk)
  simp [insertIfNew, this]

end LookUp

/-! ## Comparison and grouping -/

/-- No entry stands twice, since no key does. -/
theorem nodup_toList (m : OrderedMap κ ν) : m.toList.Nodup :=
  List.Pairwise.of_map Prod.fst (fun _ _ hne he => hne (congrArg Prod.fst he)) m.nodup_keys

/-- Having the same entries is being a permutation. -/
theorem sameEntries_iff [DecidableEq κ] [DecidableEq ν] {m m' : OrderedMap κ ν} :
    m.sameEntries m' = true ↔ m.toList.Perm m'.toList := List.isPerm_iff

/-- Two maps have the same entries exactly if they answer every look-up alike. -/
theorem sameEntries_iff_get? [DecidableEq κ] [DecidableEq ν] {m m' : OrderedMap κ ν} :
    m.sameEntries m' = true ↔ ∀ key, m.get? key = m'.get? key := by
  rw [sameEntries_iff, List.perm_ext_iff_of_nodup m.nodup_toList m'.nodup_toList]
  constructor
  · intro h key
    refine Option.ext fun value => ?_
    rw [get?_eq_some_iff, get?_eq_some_iff]
    exact h (key, value)
  · rintro h ⟨key, value⟩
    rw [← get?_eq_some_iff, ← get?_eq_some_iff, h key]

/-- Grouping keeps every entry and adds none. -/
theorem mem_byRow [DecidableEq ρ] {m : OrderedMap (ρ × κ) ν} {entry : (ρ × κ) × ν} :
    entry ∈ m.byRow ↔ entry ∈ m.toList := by
  simp only [byRow, List.mem_flatMap, List.mem_eraseDups, List.mem_filter, decide_eq_true_eq]
  constructor
  · rintro ⟨_, _, h, _⟩
    exact h
  · intro h
    refine ⟨entry.1.1, ?_, h, rfl⟩
    exact List.mem_map_of_mem (f := Prod.fst) (List.mem_map_of_mem (f := Prod.fst) h)

example :
    let m := ((empty : OrderedMap (Nat × Nat) Nat).insertIfNew (3, 1) 4).insertIfNew (0, 1) 3
    (m.insertIfNew (3, 0) 3).byRow = [((3, 1), 4), ((3, 0), 3), ((0, 1), 3)] := by decide

end OrderedMap

end ShiftReduce
