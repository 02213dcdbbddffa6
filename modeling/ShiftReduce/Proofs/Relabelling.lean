import Mathlib.Data.List.Nodup
import ShiftReduce.Proofs.Building

/-!
# Relabelled maps

A map is *relabelled* by telling its keys and its values in other words, so that no two
keys become one.  Look-up (`get?_relabel`) and insertion (`relabel_insertIfNew`) go
along with that.
-/

namespace ShiftReduce.OrderedMap

variable {κ κ' ν ν' : Type}

/-- The map with every key and every value told in other words. -/
def relabel (m : OrderedMap κ ν) (key : κ → κ') (hkey : Function.Injective key)
    (value : ν → ν') : OrderedMap κ' ν' where
  toList := m.toList.map (Prod.map key value)
  nodup_keys := by
    have hkeys : (m.toList.map (Prod.map key value)).map Prod.fst =
        (m.toList.map Prod.fst).map key := by
      rw [List.map_map, List.map_map]
      rfl
    rw [hkeys]
    exact m.nodup_keys.map hkey

variable {key : κ → κ'} (hkey : Function.Injective key) (value : ν → ν')

theorem toList_relabel (m : OrderedMap κ ν) :
    (m.relabel key hkey value).toList = m.toList.map (Prod.map key value) := rfl

theorem mem_keys_relabel {m : OrderedMap κ ν} {k : κ} :
    key k ∈ (m.relabel key hkey value).keys ↔ k ∈ m.keys := by
  have hkeys : (m.relabel key hkey value).keys = m.keys.map key := by
    rw [keys, keys, toList_relabel, List.map_map, List.map_map]
    rfl
  rw [hkeys, List.mem_map_of_injective hkey]

variable [DecidableEq κ] [DecidableEq κ']

/-- A key in its new words has its old value in new words. -/
theorem get?_relabel (m : OrderedMap κ ν) (k : κ) :
    (m.relabel key hkey value).get? (key k) = (m.get? k).map value := by
  cases hget : m.get? k with
  | none =>
      rw [Option.map_none, get?_eq_none_iff, mem_keys_relabel]
      exact get?_eq_none_iff.1 hget
  | some v =>
      rw [Option.map_some, get?_eq_some_iff, toList_relabel]
      exact List.mem_map_of_mem (get?_eq_some_iff.1 hget)

theorem relabel_insertIfNew (m : OrderedMap κ ν) (k : κ) (v : ν) :
    (m.insertIfNew k v).relabel key hkey value =
      (m.relabel key hkey value).insertIfNew (key k) (value v) := by
  have hrelabel := get?_relabel hkey value m k
  cases hget : m.get? k with
  | none =>
      rw [hget, Option.map_none] at hrelabel
      refine eq_of_toList ?_
      rw [toList_insertIfNew _ hrelabel, toList_relabel, toList_relabel,
        toList_insertIfNew _ hget, List.map_append]
      rfl
  | some old =>
      rw [hget, Option.map_some] at hrelabel
      rw [insertIfNew_of_get? v (by simp [hget]), insertIfNew_of_get? _ (by simp [hrelabel])]

end ShiftReduce.OrderedMap
