import Mathlib.Data.List.Nodup
import Mathlib.Data.List.Perm.Basic

/-!
# Unordered maps and the order they are iterated in

A hash map finds the value of a key, and can be iterated. Its iteration order is
any order of its keys: an insertion may change it, other operations do not.
`toList` gives the entries in that order.
-/

/-- A map together with the order of its keys in an iteration. -/
structure UnorderedMap (κ ν : Type*) where
  keys : List κ
  find : κ → Option ν
  nodup : keys.Nodup
  mem_keys : ∀ k, k ∈ keys ↔ (find k).isSome

namespace UnorderedMap

variable {κ ν : Type*}

def empty (κ ν : Type*) : UnorderedMap κ ν where
  keys := []
  find _ := none
  nodup := List.nodup_nil
  mem_keys _ := by simp

@[simp] theorem find_empty (k : κ) : (empty κ ν).find k = none := rfl

/-- The entries, in the order of an iteration. -/
def toList (m : UnorderedMap κ ν) : List (κ × ν) :=
  m.keys.filterMap fun k => (m.find k).map fun v => (k, v)

theorem mem_toList {m : UnorderedMap κ ν} {k : κ} {v : ν} :
    (k, v) ∈ m.toList ↔ m.find k = some v := by
  simp only [toList, List.mem_filterMap, Option.map_eq_some_iff, Prod.mk.injEq]
  constructor
  · rintro ⟨k', -, v', hfind, rfl, rfl⟩
    exact hfind
  · intro hfind
    exact ⟨k, (m.mem_keys k).2 (by simp [hfind]), v, hfind, rfl, rfl⟩

theorem ext {m m' : UnorderedMap κ ν} (hkeys : m.keys = m'.keys)
    (hfind : ∀ k, m.find k = m'.find k) : m = m' := by
  cases m
  cases m'
  congr
  exact funext hfind

/-- Assign to the value of a key, if the key is there. -/
def modify [DecidableEq κ] (m : UnorderedMap κ ν) (k : κ) (f : ν → ν) :
    UnorderedMap κ ν where
  keys := m.keys
  find k' := if k' = k then (m.find k').map f else m.find k'
  nodup := m.nodup
  mem_keys k' := by
    rw [m.mem_keys]
    split_ifs <;> simp

theorem find_modify [DecidableEq κ] (m : UnorderedMap κ ν) (k : κ) (f : ν → ν) (k' : κ) :
    (m.modify k f).find k' = if k' = k then (m.find k').map f else m.find k' := rfl

/-- Assign to the value of every key. -/
def mapValues (m : UnorderedMap κ ν) (f : κ → ν → ν) : UnorderedMap κ ν where
  keys := m.keys
  find k := (m.find k).map (f k)
  nodup := m.nodup
  mem_keys k := by simp [m.mem_keys]

@[simp] theorem find_mapValues (m : UnorderedMap κ ν) (f : κ → ν → ν) (k : κ) :
    (m.mapValues f).find k = (m.find k).map (f k) := rfl

variable [DecidableEq κ]

def erase (m : UnorderedMap κ ν) (k : κ) : UnorderedMap κ ν where
  keys := m.keys.erase k
  find k' := if k' = k then none else m.find k'
  nodup := m.nodup.erase k
  mem_keys k' := by
    rw [m.nodup.mem_erase_iff, m.mem_keys]
    by_cases h : k' = k <;> simp [h]

theorem find_erase (m : UnorderedMap κ ν) (k k' : κ) :
    (m.erase k).find k' = if k' = k then none else m.find k' := rfl

/-- A new entry, unless the key is there. The keys are iterated in any order
afterwards. -/
def emplace (m : UnorderedMap κ ν) (k : κ) (v : ν) (keys : List κ)
    (hkeys : keys.Perm (m.keys.insert k)) : UnorderedMap κ ν where
  keys := keys
  find k' := if k' = k then (m.find k').or (some v) else m.find k'
  nodup := hkeys.nodup_iff.2 (m.nodup.insert)
  mem_keys k' := by
    rw [hkeys.mem_iff, List.mem_insert_iff, m.mem_keys]
    by_cases h : k' = k <;> simp [h]

theorem find_emplace (m : UnorderedMap κ ν) (k : κ) (v : ν) {keys : List κ}
    (hkeys : keys.Perm (m.keys.insert k)) (k' : κ) :
    (m.emplace k v keys hkeys).find k' =
      if k' = k then (m.find k').or (some v) else m.find k' := rfl

/-- What is found of an old key is found after an insertion. -/
theorem find_emplace_of_eq_some (m : UnorderedMap κ ν) {k : κ} {v : ν} {keys : List κ}
    (hkeys : keys.Perm (m.keys.insert k)) {k' : κ} {v' : ν}
    (h : m.find k' = some v') : (m.emplace k v keys hkeys).find k' = some v' := by
  simp [find_emplace, h]

theorem erase_emplace_empty (k : κ) (v : ν) {keys : List κ}
    (hkeys : keys.Perm ((empty κ ν).keys.insert k)) :
    ((empty κ ν).emplace k v keys hkeys).erase k = empty κ ν := by
  refine ext ?_ fun k' => ?_
  · obtain rfl : keys = [k] := List.perm_singleton.1 hkeys
    simp [emplace, erase, empty]
  · rw [find_erase, find_emplace]
    split_ifs <;> simp

end UnorderedMap
