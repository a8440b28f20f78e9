import Mathlib.Data.List.AList
import Mathlib.Tactic.Common

/-!
# Finite maps

Mathlib's association lists without duplicate keys (`AList`), used at a value type that does not
depend on the key: lookup, insertion, removal, the list of values and the number of keys.
-/

/-- A finite map from `κ` to `α`. -/
abbrev FinMap (κ α : Type) := AList fun _ : κ => α

namespace FinMap

variable {κ α : Type} [DecidableEq κ]

/-- The value at a key. -/
def find (m : FinMap κ α) (k : κ) : Option α := AList.lookup k m

/-- Set the value at a key. -/
def set (m : FinMap κ α) (k : κ) (v : α) : FinMap κ α := AList.insert k v m

/-- Remove a key. -/
def remove (m : FinMap κ α) (k : κ) : FinMap κ α := AList.erase k m

/-- The values, in table order. -/
def values (m : FinMap κ α) : List α := m.entries.map (·.2)

/-- The number of keys. -/
def size (m : FinMap κ α) : Nat := m.keys.length

variable {m : FinMap κ α} {k k' : κ} {v : α}

/-- The empty map has no entries. -/
@[simp] lemma find_empty : find (∅ : FinMap κ α) k = none := rfl

/-- `set` changes one entry. -/
lemma find_set : find (set m k v) k' = if k' = k then some v else find m k' := by
  unfold find set
  split
  case isTrue h =>
    subst h
    exact AList.lookup_insert m
  case isFalse h => exact AList.lookup_insert_ne h

/-- `remove` clears one entry. -/
lemma find_remove : find (remove m k) k' = if k' = k then none else find m k' := by
  unfold find remove
  split
  case isTrue h =>
    subst h
    exact AList.lookup_erase _ m
  case isFalse h => exact AList.lookup_erase_ne h

/-- The entry that was set is found. -/
@[simp] lemma find_set_self : find (set m k v) k = some v := by
  rw [find_set, if_pos rfl]

/-- Keys outside the map are not found. -/
lemma find_eq_none : find m k = none ↔ k ∉ m :=
  AList.lookup_eq_none

/-- Keys of the map are found. -/
lemma mem_iff_find : k ∈ m ↔ ∃ v, find m k = some v := by
  rw [← AList.lookup_isSome, Option.isSome_iff_exists]
  rfl

/-- Removing a key that is not there changes nothing. -/
lemma remove_of_find_none (h : find m k = none) : remove m k = m := by
  apply AList.ext
  exact List.kerase_of_notMem_keys (find_eq_none.mp h)

/-- Setting a new key and removing it again changes nothing. -/
lemma remove_set_of_find_none (h : find m k = none) : remove (set m k v) k = m := by
  apply AList.ext
  have none := find_eq_none.mp h
  unfold remove set
  rw [AList.insert_of_notMem none]
  exact List.kerase_cons_eq (s := (⟨k, v⟩ : Σ _ : κ, α)) rfl

/-- A new key makes the map larger. -/
lemma size_set_of_find_none (h : find m k = none) : size (set m k v) = size m + 1 := by
  have none : k ∉ m.keys := find_eq_none.mp h
  simp [size, set, AList.keys_insert, List.erase_of_not_mem none]

/-- Removing a key makes the map smaller. -/
lemma size_remove_of_find {v : α} (h : find m k = some v) : size (remove m k) + 1 = size m := by
  have mem : k ∈ m.keys := mem_iff_find.mpr ⟨v, h⟩
  have len := List.length_erase_of_mem mem
  have pos := List.length_pos_of_mem mem
  simp only [size, remove, AList.keys_erase]
  omega

/-- Values are those of the keys. -/
lemma mem_values : v ∈ values m ↔ ∃ k, find m k = some v := by
  unfold values find
  constructor
  · intro h
    obtain ⟨⟨k, w⟩, mem, eq⟩ := List.mem_map.mp h
    cases eq
    exact ⟨k, AList.mem_lookup_iff.mpr mem⟩
  · rintro ⟨k, h⟩
    exact List.mem_map.mpr ⟨⟨k, v⟩, AList.mem_lookup_iff.mp h, rfl⟩

/-- The keys with their values. -/
def pairs (m : FinMap κ α) : List (κ × α) := m.entries.map fun s => (s.1, s.2)

/-- Pairs are the entries. -/
lemma mem_pairs : (k, v) ∈ pairs m ↔ find m k = some v := by
  unfold pairs find
  rw [List.mem_map]
  constructor
  · rintro ⟨⟨k', v'⟩, mem, eq⟩
    cases eq
    exact AList.mem_lookup_iff.mpr mem
  · intro found
    exact ⟨⟨k, v⟩, AList.mem_lookup_iff.mp found, rfl⟩

omit [DecidableEq κ] in
/-- No entry is listed twice. -/
lemma nodup_pairs (m : FinMap κ α) : (pairs m).Nodup := by
  have nodup : m.entries.Nodup := List.nodupKeys_iff_pairwise.mp m.nodupKeys |>.imp
    (fun ne eq => ne (congrArg Sigma.fst eq))
  refine nodup.map ?_
  rintro ⟨k, v⟩ ⟨k', v'⟩ eq
  cases eq
  rfl

omit [DecidableEq κ] in
/-- There are as many pairs as keys. -/
lemma length_pairs (m : FinMap κ α) : (pairs m).length = size m := by
  simp [pairs, size, AList.keys, List.keys]

omit [DecidableEq κ] in
/-- The values of the pairs are the values. -/
lemma map_snd_pairs (m : FinMap κ α) : (pairs m).map Prod.snd = values m := by
  simp [pairs, values]

/-- A map with no more entries has no more keys. -/
lemma size_le {m' : FinMap κ α} (sub : ∀ k v, find m k = some v → find m' k = some v) :
    size m ≤ size m' := by
  rw [← length_pairs, ← length_pairs]
  refine (List.subperm_of_subset (nodup_pairs m) ?_).length_le
  rintro ⟨k, v⟩ mem
  exact mem_pairs.mpr (sub k v (mem_pairs.mp mem))

/-- Setting a key that is there keeps the number of keys. -/
lemma size_set_of_find {w : α} (h : find m k = some w) : size (set m k v) = size m := by
  have mem : k ∈ m.keys := mem_iff_find.mpr ⟨w, h⟩
  have len := List.length_erase_of_mem mem
  have pos := List.length_pos_of_mem mem
  simp only [size, set, AList.keys_insert, List.length_cons]
  omega

end FinMap
