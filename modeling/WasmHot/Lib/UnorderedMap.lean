import Mathlib.Data.Finmap

/-!
# Unordered maps

A hash map with unique keys is a finite map whose entries have no order, which is Mathlib's
`Finmap`. This module fixes the non-dependent case and states what a lookup sees after an insertion
or an erasure for every key at once, so that later proofs split on the key instead of choosing
between the equal and the unequal case by hand.
-/

/-- A finite map from `κ` to `ν` with unique keys and no order on its entries. -/
abbrev UnorderedMap (κ ν : Type*) := Finmap fun _ : κ => ν

namespace UnorderedMap

variable {κ ν : Type*} [DecidableEq κ]

/-- A lookup after an insertion sees the new value at its key and the old map elsewhere. -/
@[grind =]
theorem lookup_insert (m : UnorderedMap κ ν) (k k' : κ) (v : ν) :
    Finmap.lookup k' (Finmap.insert k v m) = if k' = k then some v else Finmap.lookup k' m := by
  by_cases h : k' = k
  · subst h
    rw [if_pos rfl, Finmap.lookup_insert]
  · rw [if_neg h, Finmap.lookup_insert_of_ne m h]

/-- An insertion forgets no key. -/
theorem lookup_insert_ne_none {m : UnorderedMap κ ν} {k k' : κ} {v : ν}
    (h : Finmap.lookup k' m ≠ none) : Finmap.lookup k' (Finmap.insert k v m) ≠ none := by
  rw [lookup_insert]
  split
  · exact nofun
  · exact h

/-- A lookup after an erasure sees nothing at its key and the old map elsewhere. -/
@[grind =]
theorem lookup_erase (m : UnorderedMap κ ν) (k k' : κ) :
    Finmap.lookup k' (Finmap.erase k m) = if k' = k then none else Finmap.lookup k' m := by
  by_cases h : k' = k
  · subst h
    rw [if_pos rfl, Finmap.lookup_erase]
  · rw [if_neg h, Finmap.lookup_erase_ne h]

/-- The map without the keys of a kind. -/
def without (m : UnorderedMap κ ν) (P : κ → Prop) [DecidablePred P] : UnorderedMap κ ν where
  entries := m.entries.filter fun entry => ¬ P entry.1
  nodupKeys := by
    rw [← Multiset.nodup_keys]
    exact Multiset.nodup_of_le (Multiset.map_le_map (Multiset.filter_le _ _))
      (Multiset.nodup_keys.mpr m.nodupKeys)

theorem lookup_without (m : UnorderedMap κ ν) (P : κ → Prop) [DecidablePred P] (k : κ) :
    Finmap.lookup k (m.without P) = if P k then none else Finmap.lookup k m := by
  apply Option.ext
  intro v
  rw [Finmap.lookup_eq_some_iff, without, Multiset.mem_filter, ← Finmap.lookup_eq_some_iff]
  split
  · next hP => exact iff_of_false (fun h => h.2 hP) nofun
  · next hP => exact and_iff_left hP

/-- Inserting what a key has already changes nothing. -/
theorem insert_of_lookup {m : UnorderedMap κ ν} {k : κ} {v : ν} (h : Finmap.lookup k m = some v) :
    Finmap.insert k v m = m := by
  apply Finmap.ext_lookup
  intro k'
  rw [lookup_insert]
  by_cases hk : k' = k
  · rw [if_pos hk, hk, h]
  · rw [if_neg hk]

/-- A lookup that finds something finds it under one of the keys. -/
theorem mem_keys_of_lookup {m : UnorderedMap κ ν} {k : κ} {v : ν} (h : Finmap.lookup k m = some v) :
    k ∈ m.keys :=
  Finmap.mem_keys.mpr (Finmap.mem_of_lookup_eq_some h)

/-- A key with a value and a key without one are different. -/
theorem ne_of_lookup {m : UnorderedMap κ ν} {k k' : κ} {v : ν} (h : Finmap.lookup k m = some v)
    (h' : Finmap.lookup k' m = none) : k ≠ k' := by
  rintro rfl
  rw [h] at h'
  cases h'

/-- If no key has a value with the label `x`, a value that some key has is not labelled `x`. -/
theorem label_ne {β : Type*} {m : UnorderedMap κ ν} {label : ν → Option β} {x : β}
    (h : ∀ k ∈ m.keys, (Finmap.lookup k m).bind label ≠ some x) {k : κ} {v : ν}
    (hk : Finmap.lookup k m = some v) : label v ≠ some x := by
  have hlabel := h k (mem_keys_of_lookup hk)
  rwa [hk, Option.bind_some] at hlabel

/-- Whether some key has the value `v` is decided by looking through the keys. -/
instance [DecidableEq ν] (m : UnorderedMap κ ν) (v : ν) :
    Decidable (∃ k, Finmap.lookup k m = some v) :=
  decidable_of_iff (∃ k ∈ m.keys, Finmap.lookup k m = some v)
    ⟨fun ⟨k, _, h⟩ => ⟨k, h⟩, fun ⟨k, h⟩ => ⟨k, mem_keys_of_lookup h, h⟩⟩

/-- Whether `P` holds of all keys with the value `v` is decided by looking through the keys. -/
instance [DecidableEq ν] (m : UnorderedMap κ ν) (v : ν) (P : κ → Prop) [DecidablePred P] :
    Decidable (∀ k, Finmap.lookup k m = some v → P k) :=
  decidable_of_iff (∀ k ∈ m.keys, Finmap.lookup k m = some v → P k)
    ⟨fun h k hk => h k (mem_keys_of_lookup hk) hk, fun h k _ hk => h k hk⟩

end UnorderedMap
