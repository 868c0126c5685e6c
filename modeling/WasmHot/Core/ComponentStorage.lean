import WasmHot.Lib.UnorderedMap
import Mathlib.Tactic.SplitIfs

/-!
# ComponentStorage

`ComponentStorage` owns the component bytes of every object: `store_` maps an object id to its
`ObjectComponents`, which map a component type to its bytes. This module gives the effect of each
whole call. The lock-level steps, where a first `Write` releases the map lock before it assigns, are
in `WasmHot.Concurrent.StorageEntries`.

`component` is the observation everything above is stated in: the bytes a `Read` would show. An
object can have an entry without components, because `Remove` leaves the entry behind.
-/

namespace WasmHot

/-- `ComponentType` in the source. -/
abbrev ComponentType := UInt32

/-- `ComponentData` in the source. -/
abbrev ComponentData := List UInt8

/-- The component map of one entry of `store_`. -/
abbrev ObjectComponents := UnorderedMap ComponentType ComponentData

/-- `ComponentStorage`, as its calls leave it. -/
structure ComponentStorage where
  /-- `store_`. -/
  store : UnorderedMap UInt64 ObjectComponents
  deriving DecidableEq

namespace ComponentStorage

/-- The storage before the first `Write`. -/
def empty : ComponentStorage := ⟨∅⟩

/-- The argument `Read` passes to its callback. -/
def read (s : ComponentStorage) (objectId : UInt64) (type : ComponentType) :
    Option ComponentData :=
  match s.store.lookup objectId with
  | none => none
  | some components => components.lookup type

/-- `Write`: the entry is created if the object has none. -/
def write (s : ComponentStorage) (objectId : UInt64) (type : ComponentType)
    (data : ComponentData) : ComponentStorage :=
  let components := (s.store.lookup objectId).getD ∅
  ⟨s.store.insert objectId (components.insert type data)⟩

/-- `Remove`: whether there was such a component, and the storage without it. -/
def remove (s : ComponentStorage) (objectId : UInt64) (type : ComponentType) :
    Bool × ComponentStorage :=
  match s.store.lookup objectId with
  | none => (false, s)
  | some components =>
      ((components.lookup type).isSome, ⟨s.store.insert objectId (components.erase type)⟩)

/-- `RemoveAll`. -/
def removeAll (s : ComponentStorage) (objectId : UInt64) : ComponentStorage :=
  ⟨s.store.erase objectId⟩

/-- The object has an entry in `store_`, with components or without. -/
def HasEntry (s : ComponentStorage) (objectId : UInt64) : Prop :=
  objectId ∈ s.store

instance (s : ComponentStorage) (objectId : UInt64) : Decidable (s.HasEntry objectId) :=
  inferInstanceAs (Decidable (objectId ∈ s.store))

/-- Two storages show the same components, whatever empty entries they have. -/
def SameComponents (s t : ComponentStorage) : Prop :=
  ∀ objectId type, s.read objectId type = t.read objectId type

/-- The components of one object are the same in both storages. -/
def SameObject (objectId : UInt64) (s t : ComponentStorage) : Prop :=
  ∀ type, s.read objectId type = t.read objectId type

/-! ## What a `Read` sees after each call -/

@[simp]
theorem read_empty (objectId : UInt64) (type : ComponentType) :
    empty.read objectId type = none := by
  simp [read, empty]

/-- A `Write` sets its own component and no other. -/
theorem read_write (s : ComponentStorage) (id id' : UInt64) (type type' : ComponentType)
    (data : ComponentData) :
    (s.write id type data).read id' type' =
      if id' = id ∧ type' = type then some data else s.read id' type' := by
  simp only [read, write, UnorderedMap.lookup_insert]
  by_cases hid : id' = id
  · subst hid
    cases s.store.lookup id' <;> simp [UnorderedMap.lookup_insert]
  · simp [hid]

/-- A write leaves the other components alone. -/
theorem read_write_of_ne {id id' : UInt64} {type type' : ComponentType}
    (h : (id', type') ≠ (id, type)) (s : ComponentStorage) (data : ComponentData) :
    (s.write id type data).read id' type' = s.read id' type' := by
  rw [read_write, if_neg fun heq => h (Prod.ext heq.1 heq.2)]

/-- A `Remove` clears its own component and no other. -/
theorem read_remove (s : ComponentStorage) (id id' : UInt64) (type type' : ComponentType) :
    (s.remove id type).2.read id' type' =
      if id' = id ∧ type' = type then none else s.read id' type' := by
  unfold remove
  cases hentry : s.store.lookup id with
  | none =>
    by_cases hid : id' = id
    · subst hid
      simp [read, hentry]
    · simp [hid]
  | some components =>
    by_cases hid : id' = id
    · subst hid
      simp [read, hentry, UnorderedMap.lookup_erase]
    · simp [read, hid]

/-- A `RemoveAll` clears every component of its object and no other. -/
theorem read_removeAll (s : ComponentStorage) (id id' : UInt64) (type : ComponentType) :
    (s.removeAll id).read id' type = if id' = id then none else s.read id' type := by
  by_cases hid : id' = id
  · subst hid
    simp [read, removeAll]
  · simp [read, removeAll, hid]

/-! ## Which objects have an entry after each call -/

@[simp]
theorem not_hasEntry_empty (objectId : UInt64) : ¬ empty.HasEntry objectId :=
  Finmap.notMem_empty

@[simp]
theorem hasEntry_write (s : ComponentStorage) (id id' : UInt64) (type : ComponentType)
    (data : ComponentData) : (s.write id type data).HasEntry id' ↔ id' = id ∨ s.HasEntry id' := by
  simp [HasEntry, write]

@[simp]
theorem hasEntry_remove (s : ComponentStorage) (id id' : UInt64) (type : ComponentType) :
    (s.remove id type).2.HasEntry id' ↔ s.HasEntry id' := by
  unfold remove
  cases hentry : s.store.lookup id with
  | none => rfl
  | some components =>
    simp only [HasEntry, Finmap.mem_insert, or_iff_right_iff_imp]
    rintro rfl
    exact Finmap.mem_of_lookup_eq_some hentry

@[simp]
theorem hasEntry_removeAll (s : ComponentStorage) (id id' : UInt64) :
    (s.removeAll id).HasEntry id' ↔ id' ≠ id ∧ s.HasEntry id' := by
  simp [HasEntry, removeAll]

/-- An object with a component has an entry. -/
theorem hasEntry_of_read {s : ComponentStorage} {objectId : UInt64} {type : ComponentType}
    {data : ComponentData} (h : s.read objectId type = some data) : s.HasEntry objectId := by
  unfold read at h
  cases hentry : s.store.lookup objectId with
  | none => simp [hentry] at h
  | some components => exact Finmap.mem_of_lookup_eq_some hentry

/-! ## Storages that show the same components -/

@[refl]
theorem SameComponents.refl (s : ComponentStorage) : s.SameComponents s :=
  fun _ _ => rfl

end ComponentStorage

end WasmHot
