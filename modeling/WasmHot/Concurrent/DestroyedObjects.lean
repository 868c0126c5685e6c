import WasmHot.Concurrent.SharedWorld

/-!
# What a destroyed object leaves behind

`Destroy` erases the object and then its components. It takes the entry's mutex first, to wait for
users of the object, but a plugin invocation does not hold that mutex: `Get` has released it before
its callback starts. A component written after the `RemoveAll` stays, and no object owns it.

`Owned` is what a write needs to be cleaned up in the end: the object is registered, so that its
`Destroy` is still to come, or a `Destroy` of it has its `RemoveAll` ahead. `EntriesOwned` is the
invariant: as long as writes only go to such objects, every entry of the storage belongs to one.
-/

namespace WasmHot

namespace SharedWorld

/-- Some `Destroy` has erased the object and has its `RemoveAll` ahead. -/
def Destroying (s : SharedWorld) (objectId : UInt64) : Prop :=
  ∃ t, s.calls.lookup t = some (.destroying objectId)

/-- The object is registered, or its components are about to be removed. -/
def Owned (s : SharedWorld) (objectId : UInt64) : Prop :=
  objectId ∈ s.registry.objects ∨ s.Destroying objectId

instance (s : SharedWorld) (objectId : UInt64) : Decidable (s.Owned objectId) :=
  inferInstanceAs (Decidable (_ ∨ ∃ t, Finmap.lookup t s.calls = some (.destroying objectId)))

/-- The step writes only components of objects that are owned. -/
def WritesOwned (s : SharedWorld) (a : SharedAction) : Prop :=
  ∀ w ∈ s.writesOf a, s.Owned w.objectId

instance (s : SharedWorld) (a : SharedAction) : Decidable (s.WritesOwned a) :=
  inferInstanceAs (Decidable (∀ w ∈ s.writesOf a, _))

/-- Every entry of the storage is of an object that is owned. -/
def EntriesOwned (s : SharedWorld) : Prop :=
  ∀ objectId, s.storage.HasEntry objectId → s.Owned objectId

variable {s s' : SharedWorld} {a : SharedAction}

/-- Only the `RemoveAll` of its own `Destroy` ends the ownership of an object. -/
theorem Owned.step {objectId : UInt64} (howned : s.Owned objectId) (hstep : s.step a = some s') :
    s'.Owned objectId ∨
      ∃ t, a = .destroyRemoveAll t ∧ s.calls.lookup t = some (.destroying objectId) := by
  rcases howned with hreg | ⟨t, hcall⟩
  · exact Or.inl (registered_kept hstep hreg)
  · rcases destroying_kept hstep hcall with hcall' | rfl
    · exact Or.inl (Or.inr ⟨t, hcall'⟩)
    · exact Or.inr ⟨t, rfl, hcall⟩

theorem EntriesOwned.step (hinv : s.EntriesOwned) (hwrites : s.WritesOwned a)
    (hstep : s.step a = some s') : s'.EntriesOwned := by
  intro objectId hentry
  -- The object was owned before the step; what remains is a `RemoveAll` of this very object.
  have howned : s.Owned objectId := by
    rcases storage_cases hstep with ⟨t, id, -, -, hstorage⟩ | ⟨t, id, type, -, hstorage⟩ | hstorage
    · rw [hstorage, ComponentStorage.hasEntry_removeAll] at hentry
      exact hinv objectId hentry.2
    · rw [hstorage, ComponentStorage.hasEntry_remove] at hentry
      exact hinv objectId hentry
    · rw [hstorage, ComponentStorage.hasEntry_writeAll] at hentry
      rcases hentry with ⟨w, hw, rfl⟩ | hentry
      · exact hwrites w hw
      · exact hinv objectId hentry
  rcases howned.step hstep with howned' | ⟨t, rfl, hcall⟩
  · exact howned'
  · obtain ⟨id, hcall', rfl⟩ := destroyRemoveAll_eq hstep
    rw [hcall] at hcall'
    cases hcall'
    rw [leave_storage, ComponentStorage.hasEntry_removeAll] at hentry
    exact absurd rfl hentry.1

end SharedWorld

/-- In every run from empty whose writes only go to owned objects, whenever no call is in progress
the objects with an entry in the storage are registered. -/
theorem idle_entries_registered {s : SharedWorld}
    (h : (sharedSystem (· = .empty)).ReachWhere SharedWorld.WritesOwned s) (hidle : s.calls = ∅)
    {objectId : UInt64} (hentry : s.storage.HasEntry objectId) :
    objectId ∈ s.registry.objects := by
  have hinv : s.EntriesOwned := by
    refine h.invariant ?_ fun s a s' hinv hwrites hstep => hinv.step hwrites hstep
    rintro s rfl objectId hentry
    exact absurd hentry (ComponentStorage.not_hasEntry_empty objectId)
  rcases hinv objectId hentry with hreg | ⟨t, hcall⟩
  · exact hreg
  · rw [hidle] at hcall
    cases hcall

/-! ## An invocation that outlives its object

The guest is a module without a memory that stores an empty component 7 of the object it is given.
-/

/-- Thread 1 takes a snapshot of object 5, thread 0 destroys the object, and then the guest of
thread 1 writes. -/
def writeAfterDestroy : List SharedAction :=
  [.create ⟨1, 0, 5⟩, .getSnapshot 1 5, .destroyErase 0 5, .destroyRemoveAll 0,
    .hostCall 1 (.setComponent 5 7 0 0) none, .invokeReturn 1 none (some 0)]

/-- The same calls with the invocation first. -/
def writeBeforeDestroy : List SharedAction :=
  [.create ⟨1, 0, 5⟩, .getSnapshot 1 5, .hostCall 1 (.setComponent 5 7 0 0) none,
    .invokeReturn 1 none (some 0)]

/-- The late write leaves an entry for an object that is not registered. -/
theorem late_write_stays :
    ∃ s, (sharedSystem (· = .empty)).run .empty writeAfterDestroy = some s ∧ s.calls = ∅ ∧
      s.storage.HasEntry 5 ∧ 5 ∉ s.registry.objects :=
  ⟨_, rfl, by decide, by decide, by decide⟩

/-- `idle_entries_registered` on a run with an invocation in time. -/
theorem idle_entries_registered_in_time :
    ∃ s, (sharedSystem (· = .empty)).runWhere SharedWorld.WritesOwned .empty writeBeforeDestroy =
      some s ∧ 5 ∈ s.registry.objects :=
  ⟨_, rfl, idle_entries_registered (.of_runWhere (.init rfl) writeBeforeDestroy rfl) (by decide)
    (by decide)⟩

end WasmHot
