import WasmHot.Core.MigrationEngine

/-!
# ObjectRegistry

The registry keeps the authoritative header of every object. `Get` and `Migrate` work on a temporary
view of it; `Migrate` copies the view's header back only when the engine returned true, while the
migration functions have been writing to the shared storage all along.
-/

namespace WasmHot

/-- `ObjectRegistry`: the header in each entry of `objects_`. -/
structure ObjectRegistry where
  objects : UnorderedMap UInt64 ObjectHeader
  deriving DecidableEq

/-- What `ObjectRegistry::Migrate` leaves, with the function calls it made. -/
structure RegistryMigrated where
  ok : Bool
  registry : ObjectRegistry
  storage : ComponentStorage
  calls : List MigrationCall

/-- The view `Get` and `Migrate` build around a header. -/
def viewOf (header : ObjectHeader) : GameObject := ⟨header, .singleton⟩

namespace ObjectRegistry

/-- `Create`: the entry of the header's object id is replaced. -/
def create (r : ObjectRegistry) (header : ObjectHeader) : ObjectRegistry :=
  ⟨r.objects.insert header.objectId header⟩

/-- `Get`: the view its callback gets, or nothing for `callback(nullptr)`. -/
def get (r : ObjectRegistry) (objectId : UInt64) : Option GameObject :=
  (r.objects.lookup objectId).map viewOf

/-- `Destroy`: an object that is not registered keeps its components. -/
def destroy (r : ObjectRegistry) (objectId : UInt64) (storage : ComponentStorage) :
    ObjectRegistry × ComponentStorage :=
  match r.objects.lookup objectId with
  | none => (r, storage)
  | some _ => (⟨r.objects.erase objectId⟩, storage.removeAll objectId)

/-- `Migrate`. -/
def migrate (r : ObjectRegistry) (e : MigrationEngine) (objectId : UInt64) (target : UInt32)
    (storage : ComponentStorage) : RegistryMigrated :=
  match r.objects.lookup objectId with
  | none => ⟨false, r, storage, []⟩
  | some header =>
      let m := e.migrate (viewOf header) target storage
      -- The header is copied back on success only; the storage is whatever the functions left.
      let registry := if m.ok then ⟨r.objects.insert objectId m.obj.header⟩ else r
      ⟨m.ok, registry, m.storage, m.calls⟩

variable {r : ObjectRegistry} {e : MigrationEngine} {objectId : UInt64} {target : UInt32}
  {storage : ComponentStorage} {header : ObjectHeader}

theorem migrate_of_none (h : r.objects.lookup objectId = none) :
    r.migrate e objectId target storage = ⟨false, r, storage, []⟩ := by
  simp only [migrate, h]

theorem migrate_of_some (h : r.objects.lookup objectId = some header) :
    r.migrate e objectId target storage =
      ⟨(e.migrate (viewOf header) target storage).ok,
        if (e.migrate (viewOf header) target storage).ok then
          ⟨r.objects.insert objectId (e.migrate (viewOf header) target storage).obj.header⟩
        else r,
        (e.migrate (viewOf header) target storage).storage,
        (e.migrate (viewOf header) target storage).calls⟩ := by
  simp only [migrate, h]

/-- `Destroy` unregisters its object and no other. -/
theorem lookup_destroy (r : ObjectRegistry) (id id' : UInt64) (storage : ComponentStorage) :
    (r.destroy id storage).1.objects.lookup id' =
      if id' = id then none else r.objects.lookup id' := by
  unfold destroy
  cases hentry : r.objects.lookup id with
  | none =>
    by_cases hid : id' = id
    · rw [if_pos hid, hid, hentry]
    · rw [if_neg hid]
  | some header => exact UnorderedMap.lookup_erase _ _ _

/-- `Migrate` touches no other header. -/
theorem lookup_migrate_ne {id' : UInt64} (h : id' ≠ objectId) :
    (r.migrate e objectId target storage).registry.objects.lookup id' = r.objects.lookup id' := by
  cases hentry : r.objects.lookup objectId with
  | none => rw [migrate_of_none hentry]
  | some header =>
    rw [migrate_of_some hentry]
    dsimp only
    split
    · rw [UnorderedMap.lookup_insert, if_neg h]
    · rfl

end ObjectRegistry

/-! ## What a migration function promises -/

/-- What a migration function promises: it touches only the components of the object it is given,
leaves the view alone, and changes nothing when it returns false. -/
structure MigrationFunc.WellBehaved (func : MigrationFunc) : Prop where
  own_components : ∀ obj v w s id type, id ≠ obj.header.objectId →
    (func obj v w s).storage.read id type = s.read id type
  view_kept : ∀ obj v w s, (func obj v w s).obj = obj
  refusal : ∀ obj v w s, (func obj v w s).ok = false → (func obj v w s).storage = s

namespace MigrationEngine

/-- Every registered function keeps its promise. -/
def WellBehaved (e : MigrationEngine) : Prop :=
  ∀ key func, e.migrations.lookup key = some func → func.WellBehaved

/-- The walk from `p` gets stuck at `p` or nowhere. -/
def FailsAtOnce (e : MigrationEngine) (target : UInt32) (p : Progress) : Prop :=
  ∀ q, e.AdvancesTo target p q → e.Stuck target q → q = p

variable {e : MigrationEngine} {target : UInt32} {p : Progress}

/-- A stuck step of a well-behaved table leaves the storage alone. -/
theorem WellBehaved.stuck_storage (he : e.WellBehaved) (h : e.Stuck target p) :
    (e.stepOf target p).storage = p.storage := by
  obtain ⟨-, hok⟩ := h
  unfold stepOf migrateStep at hok ⊢
  cases hfound : e.migrations.lookup (makeKey p.current (nextVersion p.current target)) with
  | none => rfl
  | some func =>
    simp only [hfound] at hok ⊢
    exact (he _ _ hfound).refusal _ _ _ _ hok

/-- A walk that reaches the target fails at once, since it does not fail. -/
theorem FailsAtOnce.of_ok (h : (e.migrateLoop target p).ok = true) : e.FailsAtOnce target p := by
  intro q hreach hstuck
  have hfail := (migrateLoop_fails_iff p).mpr ⟨q, hreach, hstuck⟩
  rw [h] at hfail
  cases hfail

end MigrationEngine

/-! ## A table with one function -/

/-- A function that writes component 7 of its object. -/
def writeSeven : MigrationFunc :=
  fun obj _ _ s => ⟨true, obj, obj.writeComponent 7 [1] s⟩

/-- The table with `writeSeven` for the pair (1, 2) and nothing else. -/
def upgradeToTwo : MigrationEngine := (⟨∅⟩ : MigrationEngine).register 1 2 writeSeven

/-- A registry that holds object 5 at version 1. -/
def registryOfFive : ObjectRegistry := (⟨∅⟩ : ObjectRegistry).create ⟨1, 0, 5⟩

theorem writeSeven_wellBehaved : writeSeven.WellBehaved where
  own_components obj v w s id type hid := by
    cases hptr : obj.storage with
    | null => simp [writeSeven, GameObject.writeComponent, hptr]
    | singleton => simp [writeSeven, GameObject.writeComponent, hptr, s.read_write, hid]
  view_kept _ _ _ _ := rfl
  refusal _ _ _ _ hok := by cases hok

theorem upgradeToTwo_wellBehaved : upgradeToTwo.WellBehaved := by
  intro key func hfound
  simp only [upgradeToTwo, MigrationEngine.register, UnorderedMap.lookup_insert] at hfound
  split at hfound
  · cases hfound
    exact writeSeven_wellBehaved
  · simp at hfound

end WasmHot
