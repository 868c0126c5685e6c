import WasmHot.Core.ObjectRegistry

/-!
# Migration functions as programs

A `MigrationFunc` is an arbitrary effect on the view and the storage. A `MigrationProgram` is the
body of one that works on the components of its own view: it reads, writes and removes them one
call after the other, goes on with what each call returned, and ends with a verdict and the fields
it leaves in the header. It has no way to name another object, nor to rename its own.

`run` is what the whole body does when nothing comes in between. Where other threads do, the calls
are steps of their own (`WasmHot.Concurrent.DisjointMigrations`).
-/

namespace WasmHot

/-- The rest of the body of a migration function. -/
inductive MigrationProgram
  /-- `return ok`, with the other two fields of `obj.header` as they are then. -/
  | ret (ok : Bool) (schemaVersion objectType : UInt32)
  /-- `ReadComponent`; the callback only takes the bytes out. -/
  | read (type : ComponentType) (next : Option ComponentData → MigrationProgram)
  /-- `WriteComponent`. -/
  | write (type : ComponentType) (data : ComponentData) (next : MigrationProgram)
  /-- `RemoveComponent`. -/
  | remove (type : ComponentType) (next : Bool → MigrationProgram)

/-- The header of the view when the function returns. -/
def GameObject.returned (obj : GameObject) (schemaVersion objectType : UInt32) : GameObject :=
  { obj with header := ⟨schemaVersion, objectType, obj.header.objectId⟩ }

namespace MigrationProgram

/-- What the body does on a view. -/
def run (obj : GameObject) : MigrationProgram → ComponentStorage → FuncResult
  | .ret ok schemaVersion objectType, s => ⟨ok, obj.returned schemaVersion objectType, s⟩
  | .read type next, s => (next (obj.readComponent type s)).run obj s
  | .write type data next, s => next.run obj (obj.writeComponent type data s)
  | .remove type next, s =>
      (next (obj.removeComponent type s).1).run obj (obj.removeComponent type s).2

/-- The view stays a view of the same object in the same storage. -/
theorem run_view (p : MigrationProgram) (obj : GameObject) (s : ComponentStorage) :
    ∃ schemaVersion objectType, (p.run obj s).obj = obj.returned schemaVersion objectType := by
  induction p generalizing s with
  | ret ok schemaVersion objectType => exact ⟨schemaVersion, objectType, rfl⟩
  | read type next ih => exact ih _ s
  | write type data next ih => exact ih _
  | remove type next ih => exact ih _ _

end MigrationProgram

/-- A migration function written as a program: its body depends on the view and the versions it is
called with. -/
abbrev ProgramFunc := GameObject → UInt32 → UInt32 → MigrationProgram

/-- The migration function that runs the program. -/
def ProgramFunc.toFunc (f : ProgramFunc) : MigrationFunc :=
  fun obj v w s => (f obj v w).run obj s

/-- A `MigrationEngine` all of whose functions are programs. -/
structure ProgramEngine where
  engine : MigrationEngine
  /-- The programs, under the keys of `migrations_`. -/
  program : UInt64 → Option ProgramFunc
  implements : ∀ key, engine.migrations.lookup key = (program key).map ProgramFunc.toFunc

namespace ProgramEngine

/-- No function registered. -/
def empty : ProgramEngine where
  engine := ⟨∅⟩
  program _ := none
  implements _ := Finmap.lookup_empty _

/-- `Register` of a program. -/
def register (e : ProgramEngine) (fromVersion toVersion : UInt32) (func : ProgramFunc) :
    ProgramEngine where
  engine := e.engine.register fromVersion toVersion func.toFunc
  program key :=
    if key = MigrationEngine.makeKey fromVersion toVersion then some func else e.program key
  implements key := by
    rw [MigrationEngine.register, UnorderedMap.lookup_insert, e.implements key]
    split <;> rfl

variable {e : ProgramEngine} {target : UInt32}

/-- A step of the engine, told by the program of its pair. -/
theorem migrateStep_eq (e : ProgramEngine) (obj : GameObject) (v w : UInt32)
    (s : ComponentStorage) :
    e.engine.migrateStep obj v w s =
      match e.program (MigrationEngine.makeKey v w) with
      | none => ⟨false, obj, s, []⟩
      | some func =>
          ⟨((func obj v w).run obj s).ok, ((func obj v w).run obj s).obj,
            ((func obj v w).run obj s).storage, [⟨v, w, ((func obj v w).run obj s).ok⟩]⟩ := by
  unfold MigrationEngine.migrateStep
  rw [e.implements]
  cases e.program (MigrationEngine.makeKey v w) <;> rfl

/-- A round leaves the view on its object. -/
theorem stepOf_objectId (e : ProgramEngine) (target : UInt32) (p : Progress) :
    (e.engine.stepOf target p).obj.header.objectId = p.obj.header.objectId := by
  rw [MigrationEngine.stepOf, migrateStep_eq]
  split
  · rfl
  · next func _ =>
    obtain ⟨schemaVersion, objectType, hview⟩ := (func p.obj p.current _).run_view p.obj p.storage
    dsimp only
    rw [hview]
    rfl

/-- So does the whole walk. -/
theorem migrateLoop_objectId (e : ProgramEngine) (target : UInt32) (p : Progress) :
    (e.engine.migrateLoop target p).obj.header.objectId = p.obj.header.objectId := by
  induction p using MigrationEngine.walk_induction e.engine target with
  | done p hcur => rw [MigrationEngine.migrateLoop_of_eq hcur]
  | stuck p hstuck => rw [MigrationEngine.migrateLoop_of_stuck hstuck, e.stepOf_objectId]
  | round p q hadv ih =>
    rw [MigrationEngine.migrateLoop_of_advances hadv]
    obtain ⟨-, -, rfl⟩ := hadv
    exact ih.trans (e.stepOf_objectId target p)

end ProgramEngine

/-! ## Headers under their own object id -/

namespace ObjectRegistry

/-- The registries that the calls of the class lead to, with one table of migration functions. -/
inductive Built (e : ProgramEngine) : ObjectRegistry → Prop
  | empty : Built e ⟨∅⟩
  | create {r : ObjectRegistry} (hr : Built e r) (header : ObjectHeader) :
      Built e (r.create header)
  | destroy {r : ObjectRegistry} (hr : Built e r) (objectId : UInt64) (s : ComponentStorage) :
      Built e (r.destroy objectId s).1
  | migrate {r : ObjectRegistry} (hr : Built e r) (objectId : UInt64) (target : UInt32)
      (s : ComponentStorage) : Built e (r.migrate e.engine objectId target s).registry

/-- Every header is stored under the object id it has. -/
theorem Built.keyed {e : ProgramEngine} {r : ObjectRegistry} (hr : r.Built e) {objectId : UInt64}
    {header : ObjectHeader} (h : r.objects.lookup objectId = some header) :
    header.objectId = objectId := by
  induction hr generalizing header with
  | empty => simp at h
  | create hr created ih =>
    rw [ObjectRegistry.create, UnorderedMap.lookup_insert] at h
    split at h
    · next hid =>
      cases h
      exact hid.symm
    · exact ih h
  | destroy hr destroyed s ih =>
    rw [lookup_destroy] at h
    split at h
    · cases h
    · exact ih h
  | @migrate r hr migrated target s ih =>
    -- A program leaves the id of its view, and only the header of that object is stored.
    by_cases hid : objectId = migrated
    · subst hid
      cases hfound : r.objects.lookup objectId with
      | none =>
        rw [migrate_of_none hfound] at h
        exact ih h
      | some stored =>
        rw [migrate_of_some hfound] at h
        dsimp only at h
        split at h
        · rw [UnorderedMap.lookup_insert, if_pos rfl] at h
          cases h
          exact (e.migrateLoop_objectId target _).trans (ih hfound)
        · exact ih h
    · rw [lookup_migrate_ne hid] at h
      exact ih h

end ObjectRegistry

end WasmHot
