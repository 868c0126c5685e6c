import WasmHot.Core.MigrationHistory
import Mathlib.Logic.Function.Basic

/-!
# The registry key and the stored header

The registry files an object under the id in the header given to `Create`. `Get` builds its views
from the stored header, and a view finds its components under the id in its header, so everything
above the registry relies on the two ids being the same.

`Migrate` hands a copy of the header to the migration functions by mutable reference and stores the
whole copy when they succeed, not only its version. The key stays the identity of the object exactly
in the runs in which the functions of each successful walk, taken together, leave the id and the
type alone (`key_is_identity_iff`).
-/

namespace WasmHot

/-- The entry under a key is the object of that id, with the type given to `Create`, and its views
read and write the components of that id. -/
structure KeyIsIdentity (registry : ObjectRegistry) (types : UInt64 → Option UInt32) : Prop where
  objectId : ∀ id header, registry.objects.lookup id = some header → header.objectId = id
  objectType : ∀ id header, registry.objects.lookup id = some header →
    types id = some header.objectType
  reads : ∀ id view, registry.get id = some view →
    ∀ type s, view.readComponent type s = s.read id type
  writes : ∀ id view, registry.get id = some view →
    ∀ type data s, view.writeComponent type data s = s.write id type data

/-- The functions of a walk that reaches its target leave the id and the type in the view as the
walk found them. -/
def MigrationEngine.KeepsIdentity (e : MigrationEngine) (target : UInt32) (p : Progress) : Prop :=
  ∀ q, e.AdvancesTo target p q → q.current = target →
    q.obj.header.objectId = p.obj.header.objectId ∧
      q.obj.header.objectType = p.obj.header.objectType

/-- The call is not a `Migrate` whose walk succeeds with another id or type in the view. -/
def Request.KeepsIdentity (w : World) : Request → Prop
  | .migrate id target => ∀ header, w.headerOf id = some header →
      w.engine.KeepsIdentity target (MigrationEngine.start (viewOf header) w.storage)
  | _ => True

/-- The types given to `Create`. -/
def recordType (types : UInt64 → Option UInt32) (_ : World) : Request → UInt64 → Option UInt32
  | .create header => Function.update types header.objectId (some header.objectType)
  | _ => types

/-- Sequential runs that start with an empty registry. -/
def registryCalls : TransitionSystem World Request where
  Init w := w.registry = ⟨∅⟩
  step w request := some (w.handle request)

/-- Those runs with the types given to `Create`. -/
abbrev typedCalls : TransitionSystem (World × (UInt64 → Option UInt32)) Request :=
  registryCalls.withHistory (fun _ _ => none) recordType

namespace KeyIsIdentity

variable {registry registry' : ObjectRegistry} {types types' : UInt64 → Option UInt32}

/-- The views follow from the headers. -/
theorem of_headers
    (hid : ∀ id header, registry.objects.lookup id = some header → header.objectId = id)
    (htype : ∀ id header, registry.objects.lookup id = some header →
      types id = some header.objectType) : KeyIsIdentity registry types := by
  refine ⟨hid, htype, ?_, ?_⟩
  · intro id view hview type s
    obtain ⟨header, hheader, rfl⟩ := Option.map_eq_some_iff.mp hview
    exact congrArg (s.read · type) (hid id header hheader)
  · intro id view hview type data s
    obtain ⟨header, hheader, rfl⟩ := Option.map_eq_some_iff.mp hview
    exact congrArg (s.write · type data) (hid id header hheader)

/-- Storing a header under a key keeps the law exactly when it is the header of the key. -/
theorem insert_iff (h : KeyIsIdentity registry types) {id : UInt64} {header : ObjectHeader}
    (hother : ∀ id', id' ≠ id → types' id' = types id') :
    KeyIsIdentity ⟨registry.objects.insert id header⟩ types' ↔
      header.objectId = id ∧ types' id = some header.objectType := by
  have hself : (registry.objects.insert id header).lookup id = some header := by
    rw [UnorderedMap.lookup_insert, if_pos rfl]
  constructor
  · intro h'
    exact ⟨h'.objectId id header hself, h'.objectType id header hself⟩
  · rintro ⟨hid, htype⟩
    -- The id and the type of a stored header, each for the new one and for the others.
    refine of_headers ?_ ?_
    all_goals
      intro id' header' hlookup
      rw [UnorderedMap.lookup_insert] at hlookup
      split at hlookup
    · next heq =>
      cases hlookup
      exact hid.trans heq.symm
    · exact h.objectId id' header' hlookup
    · next heq =>
      cases hlookup
      rw [heq]
      exact htype
    · next hne =>
      rw [hother id' hne]
      exact h.objectType id' header' hlookup

/-- Removing entries keeps the law. -/
theorem destroy (h : KeyIsIdentity registry types) (id : UInt64) (s : ComponentStorage) :
    KeyIsIdentity (registry.destroy id s).1 types := by
  have hold : ∀ id' header, (registry.destroy id s).1.objects.lookup id' = some header →
      registry.objects.lookup id' = some header := by
    intro id' header hlookup
    rw [ObjectRegistry.lookup_destroy] at hlookup
    split at hlookup
    · cases hlookup
    · exact hlookup
  exact of_headers (fun id' header hlookup => h.objectId id' header (hold id' header hlookup))
    fun id' header hlookup => h.objectType id' header (hold id' header hlookup)

/-- `Migrate` keeps the law exactly when its walk keeps the identity. -/
theorem migrate_iff (h : KeyIsIdentity registry types) (e : MigrationEngine) (id : UInt64)
    (target : UInt32) (s : ComponentStorage) :
    KeyIsIdentity (registry.migrate e id target s).registry types ↔
      ∀ header, registry.objects.lookup id = some header →
        e.KeepsIdentity target (MigrationEngine.start (viewOf header) s) := by
  cases hentry : registry.objects.lookup id with
  | none =>
    rw [ObjectRegistry.migrate_of_none hentry]
    exact iff_of_true h nofun
  | some header =>
    rw [ObjectRegistry.migrate_of_some hentry]
    simp only [Option.some.injEq, forall_eq']
    obtain ⟨q, hreach, ⟨hcur, hok, hobj, -⟩ | ⟨hstuck, hfail⟩⟩ :=
      MigrationEngine.migrateLoop_spec e target (MigrationEngine.start (viewOf header) s)
    · -- The walk ends at `q` and nowhere else.
      have hend : ∀ q', e.AdvancesTo target (MigrationEngine.start (viewOf header) s) q' →
          q'.current = target → q'.obj = q.obj := by
        intro q' hreach' hcur'
        have hobj' := (MigrationEngine.migrateLoop_of_advancesTo hreach').2.1
        rw [MigrationEngine.migrateLoop_of_eq hcur', hobj] at hobj'
        exact hobj'.symm
      have hkeeps : e.KeepsIdentity target (MigrationEngine.start (viewOf header) s) ↔
          q.obj.header.objectId = header.objectId ∧
            q.obj.header.objectType = header.objectType := by
        constructor
        · exact fun hall => hall q hreach hcur
        · intro hq q' hreach' hcur'
          rw [hend q' hreach' hcur']
          exact hq
      rw [MigrationEngine.migrate, if_pos hok, hobj, h.insert_iff fun _ _ => rfl, hkeeps,
        h.objectId id header hentry, h.objectType id header hentry, Option.some.injEq,
        eq_comm (a := header.objectType)]
    -- A walk that fails stores no header, and comes to its target nowhere.
    · rw [MigrationEngine.migrate, if_neg (by simp [hfail])]
      refine iff_of_true h fun q' hreach' hcur' => ?_
      have hok' := (MigrationEngine.migrateLoop_of_advancesTo hreach').1
      rw [MigrationEngine.migrateLoop_of_eq hcur', hfail] at hok'
      cases hok'

end KeyIsIdentity

/-- One call keeps the law exactly when it keeps the identity of its object. -/
theorem World.keyIsIdentity_handle_iff {w : World} {types : UInt64 → Option UInt32}
    (h : KeyIsIdentity w.registry types) (request : Request) :
    KeyIsIdentity (w.handle request).registry (recordType types w request) ↔
      request.KeepsIdentity w := by
  cases request with
  | create header =>
    refine iff_of_true ((h.insert_iff fun id hne => ?_).mpr ⟨rfl, ?_⟩) trivial
    · exact Function.update_of_ne hne ..
    · exact Function.update_self ..
  | destroy id => exact iff_of_true (h.destroy id w.storage) trivial
  | register v v' func => exact iff_of_true h trivial
  | migrate id target => exact h.migrate_iff w.engine id target w.storage
  | write id type data => exact iff_of_true h trivial
  | remove id type => exact iff_of_true h trivial

/-- In a run from an empty registry every key is the identity of its object throughout exactly when
each `Migrate` that succeeds leaves the id and the type of its view alone. -/
theorem key_is_identity_iff (engine : MigrationEngine) (storage : ComponentStorage)
    (requests : List Request) :
    typedCalls.AlwaysOn (fun p => KeyIsIdentity p.1.registry p.2)
        (⟨⟨∅⟩, engine, storage⟩, fun _ => none) requests ↔
      typedCalls.EachStep (fun p request => request.KeepsIdentity p.1)
        (⟨⟨∅⟩, engine, storage⟩, fun _ => none) requests := by
  refine TransitionSystem.alwaysOn_iff_eachStep ?_ ?_ requests
  · rintro ⟨w, types⟩ request ⟨w', types'⟩ h hstep
    obtain ⟨hplain, rfl⟩ := TransitionSystem.withHistory_step.mp hstep
    cases hplain
    exact World.keyIsIdentity_handle_iff h request
  · refine KeyIsIdentity.of_headers ?_ ?_
    all_goals
      intro id header hlookup
      rw [Finmap.lookup_empty] at hlookup
      cases hlookup

/-! ## Functions that leave the identity alone -/

/-- The function leaves the id and the type of the view it is given alone. -/
def MigrationFunc.LeavesIdentity (func : MigrationFunc) : Prop :=
  ∀ obj v v' s, (func obj v v' s).obj.header.objectId = obj.header.objectId ∧
    (func obj v v' s).obj.header.objectType = obj.header.objectType

/-- Every function that is registered does. -/
def MigrationEngine.LeaveIdentity (e : MigrationEngine) : Prop :=
  ∀ key func, e.migrations.lookup key = some func → func.LeavesIdentity

/-- A walk with such functions ends with the id and the type that it started with. -/
theorem MigrationEngine.LeaveIdentity.keepsIdentity {e : MigrationEngine} (h : e.LeaveIdentity)
    (target : UInt32) (p : Progress) : e.KeepsIdentity target p := by
  rintro q hreach -
  induction hreach with
  | refl => exact ⟨rfl, rfl⟩
  | @tail q r _ hadv ih =>
    obtain ⟨-, -, rfl⟩ := hadv
    have hstep : (e.stepOf target q).obj.header.objectId = q.obj.header.objectId ∧
        (e.stepOf target q).obj.header.objectType = q.obj.header.objectType := by
      unfold MigrationEngine.stepOf MigrationEngine.migrateStep
      cases hfound : e.migrations.lookup
          (MigrationEngine.makeKey q.current (nextVersion q.current target)) with
      | none => exact ⟨rfl, rfl⟩
      | some func => exact h _ func hfound q.obj q.current _ q.storage
    -- The round goes on to set the version and leaves the rest of the header.
    exact ⟨hstep.1.trans ih.1, hstep.2.trans ih.2⟩

/-- With such functions registered every call leaves the identities alone. -/
theorem Request.keepsIdentity_of_leaveIdentity {w : World} (h : w.engine.LeaveIdentity)
    (request : Request) : request.KeepsIdentity w := by
  cases request with
  | migrate id target => exact fun header _ => h.keepsIdentity target _
  | _ => trivial

/-! ## A function that renames its object -/

/-- Give the object the id 6. -/
def renameToSix : MigrationFunc :=
  fun obj _ _ s => ⟨true, { obj with header := { obj.header with objectId := 6 } }, s⟩

/-- Object 5 is created at version 1 and migrated to version 2. -/
def createAndRename : List Request :=
  [.register 1 2 renameToSix, .create ⟨1, 0, 5⟩, .migrate 5 2]

/-- The entry under 5 is then the object 6, and a view of 5 writes to it. -/
theorem migrate_renames_object :
    ∃ p, typedCalls.run (⟨⟨∅⟩, ⟨∅⟩, .empty⟩, fun _ => none) createAndRename = some p ∧
      p.1.headerOf 5 = some ⟨2, 0, 6⟩ ∧ ¬ KeyIsIdentity p.1.registry p.2 := by
  refine ⟨_, rfl, ?_, ?_⟩
  · decide +kernel
  · intro h
    have hid := h.objectId 5 ⟨2, 0, 6⟩ (by decide +kernel)
    exact absurd hid (by decide)

end WasmHot
