import WasmHot.Core.ObjectRegistry
import WasmHot.Lib.EdgePath
import WasmHot.Lib.Transition

/-!
# The migration history of an object

The sequential system of the three object singletons, with the pairs whose migration function
returned true on one object as a history variable. The walk of a single `Migrate` is a connected
path (`migrateLoop_path`), but the stored header follows it only when the call returns true: after a
call that failed halfway, the next walk starts where the last one started, not where it ended.

`applied_connected` is the property on runs in which no `Migrate` of the object fails after one of
its functions returned true.
-/

namespace WasmHot

/-- The three singletons that hold objects: `ObjectRegistry`, `MigrationEngine` and
`ComponentStorage`. -/
structure World where
  registry : ObjectRegistry
  engine : MigrationEngine
  storage : ComponentStorage

/-- A call on the singletons, or a component write or removal through a view. -/
inductive Request
  | create (header : ObjectHeader)
  | destroy (objectId : UInt64)
  | register (fromVersion toVersion : UInt32) (func : MigrationFunc)
  | migrate (objectId : UInt64) (target : UInt32)
  | write (objectId : UInt64) (type : ComponentType) (data : ComponentData)
  | remove (objectId : UInt64) (type : ComponentType)

namespace World

/-- The state a call leaves. -/
def handle (w : World) : Request → World
  | .create header => { w with registry := w.registry.create header }
  | .destroy id =>
      let (registry, storage) := w.registry.destroy id w.storage
      { w with registry, storage }
  | .register v v' func => { w with engine := w.engine.register v v' func }
  | .migrate id target =>
      let m := w.registry.migrate w.engine id target w.storage
      { w with registry := m.registry, storage := m.storage }
  | .write id type data => { w with storage := w.storage.write id type data }
  | .remove id type => { w with storage := (w.storage.remove id type).2 }

/-- The pairs whose function returned true on the object during a call. -/
def appliedBy (objectId : UInt64) (w : World) : Request → List (UInt32 × UInt32)
  | .migrate id target =>
      if id = objectId then succeeded (w.registry.migrate w.engine id target w.storage).calls
      else []
  | _ => []

/-- The header the registry holds for an object. -/
abbrev headerOf (w : World) (objectId : UInt64) : Option ObjectHeader :=
  w.registry.objects.lookup objectId

end World

/-- Sequential runs that start with the `Create` of an object. -/
def sinceCreate (header : ObjectHeader) : TransitionSystem World Request where
  Init w := ∃ before : World, w = before.handle (.create header)
  step w request := some (w.handle request)

/-- Those runs with the pairs applied to the object so far. -/
def sinceCreateApplied (header : ObjectHeader) :
    TransitionSystem (World × List (UInt32 × UInt32)) Request :=
  (sinceCreate header).withHistory (fun _ => []) fun applied w request =>
    applied ++ w.appliedBy header.objectId request

/-- The call neither creates nor destroys the object. -/
def Request.KeepsObject (objectId : UInt64) : Request → Prop
  | .create header => header.objectId ≠ objectId
  | .destroy id => id ≠ objectId
  | _ => True

/-- The call does not migrate the object, or fails without a function returning true, or does not
fail. -/
def Request.FailsAtOnce (objectId : UInt64) (w : World) : Request → Prop
  | .migrate id target => id = objectId → ∀ header, w.headerOf id = some header →
      w.engine.FailsAtOnce target (MigrationEngine.start (viewOf header) w.storage)
  | _ => True

/-! ## The walk of one call -/

namespace MigrationEngine

variable {e : MigrationEngine} {target : UInt32} {p : Progress}

/-- The functions that return true during one walk form a path from its first version, and if the
walk succeeds the path ends at the target. -/
theorem migrateLoop_path (e : MigrationEngine) (target : UInt32) (p : Progress) :
    ∃ v, EdgePath p.current (succeeded (e.migrateLoop target p).calls) v ∧
      ((e.migrateLoop target p).ok = true → v = target) := by
  induction p using walk_induction e target with
  | done p hcur =>
    rw [migrateLoop_of_eq hcur]
    exact ⟨p.current, .nil _, fun _ => hcur⟩
  | stuck p hstuck =>
    rw [migrateLoop_of_stuck hstuck, succeeded_stepOf, hstuck.2]
    exact ⟨p.current, .nil _, fun hok => by cases hok⟩
  | round p q hadv ih =>
    obtain ⟨v, hpath, hend⟩ := ih
    rw [migrateLoop_of_advances hadv, succeeded_append, succeeded_stepOf, if_pos hadv.2.1]
    obtain ⟨-, -, rfl⟩ := hadv
    exact ⟨v, (EdgePath.single _ _).append hpath, hend⟩

/-- A walk that fails at once applies nothing. -/
theorem FailsAtOnce.succeeded_eq_nil (h : e.FailsAtOnce target p)
    (hfail : (e.migrateLoop target p).ok = false) :
    succeeded (e.migrateLoop target p).calls = [] := by
  obtain ⟨q, hreach, hstuck⟩ := (migrateLoop_fails_iff p).mp hfail
  obtain rfl := h q hreach hstuck
  rw [migrateLoop_of_stuck hstuck, succeeded_stepOf, hstuck.2]
  rfl

end MigrationEngine

/-! ## The stored header follows the data -/

/-- The pairs applied so far lead from the version given to `Create` to the version the registry
holds. -/
def HeaderFollows (header : ObjectHeader) (w : World) (applied : List (UInt32 × UInt32)) : Prop :=
  ∃ stored, w.headerOf header.objectId = some stored ∧
    EdgePath header.schemaVersion applied stored.schemaVersion

/-- A `Migrate` of the object that does not fail halfway keeps the header with the data. -/
theorem HeaderFollows.migrate {header : ObjectHeader} {w : World} {applied : List (UInt32 × UInt32)}
    {target : UInt32} (h : HeaderFollows header w applied)
    (hclean : (Request.migrate header.objectId target).FailsAtOnce header.objectId w) :
    HeaderFollows header (w.handle (.migrate header.objectId target))
      (applied ++ w.appliedBy header.objectId (.migrate header.objectId target)) := by
  obtain ⟨stored, hstored, hpath⟩ := h
  have honce := hclean rfl stored hstored
  obtain ⟨v, hwalk, hend⟩ :=
    MigrationEngine.migrateLoop_path w.engine target
      (MigrationEngine.start (viewOf stored) w.storage)
  simp only [World.appliedBy, if_pos, World.handle, HeaderFollows, World.headerOf]
  rw [ObjectRegistry.migrate_of_some hstored]
  cases hok : (w.engine.migrate (viewOf stored) target w.storage).ok with
  | false =>
    have hnone := honce.succeeded_eq_nil hok
    exact ⟨stored, by simpa using hstored, by simpa [MigrationEngine.migrate, hnone] using hpath⟩
  | true =>
    refine ⟨(w.engine.migrate (viewOf stored) target w.storage).obj.header, by simp, ?_⟩
    rw [MigrationEngine.migrate_ok_version hok]
    rw [hend hok] at hwalk
    exact hpath.append hwalk

/-- Every other call leaves the stored header and the applied pairs alone. -/
theorem HeaderFollows.other {header : ObjectHeader} {w : World} {applied : List (UInt32 × UInt32)}
    {request : Request} (h : HeaderFollows header w applied)
    (hkeeps : request.KeepsObject header.objectId)
    (hother : ∀ target, request ≠ .migrate header.objectId target) :
    HeaderFollows header (w.handle request)
      (applied ++ w.appliedBy header.objectId request) := by
  obtain ⟨stored, hstored, hpath⟩ := h
  have hnone : w.appliedBy header.objectId request = [] := by
    cases request with
    | migrate id target =>
      have hid : id ≠ header.objectId := fun heq => hother target (by rw [heq])
      simp [World.appliedBy, hid]
    | _ => rfl
  rw [hnone, List.append_nil]
  refine ⟨stored, ?_, hpath⟩
  rw [← hstored]
  cases request with
  | create header' =>
    have hid : header.objectId ≠ header'.objectId := fun heq => hkeeps heq.symm
    simp [World.handle, World.headerOf, ObjectRegistry.create, hid]
  | destroy id =>
    have hid : header.objectId ≠ id := fun heq => hkeeps heq.symm
    simp [World.handle, World.headerOf, ObjectRegistry.lookup_destroy, hid]
  | migrate id target =>
    have hid : header.objectId ≠ id := fun heq => hother target (by rw [heq])
    exact ObjectRegistry.lookup_migrate_ne hid
  | _ => rfl

/-- As long as no `Migrate` of the object fails after one of its functions returned true, the pairs
applied since its `Create` are a connected path from the version given to `Create`. -/
theorem applied_connected {header : ObjectHeader} {p : World × List (UInt32 × UInt32)}
    (h : (sinceCreateApplied header).ReachWhere (fun p request =>
      request.KeepsObject header.objectId ∧ request.FailsAtOnce header.objectId p.1) p) :
    ∃ v, EdgePath header.schemaVersion p.2 v := by
  have hfollows : HeaderFollows header p.1 p.2 := by
    refine h.invariant_withHistory ?_ ?_
    · rintro w ⟨before, rfl⟩
      exact ⟨header, by simp [World.handle, World.headerOf, ObjectRegistry.create], .nil _⟩
    · rintro w applied request w' hinv ⟨hkeeps, hclean⟩ hstep
      cases hstep
      by_cases hmigrate : ∃ target, request = .migrate header.objectId target
      · obtain ⟨target, rfl⟩ := hmigrate
        exact hinv.migrate hclean
      · exact hinv.other hkeeps fun target heq => hmigrate ⟨target, heq⟩
  obtain ⟨stored, -, hpath⟩ := hfollows
  exact ⟨stored.schemaVersion, hpath⟩

/-! ## A retry after a failed migration

Object 5 is created at version 1 over the table that has a function for (1, 2) only. Migrating it to
3 fails after that function ran, and migrating it to 2 then runs the function again.
-/

/-- The world in which object 5 is created. -/
def worldOfFive : World := ⟨⟨∅⟩, upgradeToTwo, .empty⟩

/-- The header object 5 is created with. -/
def headerOfFive : ObjectHeader := ⟨1, 0, 5⟩

/-- The state after the `Create` of object 5. -/
def createdFive : World := worldOfFive.handle (.create headerOfFive)

/-- The state after a failed migration of object 5 to version 3. -/
def stuckFive : World := createdFive.handle (.migrate 5 3)

/-- One call of a run since the `Create` of object 5. -/
theorem reach_handle {C : World × List (UInt32 × UInt32) → Request → Prop} {w : World}
    {applied : List (UInt32 × UInt32)} (request : Request)
    (h : (sinceCreateApplied headerOfFive).ReachWhere C (w, applied))
    (hC : C (w, applied) request) :
    (sinceCreateApplied headerOfFive).ReachWhere C
      (w.handle request, applied ++ w.appliedBy headerOfFive.objectId request) :=
  h.step hC rfl

/-- The retry applies the function for (1, 2) a second time, to data that is at version 2. -/
theorem retry_not_connected :
    worldOfFive.engine.WellBehaved ∧
      ∃ p, (sinceCreateApplied headerOfFive).ReachWhere
          (fun _ request => request.KeepsObject headerOfFive.objectId) p ∧
        ¬ ∃ v, EdgePath headerOfFive.schemaVersion p.2 v := by
  refine ⟨upgradeToTwo_wellBehaved, _, reach_handle (.migrate 5 2)
    (reach_handle (.migrate 5 3) (.init ⟨⟨worldOfFive, rfl⟩, rfl⟩) trivial) trivial, ?_⟩
  have hpairs : createdFive.appliedBy headerOfFive.objectId (.migrate 5 3) ++
      stuckFive.appliedBy headerOfFive.objectId (.migrate 5 2) = [(1, 2), (1, 2)] := by
    decide +kernel
  rintro ⟨v, hpath⟩
  change EdgePath 1 (createdFive.appliedBy headerOfFive.objectId (.migrate 5 3) ++
    stuckFive.appliedBy headerOfFive.objectId (.migrate 5 2)) v at hpath
  rw [hpairs] at hpath
  cases hpath with
  | cons h => exact absurd h.cons_start (by decide)

/-- `applied_connected` on the run that migrates object 5 to version 2 only. -/
theorem applied_connected_upgrade :
    ∃ v, EdgePath headerOfFive.schemaVersion
      (createdFive.appliedBy headerOfFive.objectId (.migrate 5 2)) v := by
  have hcreated : (sinceCreateApplied headerOfFive).ReachWhere (fun p request =>
      request.KeepsObject headerOfFive.objectId ∧ request.FailsAtOnce headerOfFive.objectId p.1)
      (createdFive, []) := .init ⟨⟨worldOfFive, rfl⟩, rfl⟩
  refine applied_connected (reach_handle (.migrate 5 2) hcreated ⟨trivial, ?_⟩)
  rintro - header hheader
  obtain rfl : header = headerOfFive := by
    have hstored : createdFive.headerOf 5 = some headerOfFive := by decide +kernel
    rw [hstored] at hheader
    exact (Option.some.inj hheader).symm
  exact .of_ok (by decide +kernel)

end WasmHot
