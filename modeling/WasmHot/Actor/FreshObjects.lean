import WasmHot.Core.ObjectIdentity
import WasmHot.Actor.InvokeFrame

/-!
# The components of a new object

The registry and the storage are two stores that know nothing of each other. `Destroy` clears an
object in both, and `Create` writes to the registry alone: it takes it on trust that the storage has
nothing under the id.

As long as functions and plugins write only to their own object and no migration renames one, every
component belongs to an object that is registered (`Filed`), so an object that is created under an id
that is not registered starts empty (`starts_empty_of_unregistered`). An id that is registered keeps
its components when it is created again (`created_starts_empty_iff`).
-/

namespace WasmHot

/-- The function touches only the components of the object it is given. -/
def MigrationFunc.WritesOwn (func : MigrationFunc) : Prop :=
  ∀ obj v v' s id type, id ≠ obj.header.objectId →
    (func obj v v' s).storage.read id type = s.read id type

/-- A call on the objects of the program. -/
inductive ObjectCall
  | create (header : ObjectHeader)
  | destroy (objectId : UInt64)
  | register (fromVersion toVersion : UInt32) (func : MigrationFunc)
  | migrate (objectId : UInt64) (target : UInt32)
  /-- An actor invokes one of its plugins; the actor is whatever its earlier calls have made it. -/
  | invokeModule (actor : ActorWithObject) (moduleName action : String) (input : List UInt8)
      (ctx : HostContext)

section

variable (cityHash64 : String → UInt64)

/-- The state a call leaves. -/
def World.call (w : World) : ObjectCall → World
  | .create header => w.handle (.create header)
  | .destroy id => w.handle (.destroy id)
  | .register v v' func => w.handle (.register v v' func)
  | .migrate id target => w.handle (.migrate id target)
  | .invokeModule actor moduleName action input ctx =>
      { w with storage := (actor.invokeModule cityHash64 w.registry moduleName action input ctx
          w.storage).storage }

/-- Sequential runs that start with no object, no component and no function. -/
def objectCalls : TransitionSystem World ObjectCall where
  Init w := w = ⟨⟨∅⟩, ⟨∅⟩, .empty⟩
  step w call := some (w.call cityHash64 call)

/-- The call writes only to the object it is for: a function that is registered touches only the
object it is given, the functions of a walk leave the object's id in the view, and the guest that an
invocation runs sets only components of the actor's object. -/
def ObjectCall.KeepsToOwn (w : World) : ObjectCall → Prop
  | .register _ _ func => func.WritesOwn
  | .migrate id target => ∀ header, w.headerOf id = some header →
      ∀ q, w.engine.AdvancesTo target (MigrationEngine.start (viewOf header) w.storage) q →
        q.obj.header.objectId = id
  | .invokeModule actor moduleName action input _ => ∀ header vm guest,
      w.headerOf actor.objectId = some header →
        actor.Reaches cityHash64 moduleName action input vm guest →
          ∀ write ∈ guest.writes (viewOf header).context w.storage,
            write.objectId = actor.objectId
  | _ => True

end

/-! ## Every component belongs to an object -/

/-- Headers are filed under their object ids, every component is that of a registered object, and the
functions touch only the object they are given. -/
structure Filed (w : World) : Prop where
  keyed : ∀ id header, w.headerOf id = some header → header.objectId = id
  owned : ∀ id type data, w.storage.read id type = some data → (w.headerOf id).isSome
  functions : ∀ key func, w.engine.migrations.lookup key = some func → func.WritesOwn

namespace MigrationEngine

variable {e : MigrationEngine} {target : UInt32} {p : Progress} {objectId id : UInt64}

/-- A step touches only the components of the object in the view. -/
theorem read_stepOf (he : ∀ key func, e.migrations.lookup key = some func → func.WritesOwn)
    (hobj : p.obj.header.objectId = objectId) (hid : id ≠ objectId) (type : ComponentType) :
    (e.stepOf target p).storage.read id type = p.storage.read id type := by
  unfold stepOf migrateStep
  cases hfound : e.migrations.lookup (makeKey p.current (nextVersion p.current target)) with
  | none => rfl
  | some func => exact he _ func hfound p.obj _ _ p.storage id type (hobj ▸ hid)

/-- So does a walk that leaves the id in the view. -/
theorem read_migrateLoop (he : ∀ key func, e.migrations.lookup key = some func → func.WritesOwn)
    (hkeeps : ∀ q, e.AdvancesTo target p q → q.obj.header.objectId = objectId)
    (hid : id ≠ objectId) (type : ComponentType) :
    (e.migrateLoop target p).storage.read id type = p.storage.read id type := by
  induction p using walk_induction e target with
  | done p hcur => rw [migrateLoop_of_eq hcur]
  | stuck p hstuck =>
    rw [migrateLoop_of_stuck hstuck]
    exact read_stepOf he (hkeeps p .refl) hid type
  | round p q hadv ih =>
    have hrest := ih fun r hr => hkeeps r (.head hadv hr)
    have hstorage : q.storage = (e.stepOf target p).storage := by
      rw [hadv.2.2]
      rfl
    rw [hstorage, read_stepOf he (hkeeps p .refl) hid type] at hrest
    rw [migrateLoop_of_advances hadv]
    exact hrest

/-- Functions that leave the id in the view they are given leave it there along a walk. -/
theorem AdvancesTo.objectId_eq
    (he : ∀ key func, e.migrations.lookup key = some func →
      ∀ obj v v' s, (func obj v v' s).obj.header.objectId = obj.header.objectId)
    {q : Progress} (h : e.AdvancesTo target p q) :
    q.obj.header.objectId = p.obj.header.objectId := by
  induction h with
  | refl => rfl
  | @tail q r _ hadv ih =>
    obtain ⟨-, -, rfl⟩ := hadv
    rw [← ih]
    show (e.stepOf target q).obj.header.objectId = _
    unfold stepOf migrateStep
    cases hfound : e.migrations.lookup (makeKey q.current (nextVersion q.current target)) with
    | none => rfl
    | some func => exact he _ func hfound _ _ _ _

end MigrationEngine

namespace Filed

variable {cityHash64 : String → UInt64} {w : World} {objectId id : UInt64}

/-- An object that is not registered has no component. -/
theorem read_eq_none (h : Filed w) (hnone : w.headerOf id = none) (type : ComponentType) :
    w.storage.read id type = none := by
  cases hread : w.storage.read id type with
  | none => rfl
  | some data =>
    have hsome := h.owned id type data hread
    rw [hnone] at hsome
    cases hsome

/-- Calls that leave the components of all objects but one registered object alone keep every
component filed. -/
theorem owned_of_others {w' : World} (h : Filed w) (hobject : (w.headerOf objectId).isSome)
    (hheaders : ∀ id, (w.headerOf id).isSome → (w'.headerOf id).isSome)
    (hothers : ∀ id type, id ≠ objectId → w'.storage.read id type = w.storage.read id type)
    (id : UInt64) (type : ComponentType) (data : ComponentData)
    (hread : w'.storage.read id type = some data) : (w'.headerOf id).isSome := by
  apply hheaders
  by_cases hid : id = objectId
  · rw [hid]
    exact hobject
  · rw [hothers id type hid] at hread
    exact h.owned id type data hread

theorem create (h : Filed w) (header : ObjectHeader) : Filed (w.handle (.create header)) where
  keyed id stored hstored := by
    simp only [World.handle, World.headerOf, ObjectRegistry.create,
      UnorderedMap.lookup_insert] at hstored
    split at hstored
    · next hid =>
      cases hstored
      exact hid.symm
    · exact h.keyed id stored hstored
  owned id type data hread := by
    have hsome := h.owned id type data hread
    simp only [World.handle, World.headerOf, ObjectRegistry.create, UnorderedMap.lookup_insert]
    split
    · rfl
    · exact hsome
  functions := h.functions

/-- `Destroy` clears its object in both stores. -/
theorem destroy (h : Filed w) (objectId : UInt64) : Filed (w.handle (.destroy objectId)) where
  keyed id stored hstored := by
    simp only [World.handle, World.headerOf, ObjectRegistry.lookup_destroy] at hstored
    split at hstored
    · cases hstored
    · exact h.keyed id stored hstored
  owned id type data hread := by
    simp only [World.handle, World.headerOf, ObjectRegistry.lookup_destroy]
    cases hentry : w.registry.objects.lookup objectId with
    | none =>
      simp only [World.handle, ObjectRegistry.destroy, hentry] at hread
      have hsome := h.owned id type data hread
      split
      · next hid =>
        rw [World.headerOf, hid, hentry] at hsome
        exact hsome
      · exact hsome
    | some header =>
      simp only [World.handle, ObjectRegistry.destroy, hentry,
        ComponentStorage.read_removeAll] at hread
      split at hread
      · cases hread
      · next hid =>
        rw [if_neg hid]
        exact h.owned id type data hread
  functions := h.functions

theorem register (h : Filed w) (v v' : UInt32) {func : MigrationFunc} (hfunc : func.WritesOwn) :
    Filed (w.handle (.register v v' func)) where
  keyed := h.keyed
  owned := h.owned
  functions key found hfound := by
    simp only [World.handle, MigrationEngine.register, UnorderedMap.lookup_insert] at hfound
    split at hfound
    · cases hfound
      exact hfunc
    · exact h.functions key found hfound

/-- `Migrate` stores the header of its own object and touches only that object's components. -/
theorem migrate (h : Filed w) (objectId : UInt64) (target : UInt32)
    (hkeeps : ∀ header, w.headerOf objectId = some header →
      ∀ q, w.engine.AdvancesTo target (MigrationEngine.start (viewOf header) w.storage) q →
        q.obj.header.objectId = objectId) : Filed (w.handle (.migrate objectId target)) := by
  cases hentry : w.registry.objects.lookup objectId with
  | none =>
    have hsame : w.handle (.migrate objectId target) = w := by
      simp only [World.handle, ObjectRegistry.migrate_of_none hentry]
    rw [hsame]
    exact h
  | some header =>
    have hkeeps := hkeeps header hentry
    have hobject : (w.headerOf objectId).isSome := by
      rw [World.headerOf, hentry]
      rfl
    -- Only the header of this object changes, and only after a walk that reached the target.
    have hheader : ∀ id, (w.handle (.migrate objectId target)).headerOf id =
        if id = objectId ∧ (w.engine.migrate (viewOf header) target w.storage).ok = true then
          some (w.engine.migrate (viewOf header) target w.storage).obj.header
        else w.headerOf id := by
      intro id
      simp only [World.handle, World.headerOf, ObjectRegistry.migrate_of_some hentry]
      by_cases hok : (w.engine.migrate (viewOf header) target w.storage).ok = true
      · simp only [hok, if_true, and_true, UnorderedMap.lookup_insert]
      · simp only [hok, Bool.false_eq_true, if_false, and_false]
    refine ⟨fun id stored hstored => ?_, h.owned_of_others hobject (fun id hsome => ?_) ?_,
      h.functions⟩
    · rw [hheader] at hstored
      split at hstored
      · next hboth =>
        obtain ⟨rfl, hok⟩ := hboth
        cases hstored
        -- The header that is copied back is the one at the end of the walk, which kept the id.
        obtain ⟨q, hreach, ⟨-, -, hobj, -⟩ | ⟨-, hfail⟩⟩ := MigrationEngine.migrateLoop_spec w.engine
          target (MigrationEngine.start (viewOf header) w.storage)
        · rw [MigrationEngine.migrate, hobj]
          exact hkeeps q hreach
        · rw [MigrationEngine.migrate, hfail] at hok
          cases hok
      · exact h.keyed id stored hstored
    · rw [hheader]
      split
      · rfl
      · exact hsome
    · intro id type hid
      simp only [World.handle, ObjectRegistry.migrate_of_some hentry]
      exact MigrationEngine.read_migrateLoop h.functions hkeeps hid type

/-- An invocation writes its delta to the object of the header that is filed, which is the actor's
own. -/
theorem invokeModule (h : Filed w) {actor : ActorWithObject} {moduleName action : String}
    {input : List UInt8} {ctx : HostContext}
    (hown : (ObjectCall.invokeModule actor moduleName action input ctx).KeepsToOwn cityHash64 w) :
    Filed (w.call cityHash64 (.invokeModule actor moduleName action input ctx)) := by
  refine ⟨h.keyed, ?_, h.functions⟩
  by_cases hruns : ∃ header vm guest, w.headerOf actor.objectId = some header ∧
      actor.Reaches cityHash64 moduleName action input vm guest
  · obtain ⟨header, vm, guest, hobj, hreach⟩ := hruns
    have hobject : (w.headerOf actor.objectId).isSome := by
      rw [hobj]
      rfl
    refine h.owned_of_others hobject (fun _ hsome => hsome) fun id type hid => ?_
    show (actor.invokeModule cityHash64 w.registry moduleName action input ctx
      w.storage).storage.read id type = _
    rw [ActorWithObject.invokeModule_storage ctx w.storage hobj hreach]
    refine ComponentStorage.read_writeAll_of_not_hits ?_ w.storage
    -- All writes are to the actor's object.
    rintro ⟨write, hmem, hhit⟩
    refine hid (hhit.1.trans ?_)
    rcases List.mem_append.mp hmem with hmem | hmem
    · exact hown header vm guest hobj hreach write hmem
    · rw [ActorWithObject.objectId_of_mem_deltaWrites hmem, h.keyed _ header hobj]
  · push Not at hruns
    intro id type data hread
    have hsame : (actor.invokeModule cityHash64 w.registry moduleName action input ctx
        w.storage).storage = w.storage :=
      ActorWithObject.invokeModule_storage_of_not_reaches hruns
    have hread' : w.storage.read id type = some data := by
      rw [← hsame]
      exact hread
    exact h.owned id type data hread'

/-- A call that keeps to its own object keeps everything filed. -/
theorem call (h : Filed w) {c : ObjectCall} (hown : c.KeepsToOwn cityHash64 w) :
    Filed (w.call cityHash64 c) := by
  cases c with
  | create header => exact h.create header
  | destroy id => exact h.destroy id
  | register v v' func => exact h.register v v' hown
  | migrate id target => exact h.migrate id target hown
  | invokeModule actor moduleName action input ctx => exact h.invokeModule hown

end Filed

/-- The object that has just been created has the header given, and no component. -/
structure StartsEmpty (w : World) (header : ObjectHeader) : Prop where
  get : w.registry.get header.objectId = some (viewOf header)
  storage : ∀ type, w.storage.read header.objectId type = none

/-- In every run whose calls keep to their own objects, everything is filed. -/
theorem Filed.of_reach {cityHash64 : String → UInt64} {w : World}
    (hreach : (objectCalls cityHash64).ReachWhere (fun w c => c.KeepsToOwn cityHash64 w) w) :
    Filed w := by
  refine hreach.invariant ?_ fun w c w' hinv hown hstep => ?_
  · rintro w rfl
    refine ⟨fun id stored hstored => ?_, fun id type data hread => ?_, fun key func hfound => ?_⟩
    · rw [World.headerOf, Finmap.lookup_empty] at hstored
      cases hstored
    · rw [ComponentStorage.read_empty] at hread
      cases hread
    · rw [Finmap.lookup_empty] at hfound
      cases hfound
  · cases hstep
    exact hinv.call hown

/-- `Create` gives the object the header, whatever was registered under its id. -/
theorem World.get_create {cityHash64 : String → UInt64} (w : World) (header : ObjectHeader) :
    (w.call cityHash64 (.create header)).registry.get header.objectId = some (viewOf header) := by
  show ((w.registry.objects.insert header.objectId header).lookup header.objectId).map viewOf = _
  rw [UnorderedMap.lookup_insert, if_pos rfl, Option.map_some]

/-- An object that is created under an id that is not registered starts empty. -/
theorem starts_empty_of_unregistered {cityHash64 : String → UInt64} {w : World}
    (hreach : (objectCalls cityHash64).ReachWhere (fun w c => c.KeepsToOwn cityHash64 w) w)
    {header : ObjectHeader} (hnone : w.headerOf header.objectId = none) :
    StartsEmpty (w.call cityHash64 (.create header)) header :=
  ⟨w.get_create header, (Filed.of_reach hreach).read_eq_none hnone⟩

/-- In every run whose calls keep to their own objects, an object that is created starts empty
exactly when its id is not registered, or is that of an object without components. -/
theorem created_starts_empty_iff {cityHash64 : String → UInt64} {w : World}
    (hreach : (objectCalls cityHash64).ReachWhere (fun w c => c.KeepsToOwn cityHash64 w) w)
    (header : ObjectHeader) :
    StartsEmpty (w.call cityHash64 (.create header)) header ↔
      w.headerOf header.objectId = none ∨
        ∀ type, w.storage.read header.objectId type = none := by
  constructor
  · exact fun hempty => Or.inr hempty.storage
  · rintro (hnone | hempty)
    · exact starts_empty_of_unregistered hreach hnone
    · exact ⟨w.get_create header, hempty⟩

/-! ## An object that is created again -/

/-- Object 5 is created at version 1 and migrated to version 2, which writes its component 7. -/
def createAndMigrate : List ObjectCall :=
  [.register 1 2 writeSeven, .create ⟨1, 0, 5⟩, .migrate 5 2]

/-- Object 5 before the migration. -/
def unmigratedFive : World := ⟨registryOfFive, upgradeToTwo, .empty⟩

/-- `writeSeven` does not rename its object. -/
theorem migrate_keepsToOwn :
    (ObjectCall.migrate 5 2).KeepsToOwn (fun _ => 0) unmigratedFive := by
  intro header hheader q hreach
  have hfive : unmigratedFive.headerOf 5 = some ⟨1, 0, 5⟩ := by decide
  cases hfive.symm.trans hheader
  refine hreach.objectId_eq fun key func hfound obj v v' s => ?_
  simp only [unmigratedFive, upgradeToTwo, MigrationEngine.register,
    UnorderedMap.lookup_insert] at hfound
  split at hfound
  · cases hfound
    rfl
  · simp at hfound

/-- If it is destroyed first, it starts empty when it is created again. -/
theorem starts_empty_after_destroy :
    ∃ w, (objectCalls fun _ => 0).run ⟨⟨∅⟩, ⟨∅⟩, .empty⟩ (createAndMigrate ++ [.destroy 5]) =
        some w ∧
      StartsEmpty (w.call (fun _ => 0) (.create ⟨1, 0, 5⟩)) ⟨1, 0, 5⟩ := by
  refine ⟨_, rfl, (created_starts_empty_iff ?_ _).mpr (Or.inl ?_)⟩
  · refine .step (.step (.step (.step (.init rfl) ?_ rfl) ?_ rfl) ?_ rfl) ?_ rfl
    · exact writeSeven_wellBehaved.own_components
    · trivial
    · exact migrate_keepsToOwn
    · trivial
  · decide +kernel

/-- Created again without a `Destroy`, it has the component that was written before. -/
theorem created_again_keeps_component :
    writeSeven.WritesOwn ∧
    ∃ w, (objectCalls fun _ => 0).run ⟨⟨∅⟩, ⟨∅⟩, .empty⟩
        (createAndMigrate ++ [.create ⟨1, 0, 5⟩]) = some w ∧
      w.storage.read 5 7 = some [1] ∧ ¬ StartsEmpty w ⟨1, 0, 5⟩ := by
  refine ⟨writeSeven_wellBehaved.own_components, _, rfl, ?_, fun hempty => ?_⟩
  · decide +kernel
  · have hnone := hempty.storage 7
    revert hnone
    decide +kernel

end WasmHot
