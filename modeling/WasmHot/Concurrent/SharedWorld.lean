import WasmHot.Core.ObjectRegistry
import WasmHot.Lib.Transition
import WasmHot.Plugin.WasmEdgePlugin

/-!
# Threads on the registry and the storage

The calls that several threads make on the shared singletons, cut at the points where another thread
can come in between:

* `Create` is one critical section of `map_mutex_`;
* `Destroy` is two, the erase from `objects_` and the `RemoveAll`;
* `InvokeModule` takes its header snapshot under the registry's locks and holds neither of them
  afterwards: each host call of the guest and the final delta is a step of its own;
* `Migrate` keeps the registry's map lock shared and the entry's mutex for its whole run, and each
  storage access of a migration function is a step of its own.

A lock that is held over several steps shows as a condition on the steps that need it: `Create` and
the erase of `Destroy` wait for every running `Migrate` (`MapFree`), `Get` and `Migrate` for one of
the same object (`EntryFree`).
-/

namespace WasmHot

/-- Where a thread is inside a call. -/
inductive Call
  /-- `Destroy`, between its two critical sections. -/
  | destroying (objectId : UInt64)
  /-- `InvokeModule`, inside the callback of `Get`. -/
  | invoking (objectId : UInt64) (view : GameObject)
  /-- `Migrate`, with the variables of its loop, and whether a migration function is running. -/
  | migrating (objectId : UInt64) (target current : UInt32) (view : GameObject) (inFunc : Bool)
  deriving DecidableEq

/-- The object whose entry a call keeps locked. -/
def Call.locks : Call → Option UInt64
  | .migrating objectId _ _ _ _ => some objectId
  | _ => none

/-- The singletons and the calls in progress. Of `migrations_` only the keys matter here: what a
migration function does is up to the thread that runs it. -/
structure SharedWorld where
  registry : ObjectRegistry
  storage : ComponentStorage
  migrations : Finset UInt64
  calls : UnorderedMap ThreadId Call
  deriving DecidableEq

/-- One step of a thread. -/
inductive SharedAction
  | create (header : ObjectHeader)
  | destroyErase (t : ThreadId) (objectId : UInt64)
  | destroyRemoveAll (t : ThreadId)
  | getSnapshot (t : ThreadId) (objectId : UInt64)
  | hostCall (t : ThreadId) (call : HostCall) (memory : GuestMemory)
  | invokeReturn (t : ThreadId) (exported : GuestMemory) (value : Option Int32)
  | register (fromVersion toVersion : UInt32)
  | migrateBegin (t : ThreadId) (objectId : UInt64) (target : UInt32)
  | funcCall (t : ThreadId)
  | funcWrite (t : ThreadId) (w : ComponentWrite)
  | funcRemove (t : ThreadId) (objectId : UInt64) (type : ComponentType)
  | funcReturn (t : ThreadId) (ok : Bool) (header : ObjectHeader)
  | migrateEnd (t : ThreadId)

/-- The write of `ApplyOutputDelta`, if it accepts the output and the view has a storage. -/
def GameObject.deltaWrite (obj : GameObject) (output : List UInt8) : List ComponentWrite :=
  if GameObject.IsDelta output ∧ obj.storage = .singleton then
    [⟨obj.header.objectId, loadU32 (output.drop 4), output.drop 8⟩]
  else []

theorem GameObject.applyOutputDelta_storage (obj : GameObject) (output : List UInt8)
    (s : ComponentStorage) :
    (obj.applyOutputDelta output s).2 = s.writeAll (obj.deltaWrite output) := by
  rw [GameObject.applyOutputDelta_eq]
  unfold GameObject.deltaWrite GameObject.writeComponent
  by_cases hdelta : GameObject.IsDelta output
  · cases hptr : obj.storage with
    | null => simp [hdelta, ComponentStorage.writeAll]
    | singleton => simp [hdelta, ComponentStorage.writeAll]
  · simp [hdelta, ComponentStorage.writeAll]

namespace SharedWorld

/-- Nothing registered, nothing stored, no call in progress. -/
def empty : SharedWorld := ⟨⟨∅⟩, .empty, ∅, ∅⟩

/-- No `Migrate` holds the registry's map lock. -/
def MapFree (s : SharedWorld) : Prop :=
  ∀ t ∈ s.calls.keys, (s.calls.lookup t).bind Call.locks = none

/-- No `Migrate` holds the mutex of this object's entry. -/
def EntryFree (s : SharedWorld) (objectId : UInt64) : Prop :=
  ∀ t ∈ s.calls.keys, (s.calls.lookup t).bind Call.locks ≠ some objectId

instance (s : SharedWorld) : Decidable s.MapFree :=
  inferInstanceAs (Decidable (∀ t ∈ s.calls.keys, _))

instance (s : SharedWorld) (objectId : UInt64) : Decidable (s.EntryFree objectId) :=
  inferInstanceAs (Decidable (∀ t ∈ s.calls.keys, _))

/-- The thread enters a call, or goes on to another place in it. -/
def enter (s : SharedWorld) (t : ThreadId) (call : Call) : SharedWorld :=
  { s with calls := s.calls.insert t call }

/-- The thread returns from its call. -/
def leave (s : SharedWorld) (t : ThreadId) : SharedWorld :=
  { s with calls := s.calls.erase t }

/-- `Create`. -/
def create (s : SharedWorld) (header : ObjectHeader) : Option SharedWorld :=
  if s.MapFree then some { s with registry := s.registry.create header } else none

/-- `Destroy` up to the end of its first block. -/
def destroyErase (s : SharedWorld) (t : ThreadId) (objectId : UInt64) : Option SharedWorld :=
  if s.calls.lookup t = none ∧ s.MapFree then
    match s.registry.objects.lookup objectId with
    | none => some s
    | some _ =>
        -- The mutex of the entry is free: only a `Migrate` holds one from step to step.
        some ({ s with registry := ⟨s.registry.objects.erase objectId⟩ }.enter t
          (.destroying objectId))
  else none

/-- `storage_->RemoveAll(object_id)` of `Destroy`, and its return. -/
def destroyRemoveAll (s : SharedWorld) (t : ThreadId) : Option SharedWorld :=
  match s.calls.lookup t with
  | some (.destroying objectId) =>
      some ({ s with storage := s.storage.removeAll objectId }.leave t)
  | _ => none

/-- `InvokeModule` up to the start of its callback. -/
def getSnapshot (s : SharedWorld) (t : ThreadId) (objectId : UInt64) : Option SharedWorld :=
  if s.calls.lookup t = none ∧ s.EntryFree objectId then
    match s.registry.get objectId with
    -- The callback gets a null pointer, and `InvokeModule` returns.
    | none => some s
    -- Both locks are released before the callback starts.
    | some view => some (s.enter t (.invoking objectId view))
  else none

/-- A host call of the guest. -/
def hostCall (s : SharedWorld) (t : ThreadId) (call : HostCall) (memory : GuestMemory) :
    Option SharedWorld :=
  match s.calls.lookup t with
  -- `g_host_ctx` is thread-local: it is the context of this thread's view.
  | some (.invoking _ view) =>
      some { s with storage := (call.answer view.context memory s.storage).storage }
  | _ => none

/-- The end of `Execute` after the guest returned or trapped, and `ApplyOutputDelta`. -/
def invokeReturn (s : SharedWorld) (t : ThreadId) (exported : GuestMemory) (value : Option Int32) :
    Option SharedWorld :=
  match s.calls.lookup t with
  | some (.invoking _ view) =>
      let taken := takeOutput exported value []
      let storage :=
        if taken.1 then (view.applyOutputDelta taken.2 s.storage).2 else s.storage
      some ({ s with storage := storage }.leave t)
  | _ => none

/-- `MigrationEngine::Register`. -/
def register (s : SharedWorld) (fromVersion toVersion : UInt32) : SharedWorld :=
  { s with migrations := insert (MigrationEngine.makeKey fromVersion toVersion) s.migrations }

/-- `Migrate` up to the start of its loop. -/
def migrateBegin (s : SharedWorld) (t : ThreadId) (objectId : UInt64) (target : UInt32) :
    Option SharedWorld :=
  if s.calls.lookup t = none ∧ s.EntryFree objectId then
    match s.registry.get objectId with
    | none => some s
    | some view =>
        some (s.enter t (.migrating objectId target view.header.schemaVersion view false))
  else none

/-- There is a function for the next pair of the walk. -/
def HasStep (s : SharedWorld) (target current : UInt32) : Prop :=
  current ≠ target ∧
    MigrationEngine.makeKey current (nextVersion current target) ∈ s.migrations

instance (s : SharedWorld) (target current : UInt32) : Decidable (s.HasStep target current) :=
  inferInstanceAs (Decidable (_ ∧ _))

/-- `MigrateStep` calls the function it has found. -/
def funcCall (s : SharedWorld) (t : ThreadId) : Option SharedWorld :=
  match s.calls.lookup t with
  | some (.migrating objectId target current view false) =>
      if s.HasStep target current then
        some (s.enter t (.migrating objectId target current view true))
      else none
  | _ => none

/-- A migration function writes a component. -/
def funcWrite (s : SharedWorld) (t : ThreadId) (w : ComponentWrite) : Option SharedWorld :=
  match s.calls.lookup t with
  | some (.migrating _ _ _ _ true) =>
      some { s with storage := s.storage.write w.objectId w.type w.data }
  | _ => none

/-- A migration function removes a component. -/
def funcRemove (s : SharedWorld) (t : ThreadId) (objectId : UInt64) (type : ComponentType) :
    Option SharedWorld :=
  match s.calls.lookup t with
  | some (.migrating _ _ _ _ true) =>
      some { s with storage := (s.storage.remove objectId type).2 }
  | _ => none

/-- The migration function returns, with the header it leaves in the view. If it returned false, so
do `MigrateStep` and both `Migrate`s. -/
def funcReturn (s : SharedWorld) (t : ThreadId) (ok : Bool) (header : ObjectHeader) :
    Option SharedWorld :=
  match s.calls.lookup t with
  | some (.migrating objectId target current view true) =>
      if ok then
        let next := nextVersion current target
        let view := { view with header := header }.setVersion next
        some (s.enter t (.migrating objectId target next view false))
      else some (s.leave t)
  | _ => none

/-- The loop ends: at the target, where the view's header is stored, or before a pair that has no
function. -/
def migrateEnd (s : SharedWorld) (t : ThreadId) : Option SharedWorld :=
  match s.calls.lookup t with
  | some (.migrating objectId target current view false) =>
      if s.HasStep target current then none
      else if current = target then
        some ({ s with registry := ⟨s.registry.objects.insert objectId view.header⟩ }.leave t)
      else some (s.leave t)
  | _ => none

/-- The component an invocation writes when it returns: that of its output delta, if it has one. -/
def invokeWrites (view : GameObject) (exported : GuestMemory) (value : Option Int32) :
    List ComponentWrite :=
  let taken := takeOutput exported value []
  if taken.1 then view.deltaWrite taken.2 else []

/-- The components a step writes. -/
def writesOf (s : SharedWorld) : SharedAction → List ComponentWrite
  | .hostCall t call memory =>
      match s.calls.lookup t with
      | some (.invoking _ view) => call.accepted view.context memory
      | _ => []
  | .invokeReturn t exported value =>
      match s.calls.lookup t with
      | some (.invoking _ view) => invokeWrites view exported value
      | _ => []
  | .funcWrite _ w => [w]
  | _ => []

/-- The step of an action, where it is enabled. -/
def step (s : SharedWorld) : SharedAction → Option SharedWorld
  | .create header => s.create header
  | .destroyErase t objectId => s.destroyErase t objectId
  | .destroyRemoveAll t => s.destroyRemoveAll t
  | .getSnapshot t objectId => s.getSnapshot t objectId
  | .hostCall t call memory => s.hostCall t call memory
  | .invokeReturn t exported value => s.invokeReturn t exported value
  | .register fromVersion toVersion => some (s.register fromVersion toVersion)
  | .migrateBegin t objectId target => s.migrateBegin t objectId target
  | .funcCall t => s.funcCall t
  | .funcWrite t w => s.funcWrite t w
  | .funcRemove t objectId type => s.funcRemove t objectId type
  | .funcReturn t ok header => s.funcReturn t ok header
  | .migrateEnd t => s.migrateEnd t

/-! ## What each step does -/

variable {s s' : SharedWorld} {t : ThreadId} {objectId : UInt64}

theorem lookup_enter (s : SharedWorld) (t t' : ThreadId) (call : Call) :
    (s.enter t call).calls.lookup t' = if t' = t then some call else s.calls.lookup t' :=
  UnorderedMap.lookup_insert _ _ _ _

theorem lookup_leave (s : SharedWorld) (t t' : ThreadId) :
    (s.leave t).calls.lookup t' = if t' = t then none else s.calls.lookup t' :=
  UnorderedMap.lookup_erase _ _ _

@[simp]
theorem leave_registry (s : SharedWorld) (t : ThreadId) : (s.leave t).registry = s.registry := rfl

@[simp]
theorem leave_storage (s : SharedWorld) (t : ThreadId) : (s.leave t).storage = s.storage := rfl

/-- While the map is free no call keeps an entry locked. -/
theorem MapFree.locks_ne {call : Call} (h : s.MapFree) (hcall : s.calls.lookup t = some call) :
    call.locks ≠ some objectId :=
  UnorderedMap.label_ne (fun u hu hlocks => nomatch (h u hu).symm.trans hlocks) hcall

/-- While the entry is free no call keeps it locked. -/
theorem EntryFree.locks_ne {call : Call} (h : s.EntryFree objectId)
    (hcall : s.calls.lookup t = some call) : call.locks ≠ some objectId :=
  UnorderedMap.label_ne h hcall

theorem create_eq {header : ObjectHeader} (h : s.create header = some s') :
    s.MapFree ∧ s' = { s with registry := s.registry.create header } := by
  simp only [create, Option.ite_none_right_eq_some, Option.some.injEq] at h
  exact ⟨h.1, h.2.symm⟩

theorem destroyErase_eq (h : s.destroyErase t objectId = some s') :
    s.calls.lookup t = none ∧ s.MapFree ∧
      (s' = s ∨ s' = { s with registry := ⟨s.registry.objects.erase objectId⟩ }.enter t
        (.destroying objectId)) := by
  simp only [destroyErase, Option.ite_none_right_eq_some] at h
  obtain ⟨⟨hidle, hfree⟩, h⟩ := h
  refine ⟨hidle, hfree, ?_⟩
  split at h
  · exact Or.inl (Option.some.inj h).symm
  · exact Or.inr (Option.some.inj h).symm

theorem destroyRemoveAll_eq (h : s.destroyRemoveAll t = some s') :
    ∃ objectId, s.calls.lookup t = some (.destroying objectId) ∧
      s' = { s with storage := s.storage.removeAll objectId }.leave t := by
  unfold destroyRemoveAll at h
  split at h
  · next objectId hcall => exact ⟨objectId, hcall, (Option.some.inj h).symm⟩
  · cases h

theorem getSnapshot_eq (h : s.getSnapshot t objectId = some s') :
    s.calls.lookup t = none ∧ s.EntryFree objectId ∧
      (s' = s ∨ ∃ header, s.registry.objects.lookup objectId = some header ∧
        s' = s.enter t (.invoking objectId (viewOf header))) := by
  simp only [getSnapshot, Option.ite_none_right_eq_some] at h
  obtain ⟨⟨hidle, hfree⟩, h⟩ := h
  refine ⟨hidle, hfree, ?_⟩
  split at h
  · exact Or.inl (Option.some.inj h).symm
  · next view hview =>
    obtain ⟨header, hheader, rfl⟩ := Option.map_eq_some_iff.mp hview
    exact Or.inr ⟨header, hheader, (Option.some.inj h).symm⟩

theorem hostCall_eq {call : HostCall} {memory : GuestMemory}
    (h : s.hostCall t call memory = some s') :
    ∃ objectId view, s.calls.lookup t = some (.invoking objectId view) ∧
      s' = { s with storage := s.storage.writeAll (call.accepted view.context memory) } := by
  unfold hostCall at h
  split at h
  · next objectId view hcall =>
    rw [HostCall.answer_storage] at h
    exact ⟨objectId, view, hcall, (Option.some.inj h).symm⟩
  · cases h

theorem invokeReturn_eq {exported : GuestMemory} {value : Option Int32}
    (h : s.invokeReturn t exported value = some s') :
    ∃ objectId view, s.calls.lookup t = some (.invoking objectId view) ∧
      s' = { s with storage := s.storage.writeAll (invokeWrites view exported value) }.leave t := by
  unfold invokeReturn at h
  split at h
  · next objectId view hcall =>
    refine ⟨objectId, view, hcall, ?_⟩
    rw [← Option.some.inj h]
    unfold invokeWrites
    cases hok : (takeOutput exported value []).1 with
    | false => simp [hok, ComponentStorage.writeAll]
    | true => simp [hok, GameObject.applyOutputDelta_storage]
  · cases h

theorem migrateBegin_eq {target : UInt32} (h : s.migrateBegin t objectId target = some s') :
    s.calls.lookup t = none ∧ s.EntryFree objectId ∧
      (s' = s ∨ ∃ header, s.registry.objects.lookup objectId = some header ∧
        s' = s.enter t
          (.migrating objectId target header.schemaVersion (viewOf header) false)) := by
  simp only [migrateBegin, Option.ite_none_right_eq_some] at h
  obtain ⟨⟨hidle, hfree⟩, h⟩ := h
  refine ⟨hidle, hfree, ?_⟩
  split at h
  · exact Or.inl (Option.some.inj h).symm
  · next view hview =>
    obtain ⟨header, hheader, rfl⟩ := Option.map_eq_some_iff.mp hview
    exact Or.inr ⟨header, hheader, (Option.some.inj h).symm⟩

theorem funcCall_eq (h : s.funcCall t = some s') :
    ∃ objectId target current view,
      s.calls.lookup t = some (.migrating objectId target current view false) ∧
      current ≠ target ∧ s' = s.enter t (.migrating objectId target current view true) := by
  unfold funcCall at h
  split at h
  · next objectId target current view hcall =>
    simp only [Option.ite_none_right_eq_some, Option.some.injEq] at h
    exact ⟨objectId, target, current, view, hcall, h.1.1, h.2.symm⟩
  · cases h

theorem funcWrite_eq {w : ComponentWrite} (h : s.funcWrite t w = some s') :
    s' = { s with storage := s.storage.writeAll [w] } := by
  unfold funcWrite at h
  split at h
  · exact (Option.some.inj h).symm
  · cases h

theorem funcRemove_eq {type : ComponentType} (h : s.funcRemove t objectId type = some s') :
    s' = { s with storage := (s.storage.remove objectId type).2 } := by
  unfold funcRemove at h
  split at h
  · exact (Option.some.inj h).symm
  · cases h

theorem funcReturn_eq {ok : Bool} {header : ObjectHeader}
    (h : s.funcReturn t ok header = some s') :
    ∃ objectId target current view,
      s.calls.lookup t = some (.migrating objectId target current view true) ∧
      s' = if ok then
          s.enter t (.migrating objectId target (nextVersion current target)
            ({ view with header := header }.setVersion (nextVersion current target)) false)
        else s.leave t := by
  unfold funcReturn at h
  split at h
  · next objectId target current view hcall =>
    refine ⟨objectId, target, current, view, hcall, ?_⟩
    cases ok with
    | true => exact (Option.some.inj h).symm
    | false => exact (Option.some.inj h).symm
  · cases h

theorem migrateEnd_eq (h : s.migrateEnd t = some s') :
    ∃ objectId target current view,
      s.calls.lookup t = some (.migrating objectId target current view false) ∧
      s' = if current = target then
          { s with registry := ⟨s.registry.objects.insert objectId view.header⟩ }.leave t
        else s.leave t := by
  unfold migrateEnd at h
  split at h
  · next objectId target current view hcall =>
    refine ⟨objectId, target, current, view, hcall, ?_⟩
    split at h
    · cases h
    · split at h
      · next hcur => rw [if_pos hcur, Option.some.inj h]
      · next hcur => rw [if_neg hcur, Option.some.inj h]
  · cases h

/-! ## What a step does to the storage, to a call and to the registry -/

/-- Every step that is not a `RemoveAll` or a `Remove` changes the storage by what it writes. -/
theorem storage_cases {a : SharedAction} (h : s.step a = some s') :
    (∃ t objectId, a = .destroyRemoveAll t ∧
        s.calls.lookup t = some (.destroying objectId) ∧
        s'.storage = s.storage.removeAll objectId) ∨
      (∃ t objectId type, a = .funcRemove t objectId type ∧
        s'.storage = (s.storage.remove objectId type).2) ∨
      s'.storage = s.storage.writeAll (s.writesOf a) := by
  cases a with
  | create header =>
    obtain ⟨-, rfl⟩ := create_eq h
    exact Or.inr (Or.inr rfl)
  | destroyErase t objectId =>
    obtain ⟨-, -, rfl | rfl⟩ := destroyErase_eq h
    · exact Or.inr (Or.inr rfl)
    · exact Or.inr (Or.inr rfl)
  -- Besides the writes there are two ways to lose components.
  | destroyRemoveAll t =>
    obtain ⟨objectId, hcall, rfl⟩ := destroyRemoveAll_eq h
    exact Or.inl ⟨t, objectId, rfl, hcall, rfl⟩
  | getSnapshot t objectId =>
    obtain ⟨-, -, rfl | ⟨_, -, rfl⟩⟩ := getSnapshot_eq h
    · exact Or.inr (Or.inr rfl)
    · exact Or.inr (Or.inr rfl)
  -- The writes of a host call are those of its object's view (`writesOf`).
  | hostCall t call memory =>
    obtain ⟨objectId, view, hcall, rfl⟩ := hostCall_eq h
    simp [writesOf, hcall]
  | invokeReturn t exported value =>
    obtain ⟨objectId, view, hcall, rfl⟩ := invokeReturn_eq h
    simp [writesOf, hcall]
  | register fromVersion toVersion =>
    cases h
    exact Or.inr (Or.inr rfl)
  | migrateBegin t objectId target =>
    obtain ⟨-, -, rfl | ⟨_, -, rfl⟩⟩ := migrateBegin_eq h
    · exact Or.inr (Or.inr rfl)
    · exact Or.inr (Or.inr rfl)
  | funcCall t =>
    obtain ⟨_, _, _, _, -, -, rfl⟩ := funcCall_eq h
    exact Or.inr (Or.inr rfl)
  | funcWrite t w =>
    have hs' := funcWrite_eq h
    subst hs'
    exact Or.inr (Or.inr rfl)
  | funcRemove t objectId type =>
    have hs' := funcRemove_eq h
    subst hs'
    exact Or.inr (Or.inl ⟨t, objectId, type, rfl, rfl⟩)
  | funcReturn t ok header =>
    obtain ⟨_, _, _, _, -, rfl⟩ := funcReturn_eq h
    refine Or.inr (Or.inr ?_)
    cases ok <;> rfl
  | migrateEnd t =>
    obtain ⟨_, _, _, _, -, rfl⟩ := migrateEnd_eq h
    refine Or.inr (Or.inr ?_)
    split <;> rfl

/-- A component that is there after a step was written by it or was there before. -/
theorem read_cases {a : SharedAction} {type : ComponentType} {data : ComponentData}
    (h : s.step a = some s') (hread : s'.storage.read objectId type = some data) :
    (∃ w ∈ s.writesOf a, w.Hits objectId type) ∨ s.storage.read objectId type = some data := by
  rcases storage_cases h with ⟨_, id, -, -, hstorage⟩ | ⟨_, id, type', -, hstorage⟩ | hstorage
  · rw [hstorage, ComponentStorage.read_removeAll, Option.ite_none_left_eq_some] at hread
    exact Or.inr hread.2
  · rw [hstorage, ComponentStorage.read_remove, Option.ite_none_left_eq_some] at hread
    exact Or.inr hread.2
  · rw [hstorage, ComponentStorage.read_writeAll, Option.or_eq_some_iff] at hread
    rcases hread with hlast | ⟨-, hread⟩
    · exact Or.inl (exists_hits_of_lastWritten hlast)
    · exact Or.inr hread

/-- How an action moves its thread from one place to another. -/
inductive Moves : SharedAction → ThreadId → Option Call → Option Call → Prop
  | erased {t id} : Moves (.destroyErase t id) t none (some (.destroying id))
  | removed {t id} : Moves (.destroyRemoveAll t) t (some (.destroying id)) none
  | viewed {t id view} : Moves (.getSnapshot t id) t none (some (.invoking id view))
  | returned {t id view exported value} :
      Moves (.invokeReturn t exported value) t (some (.invoking id view)) none
  | begun {t id target current view} :
      Moves (.migrateBegin t id target) t none (some (.migrating id target current view false))
  | called {t id target current view} :
      Moves (.funcCall t) t (some (.migrating id target current view false))
        (some (.migrating id target current view true))
  | stepped {t id target current view header next view'} :
      Moves (.funcReturn t true header) t (some (.migrating id target current view true))
        (some (.migrating id target next view' false))
  | refused {t id target current view header} :
      Moves (.funcReturn t false header) t (some (.migrating id target current view true)) none
  | ended {t id target current view} :
      Moves (.migrateEnd t) t (some (.migrating id target current view false)) none

/-- A step leaves a thread where it is or moves it. -/
theorem call_cases {a : SharedAction} (h : s.step a = some s') (t : ThreadId) :
    s'.calls.lookup t = s.calls.lookup t ∨ Moves a t (s.calls.lookup t) (s'.calls.lookup t) := by
  -- A step of thread `u` that goes on in a call moves `u`, and no thread else.
  have henter : ∀ (w : SharedWorld) (u : ThreadId) (call : Call), w.calls = s.calls →
      (u = t → Moves a t (s.calls.lookup t) (some call)) →
      (w.enter u call).calls.lookup t = s.calls.lookup t ∨
        Moves a t (s.calls.lookup t) ((w.enter u call).calls.lookup t) := by
    intro w u call hw hmove
    rw [lookup_enter, hw]
    by_cases hu : t = u
    · rw [if_pos hu]
      exact Or.inr (hmove hu.symm)
    · exact Or.inl (if_neg hu)
  -- The same for a step that ends the call of `u`.
  have hleave : ∀ (w : SharedWorld) (u : ThreadId), w.calls = s.calls →
      (u = t → Moves a t (s.calls.lookup t) none) →
      (w.leave u).calls.lookup t = s.calls.lookup t ∨
        Moves a t (s.calls.lookup t) ((w.leave u).calls.lookup t) := by
    intro w u hw hmove
    rw [lookup_leave, hw]
    by_cases hu : t = u
    · rw [if_pos hu]
      exact Or.inr (hmove hu.symm)
    · exact Or.inl (if_neg hu)
  cases a with
  | create header =>
    obtain ⟨-, rfl⟩ := create_eq h
    exact Or.inl rfl
  | destroyErase u objectId =>
    obtain ⟨hidle, -, rfl | rfl⟩ := destroyErase_eq h
    · exact Or.inl rfl
    -- The object was registered; where it was not, the call is over at once.
    · refine henter _ _ _ rfl ?_
      rintro rfl
      rw [hidle]
      exact .erased
  | destroyRemoveAll u =>
    obtain ⟨objectId, hcall, rfl⟩ := destroyRemoveAll_eq h
    refine hleave _ _ rfl ?_
    rintro rfl
    rw [hcall]
    exact .removed
  | getSnapshot u objectId =>
    obtain ⟨hidle, -, rfl | ⟨_, -, rfl⟩⟩ := getSnapshot_eq h
    · exact Or.inl rfl
    · refine henter _ _ _ rfl ?_
      rintro rfl
      rw [hidle]
      exact .viewed
  | hostCall u call memory =>
    obtain ⟨_, _, -, rfl⟩ := hostCall_eq h
    exact Or.inl rfl
  | invokeReturn u exported value =>
    obtain ⟨objectId, view, hcall, rfl⟩ := invokeReturn_eq h
    refine hleave _ _ rfl ?_
    rintro rfl
    rw [hcall]
    exact .returned
  | register fromVersion toVersion =>
    cases h
    exact Or.inl rfl
  | migrateBegin u objectId target =>
    obtain ⟨hidle, -, rfl | ⟨_, -, rfl⟩⟩ := migrateBegin_eq h
    · exact Or.inl rfl
    · refine henter _ _ _ rfl ?_
      rintro rfl
      rw [hidle]
      exact .begun
  | funcCall u =>
    obtain ⟨_, _, _, _, hcall, -, rfl⟩ := funcCall_eq h
    refine henter _ _ _ rfl ?_
    rintro rfl
    rw [hcall]
    exact .called
  | funcWrite u w =>
    have hs' := funcWrite_eq h
    subst hs'
    exact Or.inl rfl
  | funcRemove u objectId type =>
    have hs' := funcRemove_eq h
    subst hs'
    exact Or.inl rfl
  | funcReturn u ok header =>
    obtain ⟨_, _, _, _, hcall, rfl⟩ := funcReturn_eq h
    cases ok with
    -- The loop goes on after `true` and returns after `false`.
    | true =>
      refine henter _ _ _ rfl ?_
      rintro rfl
      rw [hcall]
      exact .stepped
    | false =>
      refine hleave _ _ rfl ?_
      rintro rfl
      rw [hcall]
      exact .refused
  | migrateEnd u =>
    obtain ⟨_, _, _, _, hcall, rfl⟩ := migrateEnd_eq h
    -- Whether or not the target was reached, the call is over.
    split
    · refine hleave _ _ rfl ?_
      rintro rfl
      rw [hcall]
      exact .ended
    · refine hleave _ _ rfl ?_
      rintro rfl
      rw [hcall]
      exact .ended

/-- A `Destroy` between its critical sections stays there until it calls `RemoveAll`. -/
theorem destroying_kept {a : SharedAction} (h : s.step a = some s')
    (hcall : s.calls.lookup t = some (.destroying objectId)) :
    s'.calls.lookup t = some (.destroying objectId) ∨ a = .destroyRemoveAll t := by
  rcases call_cases h t with hsame | hmoves
  · exact Or.inl (hsame.trans hcall)
  · rw [hcall] at hmoves
    generalize s'.calls.lookup t = after at hmoves ⊢
    cases hmoves
    exact Or.inr rfl

/-- A thread that is in a call has been there before or has moved there. -/
theorem reached_cases {a : SharedAction} {call : Call} (h : s.step a = some s')
    (hcall : s'.calls.lookup t = some call) :
    s.calls.lookup t = some call ∨ Moves a t (s.calls.lookup t) (some call) := by
  have hmoves := call_cases h t
  rw [hcall] at hmoves
  exact hmoves.imp_left Eq.symm

/-- A `Destroy` gets between its critical sections by its erase. -/
theorem destroying_cases {a : SharedAction} (h : s.step a = some s')
    (hcall : s'.calls.lookup t = some (.destroying objectId)) :
    s.calls.lookup t = some (.destroying objectId) ∨ a = .destroyErase t objectId := by
  rcases reached_cases h hcall with hsame | hmoves
  · exact Or.inl hsame
  · generalize s.calls.lookup t = before at hmoves
    cases hmoves
    exact Or.inr rfl

/-- An invocation gets its view from `Get`. -/
theorem invoking_cases {a : SharedAction} {view : GameObject} (h : s.step a = some s')
    (hcall : s'.calls.lookup t = some (.invoking objectId view)) :
    s.calls.lookup t = some (.invoking objectId view) ∨ a = .getSnapshot t objectId := by
  rcases reached_cases h hcall with hsame | hmoves
  · exact Or.inl hsame
  · generalize s.calls.lookup t = before at hmoves
    cases hmoves
    exact Or.inr rfl

/-- The registry changes by a `Create`, by the erase of a `Destroy`, and by the end of a `Migrate`
that has reached its target. -/
theorem registry_cases {a : SharedAction} (h : s.step a = some s') :
    s'.registry = s.registry ∨
      (∃ header, a = .create header ∧ s'.registry = s.registry.create header) ∨
      (∃ t objectId, a = .destroyErase t objectId ∧
        s'.registry = ⟨s.registry.objects.erase objectId⟩ ∧
        s'.calls.lookup t = some (.destroying objectId)) ∨
      ∃ t objectId target view, a = .migrateEnd t ∧
        s.calls.lookup t = some (.migrating objectId target target view false) ∧
        s'.registry = ⟨s.registry.objects.insert objectId view.header⟩ := by
  cases a with
  | create header =>
    obtain ⟨-, rfl⟩ := create_eq h
    exact Or.inr (Or.inl ⟨header, rfl, rfl⟩)
  | destroyErase t objectId =>
    obtain ⟨-, -, rfl | rfl⟩ := destroyErase_eq h
    · exact Or.inl rfl
    -- Only a `Destroy` that has found the object goes on to `RemoveAll`.
    · refine Or.inr (Or.inr (Or.inl ⟨t, objectId, rfl, rfl, ?_⟩))
      rw [lookup_enter, if_pos rfl]
  | destroyRemoveAll t =>
    obtain ⟨_, -, rfl⟩ := destroyRemoveAll_eq h
    exact Or.inl rfl
  | getSnapshot t objectId =>
    obtain ⟨-, -, rfl | ⟨_, -, rfl⟩⟩ := getSnapshot_eq h
    · exact Or.inl rfl
    · exact Or.inl rfl
  -- Guests and migration functions write components, and no header in the registry.
  | hostCall t call memory =>
    obtain ⟨_, _, -, rfl⟩ := hostCall_eq h
    exact Or.inl rfl
  | invokeReturn t exported value =>
    obtain ⟨_, _, -, rfl⟩ := invokeReturn_eq h
    exact Or.inl rfl
  | register fromVersion toVersion =>
    cases h
    exact Or.inl rfl
  | migrateBegin t objectId target =>
    obtain ⟨-, -, rfl | ⟨_, -, rfl⟩⟩ := migrateBegin_eq h
    · exact Or.inl rfl
    · exact Or.inl rfl
  | funcCall t =>
    obtain ⟨_, _, _, _, -, -, rfl⟩ := funcCall_eq h
    exact Or.inl rfl
  | funcWrite t w =>
    have hs' := funcWrite_eq h
    subst hs'
    exact Or.inl rfl
  | funcRemove t objectId type =>
    have hs' := funcRemove_eq h
    subst hs'
    exact Or.inl rfl
  | funcReturn t ok header =>
    obtain ⟨_, _, _, _, -, rfl⟩ := funcReturn_eq h
    cases ok
    · exact Or.inl rfl
    · exact Or.inl rfl
  | migrateEnd t =>
    obtain ⟨objectId, target, current, view, hcall, rfl⟩ := migrateEnd_eq h
    -- The header is copied back only if the loop has come to its target.
    by_cases hcur : current = target
    · subst hcur
      refine Or.inr (Or.inr (Or.inr ⟨t, objectId, current, view, rfl, hcall, ?_⟩))
      rw [if_pos rfl, leave_registry]
    · rw [if_neg hcur]
      exact Or.inl rfl

/-- An object stays registered until some `Destroy` erases it, which then has its `RemoveAll`
ahead. -/
theorem registered_kept {a : SharedAction} (h : s.step a = some s')
    (hreg : objectId ∈ s.registry.objects) :
    objectId ∈ s'.registry.objects ∨ ∃ t, s'.calls.lookup t = some (.destroying objectId) := by
  rcases registry_cases h with heq | ⟨header, -, heq⟩ | ⟨t, id, -, heq, hcall⟩ |
    ⟨_, id, _, view, -, -, heq⟩
  · exact Or.inl (heq ▸ hreg)
  · rw [heq]
    exact Or.inl (Finmap.mem_insert.mpr (Or.inr hreg))
  · by_cases hid : objectId = id
    · subst hid
      exact Or.inr ⟨t, hcall⟩
    · rw [heq]
      exact Or.inl (Finmap.mem_erase.mpr ⟨hid, hreg⟩)
  · rw [heq]
    exact Or.inl (Finmap.mem_insert.mpr (Or.inr hreg))

end SharedWorld

/-- All interleavings of the calls, from the states in `init`. -/
def sharedSystem (init : SharedWorld → Prop) : TransitionSystem SharedWorld SharedAction where
  Init := init
  step := SharedWorld.step

end WasmHot
