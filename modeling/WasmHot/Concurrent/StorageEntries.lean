import WasmHot.Core.ComponentStorage
import WasmHot.Lib.Transition

/-!
# The locks of ComponentStorage

`store_` maps an object id to a heap-allocated entry. `Read`, `Remove` and the `Write` to an object
that has an entry keep the map lock shared from the lookup to the access, so the entry cannot go
away in between. The first `Write` to an object releases the lock, inserts an entry under the
exclusive lock, and assigns through what it has found there with no map lock held.

`StoredEntries` is the law the locks are there for: the entry a call is about to access is the one
stored under its object id. It holds as long as no `RemoveAll` of an object falls between the
insertion and the assignment of a first `Write` to it, and then the storage behaves as the whole
calls of `ComponentStorage` say (`entries_refine_calls`).
-/

namespace WasmHot

/-- The identity of a heap-allocated `ObjectComponents`; it is never used for a second one. -/
abbrev EntryId := ℕ

/-- What a call does to the component once it has an entry. -/
inductive ComponentAccess
  | read
  | assign (data : ComponentData)
  | erase
  deriving DecidableEq

/-- A `Read`, `Write` or `Remove` with its arguments. -/
structure StorageCall where
  objectId : UInt64
  type : ComponentType
  access : ComponentAccess
  deriving DecidableEq

/-- Where a thread is inside such a call. -/
inductive StoragePhase
  /-- The entry was found, and the map lock is held shared. -/
  | located (call : StorageCall) (entry : EntryId)
  /-- A `Write` found no entry and has released the map lock. -/
  | missed (call : StorageCall)
  /-- That `Write` has found or inserted an entry and has released the exclusive map lock. -/
  | inserted (call : StorageCall) (entry : EntryId)
  deriving DecidableEq

/-- `ComponentStorage` with its calls in progress: `store_`, the component maps of the live
entries, and the identity the next entry will get. -/
structure StorageEntries where
  store : UnorderedMap UInt64 EntryId
  components : UnorderedMap EntryId ObjectComponents
  fresh : EntryId
  phases : UnorderedMap ThreadId StoragePhase
  deriving DecidableEq

/-- One critical section. -/
inductive StorageAction
  | lookupEntry (t : ThreadId) (call : StorageCall)
  | insertEntry (t : ThreadId)
  | accessEntry (t : ThreadId)
  | removeAll (objectId : UInt64)

/-- The phase holds the map lock shared. -/
def StoragePhase.sharesMap : StoragePhase → Bool
  | .located _ _ => true
  | _ => false

/-- The call and the entry it accesses next. -/
def StoragePhase.target : StoragePhase → Option (StorageCall × EntryId)
  | .located call entry => some (call, entry)
  | .missed _ => none
  | .inserted call entry => some (call, entry)

/-- The object of a first `Write` that has its entry and has not assigned yet. -/
def StoragePhase.assigns : StoragePhase → Option UInt64
  | .inserted call _ => some call.objectId
  | _ => none

/-- What an access makes of the components of its entry. -/
def StorageCall.applyTo (call : StorageCall) (components : ObjectComponents) : ObjectComponents :=
  match call.access with
  | .read => components
  | .assign data => components.insert call.type data
  | .erase => components.erase call.type

namespace StorageEntries

/-- The storage before the first call. -/
def empty : StorageEntries := ⟨∅, ∅, 0, ∅⟩

/-- No call holds the map lock shared. -/
def MapUnshared (s : StorageEntries) : Prop :=
  ∀ t ∈ s.phases.keys, (s.phases.lookup t).map StoragePhase.sharesMap ≠ some true

instance (s : StorageEntries) : Decidable s.MapUnshared :=
  inferInstanceAs (Decidable (∀ t ∈ s.phases.keys, _))

/-- The thread goes on to another place in its call. -/
def enter (s : StorageEntries) (t : ThreadId) (phase : StoragePhase) : StorageEntries :=
  { s with phases := s.phases.insert t phase }

/-- The thread returns from its call. -/
def leave (s : StorageEntries) (t : ThreadId) : StorageEntries :=
  { s with phases := s.phases.erase t }

/-- `store_.find`, with what each call does about its result. -/
def lookupEntry (s : StorageEntries) (t : ThreadId) (call : StorageCall) :
    Option StorageEntries :=
  if s.phases.lookup t = none then
    match s.store.lookup call.objectId with
    | some entry => some (s.enter t (.located call entry))
    | none =>
        match call.access with
        | .assign _ => some (s.enter t (.missed call))
        | _ => some s
  else none

/-- The block of `Write` under the exclusive lock. -/
def insertEntry (s : StorageEntries) (t : ThreadId) : Option StorageEntries :=
  match s.phases.lookup t with
  | some (.missed call) =>
      if s.MapUnshared then
        match s.store.lookup call.objectId with
        -- Another first `Write` was faster: its entry is used and `new_obj` is dropped.
        | some entry => some (s.enter t (.inserted call entry))
        | none =>
            some ({ s with
              store := s.store.insert call.objectId s.fresh
              components := s.components.insert s.fresh ∅
              fresh := s.fresh + 1 }.enter t (.inserted call s.fresh))
      else none
  | _ => none

/-- The access under the entry's mutex, and the return. An entry that is gone has no components left
to change. -/
def accessEntry (s : StorageEntries) (t : ThreadId) : Option StorageEntries :=
  match (s.phases.lookup t).bind StoragePhase.target with
  | some (call, entry) =>
      match s.components.lookup entry with
      | some components =>
          some ({ s with
            components := s.components.insert entry (call.applyTo components) }.leave t)
      | none => some (s.leave t)
  | none => none

/-- `RemoveAll`. The mutex of the entry is free: an access takes and releases it in one step. -/
def removeAll (s : StorageEntries) (objectId : UInt64) : Option StorageEntries :=
  if s.MapUnshared then
    match s.store.lookup objectId with
    | none => some s
    | some entry =>
        some { s with
          store := s.store.erase objectId
          components := s.components.erase entry }
  else none

/-- The step of an action, where it is enabled. -/
def step (s : StorageEntries) : StorageAction → Option StorageEntries
  | .lookupEntry t call => s.lookupEntry t call
  | .insertEntry t => s.insertEntry t
  | .accessEntry t => s.accessEntry t
  | .removeAll objectId => s.removeAll objectId

end StorageEntries

/-- All interleavings of the critical sections, from an empty storage. -/
def storageSystem : TransitionSystem StorageEntries StorageAction where
  Init s := s = .empty
  step := StorageEntries.step

namespace StorageEntries

/-! ## What each step does -/

variable {s s' : StorageEntries} {t : ThreadId} {objectId : UInt64} {call : StorageCall}
  {a : StorageAction}

theorem lookup_enter (s : StorageEntries) (t t' : ThreadId) (phase : StoragePhase) :
    (s.enter t phase).phases.lookup t' = if t' = t then some phase else s.phases.lookup t' :=
  UnorderedMap.lookup_insert _ _ _ _

theorem lookup_leave (s : StorageEntries) (t t' : ThreadId) :
    (s.leave t).phases.lookup t' = if t' = t then none else s.phases.lookup t' :=
  UnorderedMap.lookup_erase _ _ _

/-- With the map lock unshared, only a first `Write` can be about to access an entry. -/
theorem MapUnshared.inserted {entry : EntryId} (h : s.MapUnshared)
    (htarget : (s.phases.lookup t).bind StoragePhase.target = some (call, entry)) :
    s.phases.lookup t = some (.inserted call entry) := by
  obtain ⟨phase, hphase, htarget⟩ := Option.bind_eq_some_iff.mp htarget
  cases phase with
  | located call' entry' =>
    have hfree := h t (UnorderedMap.mem_keys_of_lookup hphase)
    rw [hphase] at hfree
    exact absurd rfl hfree
  | missed call' => cases htarget
  | inserted call' entry' =>
    cases htarget
    exact hphase

theorem lookupEntry_eq (h : s.lookupEntry t call = some s') :
    (∃ entry, s.store.lookup call.objectId = some entry ∧
        s' = s.enter t (.located call entry)) ∨
      (∃ data, call.access = .assign data ∧ s' = s.enter t (.missed call)) ∨
      (s.store.lookup call.objectId = none ∧ (∀ data, call.access ≠ .assign data) ∧ s' = s) := by
  simp only [lookupEntry, Option.ite_none_right_eq_some] at h
  obtain ⟨-, h⟩ := h
  split at h
  · next entry hentry => exact Or.inl ⟨entry, hentry, (Option.some.inj h).symm⟩
  · next hentry =>
    split at h
    · next data haccess => exact Or.inr (Or.inl ⟨data, haccess, (Option.some.inj h).symm⟩)
    · next haccess =>
      exact Or.inr (Or.inr ⟨hentry, fun data => haccess data, (Option.some.inj h).symm⟩)

theorem insertEntry_eq (h : s.insertEntry t = some s') :
    ∃ call, s.phases.lookup t = some (.missed call) ∧
      ((∃ entry, s.store.lookup call.objectId = some entry ∧
          s' = s.enter t (.inserted call entry)) ∨
        (s.store.lookup call.objectId = none ∧
          s' = { s with
            store := s.store.insert call.objectId s.fresh
            components := s.components.insert s.fresh ∅
            fresh := s.fresh + 1 }.enter t (.inserted call s.fresh))) := by
  unfold insertEntry at h
  split at h
  · next call hphase =>
    simp only [Option.ite_none_right_eq_some] at h
    obtain ⟨-, h⟩ := h
    refine ⟨call, hphase, ?_⟩
    split at h
    · next entry hentry => exact Or.inl ⟨entry, hentry, (Option.some.inj h).symm⟩
    · next hentry => exact Or.inr ⟨hentry, (Option.some.inj h).symm⟩
  · cases h

theorem accessEntry_eq (h : s.accessEntry t = some s') :
    ∃ call entry, (s.phases.lookup t).bind StoragePhase.target = some (call, entry) ∧
      ((∃ components, s.components.lookup entry = some components ∧
          s' = { s with
            components := s.components.insert entry (call.applyTo components) }.leave t) ∨
        (s.components.lookup entry = none ∧ s' = s.leave t)) := by
  unfold accessEntry at h
  split at h
  · next call entry htarget =>
    refine ⟨call, entry, htarget, ?_⟩
    split at h
    · next components hfound => exact Or.inl ⟨components, hfound, (Option.some.inj h).symm⟩
    · next hfound => exact Or.inr ⟨hfound, (Option.some.inj h).symm⟩
  · cases h

theorem removeAll_eq (h : s.removeAll objectId = some s') :
    s.MapUnshared ∧ ((s.store.lookup objectId = none ∧ s' = s) ∨
      ∃ entry, s.store.lookup objectId = some entry ∧ s' = { s with
        store := s.store.erase objectId
        components := s.components.erase entry }) := by
  simp only [removeAll, Option.ite_none_right_eq_some] at h
  obtain ⟨hfree, h⟩ := h
  refine ⟨hfree, ?_⟩
  split at h
  · next hentry => exact Or.inl ⟨hentry, (Option.some.inj h).symm⟩
  · next entry hentry => exact Or.inr ⟨entry, hentry, (Option.some.inj h).symm⟩

/-! ## The entry that is accessed is the one that is stored -/

/-- A `RemoveAll` is not between the insertion and the assignment of a first `Write` to its
object. -/
def RemovesSettled (s : StorageEntries) : StorageAction → Prop
  | .removeAll objectId =>
      ∀ t ∈ s.phases.keys, (s.phases.lookup t).bind StoragePhase.assigns ≠ some objectId
  | _ => True

instance (s : StorageEntries) : DecidablePred s.RemovesSettled
  | .removeAll _ => inferInstanceAs (Decidable (∀ t ∈ s.phases.keys, _))
  | .lookupEntry _ _ => inferInstanceAs (Decidable True)
  | .insertEntry _ => inferInstanceAs (Decidable True)
  | .accessEntry _ => inferInstanceAs (Decidable True)

/-- Whatever entry a call accesses next is stored under the call's object id. -/
def StoredEntries (s : StorageEntries) : Prop :=
  ∀ t call entry, (s.phases.lookup t).bind StoragePhase.target = some (call, entry) →
    s.store.lookup call.objectId = some entry

/-- A step that moves one thread keeps the law if the thread's new target is stored and no stored
entry of another target goes away. -/
theorem StoredEntries.frame {after : Option StoragePhase} (hinv : s.StoredEntries)
    (hphases : ∀ u, s'.phases.lookup u = if u = t then after else s.phases.lookup u)
    (hafter : ∀ call entry, after.bind StoragePhase.target = some (call, entry) →
      s'.store.lookup call.objectId = some entry)
    (hstore : ∀ id entry, s.store.lookup id = some entry → s'.store.lookup id = some entry) :
    s'.StoredEntries := by
  intro u call entry htarget
  rw [hphases] at htarget
  by_cases hu : u = t
  · rw [if_pos hu] at htarget
    exact hafter call entry htarget
  · rw [if_neg hu] at htarget
    exact hstore _ _ (hinv u call entry htarget)

theorem StoredEntries.step (hinv : s.StoredEntries) (hsettled : s.RemovesSettled a)
    (hstep : s.step a = some s') : s'.StoredEntries := by
  cases a with
  | lookupEntry t call =>
    rcases lookupEntry_eq hstep with ⟨entry, hentry, rfl⟩ | ⟨-, -, rfl⟩ | ⟨-, -, rfl⟩
    · refine hinv.frame (lookup_enter s t · _) ?_ fun _ _ h => h
      rintro call' entry' ⟨⟩
      exact hentry
    · exact hinv.frame (lookup_enter s t · _) (fun _ _ => nofun) fun _ _ h => h
    · exact hinv
  | insertEntry t =>
    obtain ⟨call, -, ⟨entry, hentry, rfl⟩ | ⟨hnone, rfl⟩⟩ := insertEntry_eq hstep
    · refine hinv.frame (lookup_enter s t · _) ?_ fun _ _ h => h
      rintro call' entry' ⟨⟩
      exact hentry
    · -- A new key: whatever was stored stays stored.
      refine hinv.frame (lookup_enter _ t · _) ?_ fun id entry hid => ?_
      · rintro call' entry' ⟨⟩
        exact (UnorderedMap.lookup_insert _ _ _ _).trans (if_pos rfl)
      · have hne : id ≠ call.objectId := by
          rintro rfl
          rw [hnone] at hid
          cases hid
        exact (UnorderedMap.lookup_insert _ _ _ _).trans ((if_neg hne).trans hid)
  -- The call is over and has no entry in its hand any more.
  | accessEntry t =>
    obtain ⟨call, entry, -, ⟨components, -, rfl⟩ | ⟨-, rfl⟩⟩ := accessEntry_eq hstep
    · exact hinv.frame (lookup_leave _ t ·) (fun _ _ => nofun) fun _ _ h => h
    · exact hinv.frame (lookup_leave _ t ·) (fun _ _ => nofun) fun _ _ h => h
  | removeAll objectId =>
    obtain ⟨hfree, ⟨-, rfl⟩ | ⟨entry, hentry, rfl⟩⟩ := removeAll_eq hstep
    · exact hinv
    · intro t call entry' htarget
      -- This is where the run is settled: no call has an entry of the object that is removed.
      have hphase := hfree.inserted htarget
      have hne : call.objectId ≠ objectId := by
        intro hid
        exact UnorderedMap.label_ne hsettled hphase (congrArg some hid)
      exact (UnorderedMap.lookup_erase _ _ _).trans
        ((if_neg hne).trans (hinv t call entry' htarget))

end StorageEntries

/-- In every run whose `RemoveAll`s are settled, the entry that a call accesses next is the one
stored under its object id. -/
theorem accesses_stored_entry {s : StorageEntries}
    (h : storageSystem.ReachWhere StorageEntries.RemovesSettled s) (t : ThreadId)
    (call : StorageCall) (entry : EntryId)
    (htarget : (s.phases.lookup t).bind StoragePhase.target = some (call, entry)) :
    s.store.lookup call.objectId = some entry := by
  have hinv : s.StoredEntries := by
    refine h.invariant ?_ fun s a s' hinv hsettled hstep => hinv.step hsettled hstep
    rintro s rfl
    exact fun _ _ _ => nofun
  exact hinv t call entry htarget

/-! ## An assignment to an erased entry -/

/-- Thread 0 inserts an entry for object 5, and a `RemoveAll` comes before its assignment. -/
def removeBeforeAssign : List StorageAction :=
  [.lookupEntry 0 ⟨5, 7, .assign [1]⟩, .insertEntry 0, .removeAll 5]

/-- The `Write` of thread 0 is about to access an entry that is not stored any more. -/
theorem assigns_erased_entry :
    ∃ s, storageSystem.run .empty removeBeforeAssign = some s ∧
      (s.phases.lookup 0).bind StoragePhase.target = some (⟨5, 7, .assign [1]⟩, 0) ∧
      s.store.lookup 5 = none ∧ (s.step (.accessEntry 0)).isSome = true :=
  ⟨_, rfl, by decide, by decide, by decide⟩

/-- `accesses_stored_entry` for the same `Write` without the `RemoveAll`. -/
theorem accesses_stored_entry_first_write :
    ∃ s, storageSystem.runWhere StorageEntries.RemovesSettled .empty
        [.lookupEntry 0 ⟨5, 7, .assign [1]⟩, .insertEntry 0] = some s ∧
      s.store.lookup 5 = some 0 :=
  ⟨_, rfl, accesses_stored_entry (.of_runWhere (.init rfl)
    [.lookupEntry 0 ⟨5, 7, .assign [1]⟩, .insertEntry 0] rfl) 0 ⟨5, 7, .assign [1]⟩ 0 (by decide)⟩

/-! ## The critical sections refine the whole calls -/

/-- What a call leaves of its component. -/
def StorageCall.outcome (call : StorageCall) (old : Option ComponentData) : Option ComponentData :=
  match call.access with
  | .read => old
  | .assign data => some data
  | .erase => none

/-- The whole call, on the storage as its calls leave it. -/
def StorageCall.perform (call : StorageCall) (storage : ComponentStorage) : ComponentStorage :=
  match call.access with
  | .read => storage
  | .assign data => storage.write call.objectId call.type data
  | .erase => (storage.remove call.objectId call.type).2

theorem StorageCall.lookup_applyTo (call : StorageCall) (components : ObjectComponents)
    (type : ComponentType) :
    (call.applyTo components).lookup type =
      if type = call.type then call.outcome (components.lookup type)
      else components.lookup type := by
  unfold applyTo outcome
  cases call.access with
  | read => exact (ite_self _).symm
  | assign data => exact UnorderedMap.lookup_insert _ _ _ _
  | erase => exact UnorderedMap.lookup_erase _ _ _

theorem StorageCall.read_perform (call : StorageCall) (storage : ComponentStorage)
    (objectId : UInt64) (type : ComponentType) :
    (call.perform storage).read objectId type =
      if objectId = call.objectId ∧ type = call.type then call.outcome (storage.read objectId type)
      else storage.read objectId type := by
  unfold perform outcome
  cases call.access with
  | read => exact (ite_self _).symm
  | assign data => exact ComponentStorage.read_write _ _ _ _ _ _
  | erase => exact ComponentStorage.read_remove _ _ _ _ _

namespace StorageEntries

/-- The bytes that a `Read` starting now would show. -/
def shows (s : StorageEntries) (objectId : UInt64) (type : ComponentType) : Option ComponentData :=
  (s.store.lookup objectId).bind fun entry => (s.components.lookup entry).bind (·.lookup type)

/-- Each stored entry is live, older than the next one, and stored under one id. -/
structure WellFormed (s : StorageEntries) : Prop where
  live : ∀ id entry, s.store.lookup id = some entry → entry ∈ s.components
  older : ∀ id entry, s.store.lookup id = some entry → entry < s.fresh
  distinct : ∀ id id' entry, s.store.lookup id = some entry → s.store.lookup id' = some entry →
    id = id'

/-- The storage that results from performing each call as a whole at its access. -/
def perform (storage : ComponentStorage) (s : StorageEntries) : StorageAction → ComponentStorage
  | .accessEntry t =>
      match (s.phases.lookup t).bind StoragePhase.target with
      | some (call, _) => call.perform storage
      | none => storage
  | .removeAll objectId => storage.removeAll objectId
  | _ => storage

/-- The critical sections have left what the whole calls leave. -/
structure Refines (s : StorageEntries) (storage : ComponentStorage) : Prop where
  stored : s.StoredEntries
  wellFormed : s.WellFormed
  shows_eq : ∀ id type, s.shows id type = storage.read id type

variable {s s' : StorageEntries} {a : StorageAction} {storage : ComponentStorage} {t : ThreadId}
  {objectId : UInt64}

theorem WellFormed.insertEntry (hwf : s.WellFormed) (hstep : s.insertEntry t = some s') :
    s'.WellFormed ∧ s'.shows = s.shows := by
  obtain ⟨call, -, ⟨entry, hentry, rfl⟩ | ⟨hnone, rfl⟩⟩ := insertEntry_eq hstep
  · exact ⟨⟨hwf.live, hwf.older, hwf.distinct⟩, rfl⟩
  -- Whatever the table has after the insertion is the new entry or was there before.
  · have hold : ∀ id entry, (s.store.insert call.objectId s.fresh).lookup id = some entry →
        (id = call.objectId ∧ entry = s.fresh) ∨ s.store.lookup id = some entry := by
      intro id entry hid
      rw [UnorderedMap.lookup_insert] at hid
      by_cases hnew : id = call.objectId
      · rw [if_pos hnew] at hid
        exact Or.inl ⟨hnew, (Option.some.inj hid).symm⟩
      · rw [if_neg hnew] at hid
        exact Or.inr hid
    refine ⟨⟨fun id entry hid => ?_, fun id entry hid => ?_, fun id id' entry hid hid' => ?_⟩, ?_⟩
    · rcases hold id entry hid with ⟨-, rfl⟩ | hid
      · exact Finmap.mem_insert.mpr (Or.inl rfl)
      · exact Finmap.mem_insert.mpr (Or.inr (hwf.live id entry hid))
    · show entry < s.fresh + 1
      rcases hold id entry hid with ⟨-, rfl⟩ | hid
      · exact Nat.lt_succ_self _
      · exact Nat.lt_succ_of_lt (hwf.older id entry hid)
    -- Two objects with one entry: the new entry is older than none, so both are old or both new.
    · rcases hold id entry hid with ⟨rfl, rfl⟩ | hid
      · rcases hold id' _ hid' with ⟨rfl, -⟩ | hid'
        · rfl
        · exact absurd (hwf.older id' _ hid') (Nat.lt_irrefl _)
      · rcases hold id' entry hid' with ⟨-, rfl⟩ | hid'
        · exact absurd (hwf.older id _ hid) (Nat.lt_irrefl _)
        · exact hwf.distinct id id' entry hid hid'
    · -- The new entry is empty, and the object had no entry before.
      funext id type
      show ((s.store.insert call.objectId s.fresh).lookup id).bind
        (fun entry => ((s.components.insert s.fresh ∅).lookup entry).bind (·.lookup type)) = _
      rw [UnorderedMap.lookup_insert]
      by_cases hnew : id = call.objectId
      · subst hnew
        rw [if_pos rfl]
        simp [shows, hnone]
      · rw [if_neg hnew]
        unfold shows
        cases hid : s.store.lookup id with
        | none => rfl
        | some entry =>
          have hne : entry ≠ s.fresh := Nat.ne_of_lt (hwf.older id entry hid)
          simp only [Option.bind_some]
          rw [UnorderedMap.lookup_insert, if_neg hne]

/-- An access through a stored entry changes the component of its call and shows the others as they
were. -/
theorem WellFormed.access {call : StorageCall} {entry : EntryId} {components : ObjectComponents}
    (hwf : s.WellFormed) (hstored : s.store.lookup call.objectId = some entry)
    (hfound : s.components.lookup entry = some components)
    (hs' : s' = { s with
      components := s.components.insert entry (call.applyTo components) }.leave t) :
    s'.WellFormed ∧ ∀ id type, s'.shows id type =
      if id = call.objectId ∧ type = call.type then call.outcome (s.shows id type)
      else s.shows id type := by
  subst hs'
  have hlive : ∀ entry', entry' ∈ s.components →
      entry' ∈ s.components.insert entry (call.applyTo components) :=
    fun entry' hmem => Finmap.mem_insert.mpr (Or.inr hmem)
  refine ⟨⟨fun id e hid => hlive e (hwf.live id e hid), hwf.older, hwf.distinct⟩,
    fun id type => ?_⟩
  show (s.store.lookup id).bind (fun e =>
    ((s.components.insert entry (call.applyTo components)).lookup e).bind (·.lookup type)) = _
  unfold shows
  by_cases hid : id = call.objectId
  · subst hid
    simp only [hstored, Option.bind_some, UnorderedMap.lookup_insert, if_pos, hfound, true_and]
    exact call.lookup_applyTo components type
  · rw [if_neg fun h => hid h.1]
    cases hentry : s.store.lookup id with
    | none => rfl
    | some e =>
      have hne : e ≠ entry := by
        rintro rfl
        exact hid (hwf.distinct _ _ _ hentry hstored)
      simp only [Option.bind_some]
      rw [UnorderedMap.lookup_insert, if_neg hne]

/-- A `RemoveAll` takes its object's components away and shows the others as they were. -/
theorem WellFormed.removeAll (hwf : s.WellFormed) (hstep : s.removeAll objectId = some s') :
    s'.WellFormed ∧ ∀ id type, s'.shows id type =
      if id = objectId then none else s.shows id type := by
  obtain ⟨-, ⟨hnone, rfl⟩ | ⟨entry, hentry, rfl⟩⟩ := removeAll_eq hstep
  · refine ⟨hwf, fun id type => ?_⟩
    by_cases hid : id = objectId
    · rw [if_pos hid, hid]
      simp [shows, hnone]
    · rw [if_neg hid]
  -- What is left was there before, and is of another object.
  · have hold : ∀ id e, (s.store.erase objectId).lookup id = some e →
        id ≠ objectId ∧ s.store.lookup id = some e := by
      intro id e hid
      rw [UnorderedMap.lookup_erase, Option.ite_none_left_eq_some] at hid
      exact hid
    -- Entries are not shared, so the one that is freed is of no other object.
    have hother : ∀ id e, id ≠ objectId → s.store.lookup id = some e → e ≠ entry := by
      rintro id e hne hid rfl
      exact hne (hwf.distinct _ _ _ hid hentry)
    refine ⟨⟨fun id e hid => ?_, fun id e hid => ?_, fun id id' e hid hid' => ?_⟩,
      fun id type => ?_⟩
    · obtain ⟨hne, hid⟩ := hold id e hid
      exact Finmap.mem_erase.mpr ⟨hother id e hne hid, hwf.live id e hid⟩
    · exact hwf.older id e (hold id e hid).2
    · exact hwf.distinct id id' e (hold id e hid).2 (hold id' e hid').2
    · show ((s.store.erase objectId).lookup id).bind
        (fun e => ((s.components.erase entry).lookup e).bind (·.lookup type)) = _
      rw [UnorderedMap.lookup_erase]
      by_cases hid : id = objectId
      · rw [if_pos hid, if_pos hid, Option.bind_none]
      · rw [if_neg hid, if_neg hid]
        unfold shows
        cases hfound : s.store.lookup id with
        | none => rfl
        | some e =>
          simp only [Option.bind_some]
          rw [UnorderedMap.lookup_erase, if_neg (hother id e hid hfound)]

theorem Refines.accessEntry (hinv : s.Refines storage) (hstep : s.accessEntry t = some s') :
    s'.WellFormed ∧ ∀ id type, s'.shows id type =
      (perform storage s (.accessEntry t)).read id type := by
  obtain ⟨call, entry, htarget, haccess⟩ := accessEntry_eq hstep
  have hstored := hinv.stored t call entry htarget
  have hperform : perform storage s (.accessEntry t) = call.perform storage := by
    simp only [perform, htarget]
  rcases haccess with ⟨components, hfound, hs'⟩ | ⟨hfound, -⟩
  · obtain ⟨hwf, hshows⟩ := hinv.wellFormed.access hstored hfound hs'
    refine ⟨hwf, fun id type => ?_⟩
    rw [hshows, hperform, call.read_perform, hinv.shows_eq]
  · -- The entry is stored, so it is live.
    have hmem := hinv.wellFormed.live _ _ hstored
    rw [Finmap.lookup_eq_none] at hfound
    exact absurd hmem hfound

theorem Refines.removeAll (hinv : s.Refines storage) (hstep : s.removeAll objectId = some s') :
    s'.WellFormed ∧ ∀ id type, s'.shows id type =
      (perform storage s (.removeAll objectId)).read id type := by
  obtain ⟨hwf, hshows⟩ := hinv.wellFormed.removeAll hstep
  refine ⟨hwf, fun id type => ?_⟩
  show _ = (storage.removeAll objectId).read id type
  rw [hshows, ComponentStorage.read_removeAll, hinv.shows_eq]

theorem Refines.step (hinv : s.Refines storage) (hsettled : s.RemovesSettled a)
    (hstep : s.step a = some s') : s'.Refines (perform storage s a) := by
  have hstored := hinv.stored.step hsettled hstep
  cases a with
  | lookupEntry t call =>
    rcases lookupEntry_eq hstep with ⟨entry, -, rfl⟩ | ⟨-, -, rfl⟩ | ⟨-, -, rfl⟩
    · exact ⟨hstored, ⟨hinv.wellFormed.live, hinv.wellFormed.older, hinv.wellFormed.distinct⟩,
        hinv.shows_eq⟩
    · exact ⟨hstored, ⟨hinv.wellFormed.live, hinv.wellFormed.older, hinv.wellFormed.distinct⟩,
        hinv.shows_eq⟩
    · exact hinv
  | insertEntry t =>
    obtain ⟨hwf, hshows⟩ := hinv.wellFormed.insertEntry hstep
    exact ⟨hstored, hwf, hshows ▸ hinv.shows_eq⟩
  | accessEntry t =>
    obtain ⟨hwf, hshows⟩ := hinv.accessEntry hstep
    exact ⟨hstored, hwf, hshows⟩
  | removeAll objectId =>
    obtain ⟨hwf, hshows⟩ := hinv.removeAll hstep
    exact ⟨hstored, hwf, hshows⟩

end StorageEntries

/-- In every run whose `RemoveAll`s are settled, the critical sections leave the components that the
whole calls of `ComponentStorage` leave, each performed at its access. -/
theorem entries_refine_calls {p : StorageEntries × ComponentStorage}
    (h : (storageSystem.withHistory (fun _ => .empty) StorageEntries.perform).ReachWhere
      (fun p a => p.1.RemovesSettled a) p) (objectId : UInt64) (type : ComponentType) :
    p.1.shows objectId type = p.2.read objectId type := by
  have hinv : p.1.Refines p.2 := by
    refine h.invariant_withHistory ?_
      fun s storage a s' hinv hsettled hstep => hinv.step hsettled hstep
    rintro s rfl
    exact ⟨fun _ _ _ => nofun, ⟨fun _ _ => nofun, fun _ _ => nofun, fun _ _ _ => nofun⟩,
      fun id type => (ComponentStorage.read_empty id type).symm⟩
  exact hinv.shows_eq objectId type

end WasmHot
