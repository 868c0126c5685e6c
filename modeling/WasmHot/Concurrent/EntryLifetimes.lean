import WasmHot.Concurrent.RegistryGuards
import WasmHot.Lib.LockLifetimes

/-!
# The mutexes of erased entries

The mutex of an entry is destroyed with the entry. An entry of the registry is used only under the
map lock, so nobody is left with it when it is erased or replaced. So are the entries of the storage,
but for a first `Write`, which takes the mutex of the entry that it has inserted after it has released
the map lock. If a `RemoveAll` erases the entry by then, the `Write` locks a mutex that is no more,
and it may wait there for ever (`write_waits_for_erased`).

In a run without such a `RemoveAll` every lock that a thread takes or gives back is there
(`LockedCall.sure`), and so the threads do not deadlock (`locks_cannot_deadlock`).
-/

namespace WasmHot

open LockProgram

/-- The mutex of an entry is there as long as the entry is in its map, which the lock of the map
tells. A first `Write` strays from it. -/
def registryHomes : LockHomes registryGuards where
  there
    | .registryEntry entry, s => decide (∃ id ∈ s.objects.keys, s.objects.lookup id = some entry)
    | .storageEntry entry, s => decide (∃ id ∈ s.store.keys, s.store.lookup id = some entry)
    | _, _ => true
  home
    | .registryEntry _ => some .registryMap
    | .storageEntry _ => some .storageMap
    | _ => none
  stray
    | .storageEntry _ => true
    | _ => false
  there_of_home_eq_none {l} s h := by cases l <;> first | rfl | cases h
  there_congr {l h s s'} hhome hget := by
    cases l with
    | registryEntry entry =>
      cases hhome
      have hobjects : s'.objects = s.objects := hget
      dsimp only
      rw [hobjects]
    | storageEntry entry =>
      cases hhome
      have hstore : s'.store = s.store := hget
      dsimp only
      rw [hstore]
    | _ => cases hhome
  live_home {l h} s hhome := by
    cases l <;> cases hhome <;> trivial

/-- Threads that make the calls of the registry, the engine and the storage, where the mutex of an
erased entry is destroyed. -/
def mortalLocks (cityHash64 : String → UInt64) (blocks hangs : RegistryWorld → ThreadId → Bool) :
    TransitionSystem RegistryWorld (LockAction LockedCall) :=
  mortalSystem registryHomes (LockedCall.body cityHash64) blocks hangs

namespace Locked

variable {held : List (RegistryLock × LockMode)} {mode : LockMode} {s s' : LockedTables}

/-- An entry that is found is there. -/
theorem there_storageEntry {objectId : UInt64} {entry : EntryId}
    (h : s.store.lookup objectId = some entry) :
    registryHomes.there (.storageEntry entry) s = true :=
  decide_eq_true ⟨objectId, UnorderedMap.mem_keys_of_lookup h, h⟩

theorem there_registryEntry {objectId : UInt64} {entry : EntryId}
    (h : s.objects.lookup objectId = some entry) :
    registryHomes.there (.registryEntry entry) s = true :=
  decide_eq_true ⟨objectId, UnorderedMap.mem_keys_of_lookup h, h⟩

/-- Which locks there are depends on the maps only. -/
theorem there_of_maps_eq (hobjects : s'.objects = s.objects) (hstore : s'.store = s.store)
    (l : RegistryLock) : registryHomes.there l s' = registryHomes.there l s := by
  cases l with
  | registryEntry entry =>
    simp only [registryHomes]
    rw [hobjects]
  | storageEntry entry =>
    simp only [registryHomes]
    rw [hstore]
  | _ => rfl

/-- A change that leaves the maps alone keeps all locks. -/
theorem sure_change_of_maps_eq {f : LockedTables → LockedTables}
    (hobjects : ∀ s, (f s).objects = s.objects) (hstore : ∀ s, (f s).store = s.store) :
    (change f : Locked PUnit).Sure registryHomes held := by
  refine sure_change fun x _ s hthere => ?_
  rw [there_of_maps_eq (hobjects s) (hstore s)]
  exact hthere

/-- A change of `store_` keeps the locks of the registry. -/
theorem there_of_objects_eq (hobjects : s'.objects = s.objects) {l : RegistryLock}
    (hl : l.rank < RegistryLock.rank .storageMap)
    (hthere : registryHomes.there l s = true) : registryHomes.there l s' = true := by
  cases l with
  | registryEntry entry =>
    simp only [registryHomes] at hthere ⊢
    rw [hobjects]
    exact hthere
  | storageEntry entry => exact absurd hl (Nat.not_lt.mpr (Nat.le_succ 3))
  | _ => rfl

/-- Where a call of the storage may start: below its locks, and with every lock that is held
anchored. -/
structure AtStorage (held : List (RegistryLock × LockMode)) : Prop where
  below : BelowStorage held
  moored : registryHomes.Moored held

theorem atStorage_nil : AtStorage [] :=
  ⟨rankedBelow_nil _ _, LockHomes.moored_nil _⟩

theorem AtStorage.moored_cons (h : AtStorage held) (mode : LockMode) :
    registryHomes.Moored ((.storageMap, mode) :: held) :=
  h.moored.cons (LockHomes.anchored_of_home_eq_none held rfl) mode

/-- A change of `store_` under its lock keeps the locks that are held with it. -/
theorem AtStorage.keeps (h : AtStorage held) {f : LockedTables → LockedTables}
    (hobjects : ∀ s, (f s).objects = s.objects) :
    ∀ x ∈ (RegistryLock.storageMap, mode) :: held, ∀ s, registryHomes.there x.1 s = true →
      registryHomes.there x.1 (f s) = true := by
  intro x hx s hthere
  rcases List.mem_cons.mp hx with rfl | hmem
  · rfl
  · exact there_of_objects_eq (hobjects s) (h.below x hmem) hthere

/-- A block under the mutex of an entry of the storage, which has been found before. -/
theorem finds_entry {α : Type} {entry : EntryId} {body : Locked α}
    (hmoored : registryHomes.Moored held)
    (hbody : body.Sure registryHomes ((.storageEntry entry, .unique) :: held)) :
    (locked (.storageEntry entry) .unique body).Finds registryHomes Ends held held :=
  finds_locked (LockHomes.anchored_of_stray held rfl) hmoored hbody.1 hbody.2

theorem sure_read (h : AtStorage held) (objectId : UInt64) (type : ComponentType) :
    (read objectId type).Sure registryHomes held := by
  refine sure_locked rfl h.moored (sure_look (fun s => ?_) fun found => ?_)
  · cases hfound : s.store.lookup objectId with
    | none => exact trivial
    | some entry => exact there_storageEntry hfound
  · cases found with
    | none => exact (sure_pure none).2
    | some entry => exact finds_entry (h.moored_cons .shared) (sure_inspect _)

/-- The entry that `slot` yields is there when it comes to its end. -/
theorem finds_slot (h : AtStorage held) (objectId : UInt64) :
    (slot objectId).Finds registryHomes
      (fun entry s => registryHomes.there (.storageEntry entry) s = true)
      ((.storageMap, .unique) :: held) ((.storageMap, .unique) :: held) := by
  refine finds_look (fun s => ?_) fun found => ?_
  · cases hfound : s.store.lookup objectId with
    | none => exact trivial
    | some entry => exact there_storageEntry hfound
  · cases found with
    | some entry => exact rfl
    | none =>
      refine finds_look (fun s => trivial) fun entry => ⟨fun s => ?_, h.keeps fun s => rfl, rfl⟩
      exact there_storageEntry (Finmap.lookup_insert s.store)

theorem finds_assign (hmoored : registryHomes.Moored held) (entry : EntryId) (type : ComponentType)
    (data : ComponentData) : (assign entry type data).Finds registryHomes Ends held held :=
  finds_entry hmoored (sure_change_of_maps_eq (fun _ => rfl) fun _ => rfl)

theorem sure_write (h : AtStorage held) (objectId : UInt64) (type : ComponentType)
    (data : ComponentData) : (write objectId type data).Sure registryHomes held := by
  refine ⟨fun s => rfl, ?_⟩
  have hmap : registryHomes.Anchored held .storageMap := LockHomes.anchored_of_home_eq_none held rfl
  refine (finds_lock hmap .shared).bind (fun _ s _ => trivial) fun _ => ?_
  refine finds_look (fun s => ?_) fun found => ?_
  · cases hfound : s.store.lookup objectId with
    | none => exact rfl
    | some entry => exact there_storageEntry hfound
  · cases found with
    | some entry =>
      refine (finds_assign (h.moored_cons .shared) entry type data).bind (fun _ s _ => trivial)
        fun _ => ?_
      exact finds_unlock _ _ h.moored
    | none =>
      refine (finds_unlock _ _ h.moored).bind (fun _ s _ => rfl) fun _ => ?_
      have hslot : (locked .storageMap .unique (slot objectId)).Finds registryHomes
          (fun entry s => registryHomes.there (.storageEntry entry) s = true) held held :=
        finds_locked hmap h.moored (fun s => trivial) (finds_slot h objectId)
      -- The entry is there when the map lock is given back, and the assignment takes its mutex next.
      exact hslot.bind (fun entry s hthere => hthere) fun entry =>
        finds_assign h.moored entry type data

theorem sure_writeChecked (h : AtStorage held) (objectId : UInt64) (type : ComponentType)
    (totalSize : ℕ) (data : ComponentData) :
    (writeChecked objectId type totalSize data).Sure registryHomes held := by
  unfold writeChecked
  split
  · exact sure_pure false
  · exact .bind (sure_write h objectId type data) fun _ => sure_pure true

theorem sure_remove (h : AtStorage held) (objectId : UInt64) (type : ComponentType) :
    (remove objectId type).Sure registryHomes held := by
  refine sure_locked rfl h.moored (sure_look (fun s => ?_) fun found => ?_)
  · cases hfound : s.store.lookup objectId with
    | none => exact trivial
    | some entry => exact there_storageEntry hfound
  · cases found with
    | none => exact (sure_pure false).2
    | some entry =>
      refine finds_entry (h.moored_cons .shared) (.bind (sure_inspect _) fun found => ?_)
      exact .bind (sure_change_of_maps_eq (fun _ => rfl) fun _ => rfl) fun _ => sure_pure found

theorem sure_removeAll (h : AtStorage held) (objectId : UInt64) :
    (removeAll objectId).Sure registryHomes held := by
  refine sure_locked rfl h.moored (sure_look (fun s => ?_) fun found => ?_)
  · cases hfound : s.store.lookup objectId with
    | none => exact trivial
    | some entry => exact there_storageEntry hfound
  · cases found with
    | none => exact (sure_pure _).2
    | some entry =>
      -- The mutex has been given back where the entry is erased.
      refine (finds_entry (h.moored_cons .unique) (sure_pure _)).bind (fun _ s _ => trivial)
        fun _ => ?_
      exact (sure_change (h.keeps (f := fun s => { s with store := s.store.erase objectId })
        fun _ => rfl)).2

theorem sure_readComponent (h : AtStorage held) (obj : GameObject) (type : ComponentType) :
    (readComponent obj type).Sure registryHomes held := by
  unfold readComponent
  split
  · exact sure_pure none
  · exact sure_read h _ type

theorem sure_writeComponent (h : AtStorage held) (obj : GameObject) (type : ComponentType)
    (data : ComponentData) : (writeComponent obj type data).Sure registryHomes held := by
  unfold writeComponent
  split
  · exact sure_pure _
  · exact sure_write h _ type data

theorem sure_removeComponent (h : AtStorage held) (obj : GameObject) (type : ComponentType) :
    (removeComponent obj type).Sure registryHomes held := by
  unfold removeComponent
  split
  · exact sure_pure false
  · exact sure_remove h _ type

theorem sure_applyOutputDelta (h : AtStorage held) (obj : GameObject) (output : List UInt8) :
    (applyOutputDelta obj output).Sure registryHomes held := by
  unfold applyOutputDelta
  split
  · exact sure_pure false
  · split
    · exact sure_pure false
    · exact .bind (sure_writeComponent h obj _ _) fun _ => sure_pure true

theorem sure_register (hmoored : registryHomes.Moored held) (fromVersion toVersion : UInt32)
    (func : ViewFunc) : (register fromVersion toVersion func).Sure registryHomes held :=
  sure_locked rfl hmoored (sure_change_of_maps_eq (fun _ => rfl) fun _ => rfl)

theorem sure_runFunc (h : AtStorage held) (body : ViewProgram) :
    (runFunc body).Sure registryHomes held := by
  induction body with
  | ret ok obj => exact sure_pure _
  | read obj type next ih => exact .bind (sure_readComponent h obj type) ih
  | write obj type data next ih => exact .bind (sure_writeComponent h obj type data) fun _ => ih
  | remove obj type next ih => exact .bind (sure_removeComponent h obj type) ih

theorem sure_migrateStep (h : AtStorage held) (obj : GameObject) (fromVersion toVersion : UInt32) :
    (migrateStep obj fromVersion toVersion).Sure registryHomes held := by
  refine .bind (sure_locked rfl h.moored (sure_inspect _)) fun func => ?_
  cases func with
  | none => exact sure_pure _
  | some func => exact sure_runFunc h _

theorem sure_migrateLoop (h : AtStorage held) (target current : UInt32) (obj : GameObject) :
    (migrateLoop target current obj).Sure registryHomes held := by
  fun_induction migrateLoop target current obj with
  | case1 current obj hne ih =>
    refine .bind (sure_migrateStep h obj current _) fun step => ?_
    split
    · exact ih step
    · exact sure_pure _
  | case2 current obj heq => exact sure_pure _

/-- Under the lock of the map of the registry. -/
theorem moored_registryMap (mode : LockMode) : registryHomes.Moored [(.registryMap, mode)] :=
  (LockHomes.moored_nil _).cons (LockHomes.anchored_of_home_eq_none [] rfl) mode

theorem anchored_registryEntry (mode : LockMode) (entry : EntryId) :
    registryHomes.Anchored [(.registryMap, mode)] (.registryEntry entry) := by
  rintro home ⟨⟩
  exact Or.inl ⟨mode, List.mem_cons_self⟩

/-- A block under the mutex of an entry of the registry, under the lock of the map. -/
theorem finds_registryEntry {α : Type} {entry : EntryId} {body : Locked α}
    (hbody : body.Sure registryHomes [(.registryEntry entry, .unique), (.registryMap, mode)]) :
    (locked (.registryEntry entry) .unique body).Finds registryHomes Ends [(.registryMap, mode)]
      [(.registryMap, mode)] :=
  finds_locked (anchored_registryEntry mode entry) (moored_registryMap mode) hbody.1 hbody.2

/-- A change of `objects_` under its lock alone. -/
theorem sure_changeObjects {f : LockedTables → LockedTables} :
    (change f : Locked PUnit).Sure registryHomes [(.registryMap, .unique)] := by
  refine sure_change fun x hx s _ => ?_
  cases List.mem_singleton.mp hx
  rfl

theorem sure_create (header : ObjectHeader) : (create header).Sure registryHomes [] :=
  sure_locked rfl (LockHomes.moored_nil _) sure_changeObjects

theorem sure_get (objectId : UInt64) {callback : Option GameObject → Locked PUnit}
    (hnone : (callback none).Sure registryHomes [(.registryMap, .shared)])
    (hsome : ∀ obj, (callback (some obj)).Sure registryHomes []) :
    (get objectId callback).Sure registryHomes [] := by
  refine ⟨fun s => rfl, ?_⟩
  have hnil : registryHomes.Moored [] := LockHomes.moored_nil _
  have hmap : registryHomes.Anchored [] .registryMap := LockHomes.anchored_of_home_eq_none [] rfl
  refine (finds_lock hmap .shared).bind (fun _ s _ => trivial) fun _ => ?_
  refine finds_look (fun s => ?_) fun found => ?_
  · cases hfound : s.objects.lookup objectId with
    | none => exact (hnone.1 s).bind fun _ _ => trivial
    | some entry => exact there_registryEntry hfound
  · cases found with
    | none => exact hnone.2.bind (fun _ s _ => trivial) fun _ => finds_unlock _ _ hnil
    | some entry =>
      refine (finds_registryEntry (sure_inspect _)).bind (fun header s _ => (hsome _).1 s)
        fun header => ?_
      exact (finds_unlock _ _ hnil).bind (fun _ s _ => (hsome _).1 s) fun _ => (hsome _).2

theorem sure_destroy (objectId : UInt64) : (destroy objectId).Sure registryHomes [] := by
  refine .bind (sure_locked rfl (LockHomes.moored_nil _) (sure_look (fun s => ?_) fun found => ?_))
    fun found => ?_
  · cases hfound : s.objects.lookup objectId with
    | none => exact trivial
    | some entry => exact there_registryEntry hfound
  · cases found with
    | none => exact (sure_pure false).2
    | some entry =>
      refine (finds_registryEntry (sure_pure _)).bind (fun _ s _ => trivial) fun _ => ?_
      exact (sure_changeObjects.bind fun _ => sure_pure true).2
  · split
    · exact sure_removeAll atStorage_nil objectId
    · exact sure_pure _

theorem sure_migrate (objectId : UInt64) (target : UInt32) :
    (migrate objectId target).Sure registryHomes [] := by
  refine sure_locked rfl (LockHomes.moored_nil _) (sure_look (fun s => ?_) fun found => ?_)
  · cases hfound : s.objects.lookup objectId with
    | none => exact trivial
    | some entry => exact there_registryEntry hfound
  · cases found with
    | none => exact (sure_pure false).2
    | some entry =>
      have hat : AtStorage [(.registryEntry entry, .unique), (.registryMap, .shared)] :=
        ⟨(rankedBelow_registryEntry .shared entry).cons (show (1 : ℕ) < 3 by decide) .unique,
          (moored_registryMap .shared).cons (anchored_registryEntry .shared entry) .unique⟩
      refine finds_registryEntry (.bind (sure_inspect _) fun header => ?_)
      refine .bind (sure_migrateLoop hat target _ _) fun migrated => ?_
      split
      · exact .bind (sure_change_of_maps_eq (fun _ => rfl) fun _ => rfl) fun _ => sure_pure true
      · exact sure_pure false

theorem sure_host (ctx : HostContext) (memory : GuestMemory) (call : HostCall) :
    (host ctx memory call).Sure registryHomes [] := by
  unfold host
  split
  · exact sure_pure _
  · split
    · exact sure_pure _
    · exact .bind (sure_read atStorage_nil _ _) fun data => sure_pure _
  · split
    · exact .bind (sure_write atStorage_nil _ _ _) fun _ => sure_pure _
    · exact sure_pure _

theorem sure_play (ctx : HostContext) (guest : Guest) :
    (play ctx guest).Sure registryHomes [] := by
  induction guest with
  | trap memory => exact sure_pure _
  | ret memory value => exact sure_pure _
  | host memory call next ih =>
    exact .bind (sure_host ctx memory call) fun answer => ih answer.1 answer.2

theorem sure_execute (cityHash64 : String → UInt64) (plugin : WasmEdgePlugin) (obj : GameObject)
    (action : String) (input : List UInt8) :
    (execute cityHash64 plugin obj action input).Sure registryHomes [] := by
  unfold execute
  split
  · exact sure_pure _
  · exact .bind (sure_play _ _) fun run => sure_pure _

theorem sure_invokeCallback (cityHash64 : String → UInt64) (plugin : WasmEdgePlugin)
    (action : String) (input : List UInt8) (obj : GameObject) :
    (invokeCallback cityHash64 plugin action input (some obj)).Sure registryHomes [] := by
  refine .bind (sure_execute cityHash64 plugin obj action input) fun executed => ?_
  split
  · exact .bind (sure_applyOutputDelta atStorage_nil obj _) fun _ => sure_pure _
  · exact sure_pure _

end Locked

open Locked in
/-- Every call finds the locks that it takes, as long as nobody erases the entry that a first `Write`
has inserted. -/
theorem LockedCall.sure (cityHash64 : String → UInt64) (c : LockedCall) :
    (c.body cityHash64).Sure registryHomes [] := by
  cases c with
  | create header => exact sure_create header
  | invoke objectId plugin action input =>
    exact sure_get objectId (sure_pure _) (sure_invokeCallback cityHash64 plugin action input)
  | destroy objectId => exact sure_destroy objectId
  | migrate objectId target => exact .bind (sure_migrate objectId target) fun _ => sure_pure _
  | register fromVersion toVersion func =>
    exact sure_register (LockHomes.moored_nil _) fromVersion toVersion func
  | read objectId type => exact .bind (sure_read atStorage_nil objectId type) fun _ => sure_pure _
  | write objectId type data => exact sure_write atStorage_nil objectId type data
  | writeChecked objectId type totalSize data =>
    exact .bind (sure_writeChecked atStorage_nil objectId type totalSize data) fun _ => sure_pure _
  | remove objectId type =>
    exact .bind (sure_remove atStorage_nil objectId type) fun _ => sure_pure _
  | removeAll objectId => exact sure_removeAll atStorage_nil objectId

section

variable {cityHash64 : String → UInt64} {blocks hangs : RegistryWorld → ThreadId → Bool}
  {w w' : RegistryWorld} {t : ThreadId}

/-- The locks cannot deadlock, but for a `RemoveAll` that erases the entry of a first `Write`. In
every state that any number of threads reach by any calls, with every lock operation a step of its
own and under any policies about waiting writers and about mutexes that are no more, some thread can
take a step as long as some call has not returned, if no step erases an entry of the storage whose
mutex another thread, without the lock of the map, is about to take or holds. -/
theorem locks_cannot_deadlock
    (h : (mortalLocks cityHash64 blocks hangs).ReachWhere (LockWorld.Settled registryHomes) w)
    {thread : LockThread RegistryLock LockedTables} (ht : w.threads.lookup t = some thread) :
    ∃ t' w', (mortalLocks cityHash64 blocks hangs).step w (.advance t') = some w' :=
  LockWorld.exists_mortalStep (LockedCall.balanced_body cityHash64) (LockedCall.sure cityHash64)
    (LockedCall.guards cityHash64) h ht

/-- The condition leaves out no other runs: a step that does not meet it leaves a thread with a mutex
to take or to give back that is no more. -/
theorem mutex_gone_of_not_settled
    (h : ¬ w.Settled registryHomes (.advance t : LockAction LockedCall))
    (hstep : (mortalLocks cityHash64 blocks hangs).step w (.advance t) = some w') :
    ∃ t' l, l ∈ w'.astray registryHomes t' ∧ registryHomes.there l w'.shared = false :=
  LockWorld.exists_gone_of_not_settled h (LockWorld.step_of_mortalStep hstep)

end

/-- Thread 0 has the map lock of the storage shared, thread 1 waits to have it alone, and thread 2,
which only wants to read, is kept behind thread 1. -/
def readerBehindWriter : List (LockAction LockedCall) :=
  [.call 0 (.read 5 7), .advance 0, .advance 0, .call 1 (.removeAll 5), .advance 1,
    .call 2 (.read 5 7), .advance 2]

/-- Threads 1 and 2 are stuck there, and thread 0 is not. -/
theorem locks_cannot_deadlock_readerBehindWriter :
    ∃ w, (mortalLocks (fun _ => 0) (fun _ _ => true) fun _ _ => true).runWhere
        (LockWorld.Settled registryHomes) emptyTables readerBehindWriter = some w ∧
      w.advance (fun _ _ => true) 1 = none ∧ w.advance (fun _ _ => true) 2 = none ∧
      ∃ t' w', (mortalLocks (fun _ => 0) (fun _ _ => true) fun _ _ => true).step w (.advance t') =
        some w' :=
  ⟨_, rfl, rfl, rfl,
    locks_cannot_deadlock (t := 0)
      (.of_runWhere (.init (s := emptyTables) rfl) readerBehindWriter rfl) rfl⟩

/-! ## A first Write waits for an erased entry -/

/-- Thread 0 writes component 7 of object 5, inserts an entry for it and releases the map lock.
Thread 1 removes the object. -/
def erasedBeforeLocked : List (LockAction LockedCall) :=
  [.call 0 (.write 5 7 [1])] ++ List.replicate 10 (.advance 0) ++ [.call 1 (.removeAll 5)] ++
    List.replicate 9 (.advance 1)

/-- The mutex that thread 0 is about to take has been destroyed with the entry, and thread 0 waits
for it for ever. Nobody else is in a call. -/
theorem write_waits_for_erased :
    ∃ w, (mortalLocks (fun _ => 0) (fun _ _ => true) fun _ _ => true).run emptyTables
        erasedBeforeLocked = some w ∧
      (w.threads.lookup 0).isSome = true ∧
      ∀ t', (mortalLocks (fun _ => 0) (fun _ _ => true) fun _ _ => true).step w (.advance t') =
        none := by
  obtain ⟨w, hrun, hkeys, hwrite, hlost⟩ : ∃ w,
      (mortalLocks (fun _ => 0) (fun _ _ => true) fun _ _ => true).run emptyTables
        erasedBeforeLocked = some w ∧
      w.threads.keys = {0} ∧ (w.threads.lookup 0).isSome = true ∧
        w.lost registryHomes 0 = true :=
    ⟨_, rfl, rfl, rfl, rfl⟩
  refine ⟨w, hrun, hwrite, fun t' => ?_⟩
  by_cases h0 : t' = 0
  · rw [h0]
    simp [mortalLocks, mortalSystem, hlost]
  · have hnone : w.threads.lookup t' = none := by
      rw [Option.eq_none_iff_forall_not_mem]
      intro thread hthread
      have hmem := UnorderedMap.mem_keys_of_lookup hthread
      rw [hkeys, Finset.mem_singleton] at hmem
      exact h0 hmem
    simp [mortalLocks, mortalSystem, LockWorld.advance, hnone]

end WasmHot
