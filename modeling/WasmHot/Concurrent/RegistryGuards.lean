import WasmHot.Concurrent.LockOrder
import WasmHot.Lib.LockGuards

/-!
# What the locks of the registry, the engine and the storage protect

Each map has its lock, and an entry of the registry has its own for its header. The code looks at a
map or a header only while it holds the lock, and changes it only while it holds the lock alone
(`LockedCall.guards`).

A header is there once its entry is made, which is under the lock of the map. The components of an
entry of the storage are left out, and so is what `Write` sees through its iterator: that nobody else
has the entry that a first `Write` makes, or that it is still stored, is not seen from the locks. When
an entry may be erased is the subject of `EntryLifetimes`.
-/

namespace WasmHot

open LockProgram

/-- What each lock protects, the components of a storage entry left out. -/
def RegistryLock.Data : RegistryLock → Type
  | .registryMap => UnorderedMap UInt64 EntryId
  | .registryEntry _ => ObjectHeader
  | .engine => UnorderedMap UInt64 ViewFunc
  | .storageMap => UnorderedMap UInt64 EntryId
  | .storageEntry _ => PUnit

namespace LockedTables

/-- The data of a lock. -/
def get : (l : RegistryLock) → LockedTables → l.Data
  | .registryMap, s => s.objects
  | .registryEntry entry, s => s.header entry
  | .engine, s => s.migrations
  | .storageMap, s => s.store
  | .storageEntry _, _ => ⟨⟩

/-- The tables with other data of a lock. -/
def set : (l : RegistryLock) → l.Data → LockedTables → LockedTables
  | .registryMap, objects, s => { s with objects := objects }
  | .registryEntry entry, header, s => { s with header := Function.update s.header entry header }
  | .engine, migrations, s => { s with migrations := migrations }
  | .storageMap, store, s => { s with store := store }
  | .storageEntry _, _, s => s

/-- A header is there once its entry is made. -/
def Live : RegistryLock → LockedTables → Prop
  | .registryEntry entry, s => entry < s.fresh
  | _, _ => True

theorem fresh_set (l : RegistryLock) (v : l.Data) (s : LockedTables) :
    (set l v s).fresh = s.fresh := by
  cases l <;> rfl

theorem live_congr {s s' : LockedTables} {l : RegistryLock} (hfresh : s.fresh ≤ s'.fresh)
    (h : Live l s) : Live l s' := by
  cases l with
  | registryEntry entry => exact Nat.lt_of_lt_of_le h hfresh
  | _ => trivial

end LockedTables

/-- The locks of the registry, the engine and the storage, with what they protect. -/
def registryGuards : LockGuards RegistryLock LockedTables where
  Data := RegistryLock.Data
  get := LockedTables.get
  set := LockedTables.set
  Live := LockedTables.Live
  get_set_of_ne {l l'} v s hne := by
    cases l with
    | registryEntry entry =>
      cases l' with
      | registryEntry entry' => exact Function.update_of_ne (fun heq => hne (congrArg _ heq)) _ _
      | _ => rfl
    | _ => cases l' <;> first | rfl | exact absurd rfl hne
  set_comm {l l'} v v' s hne := by
    cases l with
    | registryEntry entry =>
      cases l' with
      | registryEntry entry' =>
        exact congrArg (fun header => { s with header := header })
          (Function.update_comm (fun heq => hne (congrArg _ heq.symm)) _ _ _)
      | _ => rfl
    | _ => cases l' <;> first | rfl | exact absurd rfl hne
  live_set {l l'} v s hlive := LockedTables.live_congr (LockedTables.fresh_set l' v s).ge hlive

namespace Locked

variable {held : List (RegistryLock × LockMode)} {mode : LockMode} {α : Type}

/-- The code accesses what it holds the locks of, and gives back the locks that it takes. -/
abbrev Guards (held : List (RegistryLock × LockMode)) (p : Locked α) : Prop :=
  p.Guarded registryGuards held held

/-- Under its lock the map of the registry may be looked at. -/
theorem ignores_objects (h : (.registryMap, mode) ∈ held) (f : UnorderedMap UInt64 EntryId → α) :
    Ignores registryGuards held fun s => f s.objects :=
  ignores_get (g := registryGuards) h f

theorem ignores_header {entry : EntryId} (h : (.registryEntry entry, mode) ∈ held) :
    Ignores registryGuards held fun s => s.header entry :=
  ignores_get (g := registryGuards) h id

theorem ignores_migrations (h : (.engine, mode) ∈ held) (f : UnorderedMap UInt64 ViewFunc → α) :
    Ignores registryGuards held fun s => f s.migrations :=
  ignores_get (g := registryGuards) h f

theorem ignores_store (h : (.storageMap, mode) ∈ held) (f : UnorderedMap UInt64 EntryId → α) :
    Ignores registryGuards held fun s => f s.store :=
  ignores_get (g := registryGuards) h f

/-- Under its lock, held alone, the map of the registry may be changed. -/
theorem respects_objects (h : (.registryMap, .unique) ∈ held)
    (f : UnorderedMap UInt64 EntryId → UnorderedMap UInt64 EntryId) :
    Respects registryGuards held fun s => { s with objects := f s.objects } :=
  respects_set (g := registryGuards) h f

theorem respects_header {entry : EntryId} (h : (.registryEntry entry, .unique) ∈ held)
    (header : ObjectHeader) :
    Respects registryGuards held fun s =>
      { s with header := Function.update s.header entry header } :=
  respects_set (g := registryGuards) h fun _ => header

theorem respects_migrations (h : (.engine, .unique) ∈ held)
    (f : UnorderedMap UInt64 ViewFunc → UnorderedMap UInt64 ViewFunc) :
    Respects registryGuards held fun s => { s with migrations := f s.migrations } :=
  respects_set (g := registryGuards) h f

theorem respects_store (h : (.storageMap, .unique) ∈ held)
    (f : UnorderedMap UInt64 EntryId → UnorderedMap UInt64 EntryId) :
    Respects registryGuards held fun s => { s with store := f s.store } :=
  respects_set (g := registryGuards) h f

/-- The number of the next entry and the components of the entries are in no part. -/
theorem ignores_apart {f : LockedTables → α}
    (h : ∀ l v s, f (LockedTables.set l v s) = f s) : Ignores registryGuards held f :=
  fun l s v _ _ => h l v s

theorem guards_read (objectId : UInt64) (type : ComponentType) :
    Guards held (read objectId type) := by
  refine guarded_locked (.bind (guarded_inspect
    (ignores_store List.mem_cons_self (Finmap.lookup objectId))) fun found => ?_)
  cases found with
  | none => exact guarded_pure none
  | some entry =>
    exact guarded_locked (guarded_inspect (ignores_apart fun l v s => by cases l <;> rfl))

/-- A new entry is made under the lock of its map. -/
theorem guards_slot (hmap : (.storageMap, .unique) ∈ held) (objectId : UInt64) :
    Guards held (slot objectId) := by
  refine .bind (guarded_inspect (ignores_store hmap (Finmap.lookup objectId))) fun found => ?_
  cases found with
  | some entry => exact guarded_pure entry
  | none =>
    refine .bind (guarded_inspect (ignores_apart fun l v s => LockedTables.fresh_set l v s))
      fun entry => .bind (guarded_change ⟨fun l s v hfree _ => ?_, fun l s hfree _ => ?_,
        fun l s hlive => ?_⟩) fun _ => guarded_pure entry
    · cases l with
      | storageMap => exact absurd hmap (hfree .unique)
      | _ => rfl
    · cases l with
      | storageMap => exact absurd hmap hfree
      | _ => rfl
    · exact LockedTables.live_congr (Nat.le_succ s.fresh) hlive

theorem respects_modifyEntry (entry : EntryId) (f : ObjectComponents → ObjectComponents) :
    Respects registryGuards held fun s => s.modifyEntry entry f where
  apart l s v _ _ := by cases l <;> rfl
  kept l s _ _ := by cases l <;> rfl
  live l s hlive := LockedTables.live_congr (s := s) le_rfl hlive

theorem guards_assign (entry : EntryId) (type : ComponentType) (data : ComponentData) :
    Guards held (assign entry type data) :=
  guarded_locked (guarded_change (respects_modifyEntry entry _))

theorem guards_write (objectId : UInt64) (type : ComponentType) (data : ComponentData) :
    Guards held (write objectId type data) := by
  refine .bind (guarded_lock _ _) fun _ => ?_
  refine .bind (guarded_inspect (ignores_store List.mem_cons_self
    (Finmap.lookup objectId))) fun found => ?_
  cases found with
  | some entry => exact .bind (guards_assign entry type data) fun _ => guarded_unlock _ _
  | none =>
    refine .bind (guarded_unlock _ _) fun _ => ?_
    exact .bind (guarded_locked (guards_slot List.mem_cons_self objectId)) fun entry =>
      guards_assign entry type data

theorem guards_writeChecked (objectId : UInt64) (type : ComponentType) (totalSize : ℕ)
    (data : ComponentData) : Guards held (writeChecked objectId type totalSize data) := by
  unfold writeChecked
  split
  · exact guarded_pure false
  · exact .bind (guards_write objectId type data) fun _ => guarded_pure true

theorem guards_remove (objectId : UInt64) (type : ComponentType) :
    Guards held (remove objectId type) := by
  refine guarded_locked (.bind (guarded_inspect
    (ignores_store List.mem_cons_self (Finmap.lookup objectId))) fun found => ?_)
  cases found with
  | none => exact guarded_pure false
  | some entry =>
    refine guarded_locked (.bind (guarded_inspect (ignores_apart fun l v s => ?_)) fun found => ?_)
    · cases l <;> rfl
    · exact .bind (guarded_change (respects_modifyEntry entry _)) fun _ => guarded_pure found

theorem guards_removeAll (objectId : UInt64) : Guards held (removeAll objectId) := by
  refine guarded_locked (.bind (guarded_inspect
    (ignores_store List.mem_cons_self (Finmap.lookup objectId))) fun found => ?_)
  cases found with
  | none => exact guarded_pure _
  | some entry =>
    exact .bind (guarded_locked (guarded_pure _)) fun _ =>
      guarded_change (respects_store List.mem_cons_self (Finmap.erase objectId))

theorem guards_readComponent (obj : GameObject) (type : ComponentType) :
    Guards held (readComponent obj type) := by
  unfold readComponent
  split
  · exact guarded_pure none
  · exact guards_read _ type

theorem guards_writeComponent (obj : GameObject) (type : ComponentType) (data : ComponentData) :
    Guards held (writeComponent obj type data) := by
  unfold writeComponent
  split
  · exact guarded_pure _
  · exact guards_write _ type data

theorem guards_removeComponent (obj : GameObject) (type : ComponentType) :
    Guards held (removeComponent obj type) := by
  unfold removeComponent
  split
  · exact guarded_pure false
  · exact guards_remove _ type

theorem guards_applyOutputDelta (obj : GameObject) (output : List UInt8) :
    Guards held (applyOutputDelta obj output) := by
  unfold applyOutputDelta
  split
  · exact guarded_pure false
  · split
    · exact guarded_pure false
    · exact .bind (guards_writeComponent obj _ _) fun _ => guarded_pure true

theorem guards_register (fromVersion toVersion : UInt32) (func : ViewFunc) :
    Guards held (register fromVersion toVersion func) :=
  guarded_locked (guarded_change (respects_migrations List.mem_cons_self
    (Finmap.insert (MigrationEngine.makeKey fromVersion toVersion) func)))

/-- A migration function comes to the tables through its view only. -/
theorem guards_runFunc (body : ViewProgram) : Guards held (runFunc body) := by
  induction body with
  | ret ok obj => exact guarded_pure _
  | read obj type next ih => exact .bind (guards_readComponent obj type) ih
  | write obj type data next ih => exact .bind (guards_writeComponent obj type data) fun _ => ih
  | remove obj type next ih => exact .bind (guards_removeComponent obj type) ih

theorem guards_migrateStep (obj : GameObject) (fromVersion toVersion : UInt32) :
    Guards held (migrateStep obj fromVersion toVersion) := by
  refine .bind (guarded_locked (guarded_inspect (ignores_migrations List.mem_cons_self
    (Finmap.lookup (MigrationEngine.makeKey fromVersion toVersion))))) fun func => ?_
  cases func with
  | none => exact guarded_pure _
  | some func => exact guards_runFunc _

theorem guards_migrateLoop (target current : UInt32) (obj : GameObject) :
    Guards held (migrateLoop target current obj) := by
  fun_induction migrateLoop target current obj with
  | case1 current obj hne ih =>
    refine .bind (guards_migrateStep obj current _) fun step => ?_
    split
    · exact ih step
    · exact guarded_pure _
  | case2 current obj heq => exact guarded_pure _

theorem guards_create (header : ObjectHeader) : Guards held (create header) := by
  refine guarded_locked (guarded_change ⟨fun l s v hfree hlive => ?_, fun l s hfree hlive => ?_,
    fun l s hlive => ?_⟩)
  · cases l with
    | registryMap => exact absurd List.mem_cons_self (hfree .unique)
    | registryEntry entry =>
      have hne : entry ≠ s.fresh := Nat.ne_of_lt hlive
      exact congrArg (fun headers => { s with
        objects := s.objects.insert header.objectId s.fresh
        header := headers
        fresh := s.fresh + 1 }) (Function.update_comm hne _ _ _)
    | _ => rfl
  · cases l with
    | registryMap => exact absurd List.mem_cons_self hfree
    | registryEntry entry => exact Function.update_of_ne (Nat.ne_of_lt hlive) _ _
    | _ => rfl
  · exact LockedTables.live_congr (Nat.le_succ s.fresh) hlive

theorem guards_destroy (objectId : UInt64) : Guards held (destroy objectId) := by
  refine .bind (guarded_locked (.bind (guarded_inspect
    (ignores_objects List.mem_cons_self (Finmap.lookup objectId))) fun found => ?_)) fun found => ?_
  · cases found with
    | none => exact guarded_pure false
    | some entry =>
      refine .bind (guarded_locked (guarded_pure _)) fun _ => ?_
      exact .bind (guarded_change (respects_objects List.mem_cons_self (Finmap.erase objectId)))
        fun _ => guarded_pure true
  · split
    · exact guards_removeAll objectId
    · exact guarded_pure _

theorem guards_migrate (objectId : UInt64) (target : UInt32) :
    Guards held (migrate objectId target) := by
  refine guarded_locked (.bind (guarded_inspect
    (ignores_objects List.mem_cons_self (Finmap.lookup objectId))) fun found => ?_)
  cases found with
  | none => exact guarded_pure false
  | some entry =>
    refine guarded_locked (.bind (guarded_inspect (ignores_header List.mem_cons_self))
      fun header => ?_)
    refine .bind (guards_migrateLoop target _ _) fun migrated => ?_
    split
    · exact .bind (guarded_change (respects_header List.mem_cons_self migrated.2.header))
        fun _ => guarded_pure true
    · exact guarded_pure false

theorem guards_host (ctx : HostContext) (memory : GuestMemory) (call : HostCall) :
    Guards held (host ctx memory call) := by
  unfold host
  split
  · exact guarded_pure _
  · split
    · exact guarded_pure _
    · exact .bind (guards_read _ _) fun data => guarded_pure _
  · split
    · exact .bind (guards_write _ _ _) fun _ => guarded_pure _
    · exact guarded_pure _

theorem guards_play (ctx : HostContext) (guest : Guest) : Guards held (play ctx guest) := by
  induction guest with
  | trap memory => exact guarded_pure _
  | ret memory value => exact guarded_pure _
  | host memory call next ih =>
    exact .bind (guards_host ctx memory call) fun answer => ih answer.1 answer.2

theorem guards_execute (cityHash64 : String → UInt64) (plugin : WasmEdgePlugin) (obj : GameObject)
    (action : String) (input : List UInt8) :
    Guards held (execute cityHash64 plugin obj action input) := by
  unfold execute
  split
  · exact guarded_pure _
  · exact .bind (guards_play _ _) fun run => guarded_pure _

theorem guards_get (objectId : UInt64) {callback : Option GameObject → Locked PUnit}
    (hcallback : ∀ held obj, Guards held (callback obj)) : Guards held (get objectId callback) := by
  refine .bind (guarded_lock _ _) fun _ => ?_
  refine .bind (guarded_inspect (ignores_objects List.mem_cons_self
    (Finmap.lookup objectId))) fun found => ?_
  cases found with
  | none => exact .bind (hcallback _ none) fun _ => guarded_unlock _ _
  | some entry =>
    refine .bind (guarded_locked (guarded_inspect (ignores_header List.mem_cons_self)))
      fun header => ?_
    exact .bind (guarded_unlock _ _) fun _ => hcallback _ _

theorem guards_invokeCallback (cityHash64 : String → UInt64) (plugin : WasmEdgePlugin)
    (action : String) (input : List UInt8) (obj : Option GameObject) :
    Guards held (invokeCallback cityHash64 plugin action input obj) := by
  cases obj with
  | none => exact guarded_pure _
  | some obj =>
    refine .bind (guards_execute cityHash64 plugin obj action input) fun executed => ?_
    split
    · exact .bind (guards_applyOutputDelta obj _) fun _ => guarded_pure _
    · exact guarded_pure _

end Locked

open Locked in
/-- Every call accesses what it holds the locks of. -/
theorem LockedCall.guards (cityHash64 : String → UInt64) (c : LockedCall) :
    Guards [] (c.body cityHash64) := by
  cases c with
  | create header => exact guards_create header
  | invoke objectId plugin action input =>
    exact guards_get objectId fun _ obj => guards_invokeCallback cityHash64 plugin action input obj
  | destroy objectId => exact guards_destroy objectId
  | migrate objectId target => exact .bind (guards_migrate objectId target) fun _ => guarded_pure _
  | register fromVersion toVersion func => exact guards_register fromVersion toVersion func
  | read objectId type => exact .bind (guards_read objectId type) fun _ => guarded_pure _
  | write objectId type data => exact guards_write objectId type data
  | writeChecked objectId type totalSize data =>
    exact .bind (guards_writeChecked objectId type totalSize data) fun _ => guarded_pure _
  | remove objectId type => exact .bind (guards_remove objectId type) fun _ => guarded_pure _
  | removeAll objectId => exact guards_removeAll objectId

end WasmHot
