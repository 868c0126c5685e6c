import WasmHot.Actor.InvokeModule
import WasmHot.Concurrent.StorageEntries
import WasmHot.Lib.LockProgram

/-!
# The locks of the registry, the engine and the storage

Every call of `ObjectRegistry`, `MigrationEngine` and `ComponentStorage` as the program of its lock
operations, each of which is a step of its own. The locks are the map lock of the registry, the
mutex of each of its entries, the engine's lock, the map lock of the storage and the mutex of each
of its entries.

The calls take them in this order, whatever they nest (`LockedCall.balanced_body`): a migration
function runs under the first two and never under the engine's lock, and a first `Write` has released
the map lock of the storage before it takes it again.

An entry is known by an identity that is never used again, and so is its mutex. What becomes of a
thread that comes to the mutex of an erased entry is not told here (see `EntryLifetimes`).
-/

namespace WasmHot

/-- The locks. -/
inductive RegistryLock
  /-- `ObjectRegistry::map_mutex_`. -/
  | registryMap
  /-- `ObjectEntry::mutex`. -/
  | registryEntry (entry : EntryId)
  /-- `MigrationEngine::mutex_`. -/
  | engine
  /-- `ComponentStorage::map_mutex_`. -/
  | storageMap
  /-- `ObjectComponents::mutex`. -/
  | storageEntry (entry : EntryId)
  deriving DecidableEq

/-- The order in which the locks are taken. -/
def RegistryLock.rank : RegistryLock → ℕ
  | .registryMap => 0
  | .registryEntry _ => 1
  | .engine => 2
  | .storageMap => 3
  | .storageEntry _ => 4

/-- The body of a migration function: the operations it calls on its view, as the view is then, one
after the other. -/
inductive ViewProgram
  | ret (ok : Bool) (obj : GameObject)
  | read (obj : GameObject) (type : ComponentType) (next : Option ComponentData → ViewProgram)
  | write (obj : GameObject) (type : ComponentType) (data : ComponentData) (next : ViewProgram)
  | remove (obj : GameObject) (type : ComponentType) (next : Bool → ViewProgram)

/-- A `MigrationFunc` with such a body. -/
abbrev ViewFunc := GameObject → UInt32 → UInt32 → ViewProgram

/-- What the locks protect: the maps with the entries they point to, and the memory of all
entries. -/
structure LockedTables where
  /-- `objects_`. -/
  objects : UnorderedMap UInt64 EntryId
  header : EntryId → ObjectHeader
  /-- `store_`. -/
  store : UnorderedMap UInt64 EntryId
  components : EntryId → ObjectComponents
  /-- `migrations_`. -/
  migrations : UnorderedMap UInt64 ViewFunc
  fresh : EntryId

/-- The components of an entry are changed. -/
def LockedTables.modifyEntry (s : LockedTables) (entry : EntryId)
    (f : ObjectComponents → ObjectComponents) : LockedTables :=
  { s with components := Function.update s.components entry (f (s.components entry)) }

/-- Code that works on the tables under their locks. -/
abbrev Locked := LockProgram RegistryLock LockedTables

namespace Locked

open LockProgram

/-! ## ComponentStorage -/

/-- `ComponentStorage::Read`, with a callback that takes the bytes and no lock. -/
def read (objectId : UInt64) (type : ComponentType) : Locked (Option ComponentData) :=
  locked .storageMap .shared do
    match ← inspect fun s => s.store.lookup objectId with
    | none => return none
    | some entry =>
        locked (.storageEntry entry) .unique
          (inspect fun s => (s.components entry).lookup type)

/-- The entry of an object, which gets one if it has none. -/
def slot (objectId : UInt64) : Locked EntryId := do
  match ← inspect fun s => s.store.lookup objectId with
  | some entry => return entry
  | none =>
      let entry ← inspect fun s => s.fresh
      change fun s =>
        { s with
          store := s.store.insert objectId entry
          components := Function.update s.components entry ∅
          fresh := s.fresh + 1 }
      return entry

/-- `it->second->components[type] = std::move(data)`. -/
def assign (entry : EntryId) (type : ComponentType) (data : ComponentData) : Locked PUnit :=
  locked (.storageEntry entry) .unique
    (change fun s => s.modifyEntry entry (Finmap.insert type data))

/-- `ComponentStorage::Write` without a schema. -/
def write (objectId : UInt64) (type : ComponentType) (data : ComponentData) : Locked PUnit := do
  lock .storageMap .shared
  match ← inspect fun s => s.store.lookup objectId with
  | some entry =>
      assign entry type data
      unlock .storageMap .shared
  | none =>
      unlock .storageMap .shared
      let entry ← locked .storageMap .unique (slot objectId)
      -- No map lock is held here.
      assign entry type data

/-- `ComponentStorage::Write` with a schema. -/
def writeChecked (objectId : UInt64) (type : ComponentType) (totalSize : ℕ)
    (data : ComponentData) : Locked Bool :=
  if data.length ≠ totalSize then return false
  else do
    write objectId type data
    return true

/-- `ComponentStorage::Remove`. -/
def remove (objectId : UInt64) (type : ComponentType) : Locked Bool :=
  locked .storageMap .shared do
    match ← inspect fun s => s.store.lookup objectId with
    | none => return false
    | some entry =>
        locked (.storageEntry entry) .unique do
          let found ← inspect fun s => ((s.components entry).lookup type).isSome
          change fun s => s.modifyEntry entry (Finmap.erase type)
          return found

/-- `ComponentStorage::RemoveAll`. -/
def removeAll (objectId : UInt64) : Locked PUnit :=
  locked .storageMap .unique do
    match ← inspect fun s => s.store.lookup objectId with
    | none => return ⟨⟩
    | some entry =>
        locked (.storageEntry entry) .unique (return ⟨⟩)
        change fun s => { s with store := s.store.erase objectId }

/-! ## GameObject -/

/-- `GameObject::ReadComponent`. -/
def readComponent (obj : GameObject) (type : ComponentType) : Locked (Option ComponentData) :=
  match obj.storage with
  | .null => return none
  | .singleton => read obj.header.objectId type

/-- `GameObject::WriteComponent` without a schema. -/
def writeComponent (obj : GameObject) (type : ComponentType) (data : ComponentData) :
    Locked PUnit :=
  match obj.storage with
  | .null => return ⟨⟩
  | .singleton => write obj.header.objectId type data

/-- `GameObject::RemoveComponent`. -/
def removeComponent (obj : GameObject) (type : ComponentType) : Locked Bool :=
  match obj.storage with
  | .null => return false
  | .singleton => remove obj.header.objectId type

/-- `GameObject::ApplyOutputDelta`. -/
def applyOutputDelta (obj : GameObject) (output : List UInt8) : Locked Bool :=
  if output.length < 4 * 2 then return false
  else if loadU32 output ≠ deltaMagic then return false
  else do
    writeComponent obj (loadU32 (output.drop 4)) (output.drop (4 * 2))
    return true

/-! ## MigrationEngine -/

/-- `MigrationEngine::Register`. -/
def register (fromVersion toVersion : UInt32) (func : ViewFunc) : Locked PUnit :=
  locked .engine .unique
    (change fun s =>
      { s with
        migrations := s.migrations.insert (MigrationEngine.makeKey fromVersion toVersion) func })

/-- A migration function runs. -/
def runFunc : ViewProgram → Locked (Bool × GameObject)
  | .ret ok obj => return (ok, obj)
  | .read obj type next => do
      let data ← readComponent obj type
      runFunc (next data)
  | .write obj type data next => do
      writeComponent obj type data
      runFunc next
  | .remove obj type next => do
      let found ← removeComponent obj type
      runFunc (next found)

/-- `MigrationEngine::MigrateStep`, with the view it leaves. -/
def migrateStep (obj : GameObject) (fromVersion toVersion : UInt32) :
    Locked (Bool × GameObject) := do
  let func ← locked .engine .shared
    (inspect fun s => s.migrations.lookup (MigrationEngine.makeKey fromVersion toVersion))
  match func with
  | none => return (false, obj)
  | some func => runFunc (func obj fromVersion toVersion)

/-- The loop of `MigrationEngine::Migrate`, with the view it leaves. -/
def migrateLoop (target current : UInt32) (obj : GameObject) : Locked (Bool × GameObject) :=
  if _hne : current ≠ target then do
    let step ← migrateStep obj current (nextVersion current target)
    if step.1 then
      migrateLoop target (nextVersion current target)
        (step.2.setVersion (nextVersion current target))
    else return (false, step.2)
  else return (true, obj)
termination_by versionDistance current target
decreasing_by
  have hcloser := versionDistance_nextVersion _hne
  omega

/-! ## ObjectRegistry -/

/-- `ObjectRegistry::Create`. -/
def create (header : ObjectHeader) : Locked PUnit :=
  locked .registryMap .unique
    (change fun s =>
      { s with
        objects := s.objects.insert header.objectId s.fresh
        header := Function.update s.header s.fresh header
        fresh := s.fresh + 1 })

/-- `ObjectRegistry::Get`. -/
def get (objectId : UInt64) (callback : Option GameObject → Locked PUnit) : Locked PUnit := do
  lock .registryMap .shared
  match ← inspect fun s => s.objects.lookup objectId with
  | none =>
      callback none
      unlock .registryMap .shared
  | some entry =>
      let header ← locked (.registryEntry entry) .unique (inspect fun s => s.header entry)
      unlock .registryMap .shared
      callback (some (viewOf header))

/-- `ObjectRegistry::Destroy`. -/
def destroy (objectId : UInt64) : Locked PUnit := do
  let found ← locked .registryMap .unique do
    match ← inspect fun s => s.objects.lookup objectId with
    | none => return false
    | some entry =>
        locked (.registryEntry entry) .unique (return ⟨⟩)
        change fun s => { s with objects := s.objects.erase objectId }
        return true
  if found then removeAll objectId else return ⟨⟩

/-- `ObjectRegistry::Migrate`. -/
def migrate (objectId : UInt64) (target : UInt32) : Locked Bool :=
  locked .registryMap .shared do
    match ← inspect fun s => s.objects.lookup objectId with
    | none => return false
    | some entry =>
        locked (.registryEntry entry) .unique do
          let header ← inspect fun s => s.header entry
          let migrated ← migrateLoop target header.schemaVersion (viewOf header)
          if migrated.1 then do
            change fun s =>
              { s with header := Function.update s.header entry migrated.2.header }
            return true
          else return false

/-! ## The callback of InvokeModule -/

/-- The callback of `HostGetComponent`: the result and the guest's memory. -/
def copyOut (data : Option ComponentData) (bufPtr bufCap : UInt32) (memory : GuestMemory) :
    Int32 × GuestMemory :=
  match data with
  | none => (0, memory)
  | some data =>
      let len := UInt32.ofNat data.length
      if len > bufCap then (-2, memory)
      else if len > 0 then
        match memory with
        | none => (-3, none)
        | some bytes =>
            match setData bytes data bufPtr.toNat len.toNat with
            | none => (-3, some bytes)
            | some bytes' => (len.toInt32, some bytes')
      else (len.toInt32, memory)

/-- `hostGetComponent` is that callback on what `Read` finds. -/
theorem hostGetComponent_eq (ctx : HostContext) (objectId : UInt64) (type : ComponentType)
    (bufPtr bufCap : UInt32) (memory : GuestMemory) (s : ComponentStorage)
    (hctx : ctx.storage = .singleton) :
    hostGetComponent ctx objectId type bufPtr bufCap memory s =
      copyOut (s.read objectId type) bufPtr bufCap memory := by
  obtain ⟨storage, id⟩ := ctx
  cases hctx
  rfl

/-- A host call of the guest: its result and the guest's memory. -/
def host (ctx : HostContext) (memory : GuestMemory) (call : HostCall) :
    Locked (HostValue × GuestMemory) :=
  match call with
  | .getCurrentObjectId => return (.i64 (hostGetCurrentObjectId ctx), memory)
  | .getComponent objectId type bufPtr bufCap =>
      match ctx.storage with
      | .null => return (.i32 (-1), memory)
      | .singleton => do
          let data ← read objectId type
          let answer := copyOut data bufPtr bufCap memory
          return (.i32 answer.1, answer.2)
  | .setComponent objectId type bufPtr len =>
      match ctx.storage, componentFrom memory bufPtr len with
      | .singleton, some data => do
          write objectId type data
          return (.i32 1, memory)
      | _, _ => return (.i32 0, memory)

/-- The guest runs to its end. -/
def play (ctx : HostContext) : Guest → Locked (Option Int32 × GuestMemory)
  | .trap memory => return (none, memory)
  | .ret memory value => return (some value, memory)
  | .host memory call next => do
      let answer ← host ctx memory call
      play ctx (next answer.1 answer.2)

/-- `WasmEdgePlugin::Execute`, into an empty output vector. -/
def execute (cityHash64 : String → UInt64) (plugin : WasmEdgePlugin) (obj : GameObject)
    (action : String) (input : List UInt8) : Locked (Bool × List UInt8) :=
  match plugin.entered cityHash64 action input with
  | none => return (false, [])
  | some (vm, guest) => do
      let run ← play obj.context guest
      return takeOutput (Vm.exported { vm with memory := run.2 }) run.1 []

/-- The callback that `InvokeModule` passes to `Get`. -/
def invokeCallback (cityHash64 : String → UInt64) (plugin : WasmEdgePlugin) (action : String)
    (input : List UInt8) : Option GameObject → Locked PUnit
  | none => return ⟨⟩
  | some obj => do
      let executed ← execute cityHash64 plugin obj action input
      if executed.1 then do
        let _applied ← applyOutputDelta obj executed.2
        return ⟨⟩
      else return ⟨⟩

end Locked

/-! ## All calls -/

/-- A call with its arguments. -/
inductive LockedCall
  | create (header : ObjectHeader)
  /-- `Get` as `InvokeModule` calls it. -/
  | invoke (objectId : UInt64) (plugin : WasmEdgePlugin) (action : String) (input : List UInt8)
  | destroy (objectId : UInt64)
  | migrate (objectId : UInt64) (target : UInt32)
  | register (fromVersion toVersion : UInt32) (func : ViewFunc)
  | read (objectId : UInt64) (type : ComponentType)
  | write (objectId : UInt64) (type : ComponentType) (data : ComponentData)
  | writeChecked (objectId : UInt64) (type : ComponentType) (totalSize : ℕ) (data : ComponentData)
  | remove (objectId : UInt64) (type : ComponentType)
  | removeAll (objectId : UInt64)

/-- The code of a call. What it returns is the caller's. -/
def LockedCall.body (cityHash64 : String → UInt64) : LockedCall → Locked PUnit
  | .create header => Locked.create header
  | .invoke objectId plugin action input =>
      Locked.get objectId (Locked.invokeCallback cityHash64 plugin action input)
  | .destroy objectId => Locked.destroy objectId
  | .migrate objectId target => do
      let _ok ← Locked.migrate objectId target
      return ⟨⟩
  | .register fromVersion toVersion func => Locked.register fromVersion toVersion func
  | .read objectId type => do
      let _data ← Locked.read objectId type
      return ⟨⟩
  | .write objectId type data => Locked.write objectId type data
  | .writeChecked objectId type totalSize data => do
      let _ok ← Locked.writeChecked objectId type totalSize data
      return ⟨⟩
  | .remove objectId type => do
      let _found ← Locked.remove objectId type
      return ⟨⟩
  | .removeAll objectId => Locked.removeAll objectId

/-- The world of the registry, the engine and the storage with their threads. -/
abbrev RegistryWorld := LockWorld RegistryLock LockedTables

/-- Threads that make these calls. The policy says which readers a waiting writer keeps out. -/
def registryLocks (cityHash64 : String → UInt64) (blocks : RegistryWorld → ThreadId → Bool) :
    TransitionSystem RegistryWorld (LockAction LockedCall) :=
  lockSystem (LockedCall.body cityHash64) blocks

/-! ## Every call follows the order -/

namespace Locked

open LockProgram

variable {held : List (RegistryLock × LockMode)} {objectId : UInt64} {type : ComponentType}

/-- Only locks of the registry are held, as where a migration function runs. -/
abbrev BelowStorage (held : List (RegistryLock × LockMode)) : Prop :=
  RankedBelow RegistryLock.rank held (RegistryLock.rank .storageMap)

/-- An entry of the storage is taken under its map lock. -/
theorem BelowStorage.cons (h : BelowStorage held) (mode : LockMode) (entry : EntryId) :
    RankedBelow RegistryLock.rank ((.storageMap, mode) :: held)
      (RegistryLock.rank (.storageEntry entry)) :=
  RankedBelow.cons h (Nat.lt_succ_self 3) mode

theorem balanced_read (h : BelowStorage held) (objectId : UInt64) (type : ComponentType) :
    (read objectId type).Balanced RegistryLock.rank held := by
  refine balanced_locked h (.bind (balanced_inspect _) fun found => ?_)
  cases found with
  | none => exact balanced_pure none
  | some entry => exact balanced_locked (h.cons .shared entry) (balanced_inspect _)

theorem balanced_slot (objectId : UInt64) : (slot objectId).Balanced RegistryLock.rank held := by
  refine .bind (balanced_inspect _) fun found => ?_
  cases found with
  | none =>
    exact .bind (balanced_inspect _) fun entry =>
      .bind (balanced_change _) fun _ => balanced_pure entry
  | some entry => exact balanced_pure entry

/-- An assignment takes the mutex of its entry, under the map lock or not. -/
theorem balanced_assign {entry : EntryId}
    (h : RankedBelow RegistryLock.rank held (RegistryLock.rank (.storageEntry entry)))
    (type : ComponentType) (data : ComponentData) :
    (assign entry type data).Balanced RegistryLock.rank held :=
  balanced_locked h (balanced_change _)

theorem balanced_write (h : BelowStorage held) (objectId : UInt64) (type : ComponentType)
    (data : ComponentData) : (write objectId type data).Balanced RegistryLock.rank held := by
  refine Follows.bind (follows_lock .shared h) fun _ => ?_
  refine Follows.bind (balanced_inspect _) fun found => ?_
  cases found with
  | some entry =>
    refine Follows.bind (balanced_assign (h.cons .shared entry) type data) fun _ => ?_
    exact follows_unlock RegistryLock.storageMap .shared
  | none =>
    -- The map lock is released before it is taken again, and released again before the mutex.
    refine Follows.bind (follows_unlock RegistryLock.storageMap .shared) fun _ => ?_
    refine Follows.bind (balanced_locked h (balanced_slot objectId)) fun entry => ?_
    exact balanced_assign (h.mono (Nat.le_succ 3)) type data

theorem balanced_writeChecked (h : BelowStorage held) (objectId : UInt64) (type : ComponentType)
    (totalSize : ℕ) (data : ComponentData) :
    (writeChecked objectId type totalSize data).Balanced RegistryLock.rank held := by
  unfold writeChecked
  split
  · exact balanced_pure false
  · exact .bind (balanced_write h objectId type data) fun _ => balanced_pure true

theorem balanced_remove (h : BelowStorage held) (objectId : UInt64) (type : ComponentType) :
    (remove objectId type).Balanced RegistryLock.rank held := by
  refine balanced_locked h (.bind (balanced_inspect _) fun found => ?_)
  cases found with
  | none => exact balanced_pure false
  | some entry =>
    refine balanced_locked (h.cons .shared entry) (.bind (balanced_inspect _) fun found => ?_)
    exact .bind (balanced_change _) fun _ => balanced_pure found

theorem balanced_removeAll (h : BelowStorage held) (objectId : UInt64) :
    (removeAll objectId).Balanced RegistryLock.rank held := by
  refine balanced_locked h (.bind (balanced_inspect _) fun found => ?_)
  cases found with
  | none => exact balanced_pure _
  | some entry =>
    refine .bind (balanced_locked (h.cons .unique entry) (balanced_pure _)) fun _ => ?_
    exact balanced_change _

theorem balanced_readComponent (h : BelowStorage held) (obj : GameObject) (type : ComponentType) :
    (readComponent obj type).Balanced RegistryLock.rank held := by
  unfold readComponent
  split
  · exact balanced_pure none
  · exact balanced_read h _ type

theorem balanced_writeComponent (h : BelowStorage held) (obj : GameObject) (type : ComponentType)
    (data : ComponentData) :
    (writeComponent obj type data).Balanced RegistryLock.rank held := by
  unfold writeComponent
  split
  · exact balanced_pure _
  · exact balanced_write h _ type data

theorem balanced_removeComponent (h : BelowStorage held) (obj : GameObject)
    (type : ComponentType) : (removeComponent obj type).Balanced RegistryLock.rank held := by
  unfold removeComponent
  split
  · exact balanced_pure false
  · exact balanced_remove h _ type

theorem balanced_applyOutputDelta (h : BelowStorage held) (obj : GameObject)
    (output : List UInt8) : (applyOutputDelta obj output).Balanced RegistryLock.rank held := by
  unfold applyOutputDelta
  split
  · exact balanced_pure false
  · split
    · exact balanced_pure false
    · exact .bind (balanced_writeComponent h obj _ _) fun _ => balanced_pure true

/-- A migration function, which its caller runs under locks of the registry. -/
theorem balanced_runFunc (h : BelowStorage held) (body : ViewProgram) :
    (runFunc body).Balanced RegistryLock.rank held := by
  induction body with
  | ret ok obj => exact balanced_pure _
  | read obj type next ih => exact .bind (balanced_readComponent h obj type) ih
  | write obj type data next ih =>
    exact .bind (balanced_writeComponent h obj type data) fun _ => ih
  | remove obj type next ih => exact .bind (balanced_removeComponent h obj type) ih

/-- Below the engine's lock. -/
abbrev BelowEngine (held : List (RegistryLock × LockMode)) : Prop :=
  RankedBelow RegistryLock.rank held (RegistryLock.rank .engine)

theorem balanced_register (h : BelowEngine held) (fromVersion toVersion : UInt32)
    (func : ViewFunc) :
    (register fromVersion toVersion func).Balanced RegistryLock.rank held :=
  balanced_locked h (balanced_change _)

/-- The engine's lock is released before the function is called. -/
theorem balanced_migrateStep (h : BelowEngine held) (obj : GameObject)
    (fromVersion toVersion : UInt32) :
    (migrateStep obj fromVersion toVersion).Balanced RegistryLock.rank held := by
  refine .bind (balanced_locked h (balanced_inspect _)) fun func => ?_
  cases func with
  | none => exact balanced_pure _
  | some func => exact balanced_runFunc (h.mono (Nat.le_succ 2)) _

theorem balanced_migrateLoop (h : BelowEngine held) (target current : UInt32) (obj : GameObject) :
    (migrateLoop target current obj).Balanced RegistryLock.rank held := by
  fun_induction migrateLoop target current obj with
  | case1 current obj hne ih =>
    refine .bind (balanced_migrateStep h obj current _) fun step => ?_
    split
    · exact ih step
    · exact balanced_pure _
  | case2 current obj heq => exact balanced_pure _

/-- An entry of the registry is taken under its map lock. -/
theorem rankedBelow_registryEntry (mode : LockMode) (entry : EntryId) :
    RankedBelow RegistryLock.rank [(.registryMap, mode)]
      (RegistryLock.rank (.registryEntry entry)) := by
  have hmap : RegistryLock.rank .registryMap < RegistryLock.rank (.registryEntry entry) :=
    Nat.zero_lt_one
  exact (rankedBelow_nil _ _).cons hmap mode

theorem balanced_create (header : ObjectHeader) :
    (create header).Balanced RegistryLock.rank [] :=
  balanced_locked (rankedBelow_nil _ _) (balanced_change _)

/-- `Get`, if its callback takes no lock where there is no object. -/
theorem balanced_get (objectId : UInt64) {callback : Option GameObject → Locked PUnit}
    (hnone : (callback none).Balanced RegistryLock.rank [(.registryMap, .shared)])
    (hsome : ∀ obj, (callback (some obj)).Balanced RegistryLock.rank []) :
    (get objectId callback).Balanced RegistryLock.rank [] := by
  refine Follows.bind (follows_lock .shared (rankedBelow_nil _ _)) fun _ => ?_
  refine Follows.bind (balanced_inspect _) fun found => ?_
  cases found with
  | none => exact Follows.bind hnone fun _ => follows_unlock RegistryLock.registryMap .shared
  | some entry =>
    refine Follows.bind
      (balanced_locked (rankedBelow_registryEntry .shared entry) (balanced_inspect _))
      fun header => ?_
    exact Follows.bind (follows_unlock RegistryLock.registryMap .shared) fun _ => hsome _

theorem balanced_destroy (objectId : UInt64) :
    (destroy objectId).Balanced RegistryLock.rank [] := by
  refine .bind (balanced_locked (rankedBelow_nil _ _) (.bind (balanced_inspect _)
    fun found => ?_)) fun found => ?_
  · cases found with
    | none => exact balanced_pure false
    | some entry =>
      refine .bind (balanced_locked (rankedBelow_registryEntry .unique entry) (balanced_pure _))
        fun _ => ?_
      exact .bind (balanced_change _) fun _ => balanced_pure true
  · split
    · exact balanced_removeAll (rankedBelow_nil _ _) objectId
    · exact balanced_pure _

theorem balanced_migrate (objectId : UInt64) (target : UInt32) :
    (migrate objectId target).Balanced RegistryLock.rank [] := by
  refine balanced_locked (rankedBelow_nil _ _) (.bind (balanced_inspect _) fun found => ?_)
  cases found with
  | none => exact balanced_pure false
  | some entry =>
    have hentry := rankedBelow_registryEntry .shared entry
    refine balanced_locked hentry (.bind (balanced_inspect _) fun header => ?_)
    have hengine : BelowEngine [(.registryEntry entry, .unique), (.registryMap, .shared)] :=
      hentry.cons Nat.one_lt_two .unique
    refine .bind (balanced_migrateLoop hengine target _ _) fun migrated => ?_
    split
    · exact .bind (balanced_change _) fun _ => balanced_pure true
    · exact balanced_pure false

theorem balanced_host (ctx : HostContext) (memory : GuestMemory) (call : HostCall) :
    (host ctx memory call).Balanced RegistryLock.rank [] := by
  unfold host
  split
  · exact balanced_pure _
  · split
    · exact balanced_pure _
    · exact .bind (balanced_read (rankedBelow_nil _ _) _ _) fun data => balanced_pure _
  · split
    · exact .bind (balanced_write (rankedBelow_nil _ _) _ _ _) fun _ => balanced_pure _
    · exact balanced_pure _

theorem balanced_play (ctx : HostContext) (guest : Guest) :
    (play ctx guest).Balanced RegistryLock.rank [] := by
  induction guest with
  | trap memory => exact balanced_pure _
  | ret memory value => exact balanced_pure _
  | host memory call next ih =>
    exact .bind (balanced_host ctx memory call) fun answer => ih answer.1 answer.2

theorem balanced_execute (cityHash64 : String → UInt64) (plugin : WasmEdgePlugin)
    (obj : GameObject) (action : String) (input : List UInt8) :
    (execute cityHash64 plugin obj action input).Balanced RegistryLock.rank [] := by
  unfold execute
  split
  · exact balanced_pure _
  · exact .bind (balanced_play _ _) fun run => balanced_pure _

theorem balanced_invokeCallback (cityHash64 : String → UInt64) (plugin : WasmEdgePlugin)
    (action : String) (input : List UInt8) (obj : GameObject) :
    (invokeCallback cityHash64 plugin action input (some obj)).Balanced RegistryLock.rank [] := by
  refine .bind (balanced_execute cityHash64 plugin obj action input) fun executed => ?_
  split
  · refine .bind (balanced_applyOutputDelta (rankedBelow_nil _ _) obj _) fun _ => ?_
    exact balanced_pure _
  · exact balanced_pure _

end Locked

open Locked LockProgram in
/-- Every call takes its locks in the order of their ranks and gives all of them back. -/
theorem LockedCall.balanced_body (cityHash64 : String → UInt64) (c : LockedCall) :
    (c.body cityHash64).Balanced RegistryLock.rank [] := by
  have hnil := rankedBelow_nil RegistryLock.rank
  cases c with
  | create header => exact balanced_create header
  | invoke objectId plugin action input =>
    exact balanced_get objectId (balanced_pure _)
      (balanced_invokeCallback cityHash64 plugin action input)
  | destroy objectId => exact balanced_destroy objectId
  | migrate objectId target =>
    exact .bind (balanced_migrate objectId target) fun _ => balanced_pure _
  | register fromVersion toVersion func =>
    exact balanced_register (hnil _) fromVersion toVersion func
  | read objectId type =>
    exact .bind (balanced_read (hnil _) objectId type) fun _ => balanced_pure _
  | write objectId type data => exact balanced_write (hnil _) objectId type data
  | writeChecked objectId type totalSize data =>
    exact .bind (balanced_writeChecked (hnil _) objectId type totalSize data) fun _ =>
      balanced_pure _
  | remove objectId type =>
    exact .bind (balanced_remove (hnil _) objectId type) fun _ => balanced_pure _
  | removeAll objectId => exact balanced_removeAll (hnil _) objectId

/-- Empty tables and no thread in a call. -/
def emptyTables : RegistryWorld :=
  ⟨⟨∅, fun _ => ⟨0, 0, 0⟩, ∅, fun _ => ∅, ∅, 0⟩, ∅⟩

end WasmHot
