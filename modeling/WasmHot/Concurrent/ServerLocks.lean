import WasmHot.Actor.ActorRuntime
import WasmHot.Concurrent.LockOrder
import WasmHot.Core.ModuleManager
import WasmHot.Core.SchemaManager
import WasmHot.Gateway.FrameReader
import WasmHot.Lib.LockPart

/-!
# All locks of the server

Besides the locks of the registry, the engine and the storage there are the locks of the runtime's
actors, of each mailbox, of the gateway's handlers and sessions, of the module tables, of the schemas
and of the log. The code that runs between them is not all known: a registered handler, the
`HandleMessage` and the `Tick` of an actor and the callback of `Get` call any of the public functions
again, and so do the threads outside the io context. `UserCode` is any such code.

All of it is called with no lock held. The handler is copied out of its map, the message batch out of
its mailbox and the actors out of their map before anything is called on them. So whatever a thread
does takes its locks in one order (`ServerCall.sound`).

Two kinds of code are not in `UserCode`. A callback of `Get` does nothing where there is no object, as
that of `InvokeModule`, the only one there is; `Get` would call it under the map lock (see
`GetCallbacks`). And a callback of `Read`, which runs under the locks of the storage, only copies.

`asio` posts and strands wait for nobody: a thread that runs the io context takes another handler
where a strand is busy. They are changes of the data here.
-/

namespace WasmHot

/-- The locks. -/
inductive ServerLock
  /-- `ActorRuntime::actors_mutex_`. -/
  | actors
  /-- `Actor::mailbox_mutex_`. -/
  | mailbox (actor : ℕ)
  /-- `Gateway::handlers_mutex_`. -/
  | handlers
  /-- `Gateway::sessions_mutex_`. -/
  | sessions
  /-- `ModuleManager::mutex_`. -/
  | modules
  /-- `SchemaManager::mutex_`. -/
  | schemas
  | registry (l : RegistryLock)
  /-- The mutex of the file sink. -/
  | log
  deriving DecidableEq

/-- The order in which the locks are taken. Those of rank 0 are taken by a thread that holds no
lock. -/
def ServerLock.rank : ServerLock → ℕ
  | .registry l => l.rank
  | _ => 0

/-- What comes of `Create` and of `Initialize`: the number of the new instance, and what the start
function of its module does, in the host context that the thread has then. -/
structure Construction where
  creation : Creation
  serial : ℕ
  ctx : HostContext
  start : Guest

/-- A call of a public function that takes no code. -/
inductive PublicCall
  /-- `Gateway::Send`. -/
  | send (sessionId : UInt64) (msg : Message)
  | spawn (actor : ℕ) (actorId : UInt64)
  | kill (actorId : UInt64)
  /-- `ActorRuntime::Tick`. -/
  | tick (intervalMs : UInt64)
  | sendMessage (fromId toId : UInt64) (payload : List UInt8)
  | enqueueMessage (actor : ℕ) (msg : ActorMessage)
  | scheduleTick (actor : ℕ) (intervalMs : UInt64)
  /-- The constructor of `ActorWithObject`, with what comes of the `Clone` of each module. -/
  | constructActor (modules : List (String × Construction))
  /-- `InvokeModule`, with the plugin found in `plugins_` as it is then. -/
  | invokeModule (objectId : UInt64) (plugin : WasmEdgePlugin) (action : String)
      (input : List UInt8)
  | load (config : ModuleConfig) (made : Construction)
  | hotReload (config : ModuleConfig) (made : Construction)
  | hotReloadAll (made : ModuleConfig → Construction)
  | rollback (name : String)
  | unload (name : String)
  | getModule (name : String)
  | getLoadedSchemaVersion (name : String)
  | registerSchema (schema : Schema)
  | getSchema (objectType version : UInt32)
  | getLatestVersion (objectType : UInt32)
  | create (header : ObjectHeader)
  | destroy (objectId : UInt64)
  | migrate (objectId : UInt64) (target : UInt32)
  | register (fromVersion toVersion : UInt32) (func : ViewFunc)
  | read (objectId : UInt64) (type : ComponentType)
  | write (objectId : UInt64) (type : ComponentType) (data : ComponentData)
  | writeChecked (objectId : UInt64) (type : ComponentType) (totalSize : ℕ) (data : ComponentData)
  | remove (objectId : UInt64) (type : ComponentType)
  | removeAll (objectId : UInt64)
  | warn (text : String)

/-- What such a call returns. -/
inductive Answer
  | unit
  | bool (ok : Bool)
  | plugin (ptr : PluginPtr)
  | version (version : UInt32)
  | latest (version : Option UInt32)
  | schema (schema : Option Schema)
  | data (data : Option ComponentData)

/-- Code that calls the public functions, and the code that it gives to them. The callback of `Get`
does nothing where it gets no object, as that of `InvokeModule`. -/
inductive UserCode
  | done
  | call (c : PublicCall) (next : Answer → UserCode)
  | registerHandler (msgType : UInt32) (handler : UInt64 → UInt64 → Message → UserCode)
      (next : UserCode)
  | getObject (objectId : UInt64) (found : GameObject → UserCode) (next : UserCode)

/-- `Gateway::MessageHandler`: the session id, the player id and the message. -/
abbrev MessageHandler := UInt64 → UInt64 → Message → UserCode

/-- What the locks protect, with the tasks that are posted. -/
structure ServerTables where
  /-- `actors_`. -/
  actors : UnorderedMap UInt64 ℕ
  mailbox : ℕ → List ActorMessage
  /-- The tasks on the strand of each actor. -/
  strand : ℕ → List Task
  /-- `handlers_`. -/
  handlers : UnorderedMap UInt32 MessageHandler
  /-- `sessions_`. -/
  sessions : UnorderedMap UInt64 ℕ
  nextSessionId : UInt64
  /-- The messages that `Session::Send` has posted to each session. -/
  posted : ℕ → List Message
  modules : ModuleManager
  schemas : SchemaManager
  registry : LockedTables
  /-- The lines of the log. -/
  log : List String

/-- The orders in which the hash maps yield their entries, which may be any. -/
structure HashOrder where
  configs : ModuleManager → List ModuleConfig
  actors : UnorderedMap UInt64 ℕ → List ℕ
  versions : SchemaManager → UInt32 → List UInt32
  configs_eq : ∀ m, (configs m : Multiset ModuleConfig) = m.configs.entries.map (·.2)
  actors_eq : ∀ m, (actors m : Multiset ℕ) = m.entries.map (·.2)
  yields : ∀ (m : SchemaManager) objectType, m.Yields objectType (versions m objectType)

/-- Code that works on the tables under their locks. -/
abbrev Server := LockProgram ServerLock ServerTables

namespace Server

open LockProgram

/-- The registry, the engine and the storage inside the server. -/
def registryPart : LockPart RegistryLock ServerLock LockedTables ServerTables where
  lock := .registry
  get s := s.registry
  set tables s := { s with registry := tables }
  lock_injective _ _ h := ServerLock.registry.inj h

/-- A call of the registry, the engine or the storage. -/
def registry {α : Type} (p : Locked α) : Server α := p.lift registryPart

/-- A log macro: the sink writes a line under its mutex. -/
def logLine (text : String) : Server PUnit :=
  locked .log .unique (change fun s => { s with log := s.log ++ [text] })

/-! ## Actors -/

/-- `Actor::EnqueueMessage`. -/
def enqueueMessage (actor : ℕ) (msg : ActorMessage) : Server PUnit :=
  locked (.mailbox actor) .unique do
    let wasEmpty ← inspect fun s => (s.mailbox actor).isEmpty
    change fun s => { s with mailbox := Function.update s.mailbox actor (s.mailbox actor ++ [msg]) }
    if wasEmpty then
      change fun s => { s with strand := Function.update s.strand actor (s.strand actor ++ [.wakeUp]) }
    else return ⟨⟩

/-- `Actor::ScheduleTick`. -/
def scheduleTick (actor : ℕ) (intervalMs : UInt64) : Server PUnit :=
  change fun s =>
    { s with strand := Function.update s.strand actor (s.strand actor ++ [.tick intervalMs]) }

/-- The swap of `ProcessMessages`. -/
def swapMailbox (actor : ℕ) : Server (List ActorMessage) :=
  locked (.mailbox actor) .unique do
    let localMessages ← inspect fun s => s.mailbox actor
    change fun s => { s with mailbox := Function.update s.mailbox actor [] }
    return localMessages

/-- `ActorRuntime::Spawn`. -/
def spawn (actor : ℕ) (actorId : UInt64) : Server PUnit :=
  locked .actors .unique (change fun s => { s with actors := s.actors.insert actorId actor })

/-- `ActorRuntime::Kill`. -/
def kill (actorId : UInt64) : Server PUnit :=
  locked .actors .unique (change fun s => { s with actors := s.actors.erase actorId })

/-- The second loop of `ActorRuntime::Tick`. -/
def scheduleTicks (intervalMs : UInt64) : List ℕ → Server PUnit
  | [] => return ⟨⟩
  | actor :: rest => do
      scheduleTick actor intervalMs
      scheduleTicks intervalMs rest

/-- `ActorRuntime::Tick`. -/
def tick (order : HashOrder) (intervalMs : UInt64) : Server PUnit := do
  let snapshot ← locked .actors .shared (inspect fun s => order.actors s.actors)
  scheduleTicks intervalMs snapshot

/-- `ActorRuntime::SendMessage`. -/
def sendMessage (fromId toId : UInt64) (payload : List UInt8) : Server PUnit := do
  match ← locked .actors .shared (inspect fun s => s.actors.lookup toId) with
  | none => return ⟨⟩
  | some actor => enqueueMessage actor ⟨fromId, payload⟩

/-! ## ModuleManager -/

/-- `Create` and `Initialize`: the plugin, if both succeed. No lock is held. -/
def construct (config : ModuleConfig) (made : Construction) : Server PluginPtr :=
  match made.creation with
  | .createFailed => return none
  | .initializeFailed => do
      let _run ← registry (Locked.play made.ctx made.start)
      return none
  | .initialized => do
      let _run ← registry (Locked.play made.ctx made.start)
      return some ⟨made.serial, config⟩

/-- The plugin is made, and then committed under the lock. -/
def makeAndCommit (config : ModuleConfig) (made : Construction)
    (commit : PluginPtr → ModuleManager → ModuleManager) : Server Bool := do
  match ← construct config made with
  | none => return false
  | some plugin => do
      locked .modules .unique (change fun s => { s with modules := commit (some plugin) s.modules })
      return true

/-- `ModuleManager::Load`. -/
def load (config : ModuleConfig) (made : Construction) : Server Bool :=
  makeAndCommit config made fun plugin m => m.install config plugin

/-- `ModuleManager::HotReload`. -/
def hotReload (config : ModuleConfig) (made : Construction) : Server Bool :=
  makeAndCommit config made fun plugin m => (m.retire config.name).install config plugin

/-- The loop of `HotReloadAll`. -/
def reloadEach (made : ModuleConfig → Construction) : List ModuleConfig → Server Bool
  | [] => return true
  | config :: rest => do
      if ← hotReload config (made config) then reloadEach made rest
      else do
        logLine ("HotReload failed for module " ++ config.name)
        let _allOk ← reloadEach made rest
        return false

/-- `ModuleManager::HotReloadAll`. -/
def hotReloadAll (order : HashOrder) (made : ModuleConfig → Construction) : Server Bool := do
  let configs ← locked .modules .shared (inspect fun s => order.configs s.modules)
  reloadEach made configs

/-- `ModuleManager::Rollback`. -/
def rollback (name : String) : Server PUnit :=
  locked .modules .unique (change fun s => { s with modules := s.modules.rollback name })

/-- `ModuleManager::Unload`, which calls `Shutdown` under its lock. -/
def unload (name : String) : Server PUnit :=
  locked .modules .unique (change fun s => { s with modules := s.modules.unload name })

/-- `ModuleManager::Get`. -/
def getModule (name : String) : Server PluginPtr :=
  locked .modules .shared (inspect fun s => s.modules.get name)

/-- The constructor of `ActorWithObject`: `Get` and `Clone` of each module. -/
def constructActor : List (String × Construction) → Server PUnit
  | [] => return ⟨⟩
  | (name, made) :: rest => do
      match ← getModule name with
      | none => constructActor rest
      | some _ => do
          let _run ← registry (Locked.play made.ctx made.start)
          constructActor rest

/-! ## SchemaManager -/

/-- `SchemaManager::RegisterSchema`. -/
def registerSchema (schema : Schema) : Server PUnit :=
  locked .schemas .unique (change fun s => { s with schemas := s.schemas.registerSchema schema })

/-- `SchemaManager::GetSchema`. -/
def getSchema (objectType version : UInt32) : Server (Option Schema) :=
  locked .schemas .shared (inspect fun s => s.schemas.getSchema objectType version)

/-- `SchemaManager::GetLatestVersion`. -/
def getLatestVersion (order : HashOrder) (objectType : UInt32) : Server (Option UInt32) :=
  locked .schemas .shared
    (inspect fun s => s.schemas.getLatestVersion objectType (order.versions s.schemas objectType))

/-! ## ObjectRegistry -/

/-- `ObjectRegistry::Get`, with what the callback does on an object. -/
def getObject (objectId : UInt64) (found : GameObject → Server PUnit) : Server PUnit := do
  lock (.registry .registryMap) .shared
  match ← inspect fun s => s.registry.objects.lookup objectId with
  | none => unlock (.registry .registryMap) .shared
  | some entry =>
      let header ← locked (.registry (.registryEntry entry)) .unique
        (inspect fun s => s.registry.header entry)
      unlock (.registry .registryMap) .shared
      found (viewOf header)

/-- `ActorWithObject::InvokeModule`, with the plugin it has found. -/
def invokeModule (cityHash64 : String → UInt64) (objectId : UInt64) (plugin : WasmEdgePlugin)
    (action : String) (input : List UInt8) : Server PUnit :=
  getObject objectId fun obj => do
    let executed ← registry (Locked.execute cityHash64 plugin obj action input)
    if executed.1 then do
      let applied ← registry (Locked.applyOutputDelta obj executed.2)
      if applied then return ⟨⟩
      else
        logLine ("Actor " ++ toString obj.header.objectId ++
          " failed to apply output delta for action " ++ action)
    else return ⟨⟩

/-! ## Gateway -/

/-- `Gateway::Send`. -/
def send (sessionId : UInt64) (msg : Message) : Server PUnit := do
  match ← locked .sessions .shared (inspect fun s => s.sessions.lookup sessionId) with
  | none => return ⟨⟩
  | some session =>
      change fun s =>
        { s with posted := Function.update s.posted session (s.posted session ++ [msg]) }

/-- `Gateway::OnSessionClosed`. -/
def onSessionClosed (sessionId : UInt64) : Server PUnit :=
  locked .sessions .unique (change fun s => { s with sessions := s.sessions.erase sessionId })

/-- `Session::HandleError`, with the warning if the error is not the end of the stream. -/
def handleError (sessionId : UInt64) (warning : Option String) : Server PUnit := do
  match warning with
  | none => onSessionClosed sessionId
  | some text => do
      logLine ("Gateway " ++ text)
      onSessionClosed sessionId

/-- The handler of `DoAccept` on a new connection. -/
def accept (session : ℕ) : Server PUnit := do
  -- One accept is outstanding at a time, so nobody else counts in between.
  let id ← inspect fun s => s.nextSessionId
  change fun s => { s with nextSessionId := s.nextSessionId + 1 }
  locked .sessions .unique (change fun s => { s with sessions := s.sessions.insert id session })

end Server

/-! ## Public calls and the code that makes them -/

section

variable (cityHash64 : String → UInt64) (order : HashOrder)

open LockProgram

/-- The code of a public function, with what it returns. -/
def PublicCall.body : PublicCall → Server Answer
  | .send sessionId msg => do
      Server.send sessionId msg
      return .unit
  | .spawn actor actorId => do
      Server.spawn actor actorId
      return .unit
  | .kill actorId => do
      Server.kill actorId
      return .unit
  | .tick intervalMs => do
      Server.tick order intervalMs
      return .unit
  | .sendMessage fromId toId payload => do
      Server.sendMessage fromId toId payload
      return .unit
  | .enqueueMessage actor msg => do
      Server.enqueueMessage actor msg
      return .unit
  | .scheduleTick actor intervalMs => do
      Server.scheduleTick actor intervalMs
      return .unit
  | .constructActor modules => do
      Server.constructActor modules
      return .unit
  | .invokeModule objectId plugin action input => do
      Server.invokeModule cityHash64 objectId plugin action input
      return .unit
  | .load config made => do
      let ok ← Server.load config made
      return .bool ok
  | .hotReload config made => do
      let ok ← Server.hotReload config made
      return .bool ok
  | .hotReloadAll made => do
      let ok ← Server.hotReloadAll order made
      return .bool ok
  | .rollback name => do
      Server.rollback name
      return .unit
  | .unload name => do
      Server.unload name
      return .unit
  | .getModule name => do
      let ptr ← Server.getModule name
      return .plugin ptr
  | .getLoadedSchemaVersion name => do
      let version ← locked .modules .shared (inspect fun s => s.modules.getLoadedSchemaVersion name)
      return .version version
  | .registerSchema schema => do
      Server.registerSchema schema
      return .unit
  | .getSchema objectType version => do
      let schema ← Server.getSchema objectType version
      return .schema schema
  | .getLatestVersion objectType => do
      let version ← Server.getLatestVersion order objectType
      return .latest version
  | .create header => do
      Server.registry (Locked.create header)
      return .unit
  | .destroy objectId => do
      Server.registry (Locked.destroy objectId)
      return .unit
  | .migrate objectId target => do
      let ok ← Server.registry (Locked.migrate objectId target)
      return .bool ok
  | .register fromVersion toVersion func => do
      Server.registry (Locked.register fromVersion toVersion func)
      return .unit
  | .read objectId type => do
      let data ← Server.registry (Locked.read objectId type)
      return .data data
  | .write objectId type data => do
      Server.registry (Locked.write objectId type data)
      return .unit
  | .writeChecked objectId type totalSize data => do
      let ok ← Server.registry (Locked.writeChecked objectId type totalSize data)
      return .bool ok
  | .remove objectId type => do
      let found ← Server.registry (Locked.remove objectId type)
      return .bool found
  | .removeAll objectId => do
      Server.registry (Locked.removeAll objectId)
      return .unit
  | .warn text => do
      Server.logLine text
      return .unit

/-- The code runs. -/
def UserCode.body : UserCode → Server PUnit
  | .done => return ⟨⟩
  | .call c next => do
      let answer ← c.body cityHash64 order
      (next answer).body
  | .registerHandler msgType handler next => do
      locked .handlers .unique
        (change fun s => { s with handlers := s.handlers.insert msgType handler })
      next.body
  | .getObject objectId found next => do
      Server.getObject objectId fun obj => (found obj).body
      next.body

namespace Server

/-- `Gateway::OnReceive`. -/
def onReceive (sessionId playerId : UInt64) (msg : Message) : Server PUnit :=
  match msgType msg with
  | none => return ⟨⟩
  | some type => do
      match ← locked .handlers .shared (inspect fun s => s.handlers.lookup type) with
      | none => return ⟨⟩
      | some handler => (handler sessionId playerId msg).body cityHash64 order

/-- The loop of `ProcessMessages`. -/
def handleEach (handleMessage : ActorMessage → UserCode) : List ActorMessage → Server PUnit
  | [] => return ⟨⟩
  | msg :: rest => do
      (handleMessage msg).body cityHash64 order
      handleEach handleMessage rest

/-- `Actor::ProcessMessages`. -/
def processMessages (actor : ℕ) (handleMessage : ActorMessage → UserCode) : Server PUnit := do
  let localMessages ← swapMailbox actor
  handleEach cityHash64 order handleMessage localMessages

/-- A task of an actor's strand, which the strand gives to a thread. -/
def runTask (actor : ℕ) (task : Task) (handleMessage : ActorMessage → UserCode)
    (tickCode : UInt64 → UserCode) : Server PUnit := do
  change fun s => { s with strand := Function.update s.strand actor ((s.strand actor).erase task) }
  processMessages cityHash64 order actor handleMessage
  match task with
  | .wakeUp => return ⟨⟩
  | .tick intervalMs => (tickCode intervalMs).body cityHash64 order

/-- The handler of `StartSignalWait` on `SIGHUP`. -/
def hangUp (made : ModuleConfig → Construction) : Server PUnit := do
  logLine "SIGHUP received, starting hot reload"
  if ← hotReloadAll order made then return ⟨⟩
  else logLine "Hot reload completed with failures"

end Server

/-- What a thread of the server does in one piece: a handler of the io context, or code of its
own. -/
inductive ServerCall
  | accepted (session : ℕ)
  /-- `DoReadBody` has read a message. -/
  | received (sessionId : UInt64) (msg : Message)
  /-- A read or a write has failed, or a length was too small. -/
  | failed (sessionId : UInt64) (warning : Option String)
  | strandTask (actor : ℕ) (task : Task) (handleMessage : ActorMessage → UserCode)
      (tickCode : UInt64 → UserCode)
  /-- The handler of `StartActorTickLoop`. -/
  | timer (intervalMs : UInt64)
  | hangUp (made : ModuleConfig → Construction)
  | user (code : UserCode)

/-- The code of such a piece. -/
def ServerCall.body : ServerCall → Server PUnit
  | .accepted session => Server.accept session
  | .received sessionId msg => Server.onReceive cityHash64 order sessionId 0 msg
  | .failed sessionId warning => Server.handleError sessionId warning
  | .strandTask actor task handleMessage tickCode =>
      Server.runTask cityHash64 order actor task handleMessage tickCode
  | .timer intervalMs => Server.tick order intervalMs
  | .hangUp made => Server.hangUp order made
  | .user code => code.body cityHash64 order

end

/-- The tables with the threads. -/
abbrev ServerWorld := LockWorld ServerLock ServerTables

/-- Any number of threads that do such pieces of work. -/
def serverLocks (cityHash64 : String → UInt64) (order : HashOrder)
    (blocks : ServerWorld → ThreadId → Bool) :
    TransitionSystem ServerWorld (LockAction ServerCall) :=
  lockSystem (ServerCall.body cityHash64 order) blocks

/-! ## Every piece of work follows the order -/

namespace Server

open LockProgram

/-- With no lock held the code takes locks in their order and gives all of them back. -/
abbrev Sound {α : Type} (p : Server α) : Prop := p.Balanced ServerLock.rank []

variable {α : Type}

theorem sound_pure (a : α) : Sound (pure a : Server α) := balanced_pure a

/-- A block under one lock. -/
theorem sound_locked {l : ServerLock} {mode : LockMode} {body : Server α}
    (h : body.Balanced ServerLock.rank [(l, mode)]) : Sound (locked l mode body) :=
  balanced_locked (rankedBelow_nil _ _) h

theorem sound_registry {p : Locked α} (h : p.Balanced RegistryLock.rank []) : Sound (registry p) :=
  h.lift fun _ _ hlt => hlt

theorem sound_logLine (text : String) : Sound (logLine text) := sound_locked (balanced_change _)

theorem sound_enqueueMessage (actor : ℕ) (msg : ActorMessage) :
    Sound (enqueueMessage actor msg) := by
  refine sound_locked (.bind (balanced_inspect _) fun wasEmpty => ?_)
  refine .bind (balanced_change _) fun _ => ?_
  split
  · exact balanced_change _
  · exact balanced_pure _

theorem sound_scheduleTicks (intervalMs : UInt64) (snapshot : List ℕ) :
    Sound (scheduleTicks intervalMs snapshot) := by
  induction snapshot with
  | nil => exact sound_pure _
  | cons actor rest ih => exact .bind (balanced_change _) fun _ => ih

theorem sound_tick (order : HashOrder) (intervalMs : UInt64) : Sound (tick order intervalMs) :=
  .bind (sound_locked (balanced_inspect _)) fun _ => sound_scheduleTicks intervalMs _

theorem sound_sendMessage (fromId toId : UInt64) (payload : List UInt8) :
    Sound (sendMessage fromId toId payload) := by
  refine .bind (sound_locked (balanced_inspect _)) fun found => ?_
  cases found with
  | none => exact sound_pure _
  | some actor => exact sound_enqueueMessage actor _

/-- A start function runs before any lock of the manager is taken. -/
theorem sound_construct (config : ModuleConfig) (made : Construction) :
    Sound (construct config made) := by
  have hrun := sound_registry (Locked.balanced_play made.ctx made.start)
  unfold construct
  split
  · exact sound_pure none
  · exact .bind hrun fun _ => sound_pure none
  · exact .bind hrun fun _ => sound_pure _

theorem sound_makeAndCommit (config : ModuleConfig) (made : Construction)
    (commit : PluginPtr → ModuleManager → ModuleManager) :
    Sound (makeAndCommit config made commit) := by
  refine .bind (sound_construct config made) fun ptr => ?_
  cases ptr with
  | none => exact sound_pure false
  | some plugin => exact .bind (sound_locked (balanced_change _)) fun _ => sound_pure true

theorem sound_reloadEach (made : ModuleConfig → Construction) (configs : List ModuleConfig) :
    Sound (reloadEach made configs) := by
  induction configs with
  | nil => exact sound_pure true
  | cons config rest ih =>
    refine .bind (sound_makeAndCommit config (made config) _) fun ok => ?_
    split
    · exact ih
    · exact .bind (sound_logLine _) fun _ => .bind ih fun _ => sound_pure false

theorem sound_hotReloadAll (order : HashOrder) (made : ModuleConfig → Construction) :
    Sound (hotReloadAll order made) :=
  .bind (sound_locked (balanced_inspect _)) fun _ => sound_reloadEach made _

theorem sound_constructActor (modules : List (String × Construction)) :
    Sound (constructActor modules) := by
  induction modules with
  | nil => exact sound_pure _
  | cons entry rest ih =>
    refine .bind (sound_locked (balanced_inspect _)) fun ptr => ?_
    cases ptr with
    | none => exact ih
    | some plugin => exact .bind (sound_registry (Locked.balanced_play _ _)) fun _ => ih

/-- `Get` calls its callback on an object after it has released its locks. -/
theorem sound_getObject (objectId : UInt64) {found : GameObject → Server PUnit}
    (hfound : ∀ obj, Sound (found obj)) : Sound (getObject objectId found) := by
  refine Follows.bind (follows_lock .shared (rankedBelow_nil _ _)) fun _ => ?_
  refine Follows.bind (balanced_inspect _) fun entry => ?_
  cases entry with
  | none => exact follows_unlock _ _
  | some entry =>
    have hmap : ServerLock.rank (.registry .registryMap) <
        ServerLock.rank (.registry (.registryEntry entry)) := Nat.zero_lt_one
    have hentry := (rankedBelow_nil ServerLock.rank _).cons hmap .shared
    refine Follows.bind (balanced_locked hentry (balanced_inspect _)) fun header => ?_
    exact Follows.bind (follows_unlock _ _) fun _ => hfound _

theorem sound_invokeModule (cityHash64 : String → UInt64) (objectId : UInt64)
    (plugin : WasmEdgePlugin) (action : String) (input : List UInt8) :
    Sound (invokeModule cityHash64 objectId plugin action input) := by
  have hnil := rankedBelow_nil RegistryLock.rank
  refine sound_getObject objectId fun obj => ?_
  refine .bind (sound_registry (Locked.balanced_execute cityHash64 plugin obj action input))
    fun executed => ?_
  split
  · refine .bind (sound_registry (Locked.balanced_applyOutputDelta (hnil _) obj _))
      fun applied => ?_
    split
    · exact sound_pure _
    · exact sound_logLine _
  · exact sound_pure _

theorem sound_send (sessionId : UInt64) (msg : Message) : Sound (send sessionId msg) := by
  refine .bind (sound_locked (balanced_inspect _)) fun found => ?_
  cases found with
  | none => exact sound_pure _
  | some session => exact balanced_change _

theorem sound_handleError (sessionId : UInt64) (warning : Option String) :
    Sound (handleError sessionId warning) := by
  have hclosed : Sound (onSessionClosed sessionId) := sound_locked (balanced_change _)
  cases warning with
  | none => exact hclosed
  | some text => exact .bind (sound_logLine _) fun _ => hclosed

theorem sound_accept (session : ℕ) : Sound (accept session) :=
  .bind (balanced_inspect _) fun _ => .bind (balanced_change _) fun _ =>
    sound_locked (balanced_change _)

end Server

section

variable (cityHash64 : String → UInt64) (order : HashOrder)

open Server LockProgram

/-- Every public function takes its locks in their order. -/
theorem PublicCall.sound (c : PublicCall) : Sound (c.body cityHash64 order) := by
  have hnil := rankedBelow_nil RegistryLock.rank
  have hread : ∀ {α : Type} (l : ServerLock) (f : ServerTables → α),
      Sound (locked l .shared (inspect f)) := fun _ _ => sound_locked (balanced_inspect _)
  have hwrite : ∀ (l : ServerLock) (f : ServerTables → ServerTables),
      Sound (locked l .unique (change f)) := fun _ _ => sound_locked (balanced_change _)
  -- Most calls look at one table or change one; the others have a lemma of their own.
  cases c with
  | send sessionId msg => exact .bind (sound_send sessionId msg) fun _ => sound_pure _
  | spawn actor actorId => exact .bind (hwrite _ _) fun _ => sound_pure _
  | kill actorId => exact .bind (hwrite _ _) fun _ => sound_pure _
  | tick intervalMs => exact .bind (sound_tick order intervalMs) fun _ => sound_pure _
  | sendMessage fromId toId payload =>
    exact .bind (sound_sendMessage fromId toId payload) fun _ => sound_pure _
  | enqueueMessage actor msg =>
    exact .bind (sound_enqueueMessage actor msg) fun _ => sound_pure _
  | scheduleTick actor intervalMs => exact .bind (balanced_change _) fun _ => sound_pure _
  | constructActor modules => exact .bind (sound_constructActor modules) fun _ => sound_pure _
  | invokeModule objectId plugin action input =>
    exact .bind (sound_invokeModule cityHash64 objectId plugin action input) fun _ => sound_pure _
  | load config made => exact .bind (sound_makeAndCommit config made _) fun _ => sound_pure _
  | hotReload config made => exact .bind (sound_makeAndCommit config made _) fun _ => sound_pure _
  | hotReloadAll made => exact .bind (sound_hotReloadAll order made) fun _ => sound_pure _
  | rollback name => exact .bind (hwrite _ _) fun _ => sound_pure _
  | unload name => exact .bind (hwrite _ _) fun _ => sound_pure _
  | getModule name => exact .bind (hread _ _) fun _ => sound_pure _
  | getLoadedSchemaVersion name => exact .bind (hread _ _) fun _ => sound_pure _
  | registerSchema schema => exact .bind (hwrite _ _) fun _ => sound_pure _
  | getSchema objectType version => exact .bind (hread _ _) fun _ => sound_pure _
  | getLatestVersion objectType => exact .bind (hread _ _) fun _ => sound_pure _
  | create header =>
    exact .bind (sound_registry (Locked.balanced_create header)) fun _ => sound_pure _
  | destroy objectId =>
    exact .bind (sound_registry (Locked.balanced_destroy objectId)) fun _ => sound_pure _
  | migrate objectId target =>
    exact .bind (sound_registry (Locked.balanced_migrate objectId target)) fun _ => sound_pure _
  | register fromVersion toVersion func =>
    exact .bind (sound_registry (Locked.balanced_register (hnil _) fromVersion toVersion func))
      fun _ => sound_pure _
  | read objectId type =>
    exact .bind (sound_registry (Locked.balanced_read (hnil _) objectId type))
      fun _ => sound_pure _
  | write objectId type data =>
    exact .bind (sound_registry (Locked.balanced_write (hnil _) objectId type data))
      fun _ => sound_pure _
  | writeChecked objectId type totalSize data =>
    exact .bind (sound_registry (Locked.balanced_writeChecked (hnil _) objectId type totalSize data))
      fun _ => sound_pure _
  | remove objectId type =>
    exact .bind (sound_registry (Locked.balanced_remove (hnil _) objectId type))
      fun _ => sound_pure _
  | removeAll objectId =>
    exact .bind (sound_registry (Locked.balanced_removeAll (hnil _) objectId))
      fun _ => sound_pure _
  | warn text => exact .bind (sound_logLine text) fun _ => sound_pure _

/-- So does any code that calls them. -/
theorem UserCode.sound (code : UserCode) : Sound (code.body cityHash64 order) := by
  induction code with
  | done => exact sound_pure _
  | call c next ih => exact .bind (c.sound cityHash64 order) fun answer => ih answer
  | registerHandler msgType handler next _ ih =>
    exact .bind (sound_locked (balanced_change _)) fun _ => ih
  | getObject objectId found next ihFound ih =>
    exact .bind (sound_getObject objectId ihFound) fun _ => ih

/-- The handler that a message is passed to runs after the lock of the handlers is released. -/
theorem sound_onReceive (sessionId playerId : UInt64) (msg : Message) :
    Sound (Server.onReceive cityHash64 order sessionId playerId msg) := by
  unfold Server.onReceive
  split
  · exact sound_pure _
  · refine .bind (sound_locked (balanced_inspect _)) fun found => ?_
    cases found with
    | none => exact sound_pure _
    | some handler => exact (handler sessionId playerId msg).sound cityHash64 order

/-- Messages are handled after the lock of the mailbox is released. -/
theorem sound_processMessages (actor : ℕ) (handleMessage : ActorMessage → UserCode) :
    Sound (processMessages cityHash64 order actor handleMessage) := by
  have hswap : Sound (swapMailbox actor) := sound_locked
    (.bind (balanced_inspect _) fun _ => .bind (balanced_change _) fun _ => balanced_pure _)
  refine .bind hswap fun localMessages => ?_
  induction localMessages with
  | nil => exact sound_pure _
  | cons msg rest ih => exact .bind ((handleMessage msg).sound cityHash64 order) fun _ => ih

theorem ServerCall.sound (c : ServerCall) : Sound (c.body cityHash64 order) := by
  cases c with
  | accepted session => exact sound_accept session
  | received sessionId msg => exact sound_onReceive cityHash64 order sessionId 0 msg
  | failed sessionId warning => exact sound_handleError sessionId warning
  | strandTask actor task handleMessage tickCode =>
    refine .bind (balanced_change _) fun _ => ?_
    refine .bind (sound_processMessages cityHash64 order actor handleMessage) fun _ => ?_
    cases task with
    | wakeUp => exact sound_pure _
    | tick intervalMs => exact (tickCode intervalMs).sound cityHash64 order
  | timer intervalMs => exact sound_tick order intervalMs
  | hangUp made =>
    refine .bind (sound_logLine _) fun _ => .bind (sound_hotReloadAll order made) fun ok => ?_
    split
    · exact sound_pure _
    · exact sound_logLine _
  | user code => exact code.sound cityHash64 order

end

end WasmHot
