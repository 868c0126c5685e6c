import WasmHot.Concurrent.RegistryGuards
import WasmHot.Concurrent.ServerLocks

/-!
# What the locks of the server protect

Every table of the server has its lock, and an entry of the registry has its own. The code looks at a
table only while it holds the lock, and changes it only while it holds the lock alone, whichever
handlers, actors and callbacks run (`ServerCall.guards`).

The header of an object is there once its entry is made, which is under the lock of the map. The
components of an entry of the storage are left out (see `RegistryGuards`). The session id counter is
atomic, and the queues of posted tasks belong to `asio`; no lock of the server is for them. What a
session keeps for its own handlers is not in the tables.
-/

namespace WasmHot

open LockProgram

/-! ## The server -/

/-- What each lock protects. -/
def ServerLock.Data : ServerLock → Type
  | .actors => UnorderedMap UInt64 ℕ
  | .mailbox _ => List ActorMessage
  | .handlers => UnorderedMap UInt32 MessageHandler
  | .sessions => UnorderedMap UInt64 ℕ
  | .modules => ModuleManager
  | .schemas => SchemaManager
  | .registry l => l.Data
  | .log => List String

namespace ServerTables

/-- The data of a lock. -/
def get : (l : ServerLock) → ServerTables → l.Data
  | .actors, s => s.actors
  | .mailbox actor, s => s.mailbox actor
  | .handlers, s => s.handlers
  | .sessions, s => s.sessions
  | .modules, s => s.modules
  | .schemas, s => s.schemas
  | .registry l, s => s.registry.get l
  | .log, s => s.log

/-- The tables with other data of a lock. -/
def set : (l : ServerLock) → l.Data → ServerTables → ServerTables
  | .actors, actors, s => { s with actors := actors }
  | .mailbox actor, messages, s => { s with mailbox := Function.update s.mailbox actor messages }
  | .handlers, handlers, s => { s with handlers := handlers }
  | .sessions, sessions, s => { s with sessions := sessions }
  | .modules, modules, s => { s with modules := modules }
  | .schemas, schemas, s => { s with schemas := schemas }
  | .registry l, v, s => { s with registry := s.registry.set l v }
  | .log, lines, s => { s with log := lines }

/-- The data of a lock is there. -/
def Live : ServerLock → ServerTables → Prop
  | .registry l, s => s.registry.Live l
  | _, _ => True

end ServerTables

/-- The locks of the server with what they protect. -/
def serverGuards : LockGuards ServerLock ServerTables where
  Data := ServerLock.Data
  get := ServerTables.get
  set := ServerTables.set
  Live := ServerTables.Live
  get_set_of_ne {l l'} v s hne := by
    cases l with
    | mailbox actor =>
      cases l' with
      | mailbox actor' => exact Function.update_of_ne (fun heq => hne (congrArg _ heq)) _ _
      | _ => rfl
    | registry l =>
      cases l' with
      | registry l' =>
        exact registryGuards.get_set_of_ne v s.registry fun heq => hne (congrArg _ heq)
      | _ => rfl
    | _ => cases l' <;> first | rfl | exact absurd rfl hne
  set_comm {l l'} v v' s hne := by
    cases l with
    | mailbox actor =>
      cases l' with
      | mailbox actor' =>
        exact congrArg (fun mailbox => { s with mailbox := mailbox })
          (Function.update_comm (fun heq => hne (congrArg _ heq.symm)) _ _ _)
      | _ => rfl
    | registry l =>
      cases l' with
      | registry l' =>
        exact congrArg (fun registry => { s with registry := registry })
          (registryGuards.set_comm v v' s.registry fun heq => hne (congrArg _ heq))
      | _ => rfl
    | _ => cases l' <;> first | rfl | exact absurd rfl hne
  live_set {l l'} v s hlive := by
    cases l with
    | registry l =>
      cases l' with
      | registry l' => exact registryGuards.live_set v s.registry hlive
      | _ => exact hlive
    | _ => trivial

namespace Server

/-- The locks of the registry, the engine and the storage protect the same inside the server. -/
theorem protectsAlike_registryPart : ProtectsAlike registryPart registryGuards serverGuards where
  inner l v := ⟨v, fun s => ⟨rfl, fun _ => rfl⟩⟩
  inner_get _ _ _ h := h
  inner_live _ _ h := h
  inner_live_set _ _ _ h := h
  outer l' hother v s := by
    cases l' with
    | registry l => exact absurd rfl (hother l)
    | _ => exact ⟨rfl, fun _ => rfl⟩
  outer_get l' hother x s := by
    cases l' with
    | registry l => exact absurd rfl (hother l)
    | _ => rfl
  outer_live l' hother x s _ := by
    cases l' with
    | registry l => exact absurd rfl (hother l)
    | _ => trivial

variable {held : List (ServerLock × LockMode)} {mode : LockMode} {α : Type}

/-- The code accesses what it holds the locks of, and gives back the locks that it takes. -/
abbrev Guards (p : Server α) : Prop := p.Guarded serverGuards [] []

theorem guards_pure (a : α) : Guards (pure a) := guarded_pure a

/-- The code of a part that takes its own locks. -/
theorem guards_registry {p : Locked α} (hp : Locked.Guards [] p) : Guards (registry p) :=
  Guarded.lift protectsAlike_registryPart hp

/-- A table is looked at under its lock. -/
theorem guards_look {l : ServerLock} {f : ServerTables → α}
    (f' : l.Data → α) (hf : f = fun s => f' (s.get l)) :
    Guards (locked l .shared (inspect f)) := by
  subst hf
  exact guarded_locked (guarded_inspect (ignores_get (g := serverGuards) List.mem_cons_self f'))

/-- A table is changed under its lock. -/
theorem guards_alter {l : ServerLock} {f : ServerTables → ServerTables}
    (f' : l.Data → l.Data) (hf : f = fun s => s.set l (f' (s.get l))) :
    Guards (locked l .unique (change f)) := by
  subst hf
  exact guarded_locked (guarded_change (respects_set (g := serverGuards) List.mem_cons_self f'))

/-- What no lock protects may be changed at any time. -/
theorem respects_apart {f : ServerTables → ServerTables}
    (hset : ∀ l v s, f (ServerTables.set l v s) = ServerTables.set l v (f s))
    (hget : ∀ l s, ServerTables.get l (f s) = ServerTables.get l s)
    (hregistry : ∀ s, (f s).registry = s.registry) : Respects serverGuards held f where
  apart l s v _ _ := hset l v s
  kept l s _ _ := hget l s
  live l s hlive := by
    cases l with
    | registry l =>
      have hlive : LockedTables.Live l s.registry := hlive
      rw [← hregistry s] at hlive
      exact hlive
    | _ => trivial

theorem guards_logLine (text : String) : Guards (logLine text) :=
  guards_alter (l := .log) (fun lines : List String => lines ++ [text]) rfl

/-- A task is posted to a strand or taken from it. -/
theorem respects_strand (actor : ℕ) (f : List Task → List Task) :
    Respects serverGuards held fun s =>
      { s with strand := Function.update s.strand actor (f (s.strand actor)) } :=
  respects_apart (fun l v s => by cases l <;> rfl) (fun l s => by cases l <;> rfl) fun _ => rfl

theorem guards_enqueueMessage (actor : ℕ) (msg : ActorMessage) :
    Guards (enqueueMessage actor msg) := by
  refine guarded_locked (.bind (guarded_inspect (ignores_get (g := serverGuards)
    (l := .mailbox actor) List.mem_cons_self List.isEmpty)) fun wasEmpty => ?_)
  refine .bind (guarded_change (respects_set (g := serverGuards) (l := .mailbox actor)
    List.mem_cons_self fun messages : List ActorMessage => messages ++ [msg])) fun _ => ?_
  split
  · exact guarded_change (respects_strand actor fun tasks => tasks ++ [.wakeUp])
  · exact guarded_pure _

theorem guards_scheduleTick (actor : ℕ) (intervalMs : UInt64) :
    Guards (scheduleTick actor intervalMs) :=
  guarded_change (respects_strand actor fun tasks => tasks ++ [.tick intervalMs])

theorem guards_swapMailbox (actor : ℕ) : Guards (swapMailbox actor) := by
  refine guarded_locked (.bind (guarded_inspect (ignores_get (g := serverGuards)
    (l := .mailbox actor) List.mem_cons_self id)) fun messages => ?_)
  exact .bind (guarded_change (respects_set (g := serverGuards) (l := .mailbox actor)
    List.mem_cons_self fun _ => ([] : List ActorMessage))) fun _ => guarded_pure messages

theorem guards_scheduleTicks (intervalMs : UInt64) (actors : List ℕ) :
    Guards (scheduleTicks intervalMs actors) := by
  induction actors with
  | nil => exact guards_pure _
  | cons actor rest ih => exact .bind (guards_scheduleTick actor intervalMs) fun _ => ih

theorem guards_tick (order : HashOrder) (intervalMs : UInt64) : Guards (tick order intervalMs) :=
  .bind (guards_look (l := .actors) order.actors rfl) fun _ => guards_scheduleTicks intervalMs _

theorem guards_sendMessage (fromId toId : UInt64) (payload : List UInt8) :
    Guards (sendMessage fromId toId payload) := by
  refine .bind (guards_look (l := .actors) (Finmap.lookup toId) rfl) fun found => ?_
  cases found with
  | none => exact guards_pure _
  | some actor => exact guards_enqueueMessage actor _

theorem guards_construct (config : ModuleConfig) (made : Construction) :
    Guards (construct config made) := by
  have hrun := guards_registry (Locked.guards_play made.ctx made.start)
  unfold construct
  split
  · exact guards_pure none
  · exact .bind hrun fun _ => guards_pure none
  · exact .bind hrun fun _ => guards_pure _

theorem guards_makeAndCommit (config : ModuleConfig) (made : Construction)
    (commit : PluginPtr → ModuleManager → ModuleManager) :
    Guards (makeAndCommit config made commit) := by
  refine .bind (guards_construct config made) fun ptr => ?_
  cases ptr with
  | none => exact guards_pure false
  | some plugin =>
    exact .bind (guards_alter (l := .modules) (commit (some plugin)) rfl) fun _ => guards_pure true

theorem guards_reloadEach (made : ModuleConfig → Construction) (configs : List ModuleConfig) :
    Guards (reloadEach made configs) := by
  induction configs with
  | nil => exact guards_pure true
  | cons config rest ih =>
    refine .bind (guards_makeAndCommit config (made config) _) fun ok => ?_
    split
    · exact ih
    · exact .bind (guards_logLine _) fun _ => .bind ih fun _ => guards_pure false

theorem guards_hotReloadAll (order : HashOrder) (made : ModuleConfig → Construction) :
    Guards (hotReloadAll order made) :=
  .bind (guards_look (l := .modules) order.configs rfl) fun _ => guards_reloadEach made _

theorem guards_constructActor (modules : List (String × Construction)) :
    Guards (constructActor modules) := by
  induction modules with
  | nil => exact guards_pure _
  | cons entry rest ih =>
    refine .bind (guards_look (l := .modules) (ModuleManager.get · entry.1) rfl) fun ptr => ?_
    cases ptr with
    | none => exact ih
    | some plugin => exact .bind (guards_registry (Locked.guards_play _ _)) fun _ => ih

/-- The callback of `Get` gets a copy of the header. -/
theorem guards_getObject (objectId : UInt64) {found : GameObject → Server PUnit}
    (hfound : ∀ obj, Guards (found obj)) : Guards (getObject objectId found) := by
  refine .bind (guarded_lock _ _) fun _ => .bind (guarded_inspect (ignores_get (g := serverGuards)
    (l := .registry .registryMap) List.mem_cons_self (Finmap.lookup objectId))) fun entry => ?_
  cases entry with
  | none => exact guarded_unlock _ _
  | some entry =>
    refine .bind (guarded_locked (guarded_inspect (ignores_get (g := serverGuards)
      (l := .registry (.registryEntry entry)) List.mem_cons_self id))) fun header => ?_
    exact .bind (guarded_unlock _ _) fun _ => hfound _

theorem guards_invokeModule (cityHash64 : String → UInt64) (objectId : UInt64)
    (plugin : WasmEdgePlugin) (action : String) (input : List UInt8) :
    Guards (invokeModule cityHash64 objectId plugin action input) := by
  refine guards_getObject objectId fun obj => ?_
  refine .bind (guards_registry (Locked.guards_execute cityHash64 plugin obj action input))
    fun executed => ?_
  split
  · refine .bind (guards_registry (Locked.guards_applyOutputDelta obj _)) fun applied => ?_
    split
    · exact guards_pure _
    · exact guards_logLine _
  · exact guards_pure _

/-- What a session has been posted is no table. -/
theorem respects_posted (session : ℕ) (f : List Message → List Message) :
    Respects serverGuards held fun s =>
      { s with posted := Function.update s.posted session (f (s.posted session)) } :=
  respects_apart (fun l v s => by cases l <;> rfl) (fun l s => by cases l <;> rfl) fun _ => rfl

theorem guards_send (sessionId : UInt64) (msg : Message) : Guards (send sessionId msg) := by
  refine .bind (guards_look (l := .sessions) (Finmap.lookup sessionId) rfl) fun found => ?_
  cases found with
  | none => exact guards_pure _
  | some session => exact guarded_change (respects_posted session fun posted => posted ++ [msg])

theorem guards_onSessionClosed (sessionId : UInt64) : Guards (onSessionClosed sessionId) :=
  guards_alter (l := .sessions) (Finmap.erase sessionId) rfl

theorem guards_handleError (sessionId : UInt64) (warning : Option String) :
    Guards (handleError sessionId warning) := by
  cases warning with
  | none => exact guards_onSessionClosed sessionId
  | some text => exact .bind (guards_logLine _) fun _ => guards_onSessionClosed sessionId

/-- The session ids are counted without a lock. -/
theorem guards_accept (session : ℕ) : Guards (accept session) := by
  refine .bind (guarded_inspect fun l s v _ _ => by cases l <;> rfl) fun id => ?_
  refine .bind (guarded_change (respects_apart (fun l v s => by cases l <;> rfl)
    (fun l s => by cases l <;> rfl) fun _ => rfl)) fun _ => ?_
  exact guards_alter (l := .sessions) (Finmap.insert id session) rfl

end Server

section

variable (cityHash64 : String → UInt64) (order : HashOrder)

open Server

/-- Every public function accesses the tables under their locks. -/
theorem PublicCall.guards (c : PublicCall) : Guards (c.body cityHash64 order) := by
  -- That the lock is the one of the table is `rfl`, for each table that a call names.
  cases c with
  | send sessionId msg => exact .bind (guards_send sessionId msg) fun _ => guards_pure _
  | spawn actor actorId =>
    exact .bind (guards_alter (l := .actors) (Finmap.insert actorId actor) rfl)
      fun _ => guards_pure _
  | kill actorId =>
    exact .bind (guards_alter (l := .actors) (Finmap.erase actorId) rfl) fun _ => guards_pure _
  | tick intervalMs => exact .bind (guards_tick order intervalMs) fun _ => guards_pure _
  | sendMessage fromId toId payload =>
    exact .bind (guards_sendMessage fromId toId payload) fun _ => guards_pure _
  | enqueueMessage actor msg =>
    exact .bind (guards_enqueueMessage actor msg) fun _ => guards_pure _
  | scheduleTick actor intervalMs =>
    exact .bind (guards_scheduleTick actor intervalMs) fun _ => guards_pure _
  | constructActor modules => exact .bind (guards_constructActor modules) fun _ => guards_pure _
  | invokeModule objectId plugin action input =>
    exact .bind (guards_invokeModule cityHash64 objectId plugin action input) fun _ => guards_pure _
  | load config made => exact .bind (guards_makeAndCommit config made _) fun _ => guards_pure _
  | hotReload config made => exact .bind (guards_makeAndCommit config made _) fun _ => guards_pure _
  | hotReloadAll made => exact .bind (guards_hotReloadAll order made) fun _ => guards_pure _
  | rollback name =>
    exact .bind (guards_alter (l := .modules) (ModuleManager.rollback · name) rfl)
      fun _ => guards_pure _
  | unload name =>
    exact .bind (guards_alter (l := .modules) (ModuleManager.unload · name) rfl)
      fun _ => guards_pure _
  | getModule name =>
    exact .bind (guards_look (l := .modules) (ModuleManager.get · name) rfl) fun _ => guards_pure _
  | getLoadedSchemaVersion name =>
    exact .bind (guards_look (l := .modules) (ModuleManager.getLoadedSchemaVersion · name) rfl)
      fun _ => guards_pure _
  | registerSchema schema =>
    exact .bind (guards_alter (l := .schemas) (SchemaManager.registerSchema · schema) rfl)
      fun _ => guards_pure _
  | getSchema objectType version =>
    exact .bind (guards_look (l := .schemas) (SchemaManager.getSchema · objectType version) rfl)
      fun _ => guards_pure _
  | getLatestVersion objectType =>
    refine .bind (guards_look (l := .schemas) (fun m => SchemaManager.getLatestVersion m objectType
      (order.versions m objectType)) rfl) fun _ => guards_pure _
  | create header =>
    exact .bind (guards_registry (Locked.guards_create header)) fun _ => guards_pure _
  | destroy objectId =>
    exact .bind (guards_registry (Locked.guards_destroy objectId)) fun _ => guards_pure _
  | migrate objectId target =>
    exact .bind (guards_registry (Locked.guards_migrate objectId target)) fun _ => guards_pure _
  | register fromVersion toVersion func =>
    exact .bind (guards_registry (Locked.guards_register fromVersion toVersion func))
      fun _ => guards_pure _
  | read objectId type =>
    exact .bind (guards_registry (Locked.guards_read objectId type)) fun _ => guards_pure _
  | write objectId type data =>
    exact .bind (guards_registry (Locked.guards_write objectId type data)) fun _ => guards_pure _
  | writeChecked objectId type totalSize data =>
    exact .bind (guards_registry (Locked.guards_writeChecked objectId type totalSize data))
      fun _ => guards_pure _
  | remove objectId type =>
    exact .bind (guards_registry (Locked.guards_remove objectId type)) fun _ => guards_pure _
  | removeAll objectId =>
    exact .bind (guards_registry (Locked.guards_removeAll objectId)) fun _ => guards_pure _
  | warn text => exact .bind (guards_logLine text) fun _ => guards_pure _

/-- So does any code that calls them. -/
theorem UserCode.guards (code : UserCode) : Guards (code.body cityHash64 order) := by
  induction code with
  | done => exact guards_pure _
  | call c next ih => exact .bind (c.guards cityHash64 order) fun answer => ih answer
  | registerHandler msgType handler next _ ih =>
    exact .bind (guards_alter (l := .handlers) (Finmap.insert msgType handler) rfl) fun _ => ih
  | getObject objectId found next ihFound ih =>
    exact .bind (guards_getObject objectId ihFound) fun _ => ih

theorem guards_onReceive (sessionId playerId : UInt64) (msg : Message) :
    Guards (Server.onReceive cityHash64 order sessionId playerId msg) := by
  unfold Server.onReceive
  split
  · exact guards_pure _
  · next type _ =>
    refine .bind (guards_look (l := .handlers) (Finmap.lookup type) rfl) fun found => ?_
    cases found with
    | none => exact guards_pure _
    | some handler => exact (handler sessionId playerId msg).guards cityHash64 order

theorem guards_processMessages (actor : ℕ) (handleMessage : ActorMessage → UserCode) :
    Guards (processMessages cityHash64 order actor handleMessage) := by
  refine .bind (guards_swapMailbox actor) fun localMessages => ?_
  induction localMessages with
  | nil => exact guards_pure _
  | cons msg rest ih => exact .bind ((handleMessage msg).guards cityHash64 order) fun _ => ih

theorem ServerCall.guards (c : ServerCall) : Guards (c.body cityHash64 order) := by
  cases c with
  | accepted session => exact guards_accept session
  | received sessionId msg => exact guards_onReceive cityHash64 order sessionId 0 msg
  | failed sessionId warning => exact guards_handleError sessionId warning
  | strandTask actor task handleMessage tickCode =>
    refine .bind (guarded_change (respects_strand actor fun tasks => tasks.erase task)) fun _ => ?_
    refine .bind (guards_processMessages cityHash64 order actor handleMessage) fun _ => ?_
    cases task with
    | wakeUp => exact guards_pure _
    | tick intervalMs => exact (tickCode intervalMs).guards cityHash64 order
  | timer intervalMs => exact guards_tick order intervalMs
  | hangUp made =>
    refine .bind (guards_logLine _) fun _ => .bind (guards_hotReloadAll order made) fun ok => ?_
    split
    · exact guards_pure _
    · exact guards_logLine _
  | user code => exact code.guards cityHash64 order

end

end WasmHot
