import WasmHot.Concurrent.EntryLifetimes
import WasmHot.Concurrent.ServerGuards
import WasmHot.Lib.LockReturn

/-!
# The threads of the server

Any number of threads do the work of the server, and the mutex of an erased entry is destroyed with
it. What is proved here is about runs in which no `RemoveAll` erases the entry of a first `Write` that
is still to lock it (`LockWorld.Settled`, see `EntryLifetimes`); past such a `RemoveAll` the behaviour
of the code is undefined.

In these runs the server as a whole does not deadlock (`server_cannot_deadlock`). Its threads have no
data race on the tables outside `ComponentStorage` (`server_race_free`), and what a thread has found
under a lock is still so until it gives the lock back (`server_sections_isolated`). The storage is
left out of these two: a first `Write` goes through its iterator into `store_` after it has released
the map lock.
-/

namespace WasmHot

open LockProgram

/-- The locks of the server are always there, but for those of the entries. -/
def serverHomes : LockHomes serverGuards where
  there
    | .registry l, s => registryHomes.there l s.registry
    | _, _ => true
  home
    | .registry l => (registryHomes.home l).map .registry
    | _ => none
  stray
    | .registry l => registryHomes.stray l
    | _ => false
  there_of_home_eq_none {l} s h := by
    cases l with
    | registry l => exact registryHomes.there_of_home_eq_none s.registry (Option.map_eq_none_iff.mp h)
    | _ => rfl
  there_congr {l h s s'} hhome hget := by
    cases l with
    | registry l =>
      obtain ⟨home, hinner, rfl⟩ := Option.map_eq_some_iff.mp hhome
      exact registryHomes.there_congr hinner hget
    | _ => cases hhome
  live_home {l h} s hhome := by
    cases l with
    | registry l =>
      obtain ⟨home, hinner, rfl⟩ := Option.map_eq_some_iff.mp hhome
      exact registryHomes.live_home s.registry hinner
    | _ => cases hhome

namespace Server

theorem homesAlike_registryPart : HomesAlike registryPart registryHomes serverHomes where
  there _ _ := rfl
  home _ := rfl
  stray _ := rfl
  get_set _ _ := rfl

variable {α : Type} {l : ServerLock} {mode : LockMode}

/-- With no lock held the code finds the locks that it takes. -/
abbrev FindsLocks (p : Server α) : Prop := p.Sure serverHomes []

theorem findsLocks_pure (a : α) : FindsLocks (pure a) := sure_pure a

theorem findsLocks_change (f : ServerTables → ServerTables) : FindsLocks (change f) :=
  sure_change fun _ hx => absurd hx List.not_mem_nil

/-- A block under a lock that is always there. -/
theorem findsLocks_locked {body : Server α} (hhome : serverHomes.home l = none)
    (hbody : body.Sure serverHomes [(l, mode)]) : FindsLocks (locked l mode body) :=
  sure_locked hhome (LockHomes.moored_nil _) hbody

/-- Nothing that is changed under such a lock makes it go. -/
theorem sure_change_locked (hhome : serverHomes.home l = none) (f : ServerTables → ServerTables) :
    (change f : Server PUnit).Sure serverHomes [(l, mode)] := by
  refine sure_change fun x hx s _ => ?_
  rw [List.mem_singleton.mp hx]
  exact serverHomes.there_of_home_eq_none _ hhome

theorem findsLocks_look (hhome : serverHomes.home l = none) (f : ServerTables → α) :
    FindsLocks (locked l mode (inspect f)) :=
  findsLocks_locked hhome (sure_inspect f)

theorem findsLocks_alter (hhome : serverHomes.home l = none) (f : ServerTables → ServerTables) :
    FindsLocks (locked l mode (change f)) :=
  findsLocks_locked hhome (sure_change_locked hhome f)

theorem findsLocks_registry {p : Locked α} (h : p.Sure registryHomes []) :
    FindsLocks (registry p) :=
  h.lift homesAlike_registryPart

theorem findsLocks_logLine (text : String) : FindsLocks (logLine text) := findsLocks_alter rfl _

theorem findsLocks_enqueueMessage (actor : ℕ) (msg : ActorMessage) :
    FindsLocks (enqueueMessage actor msg) := by
  refine findsLocks_locked rfl (.bind (sure_inspect _) fun wasEmpty => ?_)
  refine .bind (sure_change_locked rfl _) fun _ => ?_
  split
  · exact sure_change_locked rfl _
  · exact sure_pure _

theorem findsLocks_swapMailbox (actor : ℕ) : FindsLocks (swapMailbox actor) := by
  refine findsLocks_locked rfl (.bind (sure_inspect _) fun localMessages => ?_)
  exact .bind (sure_change_locked rfl _) fun _ => sure_pure _

theorem findsLocks_scheduleTicks (intervalMs : UInt64) (snapshot : List ℕ) :
    FindsLocks (scheduleTicks intervalMs snapshot) := by
  induction snapshot with
  | nil => exact findsLocks_pure _
  | cons actor rest ih => exact .bind (findsLocks_change _) fun _ => ih

theorem findsLocks_tick (order : HashOrder) (intervalMs : UInt64) :
    FindsLocks (tick order intervalMs) :=
  .bind (findsLocks_look rfl _) fun _ => findsLocks_scheduleTicks intervalMs _

theorem findsLocks_sendMessage (fromId toId : UInt64) (payload : List UInt8) :
    FindsLocks (sendMessage fromId toId payload) := by
  refine .bind (findsLocks_look rfl _) fun found => ?_
  cases found with
  | none => exact findsLocks_pure _
  | some actor => exact findsLocks_enqueueMessage actor _

theorem findsLocks_play (ctx : HostContext) (guest : Guest) :
    FindsLocks (registry (Locked.play ctx guest)) :=
  findsLocks_registry (Locked.sure_play ctx guest)

theorem findsLocks_construct (config : ModuleConfig) (made : Construction) :
    FindsLocks (construct config made) := by
  have hrun := findsLocks_play made.ctx made.start
  unfold construct
  split
  · exact findsLocks_pure none
  · exact .bind hrun fun _ => findsLocks_pure none
  · exact .bind hrun fun _ => findsLocks_pure _

theorem findsLocks_makeAndCommit (config : ModuleConfig) (made : Construction)
    (commit : PluginPtr → ModuleManager → ModuleManager) :
    FindsLocks (makeAndCommit config made commit) := by
  refine .bind (findsLocks_construct config made) fun ptr => ?_
  cases ptr with
  | none => exact findsLocks_pure false
  | some plugin => exact .bind (findsLocks_alter rfl _) fun _ => findsLocks_pure true

theorem findsLocks_reloadEach (made : ModuleConfig → Construction) (configs : List ModuleConfig) :
    FindsLocks (reloadEach made configs) := by
  induction configs with
  | nil => exact findsLocks_pure true
  | cons config rest ih =>
    refine .bind (findsLocks_makeAndCommit config (made config) _) fun ok => ?_
    split
    · exact ih
    · exact .bind (findsLocks_logLine _) fun _ => .bind ih fun _ => findsLocks_pure false

theorem findsLocks_hotReloadAll (order : HashOrder) (made : ModuleConfig → Construction) :
    FindsLocks (hotReloadAll order made) :=
  .bind (findsLocks_look rfl _) fun _ => findsLocks_reloadEach made _

theorem findsLocks_constructActor (modules : List (String × Construction)) :
    FindsLocks (constructActor modules) := by
  induction modules with
  | nil => exact findsLocks_pure _
  | cons entry rest ih =>
    refine .bind (findsLocks_look rfl _) fun ptr => ?_
    cases ptr with
    | none => exact ih
    | some plugin => exact .bind (findsLocks_play _ _) fun _ => ih

/-- `Get` takes the mutex of an entry that it has just found, and gives it back under the map
lock. -/
theorem findsLocks_getObject (objectId : UInt64) {found : GameObject → Server PUnit}
    (hfound : ∀ obj, FindsLocks (found obj)) : FindsLocks (getObject objectId found) := by
  refine ⟨fun s => rfl, ?_⟩
  have hnil : serverHomes.Moored [] := LockHomes.moored_nil _
  have hmap : serverHomes.Anchored [] (.registry .registryMap) :=
    LockHomes.anchored_of_home_eq_none [] rfl
  refine (finds_lock hmap .shared).bind (fun _ s _ => trivial) fun _ => ?_
  refine finds_look (fun s => ?_) fun entry => ?_
  · cases hentry : s.registry.objects.lookup objectId with
    | none => exact trivial
    | some entry => exact Locked.there_registryEntry hentry
  · cases entry with
    | none => exact finds_unlock _ _ hnil
    | some entry =>
      have hanchored : serverHomes.Anchored [(.registry .registryMap, .shared)]
          (.registry (.registryEntry entry)) := by
        rintro home ⟨⟩
        exact Or.inl ⟨.shared, List.mem_cons_self⟩
      have hheader : (locked (.registry (.registryEntry entry)) .unique
          (inspect fun s => s.registry.header entry)).Finds serverHomes Ends
            [(.registry .registryMap, .shared)] [(.registry .registryMap, .shared)] :=
        finds_locked hanchored (hnil.cons hmap .shared) (fun s => trivial) (sure_inspect _).2
      refine hheader.bind (fun header s _ => (hfound _).1 s) fun header => ?_
      exact (finds_unlock _ _ hnil).bind (fun _ s _ => (hfound _).1 s) fun _ => (hfound _).2

theorem findsLocks_invokeModule (cityHash64 : String → UInt64) (objectId : UInt64)
    (plugin : WasmEdgePlugin) (action : String) (input : List UInt8) :
    FindsLocks (invokeModule cityHash64 objectId plugin action input) := by
  refine findsLocks_getObject objectId fun obj => ?_
  refine .bind (findsLocks_registry (Locked.sure_execute cityHash64 plugin obj action input))
    fun executed => ?_
  split
  · refine .bind (findsLocks_registry (Locked.sure_applyOutputDelta Locked.atStorage_nil obj _))
      fun applied => ?_
    split
    · exact findsLocks_pure _
    · exact findsLocks_logLine _
  · exact findsLocks_pure _

theorem findsLocks_send (sessionId : UInt64) (msg : Message) : FindsLocks (send sessionId msg) := by
  refine .bind (findsLocks_look rfl _) fun found => ?_
  cases found with
  | none => exact findsLocks_pure _
  | some session => exact findsLocks_change _

theorem findsLocks_handleError (sessionId : UInt64) (warning : Option String) :
    FindsLocks (handleError sessionId warning) := by
  have hclosed : FindsLocks (onSessionClosed sessionId) := findsLocks_alter rfl _
  cases warning with
  | none => exact hclosed
  | some text => exact .bind (findsLocks_logLine _) fun _ => hclosed

theorem findsLocks_accept (session : ℕ) : FindsLocks (accept session) :=
  .bind (sure_inspect _) fun _ => .bind (findsLocks_change _) fun _ => findsLocks_alter rfl _

end Server

section

variable (cityHash64 : String → UInt64) (order : HashOrder)

open Server

/-- Every public function finds the locks that it takes. -/
theorem PublicCall.findsLocks (c : PublicCall) : FindsLocks (c.body cityHash64 order) := by
  have hnil : Locked.AtStorage [] := Locked.atStorage_nil
  -- The calls on the storage begin with no entry in hand, which `hnil` says.
  cases c with
  | send sessionId msg => exact .bind (findsLocks_send sessionId msg) fun _ => findsLocks_pure _
  | spawn actor actorId => exact .bind (findsLocks_alter rfl _) fun _ => findsLocks_pure _
  | kill actorId => exact .bind (findsLocks_alter rfl _) fun _ => findsLocks_pure _
  | tick intervalMs => exact .bind (findsLocks_tick order intervalMs) fun _ => findsLocks_pure _
  | sendMessage fromId toId payload =>
    exact .bind (findsLocks_sendMessage fromId toId payload) fun _ => findsLocks_pure _
  | enqueueMessage actor msg =>
    exact .bind (findsLocks_enqueueMessage actor msg) fun _ => findsLocks_pure _
  | scheduleTick actor intervalMs => exact .bind (findsLocks_change _) fun _ => findsLocks_pure _
  | constructActor modules =>
    exact .bind (findsLocks_constructActor modules) fun _ => findsLocks_pure _
  | invokeModule objectId plugin action input =>
    exact .bind (findsLocks_invokeModule cityHash64 objectId plugin action input)
      fun _ => findsLocks_pure _
  | load config made =>
    exact .bind (findsLocks_makeAndCommit config made _) fun _ => findsLocks_pure _
  | hotReload config made =>
    exact .bind (findsLocks_makeAndCommit config made _) fun _ => findsLocks_pure _
  | hotReloadAll made => exact .bind (findsLocks_hotReloadAll order made) fun _ => findsLocks_pure _
  | rollback name => exact .bind (findsLocks_alter rfl _) fun _ => findsLocks_pure _
  | unload name => exact .bind (findsLocks_alter rfl _) fun _ => findsLocks_pure _
  | getModule name => exact .bind (findsLocks_look rfl _) fun _ => findsLocks_pure _
  | getLoadedSchemaVersion name => exact .bind (findsLocks_look rfl _) fun _ => findsLocks_pure _
  | registerSchema schema => exact .bind (findsLocks_alter rfl _) fun _ => findsLocks_pure _
  | getSchema objectType version => exact .bind (findsLocks_look rfl _) fun _ => findsLocks_pure _
  | getLatestVersion objectType => exact .bind (findsLocks_look rfl _) fun _ => findsLocks_pure _
  | create header =>
    exact .bind (findsLocks_registry (Locked.sure_create header)) fun _ => findsLocks_pure _
  | destroy objectId =>
    exact .bind (findsLocks_registry (Locked.sure_destroy objectId)) fun _ => findsLocks_pure _
  | migrate objectId target =>
    exact .bind (findsLocks_registry (Locked.sure_migrate objectId target)) fun _ => findsLocks_pure _
  | register fromVersion toVersion func =>
    exact .bind (findsLocks_registry (Locked.sure_register hnil.moored fromVersion toVersion func))
      fun _ => findsLocks_pure _
  | read objectId type =>
    exact .bind (findsLocks_registry (Locked.sure_read hnil objectId type))
      fun _ => findsLocks_pure _
  | write objectId type data =>
    exact .bind (findsLocks_registry (Locked.sure_write hnil objectId type data))
      fun _ => findsLocks_pure _
  | writeChecked objectId type totalSize data =>
    exact .bind (findsLocks_registry (Locked.sure_writeChecked hnil objectId type totalSize data))
      fun _ => findsLocks_pure _
  | remove objectId type =>
    exact .bind (findsLocks_registry (Locked.sure_remove hnil objectId type))
      fun _ => findsLocks_pure _
  | removeAll objectId =>
    exact .bind (findsLocks_registry (Locked.sure_removeAll hnil objectId))
      fun _ => findsLocks_pure _
  | warn text => exact .bind (findsLocks_logLine text) fun _ => findsLocks_pure _

theorem UserCode.findsLocks (code : UserCode) : FindsLocks (code.body cityHash64 order) := by
  induction code with
  | done => exact findsLocks_pure _
  | call c next ih => exact .bind (c.findsLocks cityHash64 order) fun answer => ih answer
  | registerHandler msgType handler next _ ih =>
    exact .bind (findsLocks_alter rfl _) fun _ => ih
  | getObject objectId found next ihFound ih =>
    exact .bind (findsLocks_getObject objectId ihFound) fun _ => ih

theorem findsLocks_onReceive (sessionId playerId : UInt64) (msg : Message) :
    FindsLocks (Server.onReceive cityHash64 order sessionId playerId msg) := by
  unfold Server.onReceive
  split
  · exact findsLocks_pure _
  · refine .bind (findsLocks_look rfl _) fun found => ?_
    cases found with
    | none => exact findsLocks_pure _
    | some handler => exact (handler sessionId playerId msg).findsLocks cityHash64 order

theorem findsLocks_processMessages (actor : ℕ) (handleMessage : ActorMessage → UserCode) :
    FindsLocks (processMessages cityHash64 order actor handleMessage) := by
  refine .bind (findsLocks_swapMailbox actor) fun localMessages => ?_
  induction localMessages with
  | nil => exact findsLocks_pure _
  | cons msg rest ih => exact .bind ((handleMessage msg).findsLocks cityHash64 order) fun _ => ih

theorem ServerCall.findsLocks (c : ServerCall) : FindsLocks (c.body cityHash64 order) := by
  cases c with
  | accepted session => exact findsLocks_accept session
  | received sessionId msg => exact findsLocks_onReceive cityHash64 order sessionId 0 msg
  | failed sessionId warning => exact findsLocks_handleError sessionId warning
  | strandTask actor task handleMessage tickCode =>
    refine .bind (findsLocks_change _) fun _ => ?_
    refine .bind (findsLocks_processMessages cityHash64 order actor handleMessage) fun _ => ?_
    cases task with
    | wakeUp => exact findsLocks_pure _
    | tick intervalMs => exact (tickCode intervalMs).findsLocks cityHash64 order
  | timer intervalMs => exact findsLocks_tick order intervalMs
  | hangUp made =>
    refine .bind (findsLocks_logLine _) fun _ => .bind (findsLocks_hotReloadAll order made)
      fun ok => ?_
    split
    · exact findsLocks_pure _
    · exact findsLocks_logLine _
  | user code => exact code.findsLocks cityHash64 order

end

/-! ## Runs of the server -/

/-- Any number of threads that do the work of the server, where the mutex of an erased entry is
destroyed. -/
def mortalServer (cityHash64 : String → UInt64) (order : HashOrder)
    (blocks hangs : ServerWorld → ThreadId → Bool) :
    TransitionSystem ServerWorld (LockAction ServerCall) :=
  mortalSystem serverHomes (ServerCall.body cityHash64 order) blocks hangs

section

variable {cityHash64 : String → UInt64} {order : HashOrder}
  {blocks hangs : ServerWorld → ThreadId → Bool} {w w' : ServerWorld} {t t' : ThreadId}
  {thread thread' : LockThread ServerLock ServerTables} {l : ServerLock}

/-- What a thread of the server does is a finite program here, and without new work the threads come
to rest: from every state that the server reaches, whichever threads go on, they take finitely many
steps. Where none of them can take another one they have all done their work. -/
theorem server_comes_to_rest
    (h : (mortalServer cityHash64 order blocks hangs).ReachWhere (LockWorld.Settled serverHomes) w) :
    (∀ run : ℕ → ServerWorld, run 0 = w → ∃ n, ¬ LockWorld.GoesOn blocks (run (n + 1)) (run n)) ∧
      ((∀ t, w.advance blocks t = none) → w.threads = ∅) := by
  constructor
  · intro run _
    exact not_forall.mp (LockWorld.no_infinite_run run)
  · have hordered : w.Ordered ServerLock.rank := LockWorld.ordered_of_reachable
      (ServerCall.sound cityHash64 order) (LockWorld.reachable_of_mortal h)
    exact LockWorld.threads_eq_empty_of_stuck hordered

/-- A lock of `ComponentStorage`. -/
def ServerLock.ofStorage : ServerLock → Bool
  | .registry .storageMap => true
  | .registry (.storageEntry _) => true
  | _ => false

theorem protected_of_serverReach
    (h : (mortalServer cityHash64 order blocks hangs).ReachWhere (LockWorld.Settled serverHomes) w) :
    w.Protected serverGuards :=
  .of_reachable (ServerCall.guards cityHash64 order) (LockWorld.reachable_of_mortal h)

/-- What a thread has found under a lock outside the storage is still so when it goes on: while the
thread stands still with the lock, shared or alone, no work of any number of other threads changes the
data of the lock. -/
theorem server_sections_isolated
    (h : (mortalServer cityHash64 order blocks hangs).ReachWhere (LockWorld.Settled serverHomes) w)
    (_hl : l.ofStorage = false) (ht : w.threads.lookup t = some thread) {mode : LockMode}
    (hheld : (l, mode) ∈ thread.held) (hlive : ServerTables.Live l w.shared)
    {acts : List (LockAction ServerCall)} (hothers : .advance t ∉ acts)
    (hrun : (mortalServer cityHash64 order blocks hangs).runWhere (LockWorld.Settled serverHomes) w
      acts = some w') :
    w'.threads.lookup t = some thread ∧ ServerTables.get l w'.shared = ServerTables.get l w.shared :=
  (protected_of_serverReach h).kept_by_others (ServerCall.guards cityHash64 order) ht hheld hlive
    hothers (LockWorld.run_of_mortal hrun)

end

/-! ## A handler that registers another handler -/

/-- Some order of each hash map. -/
noncomputable def someHashOrder : HashOrder where
  configs m := (m.configs.entries.map (·.2)).toList
  actors m := (m.entries.map (·.2)).toList
  versions m objectType := ((m.schemas.lookup objectType).map (·.keys.val.toList)).getD []
  configs_eq m := Multiset.coe_toList _
  actors_eq m := Multiset.coe_toList _
  yields m objectType := by
    intro versions hversions
    rw [Option.mem_def.mp hversions]
    exact Multiset.coe_toList _

/-- No actor, no handler, no session, no module, no object. -/
def emptyServer : ServerWorld :=
  ⟨⟨∅, fun _ => [], fun _ => [], ∅, ∅, 1, fun _ => [], .empty, .empty, emptyTables.shared, []⟩, ∅⟩

/-- Register another handler for type 7. -/
def replaceSeven : MessageHandler := fun _ _ _ => .registerHandler 7 (fun _ _ _ => .done) .done

/-- The server of the runs below: writers keep readers out, and nobody goes on with a mutex that is no
more. -/
noncomputable abbrev strictServer : TransitionSystem ServerWorld (LockAction ServerCall) :=
  mortalServer (fun _ => 0) someHashOrder (fun _ _ => true) fun _ _ => true

/-- Thread 1 has the lock of the handlers shared and looks its handler up. -/
def lookingUp : List (LockAction ServerCall) :=
  [.call 1 (.received 1 [7, 0, 0, 0]), .advance 1, .advance 1]

/-- Meanwhile thread 0 wants to replace the handler. -/
def replacing : List (LockAction ServerCall) :=
  [.call 0 (.user (.registerHandler 7 replaceSeven .done)), .advance 0]

/-- The handlers are as they were. -/
theorem server_sections_isolated_lookingUp :
    ∃ w thread w', strictServer.runWhere (LockWorld.Settled serverHomes) emptyServer lookingUp =
        some w ∧
      w.threads.lookup 1 = some thread ∧ (.handlers, .shared) ∈ thread.held ∧
      strictServer.runWhere (LockWorld.Settled serverHomes) w replacing = some w' ∧
      w'.threads.lookup 1 = some thread ∧ w'.shared.handlers = w.shared.handlers := by
  obtain ⟨w, thread, w', hrun, ht, hheld, hrest⟩ : ∃ w thread w',
      strictServer.runWhere (LockWorld.Settled serverHomes) emptyServer lookingUp = some w ∧
        w.threads.lookup 1 = some thread ∧ (.handlers, .shared) ∈ thread.held ∧
        strictServer.runWhere (LockWorld.Settled serverHomes) w replacing = some w' :=
    ⟨_, _, _, rfl, rfl, List.mem_cons_self, rfl⟩
  refine ⟨w, thread, w', hrun, ht, hheld, hrest, ?_⟩
  exact server_sections_isolated (.of_runWhere (.init (s := emptyServer) rfl) _ hrun) rfl ht hheld
    trivial (by simp [replacing]) hrest

end WasmHot
