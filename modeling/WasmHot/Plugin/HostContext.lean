import WasmHot.Plugin.WasmEdgePlugin
import WasmHot.Lib.Transition
import WasmHot.Lib.UnorderedMap

/-!
# The host context of a thread

The host functions find the storage and the object they act for in `g_host_ctx`, one variable per
thread that all plugins on the thread share. `Execute` binds it and no exit of `Execute` clears it.
Guest code also runs outside `Execute`: `WasmEdge_VMInstantiate`, which `Initialize` and `Clone`
call, runs the module's start function, and that function may call the host.

So a start function acts for whatever object was executed last. `hostCalls_proper_iff` says which
runs are free of that, and `start_writes_last_object` is one that is not.
-/

namespace WasmHot

/-- A module file that gets as far as `WasmEdge_VMInstantiate` and links: its initial memory, its
start function and its `execute` function. -/
structure WasmModule where
  memory : GuestMemory
  exportsMemory : Bool
  start : Option Guest
  execute : ExecuteParams → GuestMemory → Guest

/-- The instantiated module, its memory as the start function left it. -/
def WasmModule.vm (m : WasmModule) (memory : GuestMemory) : Vm :=
  ⟨memory, m.exportsMemory, m.execute⟩

/-! ## Host calls as they are made -/

/-- A host call: the object of the `Execute` it is made in, if any, the context the host function
found, the call and its result, and the storage around it. -/
structure CallRecord where
  executing : Option GameObject
  ctx : HostContext
  call : HostCall
  out : HostValue
  before : ComponentStorage
  after : ComponentStorage

/-- `get_component` answers -1, `set_component` answers 0, and the storage stays as it is. -/
def CallRecord.Inert (r : CallRecord) : Prop :=
  r.after = r.before ∧
    match r.call with
    | .getCurrentObjectId => True
    | .getComponent _ _ _ _ => r.out = .i32 (-1)
    | .setComponent _ _ _ _ => r.out = .i32 0

/-- A call in `Execute` is made for the object executed, and any other for no storage at all. -/
def CallRecord.Proper (r : CallRecord) : Prop :=
  match r.executing with
  | some obj => r.ctx.storage = obj.storage ∧ r.ctx.objectId = obj.header.objectId
  | none => r.ctx.storage = .null ∧ r.Inert

/-- The host calls of a guest, in order. -/
def Guest.calls (executing : Option GameObject) (ctx : HostContext) :
    Guest → ComponentStorage → List CallRecord
  | .trap _, _ => []
  | .ret _ _, _ => []
  | .host memory call next, s =>
      let answer := call.answer ctx memory s
      ⟨executing, ctx, call, answer.out, s, answer.storage⟩ ::
        (next answer.out answer.memory).calls executing ctx answer.storage

/-- The guest calls the host. -/
def Guest.CallsHost : Guest → Prop
  | .trap _ => False
  | .ret _ _ => False
  | .host _ _ _ => True

/-- Without a storage the host functions do nothing. -/
theorem HostCall.inert_of_null {ctx : HostContext} (h : ctx.storage = .null)
    (executing : Option GameObject) (memory : GuestMemory) (s : ComponentStorage) (call : HostCall) :
    CallRecord.Inert ⟨executing, ctx, call, (call.answer ctx memory s).out, s,
      (call.answer ctx memory s).storage⟩ := by
  cases call with
  | getCurrentObjectId => exact ⟨rfl, trivial⟩
  | getComponent => simp [CallRecord.Inert, HostCall.answer, hostGetComponent, h]
  | setComponent => simp [CallRecord.Inert, HostCall.answer, hostSetComponent, h]

namespace Guest

/-- The calls made in `Execute` are proper when the context is that of the object. -/
theorem calls_proper_executing (obj : GameObject) (guest : Guest) (s : ComponentStorage) :
    ∀ r ∈ guest.calls (some obj) obj.context s, r.Proper := by
  induction guest generalizing s with
  | trap memory => exact fun _ hr => absurd hr List.not_mem_nil
  | ret memory value => exact fun _ hr => absurd hr List.not_mem_nil
  | host memory call next ih =>
    intro r hr
    rcases List.mem_cons.mp hr with rfl | hr
    · exact ⟨rfl, rfl⟩
    · exact ih _ _ _ r hr

/-- The calls made outside `Execute` are proper exactly when there are none or the context has no
storage. -/
theorem calls_proper_outside_iff (ctx : HostContext) (guest : Guest) (s : ComponentStorage) :
    (∀ r ∈ guest.calls none ctx s, r.Proper) ↔ (guest.CallsHost → ctx.storage = .null) := by
  constructor
  · intro hproper hcalls
    cases guest with
    | trap => cases hcalls
    | ret => cases hcalls
    | host memory call next => exact (hproper _ List.mem_cons_self).1
  · intro hnull
    induction guest generalizing s with
    | trap memory => exact fun _ hr => absurd hr List.not_mem_nil
    | ret memory value => exact fun _ hr => absurd hr List.not_mem_nil
    | host memory call next ih =>
      have hstorage := hnull trivial
      intro r hr
      rcases List.mem_cons.mp hr with rfl | hr
      · exact ⟨hstorage, call.inert_of_null hstorage none memory s⟩
      · exact ih _ _ _ (fun _ => hstorage) r hr

end Guest

/-! ## Plugin calls -/

/-- What `Initialize` leaves: its result, the plugin, the host calls of the start function and the
storage. -/
structure Initialized where
  ok : Bool
  plugin : WasmEdgePlugin
  calls : List CallRecord
  storage : ComponentStorage

namespace WasmEdgePlugin

/-- The constructor. -/
def new : WasmEdgePlugin := ⟨false, none⟩

/-- `Initialize`. The file is none where a call before the start function fails: there is no VM or
no host module, or the file cannot be loaded, validated, registered or linked. -/
def initializeFrom (p : WasmEdgePlugin) (file : Option WasmModule) (ctx : HostContext)
    (s : ComponentStorage) : Initialized :=
  if p.initialized then ⟨true, p, [], s⟩
  else
    match file with
    | none => ⟨false, ⟨false, none⟩, [], s⟩
    | some m =>
        match m.start with
        | none => ⟨true, ⟨true, some (some (m.vm m.memory))⟩, [], s⟩
        | some guest =>
            let run := guest.run ctx s
            let calls := guest.calls none ctx s
            -- A start function that traps fails the instantiation, but its host calls were made.
            if run.value.isNone then ⟨false, ⟨false, none⟩, calls, run.storage⟩
            else ⟨true, ⟨true, some (some (m.vm run.memory))⟩, calls, run.storage⟩

/-- `Shutdown`. -/
def shutdown (p : WasmEdgePlugin) : WasmEdgePlugin :=
  ⟨false, p.state.map fun _ => none⟩

/-- The start function that `Initialize` runs. -/
def startOf (p : WasmEdgePlugin) (file : Option WasmModule) : Option Guest :=
  if p.initialized then none else file.bind (·.start)

/-- The host calls that `Initialize` makes are those of the start function. -/
theorem initializeFrom_calls (p : WasmEdgePlugin) (file : Option WasmModule) (ctx : HostContext)
    (s : ComponentStorage) :
    (p.initializeFrom file ctx s).calls =
      ((p.startOf file).map fun guest => guest.calls none ctx s).getD [] := by
  unfold initializeFrom startOf
  cases p.initialized with
  | true => rfl
  | false =>
    cases file with
    | none => rfl
    | some m =>
      cases hstart : m.start with
      | none => simp [hstart]
      | some guest =>
        cases hvalue : (guest.run ctx s).value with
        | none => simp [hstart, hvalue]
        | some value => simp [hstart, hvalue]

variable (cityHash64 : String → UInt64)

/-- The host calls made in `Execute`. The context they find is the one that `Execute` leaves, since
nothing changes it after the guest has started. -/
def executeCalls (p : WasmEdgePlugin) (obj : GameObject) (action : String)
    (input output : List UInt8) (ctx : HostContext) (s : ComponentStorage) : List CallRecord :=
  match p.entered cityHash64 action input with
  | none => []
  | some (_, guest) =>
      guest.calls (some obj) (p.execute cityHash64 obj action input output ctx s).ctx s

/-- `Execute` binds the context as soon as it is past its first check. -/
theorem execute_ctx (p : WasmEdgePlugin) (obj : GameObject) (action : String)
    (input output : List UInt8) (ctx : HostContext) (s : ComponentStorage) :
    (p.execute cityHash64 obj action input output ctx s).ctx =
      if p.liveVm.isSome then obj.context else ctx := by
  unfold execute
  cases p.liveVm with
  | none => rfl
  | some vm =>
    cases hplaced : vm.placeInput input with
    | none => simp [hplaced]
    | some memory => simp [hplaced]

/-- All host calls made in `Execute` are made for its object. -/
theorem executeCalls_proper (p : WasmEdgePlugin) (obj : GameObject) (action : String)
    (input output : List UInt8) (ctx : HostContext) (s : ComponentStorage) :
    ∀ r ∈ p.executeCalls cityHash64 obj action input output ctx s, r.Proper := by
  unfold executeCalls
  cases hentered : p.entered cityHash64 action input with
  | none => exact fun _ hr => absurd hr List.not_mem_nil
  | some entered =>
    have hlive : p.liveVm.isSome := by
      obtain ⟨vm, hvm, -⟩ := Option.bind_eq_some_iff.mp hentered
      rw [hvm]
      rfl
    rw [execute_ctx, if_pos hlive]
    exact entered.2.calls_proper_executing obj s

end WasmEdgePlugin

/-! ## A thread -/

/-- A thread that uses plugins: its context, the plugins by address, the storage and the host calls
made so far. -/
structure PluginThread where
  ctx : HostContext
  plugins : UnorderedMap ℕ WasmEdgePlugin
  storage : ComponentStorage
  calls : List CallRecord

/-- What happens on the thread, and between its calls. -/
inductive ThreadCall
  | initializePlugin (address : ℕ) (file : Option WasmModule)
  /-- The copy gets an address of its own if it can be initialized. -/
  | clone (address copy : ℕ) (file : Option WasmModule)
  | execute (address : ℕ) (obj : GameObject) (action : String) (input output : List UInt8)
  | shutdown (address : ℕ)
  /-- Other threads change the storage, and plugins are made, handed over and destroyed. -/
  | elsewhere (plugins : UnorderedMap ℕ WasmEdgePlugin) (storage : ComponentStorage)

namespace PluginThread

/-- A thread that has not executed anything. -/
def fresh (plugins : UnorderedMap ℕ WasmEdgePlugin) (storage : ComponentStorage) :
    PluginThread where
  ctx := ⟨.null, 0⟩
  plugins := plugins
  storage := storage
  calls := []

variable (cityHash64 : String → UInt64)

/-- One call. -/
def step (t : PluginThread) : ThreadCall → Option PluginThread
  | .initializePlugin address file =>
      (t.plugins.lookup address).map fun p =>
        let result := p.initializeFrom file t.ctx t.storage
        { t with
          plugins := t.plugins.insert address result.plugin
          storage := result.storage
          calls := t.calls ++ result.calls }
  | .clone address copy file =>
      (t.plugins.lookup address).map fun _ =>
        let result := WasmEdgePlugin.new.initializeFrom file t.ctx t.storage
        { t with
          plugins := if result.ok then t.plugins.insert copy result.plugin else t.plugins
          storage := result.storage
          calls := t.calls ++ result.calls }
  | .execute address obj action input output =>
      (t.plugins.lookup address).map fun p =>
        let result := p.execute cityHash64 obj action input output t.ctx t.storage
        { ctx := result.ctx
          plugins := t.plugins.insert address result.plugin
          storage := result.storage
          calls := t.calls ++
            p.executeCalls cityHash64 obj action input output t.ctx t.storage }
  | .shutdown address =>
      (t.plugins.lookup address).map fun p =>
        { t with plugins := t.plugins.insert address p.shutdown }
  | .elsewhere plugins storage => some { t with plugins := plugins, storage := storage }

/-- The start function that a call runs. -/
def startGuest (t : PluginThread) : ThreadCall → Option Guest
  | .initializePlugin address file => (t.plugins.lookup address).bind (·.startOf file)
  | .clone _ _ file => WasmEdgePlugin.new.startOf file
  | _ => none

/-- The object that a call binds: `Execute` gets past its first check. -/
def binds (t : PluginThread) : ThreadCall → Option GameObject
  | .execute address obj _ _ _ =>
      if ((t.plugins.lookup address).bind (·.liveVm)).isSome then some obj else none
  | _ => none

end PluginThread

section

variable (cityHash64 : String → UInt64)

/-- The calls on one thread, with the object that was bound last. -/
def recordedThread : TransitionSystem (PluginThread × Option GameObject) ThreadCall :=
  TransitionSystem.withHistory
    { Init := fun t => ∃ plugins storage, t = .fresh plugins storage
      step := PluginThread.step cityHash64 }
    (fun _ => none) fun last t a => (t.binds a).or last

end

namespace PluginThread

/-- A start function that calls the host runs only before the first `Execute` or after one for an
object without a storage, where an `Execute` counts that got past its first check. -/
def StartsUnbound (p : PluginThread × Option GameObject) (a : ThreadCall) : Prop :=
  ∀ guest, p.1.startGuest a = some guest → guest.CallsHost →
    ∀ obj, p.2 = some obj → obj.storage = .null

/-- The context is that of the object that was bound last. -/
def BoundTo (t : PluginThread) (last : Option GameObject) : Prop :=
  t.ctx = (last.map GameObject.context).getD ⟨.null, 0⟩

/-- All host calls made so far are proper. -/
def AllProper (t : PluginThread) : Prop :=
  ∀ r ∈ t.calls, r.Proper

variable {cityHash64 : String → UInt64} {t t' : PluginThread} {last : Option GameObject}
  {a : ThreadCall}

/-- The context after a call. -/
theorem BoundTo.step (h : t.BoundTo last) (hstep : t.step cityHash64 a = some t') :
    t'.BoundTo ((t.binds a).or last) := by
  cases a with
  | initializePlugin address file =>
    obtain ⟨p, -, rfl⟩ := Option.map_eq_some_iff.mp hstep
    exact h
  | clone address copy file =>
    obtain ⟨p, -, rfl⟩ := Option.map_eq_some_iff.mp hstep
    exact h
  | execute address obj action input output =>
    obtain ⟨p, hp, rfl⟩ := Option.map_eq_some_iff.mp hstep
    unfold BoundTo
    simp only [binds, hp, Option.bind_some, WasmEdgePlugin.execute_ctx]
    cases p.liveVm with
    | none => exact h
    | some vm => rfl
  | shutdown address =>
    obtain ⟨p, -, rfl⟩ := Option.map_eq_some_iff.mp hstep
    exact h
  | elsewhere plugins storage =>
    cases hstep
    exact h

/-- The host calls that a call adds: those of an `Execute`, which are proper, or those of the start
function it runs. -/
theorem step_calls (hstep : t.step cityHash64 a = some t') :
    ∃ added, t'.calls = t.calls ++ added ∧
      ((∀ r ∈ added, r.Proper) ∧ t.startGuest a = none ∨
        added = ((t.startGuest a).map fun guest => guest.calls none t.ctx t.storage).getD []) := by
  cases a with
  | initializePlugin address file =>
    obtain ⟨p, hp, rfl⟩ := Option.map_eq_some_iff.mp hstep
    refine ⟨_, rfl, Or.inr ?_⟩
    rw [WasmEdgePlugin.initializeFrom_calls]
    simp only [startGuest, hp, Option.bind_some]
  | clone address copy file =>
    obtain ⟨p, -, rfl⟩ := Option.map_eq_some_iff.mp hstep
    exact ⟨_, rfl, Or.inr (WasmEdgePlugin.initializeFrom_calls ..)⟩
  | execute address obj action input output =>
    obtain ⟨p, -, rfl⟩ := Option.map_eq_some_iff.mp hstep
    have hproper := p.executeCalls_proper cityHash64 obj action input output t.ctx t.storage
    exact ⟨_, rfl, Or.inl ⟨hproper, rfl⟩⟩
  | shutdown address =>
    obtain ⟨p, -, rfl⟩ := Option.map_eq_some_iff.mp hstep
    exact ⟨[], (List.append_nil _).symm, Or.inr rfl⟩
  | elsewhere plugins storage =>
    cases hstep
    exact ⟨[], (List.append_nil _).symm, Or.inr rfl⟩

/-- With the context of the last object bound, a call keeps all host calls proper exactly when it
runs no start function that would act for that object. -/
theorem AllProper.step_iff (hbound : t.BoundTo last) (h : t.AllProper)
    (hstep : t.step cityHash64 a = some t') : t'.AllProper ↔ StartsUnbound (t, last) a := by
  have hctx : t.ctx.storage = .null ↔ ∀ obj, last = some obj → obj.storage = .null := by
    rw [show t.ctx = _ from hbound]
    cases last with
    | none => exact iff_of_true rfl nofun
    | some obj => simp [GameObject.context]
  obtain ⟨added, hcalls, hadded⟩ := step_calls hstep
  have hsplit : t'.AllProper ↔ ∀ r ∈ added, r.Proper := by
    unfold AllProper
    rw [hcalls]
    simp only [List.mem_append, or_imp, forall_and]
    exact and_iff_right h
  rw [hsplit]
  unfold StartsUnbound
  rcases hadded with ⟨hproper, hnone⟩ | rfl
  · exact iff_of_true hproper fun guest hguest => by simp [hnone] at hguest
  · cases hstart : t.startGuest a with
    | none => simp
    | some guest =>
      rw [Option.map_some, Option.getD_some, guest.calls_proper_outside_iff, hctx]
      simp

end PluginThread

/-- In a run of plugin calls on one thread every host call is proper exactly when every `Initialize`
and `Clone` whose start function calls the host comes before the first `Execute` that gets past its
first check, or after one for an object without a storage. -/
theorem hostCalls_proper_iff (cityHash64 : String → UInt64)
    (plugins : UnorderedMap ℕ WasmEdgePlugin) (storage : ComponentStorage)
    (run : List ThreadCall) :
    (recordedThread cityHash64).AlwaysOn (fun p => p.1.AllProper)
        (.fresh plugins storage, none) run ↔
      (recordedThread cityHash64).EachStep PluginThread.StartsUnbound
        (.fresh plugins storage, none) run := by
  have hstart : (PluginThread.fresh plugins storage).BoundTo none := rfl
  refine TransitionSystem.alwaysOn_iff_eachStep_of_inv
    (J := fun p : PluginThread × Option GameObject => p.1.BoundTo p.2) ?_ ?_ hstart nofun run
  · rintro ⟨t, last⟩ a ⟨t', last'⟩ hbound hstep
    obtain ⟨hplain, rfl⟩ := TransitionSystem.withHistory_step.mp hstep
    exact hbound.step hplain
  · rintro ⟨t, last⟩ a ⟨t', last'⟩ hbound hproper hstep
    obtain ⟨hplain, rfl⟩ := TransitionSystem.withHistory_step.mp hstep
    exact hproper.step_iff hbound hplain

/-! ## A start function that writes to another object -/

/-- A module without a start function whose `execute` does nothing. -/
def quietModule : WasmModule :=
  ⟨none, false, none, fun _ memory => .ret memory 0⟩

/-- A module whose start function stores an empty component 7 of object 5. -/
def storingModule : WasmModule :=
  ⟨none, false, some (.host none (.setComponent 5 7 0 0) fun _ memory => .ret memory 0),
    fun _ memory => .ret memory 0⟩

/-- The quiet module is initialized and executed for object 5, then the other one is initialized. -/
def startAfterExecute : List ThreadCall :=
  [.initializePlugin 0 (some quietModule), .execute 0 ⟨⟨1, 0, 5⟩, .singleton⟩ "echo" [] [],
    .initializePlugin 1 (some storingModule)]

/-- Outside any `Execute` the start function stores a component, in the storage of the object that
was executed before. -/
theorem start_writes_last_object :
    ∃ p, (recordedThread fun _ => 0).run
        (.fresh ((Finmap.insert 0 .new ∅ : UnorderedMap ℕ WasmEdgePlugin).insert 1 .new) .empty,
          none) startAfterExecute = some p ∧
      ¬ p.1.AllProper ∧ p.1.storage.read 5 7 = some [] := by
  refine ⟨_, rfl, fun hproper => ?_, by decide⟩
  have hnull := (hproper _ (.head _)).1
  cases hnull

end WasmHot
