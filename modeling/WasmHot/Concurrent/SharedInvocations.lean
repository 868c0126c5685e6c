import WasmHot.Actor.InvokeModule
import WasmHot.Concurrent.SharedWorld
import WasmHot.Lib.Serialization
import Mathlib.Data.List.Permutation
import Mathlib.Logic.Function.Basic

/-!
# Invocations on shared components

Every actor runs its own invocations one after the other on its strand, but nothing ties an object
to one actor: the invocations of actors that are bound to the same object interleave, and each host
call of a guest and the final delta is a step of its own on the one storage.

Two such invocations can both read a component before either of them writes it, and then one of the
two updates is lost (`concurrent_invocations_lose_update`). What decides is the order of the
accesses: as long as no access makes the invocations wait for each other in a circle, the run ends
like a sequential execution of its invocations (`invocations_serializable`).
-/

namespace WasmHot

/-- A component, by its object and its type. -/
abbrev ComponentKey := UInt64 × ComponentType

/-- The component that is written. -/
def ComponentWrite.key (w : ComponentWrite) : ComponentKey := (w.objectId, w.type)

/-- A call of `InvokeModule` on an actor. -/
structure InvokeCall where
  actor : ℕ
  moduleName : String
  action : String
  input : List UInt8
  deriving DecidableEq

/-- What a step of an invocation does: `InvokeModule` up to the start of the guest, or the guest's
next access of the storage. The last step of the guest may write the delta. -/
inductive InvokeEvent
  | enter (moduleName action : String) (input : List UInt8)
  | access (reads : List ComponentKey) (writes : List ComponentWrite)
  deriving DecidableEq

/-- A step of an actor's strand, in the invocation with this number. -/
structure InvokeStep where
  actor : ℕ
  number : ℕ
  event : InvokeEvent
  deriving DecidableEq

/-- An invocation whose guest runs: the plugin and the view that `Execute` got, the VM as it was
entered, and what the guest is going to do. -/
structure RunningInvoke where
  moduleName : String
  plugin : WasmEdgePlugin
  obj : GameObject
  vm : Vm
  guest : Guest

/-- An actor with the number of invocations it has begun and the one that is running. -/
structure InvokingActor where
  actor : ActorWithObject
  begun : ℕ
  running : Option RunningInvoke

/-- The storage and the actors. -/
structure InvokingWorld where
  storage : ComponentStorage
  actors : ℕ → InvokingActor

/-- The component that a host call reads. -/
def HostCall.reads : HostCall → List ComponentKey
  | .getComponent objectId type _ _ => [(objectId, type)]
  | _ => []

namespace RunningInvoke

/-- The components that the next step reads and the writes it makes. -/
def accesses (r : RunningInvoke) : List ComponentKey × List ComponentWrite :=
  match r.guest with
  | .host memory call _ => (call.reads, call.accepted r.obj.context memory)
  | .trap memory =>
      ([], SharedWorld.invokeWrites r.obj (Vm.exported { r.vm with memory := memory }) none)
  | .ret memory value =>
      ([], SharedWorld.invokeWrites r.obj (Vm.exported { r.vm with memory := memory }) (some value))

/-- The end of `Execute` after the guest returned or trapped, and `ApplyOutputDelta`. -/
def finish (r : RunningInvoke) (st : InvokingActor) (memory : GuestMemory) (value : Option Int32)
    (s : ComponentStorage) : InvokingActor × ComponentStorage :=
  let vm := { r.vm with memory := memory }
  let plugin := { r.plugin with state := some (some vm) }
  let taken := takeOutput vm.exported value []
  ({ st with
      actor := { st.actor with plugins := st.actor.plugins.insert r.moduleName (some plugin) }
      running := none },
    if taken.1 then (r.obj.applyOutputDelta taken.2 s).2 else s)

/-- The next step of the guest. -/
def advance (r : RunningInvoke) (st : InvokingActor) (s : ComponentStorage) :
    InvokingActor × ComponentStorage :=
  match r.guest with
  | .host memory call next =>
      let answer := call.answer r.obj.context memory s
      ({ st with running := some { r with guest := next answer.out answer.memory } },
        answer.storage)
  | .trap memory => r.finish st memory none s
  | .ret memory value => r.finish st memory (some value) s

end RunningInvoke

section

variable (cityHash64 : String → UInt64) (registry : ObjectRegistry)

namespace InvokingActor

/-- `InvokeModule` up to the start of the guest. It returns at once if there is no plugin or no
object, or if `Execute` returns before it runs the guest. -/
def enter (st : InvokingActor) (moduleName action : String) (input : List UInt8) : InvokingActor :=
  { st with
    begun := st.begun + 1
    running :=
      match (st.actor.plugins.lookup moduleName).join with
      | none => none
      | some plugin =>
          match registry.get st.actor.objectId with
          | none => none
          | some obj =>
              (plugin.entered cityHash64 action input).map fun entered =>
                ⟨moduleName, plugin, obj, entered.1, entered.2⟩ }

/-- A step of the strand. An invocation begins when none is running. -/
def step (st : InvokingActor) (s : ComponentStorage) (x : InvokeStep) :
    Option (InvokingActor × ComponentStorage) :=
  match x.event, st.running with
  | .enter moduleName action input, none =>
      if x.number = st.begun then some (st.enter cityHash64 registry moduleName action input, s)
      else none
  | .access reads writes, some r =>
      if x.number + 1 = st.begun ∧ r.accesses = (reads, writes) then some (r.advance st s)
      else none
  | _, _ => none

end InvokingActor

namespace InvokingWorld

/-- No invocation is running. -/
def Idle (w : InvokingWorld) : Prop :=
  ∀ a, (w.actors a).running = none

/-- The step of an actor. -/
def step (w : InvokingWorld) (x : InvokeStep) : Option InvokingWorld :=
  ((w.actors x.actor).step cityHash64 registry w.storage x).map fun p =>
    ⟨p.2, Function.update w.actors x.actor p.1⟩

/-- A whole call of `InvokeModule`, with nothing in between. -/
def invoke (w : InvokingWorld) (c : InvokeCall) : InvokingWorld :=
  let st := w.actors c.actor
  let invoked := st.actor.invokeModule cityHash64 registry c.moduleName c.action c.input
    ⟨.null, 0⟩ w.storage
  ⟨invoked.storage,
    Function.update w.actors c.actor { st with actor := invoked.actor, begun := st.begun + 1 }⟩

end InvokingWorld

/-- All interleavings of the invocations of all actors. -/
def invocations : TransitionSystem InvokingWorld InvokeStep where
  Init w := w.Idle
  step := InvokingWorld.step cityHash64 registry

end

namespace InvokeStep

/-- The components that the step reads. -/
def reads (x : InvokeStep) : List ComponentKey :=
  match x.event with
  | .enter _ _ _ => []
  | .access reads _ => reads

/-- The writes that the step makes. -/
def writes (x : InvokeStep) : List ComponentWrite :=
  match x.event with
  | .enter _ _ _ => []
  | .access _ writes => writes

/-- The invocation that the step belongs to. -/
def invocation (x : InvokeStep) : ℕ × ℕ := (x.actor, x.number)

/-- The call that begins with this step. -/
def call (x : InvokeStep) : Option InvokeCall :=
  match x.event with
  | .enter moduleName action input => some ⟨x.actor, moduleName, action, input⟩
  | .access _ _ => none

/-- One of the steps writes a component that the other one reads or writes. -/
def Conflicts (x y : InvokeStep) : Prop :=
  (∃ w ∈ x.writes, w.key ∈ y.reads ∨ ∃ w' ∈ y.writes, w.key = w'.key) ∨
    ∃ w ∈ y.writes, w.key ∈ x.reads

/-- The order of the steps matters: they are steps of one strand or they conflict. -/
def OrderMatters (x y : InvokeStep) : Prop :=
  x.actor = y.actor ∨ x.Conflicts y

instance (x y : InvokeStep) : Decidable (x.Conflicts y) :=
  inferInstanceAs (Decidable (_ ∨ _))

instance (x y : InvokeStep) : Decidable (x.OrderMatters y) :=
  inferInstanceAs (Decidable (_ ∨ _))

end InvokeStep

/-! ## Writes that do not meet -/

namespace ComponentStorage

/-- Writes to other components are not seen. -/
theorem read_writeAll_of_not_hit {s : ComponentStorage} {writes : List ComponentWrite}
    {key : ComponentKey} (h : ∀ w ∈ writes, w.key ≠ key) :
    (s.writeAll writes).read key.1 key.2 = s.read key.1 key.2 := by
  refine read_writeAll_of_not_hits ?_ s
  rintro ⟨w, hw, hid, htype⟩
  exact h w hw (Prod.ext hid.symm htype.symm)

/-- Writes to different components commute. -/
theorem write_comm (s : ComponentStorage) {id id' : UInt64} {type type' : ComponentType}
    (data data' : ComponentData) (h : (id, type) ≠ (id', type')) :
    (s.write id type data).write id' type' data' =
      (s.write id' type' data').write id type data := by
  by_cases hid : id = id'
  · subst hid
    have htype : type ≠ type' := fun heq => h (by rw [heq])
    simp only [write, UnorderedMap.lookup_insert, if_true, Option.getD_some, Finmap.insert_insert]
    rw [Finmap.insert_insert_of_ne _ htype]
  · simp only [write, UnorderedMap.lookup_insert, if_neg hid, if_neg (Ne.symm hid)]
    rw [Finmap.insert_insert_of_ne _ hid]

/-- A write moves over writes to other components. -/
theorem write_writeAll (s : ComponentStorage) {w : ComponentWrite} {ws : List ComponentWrite}
    (h : ∀ w' ∈ ws, w.key ≠ w'.key) :
    (s.writeAll ws).write w.objectId w.type w.data =
      (s.write w.objectId w.type w.data).writeAll ws := by
  induction ws generalizing s with
  | nil => rfl
  | cons w' ws ih =>
    change ((s.write w'.objectId w'.type w'.data).writeAll ws).write w.objectId w.type w.data =
      ((s.write w.objectId w.type w.data).write w'.objectId w'.type w'.data).writeAll ws
    rw [ih _ fun w'' hw'' => h w'' (List.mem_cons_of_mem _ hw''),
      write_comm s w.data w'.data (h w' List.mem_cons_self)]

/-- Lists of writes to different components commute. -/
theorem writeAll_comm (s : ComponentStorage) {ws ws' : List ComponentWrite}
    (h : ∀ w ∈ ws, ∀ w' ∈ ws', w.key ≠ w'.key) :
    (s.writeAll ws).writeAll ws' = (s.writeAll ws').writeAll ws := by
  induction ws generalizing s with
  | nil => rfl
  | cons w ws ih =>
    change ((s.write w.objectId w.type w.data).writeAll ws).writeAll ws' =
      ((s.writeAll ws').write w.objectId w.type w.data).writeAll ws
    rw [ih _ fun w' hw' => h w' (List.mem_cons_of_mem _ hw'),
      write_writeAll s (h w List.mem_cons_self)]

end ComponentStorage

/-! ## What a step sees and does -/

/-- Both storages show the same under these keys. -/
def SameAt (reads : List ComponentKey) (s t : ComponentStorage) : Prop :=
  ∀ key ∈ reads, s.read key.1 key.2 = t.read key.1 key.2

/-- A host call returns and leaves in the guest's memory what the component it reads decides. -/
theorem HostCall.answer_congr {call : HostCall} {s t : ComponentStorage} (ctx : HostContext)
    (memory : GuestMemory) (h : SameAt call.reads s t) :
    (call.answer ctx memory s).out = (call.answer ctx memory t).out ∧
      (call.answer ctx memory s).memory = (call.answer ctx memory t).memory := by
  cases call with
  | getCurrentObjectId => exact ⟨rfl, rfl⟩
  | getComponent objectId type bufPtr bufCap =>
    have hread : s.read objectId type = t.read objectId type := h _ List.mem_cons_self
    have hanswer : hostGetComponent ctx objectId type bufPtr bufCap memory s =
        hostGetComponent ctx objectId type bufPtr bufCap memory t := by
      unfold hostGetComponent
      rw [hread]
    simp only [answer, hanswer, and_self]
  | setComponent objectId type bufPtr len =>
    refine ⟨?_, rfl⟩
    simp only [answer, hostSetComponent]
    cases ctx.storage with
    | null => rfl
    | singleton => cases componentFrom memory bufPtr len <;> rfl

namespace RunningInvoke

/-- The end of an invocation writes the delta, if there is one. -/
theorem finish_eq (r : RunningInvoke) (st : InvokingActor) (memory : GuestMemory)
    (value : Option Int32) (s t : ComponentStorage) :
    r.finish st memory value s =
      ((r.finish st memory value t).1,
        s.writeAll (SharedWorld.invokeWrites r.obj (Vm.exported { r.vm with memory := memory })
          value)) := by
  refine Prod.ext rfl ?_
  simp only [finish, SharedWorld.invokeWrites]
  split
  · exact r.obj.applyOutputDelta_storage _ s
  · rfl

/-- A step of a guest makes its writes, and goes on with what it has read. -/
theorem advance_eq (r : RunningInvoke) (st : InvokingActor) {s t : ComponentStorage}
    (h : SameAt r.accesses.1 s t) :
    r.advance st s = ((r.advance st t).1, s.writeAll r.accesses.2) := by
  unfold advance accesses at *
  cases hguest : r.guest with
  | host memory call next =>
    simp only [hguest] at h ⊢
    obtain ⟨hout, hmemory⟩ := call.answer_congr r.obj.context memory h
    rw [hout, hmemory, call.answer_storage]
  | trap memory => exact r.finish_eq st memory none s t
  | ret memory value => exact r.finish_eq st memory (some value) s t

end RunningInvoke

section

variable {cityHash64 : String → UInt64} {registry : ObjectRegistry}

/-- A step of a strand begins an invocation or is the next step of the one that is running. -/
theorem InvokingActor.step_cases {st st' : InvokingActor} {s s' : ComponentStorage}
    {x : InvokeStep} (hstep : st.step cityHash64 registry s x = some (st', s')) :
    (∃ moduleName action input, x.event = .enter moduleName action input ∧ st.running = none ∧
        x.number = st.begun ∧ st' = st.enter cityHash64 registry moduleName action input ∧
        s' = s) ∨
      ∃ r, x.event = .access r.accesses.1 r.accesses.2 ∧ st.running = some r ∧
        x.number + 1 = st.begun ∧ r.advance st s = (st', s') := by
  obtain ⟨a, number, event⟩ := x
  cases event with
  | enter moduleName action input =>
    cases hrunning : st.running with
    | some r => simp [step, hrunning] at hstep
    | none =>
      simp only [step, hrunning, Option.ite_none_right_eq_some, Option.some.injEq,
        Prod.mk.injEq] at hstep
      obtain ⟨hnumber, rfl, rfl⟩ := hstep
      exact Or.inl ⟨moduleName, action, input, rfl, rfl, hnumber, rfl, rfl⟩
  | access reads writes =>
    cases hrunning : st.running with
    | none => simp [step, hrunning] at hstep
    | some r =>
      simp only [step, hrunning, Option.ite_none_right_eq_some, Option.some.injEq] at hstep
      obtain ⟨⟨hnumber, haccesses⟩, hadvance⟩ := hstep
      exact Or.inr ⟨r, by rw [haccesses], rfl, hnumber, hadvance⟩

/-- A step of a strand makes its writes, and is possible in every storage that shows the same under
the keys it reads. -/
theorem InvokingActor.step_eq {st st' : InvokingActor} {s s' t : ComponentStorage} {x : InvokeStep}
    (hstep : st.step cityHash64 registry s x = some (st', s')) (h : SameAt x.reads t s) :
    s' = s.writeAll x.writes ∧
      st.step cityHash64 registry t x = some (st', t.writeAll x.writes) := by
  have hcases := step_cases hstep
  obtain ⟨a, number, event⟩ := x
  rcases hcases with ⟨moduleName, action, input, rfl, hrunning, hnumber, rfl, rfl⟩ |
    ⟨r, rfl, hrunning, hnumber, hadvance⟩
  · refine ⟨rfl, ?_⟩
    simp only [step, hrunning]
    exact if_pos hnumber
  · have hs := r.advance_eq st (s := s) (t := s) fun _ _ => rfl
    have ht := r.advance_eq st (s := t) (t := s) h
    rw [hadvance] at hs ht
    refine ⟨congrArg Prod.snd hs, ?_⟩
    simp only [step, hrunning, ht]
    exact if_pos ⟨hnumber, trivial⟩

namespace InvokingWorld

variable {w w' : InvokingWorld} {x y : InvokeStep}

/-- A step changes its actor and makes its writes. -/
theorem step_iff : w.step cityHash64 registry x = some w' ↔
    ∃ st, (w.actors x.actor).step cityHash64 registry w.storage x =
        some (st, w.storage.writeAll x.writes) ∧
      w' = ⟨w.storage.writeAll x.writes, Function.update w.actors x.actor st⟩ := by
  unfold step
  rw [Option.map_eq_some_iff]
  constructor
  · rintro ⟨⟨st, s⟩, hstep, rfl⟩
    obtain ⟨rfl, -⟩ := InvokingActor.step_eq hstep fun _ _ => rfl
    exact ⟨st, hstep, rfl⟩
  · rintro ⟨st, hstep, rfl⟩
    exact ⟨_, hstep, rfl⟩

/-- Writes to other components leave what is read as it is. -/
theorem sameAt_writeAll (s : ComponentStorage) {reads : List ComponentKey}
    {writes : List ComponentWrite} (h : ∀ w ∈ writes, w.key ∉ reads) :
    SameAt reads (s.writeAll writes) s :=
  fun _ hkey => ComponentStorage.read_writeAll_of_not_hit fun w hw heq => h w hw (heq ▸ hkey)

/-- Neighbouring steps of two invocations can be swapped unless their order matters. -/
theorem swaps :
    (invocations cityHash64 registry).Swaps InvokeStep.invocation InvokeStep.OrderMatters := by
  intro w w₂ x y _ hfree hrun
  obtain ⟨hactor, hconflicts⟩ := not_or.mp hfree
  obtain ⟨hxy, hyx⟩ := not_or.mp hconflicts
  obtain ⟨w₁, hx, hrest⟩ := Option.bind_eq_some_iff.mp hrun
  obtain ⟨w₂', hy, hnil⟩ := Option.bind_eq_some_iff.mp hrest
  cases hnil
  obtain ⟨stx, hstepx, rfl⟩ := step_iff.mp hx
  obtain ⟨sty, hstepy, rfl⟩ := step_iff.mp hy
  dsimp only at hstepy
  rw [Function.update_of_ne (Ne.symm hactor)] at hstepy
  -- `y` sees the same before the writes of `x`, and `x` after those of `y`.
  have hreadsy : SameAt y.reads w.storage (w.storage.writeAll x.writes) := fun key hkey =>
    (sameAt_writeAll w.storage (fun u hu hmem => hxy ⟨u, hu, Or.inl hmem⟩) key hkey).symm
  have hreadsx : SameAt x.reads (w.storage.writeAll y.writes) w.storage :=
    sameAt_writeAll w.storage fun u hu hmem => hyx ⟨u, hu, hmem⟩
  have hstepy' := (InvokingActor.step_eq hstepy hreadsy).2
  have hstepx' := (InvokingActor.step_eq hstepx hreadsx).2
  have hstorage : (w.storage.writeAll x.writes).writeAll y.writes =
      (w.storage.writeAll y.writes).writeAll x.writes :=
    w.storage.writeAll_comm fun u hu u' hu' heq => hxy ⟨u, hu, Or.inr ⟨u', hu', heq⟩⟩
  have hfirst : w.step cityHash64 registry y =
      some ⟨w.storage.writeAll y.writes, Function.update w.actors y.actor sty⟩ :=
    step_iff.mpr ⟨sty, hstepy', rfl⟩
  have hsecond : InvokingWorld.step cityHash64 registry
      ⟨w.storage.writeAll y.writes, Function.update w.actors y.actor sty⟩ x =
      some ⟨(w.storage.writeAll x.writes).writeAll y.writes,
        Function.update (Function.update w.actors x.actor stx) y.actor sty⟩ := by
    refine step_iff.mpr ⟨stx, ?_, ?_⟩
    · dsimp only
      rw [Function.update_of_ne hactor]
      exact hstepx'
    · dsimp only
      rw [hstorage, Function.update_comm hactor]
  change (InvokingWorld.step cityHash64 registry w y).bind _ = _
  rw [hfirst, Option.bind_some]
  change (InvokingWorld.step cityHash64 registry _ x).bind _ = _
  rw [hsecond]
  rfl

end InvokingWorld

/-! ## The steps of one invocation on their own -/

/-- What the rest of an invocation leaves when nothing comes in between. -/
def RunningInvoke.outcome (r : RunningInvoke) (st : InvokingActor) (s : ComponentStorage) :
    InvokingActor × ComponentStorage :=
  let run := r.guest.run r.obj.context s
  r.finish st run.memory run.value run.storage

/-- A step ends the invocation, or leaves it with the same outcome. -/
theorem RunningInvoke.advance_cases (r : RunningInvoke) (st : InvokingActor)
    (s : ComponentStorage) :
    r.advance st s = r.outcome st s ∨
      ∃ r', (r.advance st s).1 = { st with running := some r' } ∧
        r'.outcome { st with running := some r' } (r.advance st s).2 = r.outcome st s := by
  obtain ⟨moduleName, plugin, obj, vm, guest⟩ := r
  cases guest with
  | trap memory => exact Or.inl rfl
  | ret memory value => exact Or.inl rfl
  | host memory call next => exact Or.inr ⟨_, rfl, rfl⟩

/-- An invocation whose guest runs does what `invokeModule` says. -/
theorem ActorWithObject.invokeModule_of_entered {actor : ActorWithObject} {moduleName : String}
    {action : String} {input : List UInt8} {plugin : WasmEdgePlugin} {obj : GameObject} {vm : Vm}
    {guest : Guest} (hplugin : (actor.plugins.lookup moduleName).join = some plugin)
    (hobj : registry.get actor.objectId = some obj)
    (hentered : plugin.entered cityHash64 action input = some (vm, guest)) (ctx : HostContext)
    (st : InvokingActor) (hst : st.actor = actor) (s : ComponentStorage) :
    (actor.invokeModule cityHash64 registry moduleName action input ctx s).actor =
        (RunningInvoke.outcome ⟨moduleName, plugin, obj, vm, guest⟩ st s).1.actor ∧
      (actor.invokeModule cityHash64 registry moduleName action input ctx s).storage =
        (RunningInvoke.outcome ⟨moduleName, plugin, obj, vm, guest⟩ st s).2 := by
  subst hst
  obtain ⟨vm', hvm, hplaced⟩ := Option.bind_eq_some_iff.mp hentered
  obtain ⟨memory, hmemory, hguest⟩ := Option.map_eq_some_iff.mp hplaced
  cases hguest
  simp only [invokeModule, hplugin, hobj, WasmEdgePlugin.execute, hvm, hmemory,
    RunningInvoke.outcome, RunningInvoke.finish]
  split <;> exact ⟨rfl, rfl⟩

/-- Where `Execute` returns before it runs the guest, the plugin is as it was. -/
theorem WasmEdgePlugin.execute_plugin_of_not_entered {plugin : WasmEdgePlugin} {action : String}
    {input : List UInt8} (obj : GameObject) (output : List UInt8) (ctx : HostContext)
    (s : ComponentStorage) (h : plugin.entered cityHash64 action input = none) :
    (plugin.execute cityHash64 obj action input output ctx s).plugin = plugin := by
  unfold entered at h
  unfold execute
  cases hvm : plugin.liveVm with
  | none => rfl
  | some vm =>
    rw [hvm, Option.bind_some, Option.map_eq_none_iff] at h
    simp only [h]

/-- An invocation that does not get as far as its guest leaves everything as it is. -/
theorem ActorWithObject.invokeModule_of_not_entered {actor : ActorWithObject} {moduleName : String}
    {action : String} {input : List UInt8}
    (h : ∀ plugin obj, (actor.plugins.lookup moduleName).join = some plugin →
      registry.get actor.objectId = some obj → plugin.entered cityHash64 action input = none)
    (ctx : HostContext) (s : ComponentStorage) :
    (actor.invokeModule cityHash64 registry moduleName action input ctx s).actor = actor ∧
      (actor.invokeModule cityHash64 registry moduleName action input ctx s).storage = s := by
  unfold invokeModule
  cases hplugin : (actor.plugins.lookup moduleName).join with
  | none => exact ⟨rfl, rfl⟩
  | some plugin =>
    cases hobj : registry.get actor.objectId with
    | none => exact ⟨rfl, rfl⟩
    | some obj =>
      have hentered := h plugin obj hplugin hobj
      obtain ⟨hok, hstorage⟩ := WasmEdgePlugin.execute_of_not_entered obj [] ctx s hentered
      have hkept := WasmEdgePlugin.execute_plugin_of_not_entered obj [] ctx s hentered
      have hlookup : actor.plugins.lookup moduleName = some (some plugin) :=
        Option.join_eq_some_iff.mp hplugin
      simp only [hok, hstorage, hkept, UnorderedMap.insert_of_lookup hlookup, Bool.false_eq_true,
        if_false, and_self]

/-- An invocation runs its guest if it finds its plugin and its object and `Execute` gets that
far. -/
theorem InvokingActor.enter_running_iff {st : InvokingActor} {moduleName action : String}
    {input : List UInt8} {r : RunningInvoke} :
    (st.enter cityHash64 registry moduleName action input).running = some r ↔
      ∃ plugin obj vm guest, (st.actor.plugins.lookup moduleName).join = some plugin ∧
        registry.get st.actor.objectId = some obj ∧
        plugin.entered cityHash64 action input = some (vm, guest) ∧
        r = ⟨moduleName, plugin, obj, vm, guest⟩ := by
  unfold enter
  cases (st.actor.plugins.lookup moduleName).join with
  | none => simp
  | some plugin =>
    cases registry.get st.actor.objectId with
    | none => simp
    | some obj =>
      simp only [Option.map_eq_some_iff, Prod.exists, Option.some.injEq]
      constructor
      · rintro ⟨vm, guest, hentered, rfl⟩
        exact ⟨plugin, obj, vm, guest, rfl, rfl, hentered, rfl⟩
      · rintro ⟨plugin', obj', vm, guest, rfl, rfl, hentered, rfl⟩
        exact ⟨vm, guest, hentered, rfl⟩

namespace InvokingWorld

variable {w w' : InvokingWorld} {x y : InvokeStep} {a k : ℕ}

/-- After an invocation has ended it makes no more steps. -/
theorem eq_nil_of_run {steps : List InvokeStep} (hrunning : (w.actors a).running = none)
    (hbegun : (w.actors a).begun = k + 1) (hsteps : ∀ x ∈ steps, x.invocation = (a, k))
    (hrun : (invocations cityHash64 registry).run w steps = some w') : steps = [] := by
  cases steps with
  | nil => rfl
  | cons x steps =>
    obtain ⟨w₁, hx, -⟩ := Option.bind_eq_some_iff.mp hrun
    obtain ⟨actor, number, event⟩ := x
    cases hsteps _ List.mem_cons_self
    obtain ⟨st, hstep, -⟩ := step_iff.mp hx
    rcases InvokingActor.step_cases hstep with ⟨_, _, _, -, -, hnumber, -⟩ | ⟨r, -, hsome, -⟩
    · dsimp only at hnumber hbegun
      omega
    · rw [hrunning] at hsome
      cases hsome

/-- The remaining steps of a running invocation, with nothing in between, run its guest to the end
and apply the output. -/
theorem run_guest {steps : List InvokeStep} {r : RunningInvoke}
    (hrunning : (w.actors a).running = some r) (hbegun : (w.actors a).begun = k + 1)
    (hsteps : ∀ x ∈ steps, x.invocation = (a, k))
    (hrun : (invocations cityHash64 registry).run w steps = some w')
    (hended : (w'.actors a).running = none) :
    steps.filterMap InvokeStep.call = [] ∧
      w' = ⟨(r.outcome (w.actors a) w.storage).2,
        Function.update w.actors a (r.outcome (w.actors a) w.storage).1⟩ := by
  induction steps generalizing w r with
  | nil =>
    cases hrun
    rw [hrunning] at hended
    cases hended
  | cons x steps ih =>
    obtain ⟨w₁, hx, hrest⟩ := Option.bind_eq_some_iff.mp hrun
    have hrestSteps : ∀ y ∈ steps, y.invocation = (a, k) := fun y hy =>
      hsteps y (List.mem_cons_of_mem _ hy)
    obtain ⟨actor, number, event⟩ := x
    cases hsteps _ List.mem_cons_self
    obtain ⟨⟨st, s⟩, hstep, rfl⟩ := Option.map_eq_some_iff.mp hx
    -- The actor is running, so the step is one of the running call and no new call.
    rcases InvokingActor.step_cases hstep with ⟨_, _, _, -, hnone, -⟩ |
      ⟨r', rfl, hsome, -, hadvance⟩
    · rw [hrunning] at hnone
      cases hnone
    obtain rfl : r' = r := Option.some.inj (hsome.symm.trans hrunning)
    have hactor : InvokingWorld.actors ⟨s, Function.update w.actors actor st⟩ actor = st :=
      Function.update_self _ _ _
    have hst : (r'.advance (w.actors actor) w.storage).1 = st := congrArg Prod.fst hadvance
    have hs : (r'.advance (w.actors actor) w.storage).2 = s := congrArg Prod.snd hadvance
    -- Either the call returns with this step, and then no steps are left, or it goes on with
    -- `next`, whose outcome is the same.
    rcases r'.advance_cases (w.actors actor) w.storage with hend | ⟨next, hnext, houtcome⟩
    · have hnone : st.running = none := by
        rw [← hst, hend]
        rfl
      have hcount : st.begun = number + 1 := by
        rw [← hst, hend]
        exact hbegun
      obtain rfl := eq_nil_of_run (hactor.symm ▸ hnone) (hactor.symm ▸ hcount) hrestSteps hrest
      cases hrest
      rw [← hend, hst, hs]
      exact ⟨rfl, rfl⟩
    · rw [hst] at hnext
      rw [hs, ← hnext] at houtcome
      have hcount : st.begun = number + 1 := by
        rw [hnext]
        exact hbegun
      -- The induction hypothesis speaks of the actor after the step, whose update is undone here.
      obtain ⟨hnocall, hgo⟩ :=
        ih (r := next) (by rw [hactor, hnext]) (by rw [hactor, hcount]) hrestSteps hrest
      rw [hactor] at hgo
      dsimp only at hgo
      rw [houtcome, Function.update_idem] at hgo
      exact ⟨hnocall, hgo⟩

/-- A call that does not start a guest. -/
theorem invoke_of_not_entered {c : InvokeCall} (hidle : (w.actors c.actor).running = none)
    (hentered : ((w.actors c.actor).enter cityHash64 registry c.moduleName c.action
      c.input).running = none) :
    w.invoke cityHash64 registry c =
      ⟨w.storage, Function.update w.actors c.actor
        ((w.actors c.actor).enter cityHash64 registry c.moduleName c.action c.input)⟩ := by
  have hnot : ∀ plugin obj,
      ((w.actors c.actor).actor.plugins.lookup c.moduleName).join = some plugin →
        registry.get (w.actors c.actor).actor.objectId = some obj →
          plugin.entered cityHash64 c.action c.input = none := by
    intro plugin obj hplugin hobj
    by_contra hsome
    obtain ⟨⟨vm, guest⟩, hguest⟩ := Option.ne_none_iff_exists'.mp hsome
    have hrunning := InvokingActor.enter_running_iff.mpr
      ⟨plugin, obj, vm, guest, hplugin, hobj, hguest, rfl⟩
    rw [hentered] at hrunning
    cases hrunning
  obtain ⟨hactor, hstorage⟩ :=
    ActorWithObject.invokeModule_of_not_entered hnot ⟨.null, 0⟩ w.storage
  have henter : (w.actors c.actor).enter cityHash64 registry c.moduleName c.action c.input =
      { w.actors c.actor with
        begun := (w.actors c.actor).begun + 1
        running := ((w.actors c.actor).enter cityHash64 registry c.moduleName c.action
          c.input).running } := rfl
  unfold invoke
  dsimp only
  rw [hactor, hstorage, henter, hentered, ← hidle]

/-- A call that starts a guest. -/
theorem invoke_of_entered {c : InvokeCall} {r : RunningInvoke}
    (hidle : (w.actors c.actor).running = none)
    (hentered : ((w.actors c.actor).enter cityHash64 registry c.moduleName c.action
      c.input).running = some r) :
    w.invoke cityHash64 registry c =
      ⟨(r.outcome ((w.actors c.actor).enter cityHash64 registry c.moduleName c.action c.input)
          w.storage).2,
        Function.update w.actors c.actor
          (r.outcome ((w.actors c.actor).enter cityHash64 registry c.moduleName c.action c.input)
            w.storage).1⟩ := by
  obtain ⟨plugin, obj, vm, guest, hplugin, hobj, hguest, rfl⟩ :=
    InvokingActor.enter_running_iff.mp hentered
  obtain ⟨hactor, hstorage⟩ := ActorWithObject.invokeModule_of_entered hplugin hobj hguest
    ⟨.null, 0⟩ ((w.actors c.actor).enter cityHash64 registry c.moduleName c.action c.input) rfl
    w.storage
  unfold invoke
  dsimp only
  rw [hactor, hstorage, hidle]
  rfl

/-- The steps of one invocation, with nothing in between, are a whole call of `InvokeModule`. -/
theorem run_invocation {steps : List InvokeStep} {i : ℕ × ℕ}
    (hsteps : ∀ x ∈ steps, x.invocation = i)
    (hrun : (invocations cityHash64 registry).run w steps = some w') (hidle : w.Idle)
    (hended : w'.Idle) :
    w' = (steps.filterMap InvokeStep.call).foldl (invoke cityHash64 registry) w := by
  cases steps with
  | nil =>
    cases hrun
    rfl
  | cons x steps =>
    obtain ⟨w₁, hx, hrest⟩ := Option.bind_eq_some_iff.mp hrun
    have hrestSteps : ∀ y ∈ steps, y.invocation = i := fun y hy =>
      hsteps y (List.mem_cons_of_mem _ hy)
    obtain ⟨actor, number, event⟩ := x
    cases hsteps _ List.mem_cons_self
    obtain ⟨⟨st, s⟩, hstep, hw₁⟩ := Option.map_eq_some_iff.mp hx
    have hnone := hidle actor
    -- No actor is running, so the first step begins the call.
    rcases InvokingActor.step_cases hstep with
      ⟨moduleName, action, input, rfl, -, hnumber, hst, rfl⟩ | ⟨r, -, hsome, -⟩
    · have hactor : w₁.actors actor = st := by
        rw [← hw₁]
        exact Function.update_self _ _ _
      have hbegun : (w₁.actors actor).begun = number + 1 := by
        rw [hactor, hst]
        exact congrArg (· + 1) hnumber.symm
      change w' = (steps.filterMap InvokeStep.call).foldl (invoke cityHash64 registry)
        (w.invoke cityHash64 registry ⟨actor, moduleName, action, input⟩)
      cases hrunning : (w₁.actors actor).running with
      -- The guest is not entered, and the call is over with its first step.
      | none =>
        obtain rfl := eq_nil_of_run hrunning hbegun hrestSteps hrest
        cases hrest
        rw [hactor, hst] at hrunning
        refine Eq.trans ?_
          (invoke_of_not_entered (c := ⟨actor, moduleName, action, input⟩) hnone hrunning).symm
        rw [← hw₁, hst]
      | some r =>
        obtain ⟨hnocall, hw'⟩ := run_guest hrunning hbegun hrestSteps hrest (hended actor)
        rw [hactor, hst] at hrunning
        rw [hnocall, hw', hactor, ← hw₁, hst]
        dsimp only
        rw [Function.update_idem]
        exact (invoke_of_entered (c := ⟨actor, moduleName, action, input⟩) hnone hrunning).symm
    · rw [hnone] at hsome
      cases hsome

/-! ## Invocations one after the other -/

/-- A step is a step of the actor's last invocation. -/
theorem begun_of_step (hstep : w.step cityHash64 registry x = some w') :
    (w'.actors x.actor).begun = x.number + 1 := by
  obtain ⟨⟨st, s⟩, hlocal, rfl⟩ := Option.map_eq_some_iff.mp hstep
  dsimp only
  rw [Function.update_self]
  rcases InvokingActor.step_cases hlocal with ⟨_, _, _, -, -, hnumber, rfl, -⟩ |
    ⟨r, -, -, hnumber, hadvance⟩
  · rw [hnumber]
    rfl
  · have hkept : (r.advance (w.actors x.actor) w.storage).1.begun = (w.actors x.actor).begun := by
      unfold RunningInvoke.advance
      split <;> rfl
    rw [hadvance] at hkept
    rw [hnumber, hkept]

theorem actors_of_step (hstep : w.step cityHash64 registry x = some w') (hx : x.actor ≠ a) :
    w'.actors a = w.actors a := by
  obtain ⟨st, -, rfl⟩ := step_iff.mp hstep
  exact Function.update_of_ne (Ne.symm hx) _ _

/-- The steps of one invocation leave the other actors alone. -/
theorem actors_of_run {steps : List InvokeStep} (hsteps : ∀ x ∈ steps, x.actor ≠ a)
    (hrun : (invocations cityHash64 registry).run w steps = some w') :
    w'.actors a = w.actors a := by
  induction steps generalizing w with
  | nil =>
    cases hrun
    rfl
  | cons x steps ih =>
    obtain ⟨w₁, hx, hrest⟩ := Option.bind_eq_some_iff.mp hrun
    rw [ih (fun y hy => hsteps y (List.mem_cons_of_mem _ hy)) hrest,
      actors_of_step hx (hsteps x List.mem_cons_self)]

/-- An invocation that makes no more steps goes on running. -/
theorem running_of_run {steps : List InvokeStep} {r : RunningInvoke}
    (hrunning : (w.actors a).running = some r) (hbegun : (w.actors a).begun = k + 1)
    (hsteps : ∀ x ∈ steps, x.invocation ≠ (a, k))
    (hrun : (invocations cityHash64 registry).run w steps = some w') :
    (w'.actors a).running = some r := by
  induction steps generalizing w with
  | nil =>
    cases hrun
    exact hrunning
  | cons x steps ih =>
    obtain ⟨w₁, hx, hrest⟩ := Option.bind_eq_some_iff.mp hrun
    have hother : x.actor ≠ a := by
      rintro rfl
      obtain ⟨st, hlocal, -⟩ := step_iff.mp hx
      rcases InvokingActor.step_cases hlocal with ⟨_, _, _, -, hnone, -⟩ | ⟨_, -, -, hnumber, -⟩
      · rw [hrunning] at hnone
        cases hnone
      · refine hsteps x List.mem_cons_self (Prod.ext rfl ?_)
        change x.number = k
        omega
    have hkept := actors_of_step hx hother
    exact ih (hkept.symm ▸ hrunning) (hkept.symm ▸ hbegun)
      (fun y hy => hsteps y (List.mem_cons_of_mem _ hy)) hrest

theorem begun_of_run {steps : List InvokeStep} (hne : steps ≠ [])
    (hsteps : ∀ x ∈ steps, x.invocation = (a, k))
    (hrun : (invocations cityHash64 registry).run w steps = some w') :
    (w'.actors a).begun = k + 1 := by
  induction steps generalizing w with
  | nil => exact absurd rfl hne
  | cons x steps ih =>
    obtain ⟨w₁, hx, hrest⟩ := Option.bind_eq_some_iff.mp hrun
    cases steps with
    | nil =>
      cases hrest
      obtain ⟨actor, number, event⟩ := x
      cases hsteps _ List.mem_cons_self
      exact begun_of_step hx
    | cons y steps =>
      exact ih (List.cons_ne_nil y steps) (fun z hz => hsteps z (List.mem_cons_of_mem _ hz)) hrest

/-- If a run ends with no invocation running and the steps of one invocation come first, none is
running after them. -/
theorem idle_of_run {steps steps' : List InvokeStep} {w₁ : InvokingWorld} {i : ℕ × ℕ}
    (hidle : w.Idle) (hsteps : ∀ x ∈ steps, x.invocation = i)
    (hsteps' : ∀ x ∈ steps', x.invocation ≠ i)
    (hrun : (invocations cityHash64 registry).run w steps = some w₁)
    (hrun' : (invocations cityHash64 registry).run w₁ steps' = some w') (hended : w'.Idle) :
    w₁.Idle := by
  intro b
  obtain ⟨a, k⟩ := i
  by_cases hb : b = a
  · subst hb
    cases hrunning : (w₁.actors b).running with
    | none => rfl
    | some r =>
      have hne : steps ≠ [] := by
        rintro rfl
        cases hrun
        rw [hidle b] at hrunning
        cases hrunning
      have hstill := running_of_run hrunning (begun_of_run hne hsteps hrun) hsteps' hrun'
      rw [hended b] at hstill
      cases hstill
  · have hothers : ∀ x ∈ steps, x.actor ≠ b := by
      intro x hx heq
      exact hb (heq.symm.trans (congrArg Prod.fst (hsteps x hx)))
    rw [actors_of_run hothers hrun]
    exact hidle b

/-- A run that takes the steps of each invocation together is a sequential execution. -/
theorem run_serial {order : List (ℕ × ℕ)} (hnodup : order.Nodup) (steps : List InvokeStep)
    (hrun : (invocations cityHash64 registry).run w
      (order.flatMap fun i => steps.filter (·.invocation = i)) = some w')
    (hidle : w.Idle) (hended : w'.Idle) :
    w' = ((order.flatMap fun i => steps.filter (·.invocation = i)).filterMap
      InvokeStep.call).foldl (invoke cityHash64 registry) w := by
  induction order generalizing w with
  | nil =>
    cases hrun
    rfl
  | cons i order ih =>
    obtain ⟨hi, hnodup⟩ := List.nodup_cons.mp hnodup
    rw [List.flatMap_cons, TransitionSystem.run_append] at hrun
    obtain ⟨w₁, hfirst, hrest⟩ := Option.bind_eq_some_iff.mp hrun
    have hsteps : ∀ x ∈ steps.filter (·.invocation = i), x.invocation = i := fun x hx =>
      of_decide_eq_true (List.mem_filter.mp hx).2
    have hsteps' : ∀ x ∈ order.flatMap fun j => steps.filter (·.invocation = j),
        x.invocation ≠ i := by
      intro x hx heq
      obtain ⟨j, hj, hxj⟩ := List.mem_flatMap.mp hx
      have hinvocation : x.invocation = j := of_decide_eq_true (List.mem_filter.mp hxj).2
      exact hi (heq ▸ hinvocation ▸ hj)
    have hidle₁ : w₁.Idle := idle_of_run hidle hsteps hsteps' hfirst hrest hended
    rw [List.flatMap_cons, List.filterMap_append, List.foldl_append,
      ← run_invocation hsteps hfirst hidle hidle₁]
    exact ih hnodup hrest hidle₁

/-- Invocations lose no update as long as none of their steps makes them wait for each other in a
circle. If no step conflicts with an earlier step of an invocation that, directly or through others,
comes after its own, then the run ends like a sequential execution of the same invocations: with the
same components, and with the same memory in the plugins of the actors. -/
theorem invocations_serializable {steps : List InvokeStep} (hidle : w.Idle)
    (hrun : (invocations cityHash64 registry).run w steps = some w') (hended : w'.Idle)
    (hsteps : ∀ pre x post, steps = pre ++ x :: post →
      TransitionSystem.ClosesNoCycle InvokeStep.invocation InvokeStep.OrderMatters pre x) :
    ∃ calls : List InvokeCall, calls.Perm (steps.filterMap InvokeStep.call) ∧
      w' = calls.foldl (invoke cityHash64 registry) w := by
  obtain ⟨order, hnodup, -, hperm, hserial⟩ :=
    TransitionSystem.exists_serial swaps (TransitionSystem.acyclic_of_steps hsteps) hrun
  exact ⟨_, hperm.filterMap _, run_serial hnodup steps hserial hidle hended⟩

end InvokingWorld

end

/-! ## Two actors that raise a component

Both are bound to object 5. Their module reads component 7, raises its byte by one, writes it back
and returns without an output.
-/

/-- Read component 7 of object 5, raise its byte by one and write it back. -/
def raiseSeven (memory : GuestMemory) : Guest :=
  .host memory (.getComponent 5 7 0 1) fun _ memory =>
    .host (memory.map (List.modifyHead (· + 1))) (.setComponent 5 7 0 1) fun _ memory =>
      .ret memory 0

/-- An actor for object 5 with an initialized plugin of that module under the name "room". -/
def raisingActor (memory : List UInt8) : ActorWithObject :=
  ⟨5, (∅ : UnorderedMap String (Option WasmEdgePlugin)).insert "room"
    (some ⟨true, some (some ⟨some memory, true, fun _ => raiseSeven⟩)⟩)⟩

/-- Any number of these actors, none of which has begun an invocation, and a zero in component 7. -/
def raisingActors (memory : List UInt8) : InvokingWorld :=
  ⟨ComponentStorage.empty.write 5 7 [0], fun _ => ⟨raisingActor memory, 0, none⟩⟩

/-- Actors 0 and 1 handle a message each. Both guests read before one of them writes. -/
def bothReadFirst : List InvokeStep :=
  [⟨0, 0, .enter "room" "handle_message" []⟩, ⟨1, 0, .enter "room" "handle_message" []⟩,
    ⟨0, 0, .access [(5, 7)] []⟩, ⟨1, 0, .access [(5, 7)] []⟩,
    ⟨0, 0, .access [] [⟨5, 7, [1]⟩]⟩, ⟨1, 0, .access [] [⟨5, 7, [1]⟩]⟩,
    ⟨0, 0, .access [] []⟩, ⟨1, 0, .access [] []⟩]

/-- Actors 0 and 1 handle a message each. The guest of 1 reads after that of 0 has written. -/
def readsAfterWrite : List InvokeStep :=
  [⟨0, 0, .enter "room" "handle_message" []⟩, ⟨1, 0, .enter "room" "handle_message" []⟩,
    ⟨0, 0, .access [(5, 7)] []⟩, ⟨0, 0, .access [] [⟨5, 7, [1]⟩]⟩,
    ⟨1, 0, .access [(5, 7)] []⟩, ⟨1, 0, .access [] [⟨5, 7, [2]⟩]⟩,
    ⟨1, 0, .access [] []⟩, ⟨0, 0, .access [] []⟩]

theorem bothReadFirst_run (rest : List UInt8) :
    ∃ w, (invocations (fun _ => 0) registryOfFive).run (raisingActors (0 :: rest)) bothReadFirst =
      some w ∧ w.Idle ∧ w.storage.read 5 7 = some [1] := by
  refine ⟨_, rfl, fun a => ?_, rfl⟩
  rcases a with _ | _ | a <;> rfl

theorem readsAfterWrite_run (rest : List UInt8) :
    ∃ w, (invocations (fun _ => 0) registryOfFive).run (raisingActors (0 :: rest))
      readsAfterWrite = some w ∧ w.Idle := by
  refine ⟨_, rfl, fun a => ?_⟩
  rcases a with _ | _ | a <;> rfl

/-- One after the other, in either order, the two invocations raise the byte twice. -/
theorem raised_twice (rest : List UInt8) {calls : List InvokeCall}
    (hcalls : calls.Perm (bothReadFirst.filterMap InvokeStep.call)) :
    (calls.foldl (InvokingWorld.invoke (fun _ => 0) registryOfFive)
      (raisingActors (0 :: rest))).storage.read 5 7 = some [2] := by
  rcases List.perm_pair.mp hcalls with rfl | rfl <;> rfl

/-- With a page of memory for each of them, one of the two updates is lost. -/
theorem concurrent_invocations_lose_update :
    ∃ w, (invocations (fun _ => 0) registryOfFive).run (raisingActors (List.replicate 65536 0))
        bothReadFirst = some w ∧ w.Idle ∧
      ∀ calls : List InvokeCall, calls.Perm (bothReadFirst.filterMap InvokeStep.call) →
        (calls.foldl (InvokingWorld.invoke (fun _ => 0) registryOfFive)
          (raisingActors (List.replicate 65536 0))).storage.read 5 7 ≠ w.storage.read 5 7 := by
  rw [List.replicate_succ]
  obtain ⟨w, hrun, hended, hread⟩ := bothReadFirst_run (List.replicate 65535 0)
  refine ⟨w, hrun, hended, fun calls hcalls => ?_⟩
  rw [raised_twice _ hcalls, hread]
  decide

/-- If one of them reads what the other has written, the order of the invocations is fixed. -/
theorem invocations_serializable_readsAfterWrite :
    ∃ w, (invocations (fun _ => 0) registryOfFive).run (raisingActors (List.replicate 65536 0))
        readsAfterWrite = some w ∧
      ∃ calls : List InvokeCall, calls.Perm (readsAfterWrite.filterMap InvokeStep.call) ∧
        w = calls.foldl (InvokingWorld.invoke (fun _ => 0) registryOfFive)
          (raisingActors (List.replicate 65536 0)) := by
  rw [List.replicate_succ]
  obtain ⟨w, hrun, hended⟩ := readsAfterWrite_run (List.replicate 65535 0)
  have hrank : readsAfterWrite.Pairwise fun x y => x.OrderMatters y →
      x.invocation ≠ y.invocation → x.invocation.1 < y.invocation.1 := by decide
  exact ⟨w, hrun, InvokingWorld.invocations_serializable (fun _ => rfl) hrun hended
    fun _ _ _ => TransitionSystem.closesNoCycle_of_rank Prod.fst hrank⟩

end WasmHot
