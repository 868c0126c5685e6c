import WasmHot.Core.ObjectRegistry
import WasmHot.Plugin.WasmEdgePlugin

/-!
# ActorWithObject::InvokeModule

An invocation takes a snapshot of the object's header, runs the plugin on a view of it and applies
the output as a delta. The storage changes along two routes: `set_component` writes at once, while
the guest runs, and the delta writes one component at the end, if the invocation gets that far.

The delta route is all or nothing. The host route is not: a failed invocation keeps what the guest
had written before it failed, and `failed_keeps_components_iff` says when that makes no difference.
-/

namespace WasmHot

/-- `ActorWithObject`, with the plugin pointers in `plugins_`. -/
structure ActorWithObject where
  objectId : UInt64
  plugins : UnorderedMap String (Option WasmEdgePlugin)

/-- Where `InvokeModule` returns. -/
inductive InvokeExit
  | noPlugin
  | noObject
  | executeFailed
  | deltaRejected
  | applied
  deriving DecidableEq

/-- `Execute` or `ApplyOutputDelta` returned false. -/
def InvokeExit.Failed (e : InvokeExit) : Prop :=
  e = .executeFailed ∨ e = .deltaRejected

instance (e : InvokeExit) : Decidable e.Failed :=
  inferInstanceAs (Decidable (_ ∨ _))

/-- What `InvokeModule` leaves. -/
structure Invoked where
  exit : InvokeExit
  actor : ActorWithObject
  ctx : HostContext
  storage : ComponentStorage

namespace ActorWithObject

variable (cityHash64 : String → UInt64)

/-- `InvokeModule`. -/
def invokeModule (actor : ActorWithObject) (registry : ObjectRegistry) (moduleName action : String)
    (input : List UInt8) (ctx : HostContext) (s : ComponentStorage) : Invoked :=
  match (actor.plugins.lookup moduleName).join with
  | none => ⟨.noPlugin, actor, ctx, s⟩
  | some plugin =>
      match registry.get actor.objectId with
      | none => ⟨.noObject, actor, ctx, s⟩
      | some obj =>
          let executed := plugin.execute cityHash64 obj action input [] ctx s
          -- The guest's memory lives on in the actor's plugin, also after a failed call.
          let actor := { actor with
            plugins := actor.plugins.insert moduleName (some executed.plugin) }
          if executed.ok then
            let applied := obj.applyOutputDelta executed.output executed.storage
            ⟨if applied.1 then .applied else .deltaRejected, actor, executed.ctx, applied.2⟩
          else ⟨.executeFailed, actor, executed.ctx, executed.storage⟩

/-- The VM and the guest code that an invocation reaches: it finds its plugin, and `Execute` gets as
far as starting the guest. -/
def Reaches (actor : ActorWithObject) (moduleName action : String) (input : List UInt8) (vm : Vm)
    (guest : Guest) : Prop :=
  ∃ plugin, actor.plugins.lookup moduleName = some (some plugin) ∧
    plugin.entered cityHash64 action input = some (vm, guest)

/-- The guest ends with an output delta for the object with this header. -/
def EndsInDelta (vm : Vm) (guest : Guest) (header : ObjectHeader) (s : ComponentStorage) : Prop :=
  (guest.run (viewOf header).context s).GivesDelta
    (Vm.exported { vm with memory := (guest.run (viewOf header).context s).memory })

variable {cityHash64} {actor : ActorWithObject} {registry : ObjectRegistry}
  {moduleName action : String} {input : List UInt8} {ctx : HostContext} {s : ComponentStorage}

/-- An invocation that does not reach the guest, or that finds no object, writes nothing. -/
theorem invokeModule_storage_of_not_reaches
    (h : ∀ header vm guest, registry.objects.lookup actor.objectId = some header →
      ¬ actor.Reaches cityHash64 moduleName action input vm guest) :
    (actor.invokeModule cityHash64 registry moduleName action input ctx s).storage = s := by
  unfold invokeModule
  cases hplugin : (actor.plugins.lookup moduleName).join with
  | none => rfl
  | some plugin =>
    have hfound : actor.plugins.lookup moduleName = some (some plugin) :=
      Option.join_eq_some_iff.mp hplugin
    cases hobj : registry.objects.lookup actor.objectId with
    | none => simp [ObjectRegistry.get, hobj]
    | some header =>
      have hout : plugin.entered cityHash64 action input = none := by
        cases hentered : plugin.entered cityHash64 action input with
        | none => rfl
        | some entered => exact absurd ⟨plugin, hfound, hentered⟩ (h header _ _ hobj)
      have hfails := WasmEdgePlugin.execute_of_not_entered (viewOf header) [] ctx s hout
      simp [ObjectRegistry.get, hobj, hfails.1, hfails.2]

variable (cityHash64 action input ctx s) in
/-- With a plugin and an object, the invocation fails unless `Execute` succeeds with a delta, and a
failed one adds nothing to what `Execute` left. -/
theorem invokeModule_of_found {plugin : WasmEdgePlugin} {header : ObjectHeader}
    (hfound : actor.plugins.lookup moduleName = some (some plugin))
    (hobj : registry.objects.lookup actor.objectId = some header) :
    let executed := plugin.execute cityHash64 (viewOf header) action input [] ctx s
    let invoked := actor.invokeModule cityHash64 registry moduleName action input ctx s
    (invoked.exit.Failed ↔ ¬ (executed.ok = true ∧ GameObject.IsDelta executed.output)) ∧
      (invoked.exit.Failed → invoked.storage = executed.storage) := by
  intro executed invoked
  simp only [invoked, executed, invokeModule, hfound, Option.join_some, ObjectRegistry.get, hobj,
    Option.map_some, GameObject.applyOutputDelta_eq]
  generalize plugin.execute cityHash64 (viewOf header) action input [] ctx s = executed
  cases hok : executed.ok with
  | false => simp [InvokeExit.Failed]
  | true =>
    by_cases hdelta : GameObject.IsDelta executed.output
    · simp [InvokeExit.Failed, hdelta]
    · simp [InvokeExit.Failed, hdelta]

variable (ctx s) in
/-- An invocation whose guest runs fails exactly when the guest does not end in a delta, and then
leaves the storage as the guest left it. -/
theorem invokeModule_of_reaches {header : ObjectHeader} {vm : Vm} {guest : Guest}
    (hobj : registry.objects.lookup actor.objectId = some header)
    (hreach : actor.Reaches cityHash64 moduleName action input vm guest) :
    let invoked := actor.invokeModule cityHash64 registry moduleName action input ctx s
    (invoked.exit.Failed ↔ ¬ EndsInDelta vm guest header s) ∧
      (invoked.exit.Failed →
        invoked.storage = s.writeAll (guest.writes (viewOf header).context s)) := by
  obtain ⟨plugin, hfound, hentered⟩ := hreach
  obtain ⟨hok, houtput, hstorage⟩ :=
    WasmEdgePlugin.execute_of_entered (viewOf header) [] ctx s hentered
  obtain ⟨hfailed, hkept⟩ := invokeModule_of_found cityHash64 action input ctx s hfound hobj
  have hdelta : _ ↔ EndsInDelta vm guest header s :=
    takeOutput_isDelta_iff _ (guest.run (viewOf header).context s) []
  constructor
  · rw [hfailed, hok, houtput]
    exact not_congr hdelta
  · intro hfails
    rw [hkept hfails, hstorage]
    exact guest.run_storage _ s

variable (cityHash64 actor registry moduleName action input ctx s) in
/-- A failed invocation leaves every component as it was exactly when, if its guest ran and did not
end in a delta, the guest's own writes put back whatever they overwrote. -/
theorem failed_keeps_components_iff :
    ((actor.invokeModule cityHash64 registry moduleName action input ctx s).exit.Failed →
        ComponentStorage.SameComponents
          (actor.invokeModule cityHash64 registry moduleName action input ctx s).storage s) ↔
      ∀ header vm guest, registry.objects.lookup actor.objectId = some header →
        actor.Reaches cityHash64 moduleName action input vm guest →
          EndsInDelta vm guest header s ∨
            s.RestoredBy (guest.writes (viewOf header).context s) := by
  by_cases hruns : ∃ header vm guest, registry.objects.lookup actor.objectId = some header ∧
      actor.Reaches cityHash64 moduleName action input vm guest
  · obtain ⟨header, vm, guest, hobj, hreach⟩ := hruns
    obtain ⟨hfailed, hkept⟩ := invokeModule_of_reaches ctx s hobj hreach
    constructor
    · intro hsame header' vm' guest' hobj' hreach'
      obtain ⟨hfailed', hkept'⟩ := invokeModule_of_reaches ctx s hobj' hreach'
      by_cases hdelta : EndsInDelta vm' guest' header' s
      · exact Or.inl hdelta
      · have hfails := hfailed'.mpr hdelta
        have hcomponents := hsame hfails
        rw [hkept' hfails] at hcomponents
        exact Or.inr ((s.writeAll_sameComponents _).mp hcomponents)
    · intro hcond hfails
      rcases hcond header vm guest hobj hreach with hdelta | hrestored
      · exact absurd hdelta (hfailed.mp hfails)
      · rw [hkept hfails]
        exact (s.writeAll_sameComponents _).mpr hrestored
  · push Not at hruns
    refine iff_of_true (fun _ => ?_) (fun header vm guest hobj hreach => ?_)
    · rw [invokeModule_storage_of_not_reaches hruns]
    · exact absurd hreach (hruns header vm guest hobj)

end ActorWithObject

/-! ## A guest that fails after it has written

The module has no memory. Its `execute` function stores an empty component 7 and traps.
-/

/-- Store an empty component 7 of object 5, then trap. -/
def clearSevenThenTrap : Guest :=
  .host none (.setComponent 5 7 0 0) fun _ memory => .trap memory

/-- The initialized plugin of that module. -/
def trappingPlugin : WasmEdgePlugin :=
  ⟨true, some (some ⟨none, false, fun _ _ => clearSevenThenTrap⟩)⟩

/-- An actor for object 5 with that plugin under the name "room". -/
def trappingActor : ActorWithObject :=
  ⟨5, (∅ : UnorderedMap String (Option WasmEdgePlugin)).insert "room" (some trappingPlugin)⟩

/-- The invocation fails, and component 7 of its object has lost its bytes. -/
theorem trap_keeps_write :
    let before := ComponentStorage.empty.write 5 7 [1]
    let invoked := trappingActor.invokeModule (fun _ => 0) registryOfFive "room" "echo" []
      ⟨.null, 0⟩ before
    invoked.exit.Failed ∧ ¬ invoked.storage.SameComponents before := by
  intro before invoked
  refine ⟨by decide, fun hsame => ?_⟩
  have hcleared : invoked.storage.read 5 7 = some [] := by decide
  have hbefore : before.read 5 7 = some [1] := by decide
  rw [hsame 5 7, hbefore] at hcleared
  cases hcleared

end WasmHot
