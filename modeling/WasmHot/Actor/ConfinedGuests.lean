import WasmHot.Concurrent.SharedInvocations

/-!
# Guests that keep to their object

The host functions take the object id from the guest, so a guest may read and write any object. One
that keeps to an object names only that object in its calls; it may have learnt the id from
`get_current_object_id`, whose answer is the object that is executed.

What such a guest does depends on no component of another object (`Guest.run_congr`), and an
invocation that runs it leaves the other objects alone (`RunningInvoke.accesses_own`).
-/

namespace WasmHot

namespace ComponentStorage

namespace SameObject

variable {objectId : UInt64} {s t u : ComponentStorage}

theorem refl (objectId : UInt64) (s : ComponentStorage) : SameObject objectId s s := fun _ => rfl

theorem trans (h : SameObject objectId s t) (h' : SameObject objectId t u) :
    SameObject objectId s u :=
  fun type => (h type).trans (h' type)

/-- The same writes are made to both. -/
theorem writeAll (h : SameObject objectId s t) (writes : List ComponentWrite) :
    SameObject objectId (s.writeAll writes) (t.writeAll writes) := by
  intro type
  rw [read_writeAll, read_writeAll, h type]

end SameObject

/-- Writes to other objects are not seen. -/
theorem sameObject_writeAll {objectId : UInt64} {writes : List ComponentWrite}
    (h : ∀ w ∈ writes, w.objectId ≠ objectId) (s : ComponentStorage) :
    SameObject objectId (s.writeAll writes) s := by
  intro type
  have hmiss : ∀ w ∈ writes, w.key ≠ (objectId, type) :=
    fun w hw heq => h w hw (congrArg Prod.fst heq)
  exact read_writeAll_of_not_hit hmiss

end ComponentStorage

/-! ## Guests -/

/-- The call names no other object. -/
def HostCall.KeepsTo (objectId : UInt64) : HostCall → Prop
  | .getCurrentObjectId => True
  | .getComponent id _ _ _ => id = objectId
  | .setComponent id _ _ _ => id = objectId

/-- What the call can return while the object is executed. -/
def HostCall.CanReturn (objectId : UInt64) (out : HostValue) : HostCall → Prop
  | .getCurrentObjectId => out = .i64 objectId.toInt64
  | _ => True

/-- Executed for the object, the guest names no other one, whatever the host answers. -/
def Guest.KeepsTo (objectId : UInt64) : Guest → Prop
  | .trap _ => True
  | .ret _ _ => True
  | .host _ call next =>
      call.KeepsTo objectId ∧
        ∀ out memory, call.CanReturn objectId out → (next out memory).KeepsTo objectId

section

variable {objectId : UInt64} {ctx : HostContext} {s t : ComponentStorage}

theorem HostCall.canReturn_answer (call : HostCall) (memory : GuestMemory)
    (hctx : ctx.objectId = objectId) (s : ComponentStorage) :
    call.CanReturn objectId (call.answer ctx memory s).out := by
  cases call with
  | getCurrentObjectId =>
    subst hctx
    rfl
  | getComponent => trivial
  | setComponent => trivial

theorem HostCall.KeepsTo.sameAt {call : HostCall} (hkeeps : call.KeepsTo objectId)
    (h : s.SameObject objectId t) : SameAt call.reads s t := by
  intro key hkey
  cases call with
  | getCurrentObjectId => exact absurd hkey List.not_mem_nil
  | getComponent id type bufPtr bufCap =>
    cases List.mem_singleton.mp hkey
    cases hkeeps
    exact h type
  | setComponent => exact absurd hkey List.not_mem_nil

theorem HostCall.KeepsTo.accepted {call : HostCall} (hkeeps : call.KeepsTo objectId)
    {memory : GuestMemory} {w : ComponentWrite} (hw : w ∈ call.accepted ctx memory) :
    w.objectId = objectId := by
  cases call with
  | getCurrentObjectId => exact absurd hw List.not_mem_nil
  | getComponent => exact absurd hw List.not_mem_nil
  | setComponent id type bufPtr len =>
    simp only [HostCall.accepted] at hw
    split at hw
    · rw [List.mem_singleton.mp hw]
      exact hkeeps
    · exact absurd hw List.not_mem_nil

/-- A guest that keeps to its object does the same wherever that object shows the same. -/
theorem Guest.run_congr {guest : Guest} (hkeeps : guest.KeepsTo objectId)
    (hctx : ctx.objectId = objectId) (h : s.SameObject objectId t) :
    (guest.run ctx s).value = (guest.run ctx t).value ∧
      (guest.run ctx s).memory = (guest.run ctx t).memory ∧
      (guest.run ctx s).storage.SameObject objectId (guest.run ctx t).storage := by
  induction guest generalizing s t with
  | trap memory => exact ⟨rfl, rfl, h⟩
  | ret memory value => exact ⟨rfl, rfl, h⟩
  | host memory call next ih =>
    obtain ⟨hcall, hnext⟩ := hkeeps
    obtain ⟨hout, hmemory⟩ := call.answer_congr ctx memory (hcall.sameAt h)
    have hstorage : ComponentStorage.SameObject objectId (call.answer ctx memory s).storage
        (call.answer ctx memory t).storage := by
      rw [call.answer_storage, call.answer_storage]
      exact h.writeAll _
    simp only [Guest.run, hout, hmemory]
    exact ih _ _ (hnext _ _ (call.canReturn_answer memory hctx t)) hstorage

end

/-! ## Invocations -/

/-- The guest that runs, and every guest that the VM starts later, keeps to the object of the
view. -/
structure RunningInvoke.Confined (objectId : UInt64) (r : RunningInvoke) : Prop where
  object : r.obj.header.objectId = objectId
  guest : r.guest.KeepsTo objectId
  code : ∀ params memory, (r.vm.execute params memory).KeepsTo objectId

/-- Every guest that the actor's plugins start keeps to the actor's object. -/
def ActorWithObject.Confined (actor : ActorWithObject) : Prop :=
  ∀ name plugin vm, actor.plugins.lookup name = some (some plugin) → plugin.liveVm = some vm →
    ∀ params memory, (vm.execute params memory).KeepsTo actor.objectId

namespace RunningInvoke

variable {objectId : UInt64} {r : RunningInvoke} {st : InvokingActor} {s t : ComponentStorage}

/-- The delta goes to the object of the view. -/
theorem objectId_of_mem_invokeWrites {view : GameObject} {exported : GuestMemory}
    {value : Option Int32} {w : ComponentWrite}
    (hw : w ∈ SharedWorld.invokeWrites view exported value) :
    w.objectId = view.header.objectId := by
  simp only [SharedWorld.invokeWrites] at hw
  split at hw
  · unfold GameObject.deltaWrite at hw
    split at hw
    · rw [List.mem_singleton.mp hw]
    · exact absurd hw List.not_mem_nil
  · exact absurd hw List.not_mem_nil

/-- A step reads and writes the components of its object only. -/
theorem Confined.accesses_own (h : r.Confined objectId) :
    (∀ {s t}, ComponentStorage.SameObject objectId s t → SameAt r.accesses.1 s t) ∧
      ∀ w ∈ r.accesses.2, w.objectId = objectId := by
  obtain ⟨hobject, hguest, -⟩ := h
  have hdelta : ∀ exported value, ∀ w ∈ SharedWorld.invokeWrites r.obj exported value,
      w.objectId = objectId := fun _ _ _ hw => (objectId_of_mem_invokeWrites hw).trans hobject
  unfold accesses
  cases hrest : r.guest with
  | trap memory =>
    dsimp only
    exact ⟨fun _ _ hkey => absurd hkey List.not_mem_nil, hdelta _ _⟩
  | ret memory value =>
    dsimp only
    exact ⟨fun _ _ hkey => absurd hkey List.not_mem_nil, hdelta _ _⟩
  | host memory call next =>
    rw [hrest] at hguest
    exact ⟨fun hsame => hguest.1.sameAt hsame, fun w hw => hguest.1.accepted hw⟩

/-- The rest of an invocation leaves the same wherever its object shows the same. -/
theorem Confined.outcome_congr (h : r.Confined objectId) (st : InvokingActor)
    (hsame : s.SameObject objectId t) :
    (r.outcome st s).1 = (r.outcome st t).1 ∧
      (r.outcome st s).2.SameObject objectId (r.outcome st t).2 := by
  have hcontext : r.obj.context.objectId = objectId := h.object
  obtain ⟨hvalue, hmemory, hstorage⟩ := Guest.run_congr h.guest hcontext hsame
  simp only [outcome, hvalue, hmemory]
  rw [r.finish_eq st _ _ _ (r.guest.run r.obj.context t).storage]
  refine ⟨rfl, ?_⟩
  rw [r.finish_eq st _ _ (r.guest.run r.obj.context t).storage
    (r.guest.run r.obj.context t).storage]
  exact hstorage.writeAll _

/-- An invocation that ends leaves its actor's guests confined. -/
theorem Confined.finish (h : r.Confined objectId) (hactor : st.actor.Confined)
    (hid : st.actor.objectId = objectId) (memory : GuestMemory) (value : Option Int32)
    (s : ComponentStorage) : (r.finish st memory value s).1.actor.Confined := by
  intro name plugin vm hplugin hvm params memory'
  simp only [RunningInvoke.finish] at hplugin ⊢
  rw [UnorderedMap.lookup_insert] at hplugin
  split at hplugin
  · cases hplugin
    unfold WasmEdgePlugin.liveVm at hvm
    split at hvm
    · cases hvm
      rw [hid]
      exact h.code params memory'
    · cases hvm
  · exact hactor name plugin vm hplugin hvm params memory'

/-- What a step leaves: the end of the invocation, with the actor still confined, or a confined
invocation. -/
theorem Confined.advance (h : r.Confined objectId) (hactor : st.actor.Confined)
    (hid : st.actor.objectId = objectId) (s : ComponentStorage) :
    (r.advance st s).1.actor.Confined ∧ (r.advance st s).1.actor.objectId = objectId ∧
      ∀ r' ∈ (r.advance st s).1.running, r'.Confined objectId := by
  have hfinish : ∀ memory value, (r.finish st memory value s).1.actor.Confined ∧
      (r.finish st memory value s).1.actor.objectId = objectId ∧
      ∀ r' ∈ (r.finish st memory value s).1.running, r'.Confined objectId :=
    fun memory value => ⟨h.finish hactor hid memory value s, hid, fun _ hr' => nomatch hr'⟩
  unfold RunningInvoke.advance
  cases hrest : r.guest with
  | trap memory => exact hfinish memory none
  | ret memory value => exact hfinish memory (some value)
  | host memory call next =>
    have hguest := h.guest
    rw [hrest] at hguest
    refine ⟨hactor, hid, fun r' hr' => ?_⟩
    cases hr'
    exact ⟨h.object, hguest.2 _ _ (call.canReturn_answer memory h.object s), h.code⟩

end RunningInvoke

/-- An invocation that a confined actor begins is confined, where the registry keeps the object's own
id. -/
theorem InvokingActor.confined_of_enter {cityHash64 : String → UInt64} {registry : ObjectRegistry}
    {st : InvokingActor} {moduleName action : String} {input : List UInt8} {r : RunningInvoke}
    (hactor : st.actor.Confined)
    (hkeyed : ∀ header, registry.objects.lookup st.actor.objectId = some header →
      header.objectId = st.actor.objectId)
    (hrunning : (st.enter cityHash64 registry moduleName action input).running = some r) :
    r.Confined st.actor.objectId := by
  obtain ⟨plugin, obj, vm, guest, hplugin, hobj, hentered, rfl⟩ := enter_running_iff.mp hrunning
  obtain ⟨header, hheader, rfl⟩ := Option.map_eq_some_iff.mp hobj
  obtain ⟨vm', hvm, hplaced⟩ := Option.bind_eq_some_iff.mp hentered
  obtain ⟨memory, -, hguest⟩ := Option.map_eq_some_iff.mp hplaced
  cases hguest
  have hcode := hactor moduleName plugin _ (Option.join_eq_some_iff.mp hplugin) hvm
  exact ⟨hkeyed header hheader, hcode _ _, hcode⟩

end WasmHot
