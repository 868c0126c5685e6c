import WasmHot.Actor.InvokeModule

/-!
# What an invocation writes

An invocation reaches the storage along two routes, the `set_component` calls of its guest and the
output delta. The delta names a component of the actor's own object. `set_component` takes the
object id from the guest, and the host does not compare it with the object that is executed.

`others_untouched_iff` is the exact condition under which the invocation leaves all other objects
alone.
-/

namespace WasmHot

namespace ComponentStorage

/-- A component that is written to has a last write. -/
theorem exists_lastWritten {writes : List ComponentWrite} {w : ComponentWrite} (hw : w ∈ writes) :
    ∃ data, lastWritten writes w.objectId w.type = some data := by
  have hhit : w ∈ writes.filter fun w' => w'.Hits w.objectId w.type :=
    List.mem_filter.mpr ⟨hw, decide_eq_true ⟨rfl, rfl⟩⟩
  have hlast := List.getLast?_eq_some_getLast (List.ne_nil_of_mem hhit)
  exact ⟨_, congrArg (Option.map ComponentWrite.data) hlast⟩

/-- Every component of the objects other than `objectId` is as it was in `s`, and no other object
has got an entry. -/
structure OthersUntouched (objectId : UInt64) (s s' : ComponentStorage) : Prop where
  components : ∀ id type, id ≠ objectId → s'.read id type = s.read id type
  entries : ∀ id, id ≠ objectId → s'.HasEntry id → s.HasEntry id

/-- A list of writes leaves the other objects alone exactly when the last write to each of their
components puts the old bytes back. -/
theorem writeAll_othersUntouched (objectId : UInt64) (s : ComponentStorage)
    (writes : List ComponentWrite) :
    OthersUntouched objectId s (s.writeAll writes) ↔
      ∀ id type data, id ≠ objectId → lastWritten writes id type = some data →
        s.read id type = some data := by
  constructor
  · intro huntouched id type data hid hlast
    have hread := huntouched.components id type hid
    rw [read_writeAll, hlast, Option.some_or] at hread
    exact hread.symm
  · intro hrestored
    constructor
    · intro id type hid
      rw [read_writeAll]
      cases hlast : lastWritten writes id type with
      | none => rfl
      | some data => rw [Option.some_or, hrestored id type data hid hlast]
    · intro id hid hentry
      rw [hasEntry_writeAll] at hentry
      rcases hentry with ⟨w, hw, rfl⟩ | hentry
      · -- what is put back was there, and so was its entry
        obtain ⟨data, hlast⟩ := exists_lastWritten hw
        exact hasEntry_of_read (hrestored _ _ data hid hlast)
      · exact hentry

end ComponentStorage

namespace ActorWithObject

/-- The write of the output delta, if the guest ends in one. -/
def deltaWrites (vm : Vm) (guest : Guest) (header : ObjectHeader) (s : ComponentStorage) :
    List ComponentWrite :=
  let run := guest.run (viewOf header).context s
  let taken := takeOutput (Vm.exported { vm with memory := run.memory }) run.value []
  if taken.1 = true ∧ GameObject.IsDelta taken.2 then
    [⟨header.objectId, loadU32 (taken.2.drop 4), taken.2.drop 8⟩]
  else []

/-- All writes of an invocation whose guest runs: those of the guest, then the delta. -/
def invocationWrites (vm : Vm) (guest : Guest) (header : ObjectHeader) (s : ComponentStorage) :
    List ComponentWrite :=
  guest.writes (viewOf header).context s ++ deltaWrites vm guest header s

/-- A delta is written to the object whose header the registry keeps. -/
theorem objectId_of_mem_deltaWrites {vm : Vm} {guest : Guest} {header : ObjectHeader}
    {s : ComponentStorage} {w : ComponentWrite} (hw : w ∈ deltaWrites vm guest header s) :
    w.objectId = header.objectId := by
  simp only [deltaWrites] at hw
  split at hw
  · rw [List.mem_singleton.mp hw]
  · cases hw

variable {cityHash64 : String → UInt64} {actor : ActorWithObject} {registry : ObjectRegistry}
  {moduleName action : String} {input : List UInt8}

/-- An invocation changes the storage by its writes and by nothing else. -/
theorem invokeModule_storage (ctx : HostContext) (s : ComponentStorage) {header : ObjectHeader}
    {vm : Vm} {guest : Guest} (hobj : registry.objects.lookup actor.objectId = some header)
    (hreach : actor.Reaches cityHash64 moduleName action input vm guest) :
    (actor.invokeModule cityHash64 registry moduleName action input ctx s).storage =
      s.writeAll (invocationWrites vm guest header s) := by
  obtain ⟨plugin, hfound, hentered⟩ := hreach
  obtain ⟨hok, houtput, hstorage⟩ :=
    WasmEdgePlugin.execute_of_entered (viewOf header) [] ctx s hentered
  rw [invocationWrites, ComponentStorage.writeAll_append, ← Guest.run_storage, ← hstorage]
  simp only [deltaWrites]
  rw [← hok, ← houtput]
  simp only [invokeModule, hfound, Option.join_some, ObjectRegistry.get, hobj, Option.map_some,
    GameObject.applyOutputDelta_eq]
  generalize plugin.execute cityHash64 (viewOf header) action input [] ctx s = executed
  cases hok : executed.ok with
  | false => rfl
  | true =>
    by_cases hdelta : GameObject.IsDelta executed.output
    · simp only [hdelta, and_self, if_true]
      rfl
    · simp only [hdelta, and_false, if_true, if_false]
      rfl

variable (cityHash64 actor registry moduleName action input) in
/-- An invocation leaves the components of all objects but the actor's alone, and makes no entry for
one, exactly when it does not reach its guest or for each component of another object the last write
of the guest, and of the delta, puts back the bytes the component had. -/
theorem others_untouched_iff (ctx : HostContext) (s : ComponentStorage) :
    ComponentStorage.OthersUntouched actor.objectId s
        (actor.invokeModule cityHash64 registry moduleName action input ctx s).storage ↔
      ∀ header vm guest, registry.objects.lookup actor.objectId = some header →
        actor.Reaches cityHash64 moduleName action input vm guest →
          ∀ id type data, id ≠ actor.objectId →
            lastWritten (invocationWrites vm guest header s) id type = some data →
              s.read id type = some data := by
  by_cases hruns : ∃ header vm guest, registry.objects.lookup actor.objectId = some header ∧
      actor.Reaches cityHash64 moduleName action input vm guest
  · constructor
    · intro huntouched header vm guest hobj hreach
      rw [invokeModule_storage ctx s hobj hreach] at huntouched
      exact (ComponentStorage.writeAll_othersUntouched _ s _).mp huntouched
    · intro hrestored
      obtain ⟨header, vm, guest, hobj, hreach⟩ := hruns
      rw [invokeModule_storage ctx s hobj hreach]
      exact (ComponentStorage.writeAll_othersUntouched _ s _).mpr
        (hrestored header vm guest hobj hreach)
  · push Not at hruns
    refine iff_of_true ?_ fun header vm guest hobj hreach => absurd hreach (hruns header vm guest hobj)
    rw [invokeModule_storage_of_not_reaches hruns]
    exact ⟨fun _ _ _ => rfl, fun _ _ hentry => hentry⟩

end ActorWithObject

/-! ## A guest that writes to another object -/

/-- Store an empty component 7 of object 6 and return without an output. -/
def storeInSix : Guest :=
  .host none (.setComponent 6 7 0 0) fun _ memory => .ret memory 0

/-- An actor for object 5 with an initialized plugin of that module under the name "room". -/
def meddlingActor : ActorWithObject :=
  ⟨5, (∅ : UnorderedMap String (Option WasmEdgePlugin)).insert "room"
    (some ⟨true, some (some ⟨none, false, fun _ _ => storeInSix⟩)⟩)⟩

/-- The invocation on object 5 overwrites a component of object 6. -/
theorem other_object_written :
    ¬ ComponentStorage.OthersUntouched 5 (ComponentStorage.empty.write 6 7 [1])
      (meddlingActor.invokeModule (fun _ => 0) registryOfFive "room" "echo" [] ⟨.null, 0⟩
        (ComponentStorage.empty.write 6 7 [1])).storage := by
  intro huntouched
  have hread := huntouched.components 6 7 (by decide)
  revert hread
  decide

end WasmHot
