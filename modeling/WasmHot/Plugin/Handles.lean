import WasmHot.Lib.HandleLog
import WasmHot.Plugin.HostContext

/-!
# The handles of a plugin

A `WasmEdgePlugin` owns a VM and a host module, which it gets from WasmEdge in `Initialize` and gives
back in `Shutdown`, in its destructor and on every way out of an `Initialize` that fails. Here a call
is what it does to these handles; which calls to WasmEdge succeed, and what the guest does, is left
open.

Whatever is called in whatever order, the plugin holds its two handles exactly while it is
initialized, and after the destructor every handle has been deleted once (`handles_balanced`). What
`WasmEdgePlugin` does with module files and guests is among what is left open here
(`Used.exists_calls`).
-/

namespace WasmHot

/-- A handle from WasmEdge: the number says how many were created before it. -/
inductive Handle
  | vm (serial : ℕ)
  | hostModule (serial : ℕ)
  deriving DecidableEq

/-- How many handles were created before. -/
def Handle.serial : Handle → ℕ
  | vm serial => serial
  | hostModule serial => serial

/-- WasmEdge as a plugin sees it: the number of handles created, and what was done to them. -/
structure WasmEdge where
  created : ℕ
  log : HandleLog Handle
  deriving DecidableEq

namespace WasmEdge

/-- Before any call. -/
def initial : WasmEdge := ⟨0, []⟩

/-- A new handle. -/
def create (w : WasmEdge) (h : Handle) : WasmEdge := ⟨w.created + 1, w.log ++ [.created h]⟩

/-- A call on the handle, or on what belongs to it. -/
def use (w : WasmEdge) (h : Handle) : WasmEdge := { w with log := w.log ++ [.used h] }

/-- `WasmEdge_VMDelete` or `WasmEdge_ModuleInstanceDelete`. -/
def delete (w : WasmEdge) (h : Handle) : WasmEdge := { w with log := w.log ++ [.deleted h] }

end WasmEdge

/-- `WasmEdgePlugin::WasmEdgeState`. -/
structure WasmEdgeState where
  vm : Option Handle
  /-- The memory is part of the VM that is given here. -/
  memory : Option Handle
  hostModule : Option Handle
  deriving DecidableEq

/-- The members of a `WasmEdgePlugin` that have to do with its handles. -/
structure PluginHandles where
  state : Option WasmEdgeState
  initialized : Bool
  deriving DecidableEq

/-- What a call leaves, with what it returns. -/
structure PluginCalled where
  ok : Bool
  plugin : PluginHandles
  lib : WasmEdge
  deriving DecidableEq

/-- How the calls to WasmEdge in an `Initialize` come out. -/
structure InitializeCalls where
  vmCreate : Bool
  moduleInstanceCreate : Bool
  loadWasmFromFile : Bool
  validate : Bool
  registerModuleFromImport : Bool
  /-- The start function calls the host module. -/
  startCallsHost : Bool
  instantiate : Bool
  /-- There is an active module, and it has a memory of the name. -/
  findMemory : Bool
  deriving DecidableEq

/-- The input of an `Execute`, and how the calls to WasmEdge in it come out. -/
structure ExecuteCalls where
  input : List UInt8
  setData : Bool
  /-- The guest calls the host module. -/
  callsHost : Bool
  /-- The value of `WasmEdge_VMExecute`, if it succeeds. -/
  value : Option Int32
  getData : Bool
  deriving DecidableEq

namespace PluginHandles

/-- The constructor. -/
def new : PluginHandles := ⟨none, false⟩

/-- `CreateHostModule` where the module is created: its three functions are added to it. -/
def createHostModule (w : WasmEdge) (h : Handle) : WasmEdge :=
  (((w.create h).use h).use h).use h

/-- A way out of `Initialize` with both handles created. -/
def cleanUp (p : PluginHandles) (vm hostModule : Handle) (w : WasmEdge) : PluginCalled :=
  ⟨false, { p with state := none }, (w.delete hostModule).delete vm⟩

/-- Go on after a call to WasmEdge that has succeeded, and clean up after one that has not. -/
def orCleanUp (p : PluginHandles) (vm hostModule : Handle) (ok : Bool) (w : WasmEdge)
    (next : WasmEdge → PluginCalled) : PluginCalled :=
  if ok then next w else p.cleanUp vm hostModule w

/-- `Initialize`. -/
def initializeWith (p : PluginHandles) (o : InitializeCalls) (w : WasmEdge) : PluginCalled :=
  if p.initialized then ⟨true, p, w⟩
  else
    -- `state_` is new: what the old one held is forgotten, not deleted.
    if !o.vmCreate then ⟨false, { p with state := none }, w⟩
    else
      let vm := Handle.vm w.created
      let w := w.create vm
      if !o.moduleInstanceCreate then ⟨false, { p with state := none }, w.delete vm⟩
      else
        let hostModule := Handle.hostModule w.created
        let w := createHostModule w hostModule
        p.orCleanUp vm hostModule o.loadWasmFromFile (w.use vm) fun w =>
        p.orCleanUp vm hostModule o.validate (w.use vm) fun w =>
        p.orCleanUp vm hostModule o.registerModuleFromImport ((w.use vm).use hostModule) fun w =>
        p.orCleanUp vm hostModule o.instantiate
          (if o.startCallsHost then (w.use vm).use hostModule else w.use vm) fun w =>
        -- `WasmEdge_VMGetActiveModule`
        ⟨true, ⟨some ⟨some vm, if o.findMemory then some vm else none, some hostModule⟩, true⟩,
          w.use vm⟩

/-- Delete a handle, if there is one. -/
def deleteIfAny (w : WasmEdge) : Option Handle → WasmEdge
  | some h => w.delete h
  | none => w

/-- `ShutdownImpl`, which `Shutdown` and the destructor call. -/
def shutdownImpl (p : PluginHandles) (w : WasmEdge) : PluginHandles × WasmEdge :=
  match p.state with
  | none => (⟨none, false⟩, w)
  | some state =>
      (⟨some ⟨none, none, none⟩, false⟩, deleteIfAny (deleteIfAny w state.vm) state.hostModule)

/-- The input is put into the memory, if there is one and the input has bytes. -/
def placeInput (memory : Option Handle) (o : ExecuteCalls) (w : WasmEdge) : Bool × WasmEdge :=
  match memory with
  | none => (true, w)
  | some m =>
      if o.input.isEmpty then (true, w)
      else if o.input.length > 4096 then (false, w)
      else (o.setData, w.use m)

/-- The output is taken from the memory. -/
def takeOutput (memory : Option Handle) (o : ExecuteCalls) (w : WasmEdge) : Bool × WasmEdge :=
  match o.value with
  | none => (false, w)
  | some retLen =>
      if retLen < 0 then (false, w)
      else if retLen > 0 then
        if retLen > 4096 then (false, w)
        else
          match memory with
          | some m => (o.getData, w.use m)
          | none => (true, w)
      else (true, w)

/-- `Execute`. -/
def execute (p : PluginHandles) (o : ExecuteCalls) (w : WasmEdge) : PluginCalled :=
  match p.initialized, p.state with
  | true, some ⟨some vm, memory, hostModule⟩ =>
      let placed := placeInput memory o w
      if placed.1 then
        let w := placed.2.use vm
        let w := match o.callsHost, hostModule with
          | true, some h => w.use h
          | _, _ => w
        let taken := takeOutput memory o w
        ⟨taken.1, p, taken.2⟩
      else ⟨false, p, placed.2⟩
  | _, _ => ⟨false, p, w⟩

end PluginHandles

/-- A call on a plugin. -/
inductive PluginCall
  | initializeWith (o : InitializeCalls)
  | execute (o : ExecuteCalls)
  | shutdown
  deriving DecidableEq

/-- The state a call leaves. -/
def PluginHandles.call (s : PluginHandles × WasmEdge) : PluginCall → PluginHandles × WasmEdge
  | .initializeWith o => ((s.1.initializeWith o s.2).plugin, (s.1.initializeWith o s.2).lib)
  | .execute o => ((s.1.execute o s.2).plugin, (s.1.execute o s.2).lib)
  | .shutdown => s.1.shutdownImpl s.2

/-- The state after some calls on a new plugin. -/
def PluginHandles.afterCalls (calls : List PluginCall) : PluginHandles × WasmEdge :=
  calls.foldl PluginHandles.call (.new, .initial)

theorem PluginHandles.afterCalls_concat (calls : List PluginCall) (c : PluginCall) :
    afterCalls (calls ++ [c]) = call (afterCalls calls) c := by
  rw [afterCalls, List.foldl_append]
  rfl

/-! ## What WasmEdge is left with -/

open HandleLog in
/-- These handles are live, none was used or deleted out of its time, and the next one is new. -/
structure WasmEdge.Has (w : WasmEdge) (S : Set Handle) : Prop where
  holds : Holds w.log S
  fresh : ∀ h : Handle, w.created ≤ h.serial → Allows w.log (.created h)

namespace WasmEdge.Has

variable {w : WasmEdge} {S : Set Handle} {h : Handle}

theorem create (hw : w.Has S) (hserial : h.serial = w.created) : (w.create h).Has (insert h S) := by
  refine ⟨hw.holds.created (hw.fresh h hserial.ge), fun g hg => ?_⟩
  have hlater : w.created + 1 ≤ g.serial := hg
  obtain ⟨hcreated, hdeleted⟩ := hw.fresh g (by omega)
  have hne : g ≠ h := by
    rintro rfl
    omega
  constructor
  · simpa [WasmEdge.create, hne] using hcreated
  · simpa [WasmEdge.create] using hdeleted

theorem use (hw : w.Has S) (hmem : h ∈ S) : (w.use h).Has S := by
  refine ⟨hw.holds.used hmem, fun g hg => ?_⟩
  obtain ⟨hcreated, hdeleted⟩ := hw.fresh g hg
  constructor
  · simpa [WasmEdge.use] using hcreated
  · simpa [WasmEdge.use] using hdeleted

theorem delete (hw : w.Has S) (hmem : h ∈ S) : (w.delete h).Has (S \ {h}) := by
  refine ⟨hw.holds.deleted hmem, fun g hg => ?_⟩
  obtain ⟨hcreated, hdeleted⟩ := hw.fresh g hg
  have hne : g ≠ h := by
    -- A live handle was created.
    rintro rfl
    exact hcreated ((hw.holds.live g).mpr hmem).1
  constructor
  · simpa [WasmEdge.delete] using hcreated
  · simpa [WasmEdge.delete, hne] using hdeleted

end WasmEdge.Has

/-! ## What a plugin holds -/

/-- A plugin between two calls: not initialized and without a handle, or initialized with two that
are live. Nothing else is live. -/
inductive PluginHandles.Owns : PluginHandles → WasmEdge → Prop
  | idle {state : Option WasmEdgeState} {w : WasmEdge}
      (hstate : state = none ∨ state = some ⟨none, none, none⟩) (hw : w.Has ∅) :
      Owns ⟨state, false⟩ w
  | held {vm hostModule : Handle} {memory : Option Handle} {w : WasmEdge} (hne : vm ≠ hostModule)
      (hmemory : ∀ m ∈ memory, m = vm) (hw : w.Has {hostModule, vm}) :
      Owns ⟨some ⟨some vm, memory, some hostModule⟩, true⟩ w

namespace PluginHandles

variable {p : PluginHandles} {w : WasmEdge} {vm hostModule : Handle}

/-- Deleting the two handles, in either order, leaves none. -/
theorem has_empty {h h' : Handle} (hne : h ≠ h') (hw : w.Has {h, h'}) :
    ((w.delete h).delete h').Has ∅ := by
  have hother : h' ∈ ({h, h'} : Set Handle) \ {h} :=
    ⟨Or.inr rfl, fun heq => hne (Set.mem_singleton_iff.mp heq).symm⟩
  have hnot : h ∉ ({h'} : Set Handle) := fun heq => hne (Set.mem_singleton_iff.mp heq)
  have hempty : (({h, h'} : Set Handle) \ {h}) \ {h'} = ∅ := by
    rw [Set.insert_sdiff_self_of_notMem hnot, Set.sdiff_self]
  rw [← hempty]
  exact (hw.delete (Or.inl rfl)).delete hother

/-- A way out that cleans up leaves a plugin without handles. -/
theorem owns_cleanUp (hinit : p.initialized = false) (hne : vm ≠ hostModule)
    (hw : w.Has {hostModule, vm}) :
    Owns (p.cleanUp vm hostModule w).plugin (p.cleanUp vm hostModule w).lib := by
  have hplugin : (p.cleanUp vm hostModule w).plugin = ⟨none, false⟩ := by
    rw [cleanUp, hinit]
  rw [hplugin]
  exact .idle (Or.inl rfl) (has_empty hne.symm hw)

/-- So does a call to WasmEdge that fails; where it succeeds, the rest decides. -/
theorem owns_orCleanUp (hinit : p.initialized = false) (hne : vm ≠ hostModule) (ok : Bool)
    (hw : w.Has {hostModule, vm}) {next : WasmEdge → PluginCalled}
    (hnext : Owns (next w).plugin (next w).lib) :
    Owns (p.orCleanUp vm hostModule ok w next).plugin (p.orCleanUp vm hostModule ok w next).lib := by
  cases ok with
  | true => exact hnext
  | false => exact owns_cleanUp hinit hne hw

theorem has_createHostModule {S : Set Handle} {h : Handle} (hw : w.Has S)
    (hserial : h.serial = w.created) : (createHostModule w h).Has (insert h S) := by
  have hmem : h ∈ insert h S := Set.mem_insert h S
  exact (((hw.create hserial).use hmem).use hmem).use hmem

/-- `Initialize` gets both handles or keeps none. -/
theorem Owns.initializeWith (hp : p.Owns w) (o : InitializeCalls) :
    Owns (p.initializeWith o w).plugin (p.initializeWith o w).lib := by
  cases hp with
  | held hne hmemory hw => exact .held hne hmemory hw
  | @idle state w hstate hw =>
    unfold PluginHandles.initializeWith
    rw [if_neg Bool.false_ne_true]
    cases o.vmCreate with
    | false => exact .idle (Or.inl rfl) hw
    | true =>
      have hvm : (w.create (.vm w.created)).Has {.vm w.created} := by
        have hcreated := hw.create (h := .vm w.created) rfl
        rwa [insert_empty_eq] at hcreated
      cases o.moduleInstanceCreate with
      | false =>
        have hnone := hvm.delete (Set.mem_singleton _)
        rw [Set.sdiff_self] at hnone
        exact .idle (Or.inl rfl) hnone
      | true =>
        have hboth := has_createHostModule hvm (h := .hostModule (w.created + 1)) rfl
        have hmem : Handle.vm w.created ∈
            ({.hostModule (w.created + 1), .vm w.created} : Set Handle) := Or.inr rfl
        have hmem' : Handle.hostModule (w.created + 1) ∈
            ({.hostModule (w.created + 1), .vm w.created} : Set Handle) := Or.inl rfl
        have hne : Handle.vm w.created ≠ Handle.hostModule (w.created + 1) := nofun
        -- The rest uses the two handles, and each of its calls can be the one that fails.
        have hinit : (⟨state, false⟩ : PluginHandles).initialized = false := rfl
        have hload := hboth.use hmem
        have hvalidate := hload.use hmem
        have hregister := (hvalidate.use hmem).use hmem'
        simp only [Bool.not_true, Bool.false_eq_true, if_false]
        refine owns_orCleanUp hinit hne _ hload ?_
        refine owns_orCleanUp hinit hne _ hvalidate ?_
        refine owns_orCleanUp hinit hne _ hregister ?_
        have hmemory : ∀ m ∈ (if o.findMemory then some (Handle.vm w.created) else none),
            m = Handle.vm w.created := by
          intro m hm
          split at hm
          · exact (Option.some.inj hm).symm
          · cases hm
        cases o.startCallsHost with
        | true =>
          have hstart := (hregister.use hmem).use hmem'
          refine owns_orCleanUp hinit hne _ hstart ?_
          exact .held hne hmemory (hstart.use hmem)
        | false =>
          have hstart := hregister.use hmem
          refine owns_orCleanUp hinit hne _ hstart ?_
          exact .held hne hmemory (hstart.use hmem)

/-- Shutting a plugin down leaves it without handles. -/
theorem Owns.shutdownImpl (hp : p.Owns w) :
    Owns (p.shutdownImpl w).1 (p.shutdownImpl w).2 ∧ (p.shutdownImpl w).2.Has ∅ := by
  cases hp with
  | idle hstate hw =>
    rcases hstate with rfl | rfl
    · exact ⟨.idle (Or.inl rfl) hw, hw⟩
    · exact ⟨.idle (Or.inr rfl) hw, hw⟩
  | @held vm hostModule memory w hne hmemory hw =>
    rw [Set.pair_comm] at hw
    have hnone := has_empty hne hw
    exact ⟨.idle (Or.inr rfl) hnone, hnone⟩

theorem has_placeInput {S : Set Handle} {memory : Option Handle} (hw : w.Has S)
    (hmemory : ∀ m ∈ memory, m ∈ S) (o : ExecuteCalls) : (placeInput memory o w).2.Has S := by
  unfold placeInput
  cases memory with
  | none => exact hw
  | some m =>
    dsimp only
    split_ifs
    · exact hw
    · exact hw
    · exact hw.use (hmemory m rfl)

theorem has_takeOutput {S : Set Handle} {memory : Option Handle} (hw : w.Has S)
    (hmemory : ∀ m ∈ memory, m ∈ S) (o : ExecuteCalls) : (takeOutput memory o w).2.Has S := by
  unfold takeOutput
  cases o.value with
  | none => exact hw
  | some retLen =>
    dsimp only
    split_ifs
    · exact hw
    · exact hw
    · cases memory with
      | none => exact hw
      | some m => exact hw.use (hmemory m rfl)
    · exact hw

/-- `Execute` uses what the plugin holds and keeps it. -/
theorem Owns.execute (hp : p.Owns w) (o : ExecuteCalls) :
    Owns (p.execute o w).plugin (p.execute o w).lib := by
  cases hp with
  | idle hstate hw => exact .idle hstate hw
  | @held vm hostModule memory w hne hmemory hw =>
    have hvm : vm ∈ ({hostModule, vm} : Set Handle) := Or.inr rfl
    have hmodule : hostModule ∈ ({hostModule, vm} : Set Handle) := Or.inl rfl
    have hmemory' : ∀ m ∈ memory, m ∈ ({hostModule, vm} : Set Handle) := by
      intro m hm
      rw [hmemory m hm]
      exact hvm
    have hplaced := has_placeInput hw hmemory' o
    simp only [PluginHandles.execute]
    split
    · have hran := hplaced.use hvm
      cases o.callsHost with
      | true => exact .held hne hmemory (has_takeOutput (hran.use hmodule) hmemory' o)
      | false => exact .held hne hmemory (has_takeOutput hran hmemory' o)
    · exact .held hne hmemory hplaced

/-- Every call keeps the balance. -/
theorem Owns.call {s : PluginHandles × WasmEdge} (hs : s.1.Owns s.2) (c : PluginCall) :
    (PluginHandles.call s c).1.Owns (PluginHandles.call s c).2 := by
  cases c with
  | initializeWith o => exact hs.initializeWith o
  | execute o => exact hs.execute o
  | shutdown => exact hs.shutdownImpl.1

/-- So does any sequence of calls. -/
theorem owns_afterCalls (calls : List PluginCall) :
    (afterCalls calls).1.Owns (afterCalls calls).2 := by
  induction calls using List.reverseRecOn with
  | nil =>
    refine .idle (Or.inl rfl) ⟨HandleLog.Holds.nil, fun h _ => ?_⟩
    exact ⟨List.not_mem_nil, List.not_mem_nil⟩
  | append_singleton calls c ih =>
    rw [afterCalls_concat]
    exact ih.call c

end PluginHandles

/-! ## The balance -/

open HandleLog in
/-- The balance of a plugin: between two calls it holds a live VM and a live host module when it is
initialized and nothing is live when it is not, and after the destructor every handle has been
deleted once, and nothing was done to it after that. -/
structure HandlesBalanced (p : PluginHandles) (w : WasmEdge) : Prop where
  held : p.initialized = true ↔ ∃ state vm hostModule, p.state = some state ∧
    state.vm = some vm ∧ state.hostModule = some hostModule ∧
    Live w.log vm ∧ Live w.log hostModule
  idle : p.initialized = false → ∀ h, ¬ Live w.log h
  once : ∀ h, .created h ∈ (p.shutdownImpl w).2.log →
    (p.shutdownImpl w).2.log.count (.deleted h) = 1
  inTime : ∀ front h rest, (p.shutdownImpl w).2.log = front ++ .deleted h :: rest →
    .created h ∈ front ∧ .used h ∉ rest ∧ .deleted h ∉ rest
  usedLive : ∀ front h rest, (p.shutdownImpl w).2.log = front ++ .used h :: rest → Live front h

/-- After any sequence of `Initialize`, `Execute` and `Shutdown` calls, whichever calls to WasmEdge
fail in them, the handles of the plugin are balanced. -/
theorem handles_balanced (calls : List PluginCall) :
    HandlesBalanced (PluginHandles.afterCalls calls).1 (PluginHandles.afterCalls calls).2 := by
  have howns := PluginHandles.owns_afterCalls calls
  have hnone := howns.shutdownImpl.2.holds
  refine ⟨?_, fun hinit h hlive => ?_, fun h hcreated => ?_, fun front h rest hsplit => ?_,
    fun front h rest hsplit => ?_⟩
  · generalize PluginHandles.afterCalls calls = s at howns
    obtain ⟨p, w⟩ := s
    cases howns with
    | idle hstate hw =>
      refine iff_of_false Bool.false_ne_true ?_
      rintro ⟨state, vm, hostModule, hstate', hvm, -⟩
      rcases hstate with rfl | rfl
      · cases hstate'
      · cases hstate'
        cases hvm
    | @held vm hostModule memory w hne hmemory hw =>
      refine iff_of_true rfl ⟨_, vm, hostModule, rfl, rfl, rfl, ?_, ?_⟩
      · exact (hw.holds.live vm).mpr (Or.inr rfl)
      · exact (hw.holds.live hostModule).mpr (Or.inl rfl)
  · generalize PluginHandles.afterCalls calls = s at howns hinit hlive
    obtain ⟨p, w⟩ := s
    cases howns with
    | idle hstate hw => exact (hw.holds.live h).mp hlive
    | held hne hmemory hw => cases hinit
  · exact hnone.sound.count_deleted hcreated fun hlive => (hnone.live h).mp hlive
  · have hafter := hnone.sound.not_mem_after hsplit
    exact ⟨(hnone.sound front _ rest hsplit).1, hafter.2⟩
  · exact hnone.sound front _ rest hsplit

/-- A module file that cannot be loaded: both handles are deleted before `Initialize` returns. -/
example : (PluginHandles.afterCalls
    [.initializeWith ⟨true, true, false, true, true, false, true, true⟩]).2.log =
      [.created (.vm 0), .created (.hostModule 1), .used (.hostModule 1), .used (.hostModule 1),
        .used (.hostModule 1), .used (.vm 0), .deleted (.hostModule 1), .deleted (.vm 0)] :=
  rfl

/-! ## The plugin the handles belong to -/

namespace WasmEdgePlugin

/-- The plugin has a VM where it has the handle of one, and so with the memory that the VM's module
exports. -/
structure HasHandles (p : WasmEdgePlugin) (q : PluginHandles) : Prop where
  initialized : q.initialized = p.initialized
  vm : (q.state.bind (·.vm)).isSome = (p.state.bind id).isSome
  memory : ∀ vm, p.state.bind id = some vm →
    (q.state.bind (·.memory)).isSome = vm.exported.isSome

variable {p : WasmEdgePlugin} {q : PluginHandles}

/-- Neither has anything. -/
theorem hasHandles_none : HasHandles ⟨false, none⟩ ⟨none, false⟩ := ⟨rfl, rfl, nofun⟩

/-- A VM is held, and its memory where the module exports one. -/
theorem hasHandles_some (vm : Vm) (v h : Handle) :
    HasHandles ⟨true, some (some vm)⟩
      ⟨some ⟨some v, if vm.exported.isSome then some v else none, some h⟩, true⟩ := by
  refine ⟨rfl, rfl, fun vm' hvm' => ?_⟩
  cases Option.some.inj hvm'
  cases vm.exported <;> rfl

/-- What `Initialize` makes of a module file is what it does for some outcome of its calls to
WasmEdge. -/
theorem HasHandles.initializeFrom (h : p.HasHandles q) (file : Option WasmModule)
    (ctx : HostContext) (s : ComponentStorage) (w : WasmEdge) :
    ∃ o, (q.initializeWith o w).ok = (p.initializeFrom file ctx s).ok ∧
      (p.initializeFrom file ctx s).plugin.HasHandles (q.initializeWith o w).plugin := by
  obtain ⟨qstate, qinit⟩ := q
  cases hinit : p.initialized with
  | true =>
    obtain rfl : qinit = true := h.initialized.trans hinit
    refine ⟨⟨true, true, true, true, true, false, true, true⟩, ?_⟩
    unfold WasmEdgePlugin.initializeFrom
    rw [if_pos hinit]
    exact ⟨rfl, h⟩
  | false =>
    obtain rfl : qinit = false := h.initialized.trans hinit
    unfold WasmEdgePlugin.initializeFrom
    rw [if_neg (Bool.not_eq_true _ ▸ hinit)]
    cases file with
    | none => exact ⟨⟨true, true, false, true, true, false, true, true⟩, rfl, hasHandles_none⟩
    | some m =>
      dsimp only
      -- Each way through `Initialize` is the one for these answers of WasmEdge.
      cases hstart : m.start with
      | none =>
        exact ⟨⟨true, true, true, true, true, false, true, (m.vm m.memory).exported.isSome⟩, rfl,
          hasHandles_some _ _ _⟩
      | some guest =>
        dsimp only
        cases hvalue : (guest.run ctx s).value with
        | none => exact ⟨⟨true, true, true, true, true, true, false, true⟩, rfl, hasHandles_none⟩
        | some value =>
          exact ⟨⟨true, true, true, true, true, true, true,
            (m.vm (guest.run ctx s).memory).exported.isSome⟩, rfl, hasHandles_some _ _ _⟩

/-- `Shutdown` gives up the VM and its handles. -/
theorem hasHandles_shutdown (p : WasmEdgePlugin) (q : PluginHandles) (w : WasmEdge) :
    p.shutdown.HasHandles (q.shutdownImpl w).1 := by
  have hnone : p.shutdown.state.bind id = none := by
    unfold WasmEdgePlugin.shutdown
    cases p.state <;> rfl
  have hnone' : (q.shutdownImpl w).1.state.bind (·.vm) = none := by
    unfold PluginHandles.shutdownImpl
    cases q.state <;> rfl
  have hinit : (q.shutdownImpl w).1.initialized = false := by
    unfold PluginHandles.shutdownImpl
    cases q.state <;> rfl
  refine ⟨hinit, ?_, fun vm hvm => ?_⟩
  · rw [hnone, hnone']
    rfl
  · rw [hnone] at hvm
    cases hvm

variable (cityHash64 : String → UInt64)

/-- The memory a guest leaves is exported where the one it was started on was. -/
def KeepsMemory (p : WasmEdgePlugin) (obj : GameObject) (action : String) (input : List UInt8)
    (s : ComponentStorage) : Prop :=
  ∀ vm guest, p.entered cityHash64 action input = some (vm, guest) →
    (Vm.exported { vm with memory := (guest.run obj.context s).memory }).isSome =
      vm.exported.isSome

/-- The input is placed in the one model where it is placed in the other. -/
theorem placeInput_ok (vm : Vm) (m : Option Handle) (hmemory : m.isSome = vm.exported.isSome)
    (o : ExecuteCalls) (ho : o.setData = (vm.placeInput o.input).isSome) (w : WasmEdge) :
    (PluginHandles.placeInput m o w).1 = (vm.placeInput o.input).isSome := by
  unfold Vm.placeInput at ho ⊢
  unfold PluginHandles.placeInput
  cases hexported : vm.exported with
  | none =>
    rw [hexported] at hmemory
    obtain rfl := Option.isSome_eq_false_iff.mp hmemory |> Option.isNone_iff_eq_none.mp
    rfl
  | some bytes =>
    rw [hexported] at hmemory ho
    obtain ⟨v, rfl⟩ := Option.isSome_iff_exists.mp hmemory
    dsimp only at ho ⊢
    by_cases hempty : o.input.isEmpty
    · rw [if_pos hempty, if_pos hempty]
      rfl
    · rw [if_neg hempty] at ho ⊢
      rw [if_neg hempty]
      by_cases hlong : o.input.length > 4096
      · rw [if_pos hlong, if_pos (by exact hlong)]
        rfl
      · rw [if_neg hlong]
        exact ho

/-- The output is taken in the one model where it is taken in the other. -/
theorem takeOutput_ok (exported : GuestMemory) (m : Option Handle)
    (hmemory : m.isSome = exported.isSome) (o : ExecuteCalls) (output : List UInt8)
    (ho : o.getData = (takeOutput exported o.value output).1) (w : WasmEdge) :
    (PluginHandles.takeOutput m o w).1 = (takeOutput exported o.value output).1 := by
  unfold takeOutput at ho ⊢
  unfold PluginHandles.takeOutput
  cases hvalue : o.value with
  | none => rfl
  | some retLen =>
    rw [hvalue] at ho
    dsimp only at ho ⊢
    by_cases hneg : retLen < 0
    · rw [if_pos hneg, if_pos hneg]
    rw [if_neg hneg] at ho ⊢
    rw [if_neg hneg]
    by_cases hpos : retLen > 0
    swap
    · rw [if_neg hpos, if_neg hpos]
    rw [if_pos hpos] at ho ⊢
    rw [if_pos hpos]
    by_cases hbig : retLen > outputCap.toInt32
    · rw [if_pos hbig, if_pos (by exact hbig)]
    rw [if_neg hbig] at ho ⊢
    rw [if_neg (by exact hbig)]
    cases exported with
    | none =>
      -- Both models have a memory or neither has.
      obtain rfl : m = none := by simpa using hmemory
      rfl
    | some bytes =>
      obtain ⟨v, rfl⟩ := Option.isSome_iff_exists.mp hmemory
      exact ho

/-- `Execute` gets past its first check with a VM's handle, and with its memory's if there is one. -/
theorem HasHandles.of_liveVm {vm : Vm} (h : p.HasHandles q) (hvm : p.liveVm = some vm) :
    ∃ v m hostModule, q = ⟨some ⟨some v, m, hostModule⟩, true⟩ ∧
      m.isSome = vm.exported.isSome := by
  obtain ⟨hinit, hstate⟩ := Option.ite_none_right_eq_some.mp hvm
  obtain ⟨qstate, qinit⟩ := q
  obtain rfl : qinit = true := h.initialized.trans hinit
  have hsome := h.vm
  rw [hstate] at hsome
  obtain ⟨v, hv⟩ := Option.isSome_iff_exists.mp hsome
  obtain ⟨state, rfl, hv⟩ := Option.bind_eq_some_iff.mp hv
  obtain ⟨handle, m, hostModule⟩ := state
  obtain rfl : handle = some v := hv
  exact ⟨v, m, hostModule, rfl, h.memory vm hstate⟩

/-- Without a VM `Execute` does nothing. -/
theorem HasHandles.execute_of_not_live (h : p.HasHandles q) (hvm : p.liveVm = none)
    (o : ExecuteCalls) (w : WasmEdge) : q.execute o w = ⟨false, q, w⟩ := by
  unfold PluginHandles.execute
  split
  · next v m hostModule hinit hstate =>
    have hsome := h.vm
    rw [liveVm, if_pos (h.initialized.symm.trans hinit)] at hvm
    rw [hstate, hvm] at hsome
    cases hsome
  · rfl

/-- The result of an `Execute` that has a VM. -/
theorem execute_held (v : Handle) (m hostModule : Option Handle) (o : ExecuteCalls)
    (w : WasmEdge) :
    ∃ w', (PluginHandles.execute ⟨some ⟨some v, m, hostModule⟩, true⟩ o w).ok =
        ((PluginHandles.placeInput m o w).1 && (PluginHandles.takeOutput m o w').1) ∧
      (PluginHandles.execute ⟨some ⟨some v, m, hostModule⟩, true⟩ o w).plugin =
        ⟨some ⟨some v, m, hostModule⟩, true⟩ := by
  simp only [PluginHandles.execute]
  cases (PluginHandles.placeInput m o w).1 with
  | true => exact ⟨_, rfl, rfl⟩
  | false => exact ⟨w, rfl, rfl⟩

/-- So is what `Execute` makes of a guest that keeps its memory. -/
theorem HasHandles.execute (h : p.HasHandles q) (obj : GameObject) (action : String)
    (input output : List UInt8) (ctx : HostContext) (s : ComponentStorage)
    (hkeeps : p.KeepsMemory cityHash64 obj action input s) (w : WasmEdge) :
    ∃ o, (q.execute o w).ok = (p.execute cityHash64 obj action input output ctx s).ok ∧
      (p.execute cityHash64 obj action input output ctx s).plugin.HasHandles
        (q.execute o w).plugin := by
  cases hvm : p.liveVm with
  -- Without a live VM `Execute` makes no call, so the answers of WasmEdge do not matter.
  | none =>
    refine ⟨⟨input, true, false, none, true⟩, ?_⟩
    rw [h.execute_of_not_live hvm, WasmEdgePlugin.execute, hvm]
    exact ⟨rfl, h⟩
  | some vm =>
    obtain ⟨v, m, hostModule, rfl, hmemory⟩ := h.of_liveVm hvm
    unfold WasmEdgePlugin.execute
    rw [hvm]
    dsimp only
    cases hplaced : vm.placeInput input with
    | none =>
      refine ⟨⟨input, false, false, none, true⟩, ?_⟩
      obtain ⟨w', hok, hplugin⟩ :=
        execute_held v m hostModule ⟨input, false, false, none, true⟩ w
      rw [hok, hplugin, placeInput_ok vm m hmemory _ (by rw [hplaced]; rfl), hplaced]
      exact ⟨rfl, h⟩
    | some memory =>
      -- The guest gets a name, so that the rewriting below leaves its run folded.
      obtain ⟨guest, hguest⟩ :
          ∃ guest, guest = vm.execute (paramsFor cityHash64 action input) memory := ⟨_, rfl⟩
      have hentered : p.entered cityHash64 action input = some (vm, guest) := by
        rw [entered, hvm, Option.bind_some, hplaced, hguest]
        rfl
      have hkept := hkeeps vm guest hentered
      obtain ⟨o, ho⟩ : ∃ o : ExecuteCalls, o = ⟨input, true, true, (guest.run obj.context s).value,
        (takeOutput (Vm.exported { vm with memory := (guest.run obj.context s).memory })
          (guest.run obj.context s).value output).1⟩ := ⟨_, rfl⟩
      -- The answers `o` are what WasmEdge says to this guest: its value, and whether the output was
      -- taken.
      refine ⟨o, ?_⟩
      obtain ⟨w', hok, hplugin⟩ := execute_held v m hostModule o w
      rw [hok, hplugin, placeInput_ok vm m hmemory _ (by rw [ho, hplaced]; rfl),
        takeOutput_ok _ m (hmemory.trans hkept.symm) o output (by rw [ho]), ho, hplaced]
      dsimp only
      rw [← hguest]
      refine ⟨rfl, h.initialized, rfl, fun vm' hvm' => ?_⟩
      cases Option.some.inj hvm'
      exact hmemory.trans hkept.symm

/-- What calls make of a new plugin, with guests that keep their memory. -/
inductive Used : WasmEdgePlugin → Prop
  | new : Used .new
  | initializeFrom {p : WasmEdgePlugin} (hp : Used p) (file : Option WasmModule)
      (ctx : HostContext) (s : ComponentStorage) : Used (p.initializeFrom file ctx s).plugin
  | execute {p : WasmEdgePlugin} (hp : Used p) (obj : GameObject) (action : String)
      (input output : List UInt8) (ctx : HostContext) (s : ComponentStorage)
      (hkeeps : p.KeepsMemory cityHash64 obj action input s) :
      Used (p.execute cityHash64 obj action input output ctx s).plugin
  | shutdown {p : WasmEdgePlugin} (hp : Used p) : Used p.shutdown

/-- The handles of a plugin are those that some of the calls above leave. -/
theorem Used.exists_calls (hp : p.Used cityHash64) :
    ∃ calls, p.HasHandles (PluginHandles.afterCalls calls).1 := by
  induction hp with
  | new => exact ⟨[], hasHandles_none⟩
  | initializeFrom hp file ctx s ih =>
    obtain ⟨calls, ih⟩ := ih
    obtain ⟨o, -, h⟩ := ih.initializeFrom file ctx s (PluginHandles.afterCalls calls).2
    refine ⟨calls ++ [.initializeWith o], ?_⟩
    rw [PluginHandles.afterCalls_concat]
    exact h
  | execute hp obj action input output ctx s hkeeps ih =>
    obtain ⟨calls, ih⟩ := ih
    obtain ⟨o, -, h⟩ := ih.execute cityHash64 obj action input output ctx s hkeeps
      (PluginHandles.afterCalls calls).2
    refine ⟨calls ++ [.execute o], ?_⟩
    rw [PluginHandles.afterCalls_concat]
    exact h
  | shutdown hp ih =>
    obtain ⟨calls, ih⟩ := ih
    refine ⟨calls ++ [.shutdown], ?_⟩
    rw [PluginHandles.afterCalls_concat]
    exact hasHandles_shutdown _ _ _

end WasmEdgePlugin

end WasmHot
