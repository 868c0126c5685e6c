import WasmHot.Concurrent.SharedWorld
import WasmHot.Lib.Linearizability

/-!
# The calls of ObjectRegistry are linearizable

`Create`, `Get` and `Destroy` are ordered by the locks at one moment each: where the entry is
replaced, where the header is copied, where the entry is erased. What they do after that (the callback
of `Get`, the `RemoveAll` of `Destroy`) does not look at the registry, and a call counts as returned
from that moment on, which makes the order that real time asks for only stricter.

`Migrate` has no such moment. It reads the header before its first function and stores another one
after the last, and other threads create, get and migrate objects in between. `perform` does the
whole walk at once, on the header that is there then, with the functions leaving what they left in the
run. That this can be done at the time of the store is what holding the entry's mutex over the walk,
and the map's lock with it, is for.
-/

namespace WasmHot

/-- A call of `ObjectRegistry` with its arguments. For `Migrate` also with what its functions did:
the header each one left in its view, or nothing if it returned false. -/
inductive RegistryOp
  | create (header : ObjectHeader)
  | get (objectId : UInt64)
  | destroy (objectId : UInt64)
  | migrate (objectId : UInt64) (target : UInt32) (left : List (Option ObjectHeader))
  deriving DecidableEq

/-- What the caller gets. -/
inductive RegistryResult
  | created (objectId : UInt64)
  /-- The header of the view that the callback of `Get` gets. -/
  | header (header : Option ObjectHeader)
  | done
  | flag (ok : Bool)
  deriving DecidableEq

/-- The header of the view after the functions of a walk, if it ends at the target. -/
def headerAfter (target : UInt32) :
    ObjectHeader → UInt32 → List (Option ObjectHeader) → Option ObjectHeader
  | header, current, [] => if current = target then some header else none
  | _, _, none :: _ => none
  | _, current, some header :: left =>
      let next := nextVersion current target
      headerAfter target { header with schemaVersion := next } next left

/-- A plain map from object ids to headers. -/
abbrev PlainRegistry := UInt64 → Option ObjectHeader

namespace PlainRegistry

/-- The calls, on a plain map. -/
def perform : SequentialSpec RegistryOp RegistryResult PlainRegistry
  | .create header, m => (.created header.objectId, Function.update m header.objectId (some header))
  | .get objectId, m => (.header (m objectId), m)
  | .destroy objectId, m => (.done, Function.update m objectId none)
  | .migrate objectId target left, m =>
      match (m objectId).bind fun header =>
        headerAfter target header header.schemaVersion left with
      | none => (.flag false, m)
      | some header => (.flag true, Function.update m objectId (some header))

end PlainRegistry

/-- The header of each object in a registry. -/
def ObjectRegistry.plain (r : ObjectRegistry) : PlainRegistry := fun id => r.objects.lookup id

/-- The steps of a run counted, for each thread in a `Migrate` the time of its first step and what the
functions have left, and the calls in the order of their returns. -/
structure RegistryLog where
  clock : ℕ
  walks : UnorderedMap ThreadId (ℕ × List (Option ObjectHeader))
  completed : List (CompletedCall RegistryOp RegistryResult)

namespace RegistryLog

/-- The log before the first call. -/
def start : RegistryLog := ⟨0, ∅, []⟩

/-- A step passes. -/
def tick (log : RegistryLog) : RegistryLog := { log with clock := log.clock + 1 }

/-- A call returns in this step. -/
def finish (log : RegistryLog) (op : RegistryOp) (invoked : ℕ) (result : RegistryResult) :
    RegistryLog :=
  { log with
    clock := log.clock + 1
    completed := log.completed ++ [⟨op, result, invoked, log.clock⟩] }

/-- A function of a walk returned. -/
def leftByFunc (log : RegistryLog) (t : ThreadId) (header : ObjectHeader) : RegistryLog :=
  match log.walks.lookup t with
  | none => log
  | some (invoked, left) =>
      { log with walks := log.walks.insert t (invoked, left ++ [some header]) }

/-- A `Migrate` returns, perhaps out of a function. -/
def finishWalk (log : RegistryLog) (t : ThreadId) (objectId : UInt64) (target : UInt32)
    (last : List (Option ObjectHeader)) (ok : Bool) : RegistryLog :=
  match log.walks.lookup t with
  | none => log.tick
  | some (invoked, left) =>
      { log with walks := log.walks.erase t }.finish (.migrate objectId target (left ++ last)) invoked
        (.flag ok)

/-- The log after a step. -/
def record (log : RegistryLog) (s : SharedWorld) : SharedAction → RegistryLog
  | .create header => log.finish (.create header) log.clock (.created header.objectId)
  | .destroyErase _ objectId => log.finish (.destroy objectId) log.clock .done
  | .getSnapshot _ objectId =>
      log.finish (.get objectId) log.clock (.header ((s.registry.get objectId).map (·.header)))
  | .migrateBegin t objectId target =>
      match s.registry.get objectId with
      | none => log.finish (.migrate objectId target []) log.clock (.flag false)
      | some _ => { log with walks := log.walks.insert t (log.clock, []) }.tick
  | .funcReturn t ok header =>
      match s.calls.lookup t with
      | some (.migrating objectId target _ _ _) =>
          if ok then (log.leftByFunc t header).tick
          else log.finishWalk t objectId target [none] false
      | _ => log.tick
  | .migrateEnd t =>
      match s.calls.lookup t with
      | some (.migrating objectId target current _ _) =>
          log.finishWalk t objectId target [] (current = target)
      | _ => log.tick
  | _ => log.tick

end RegistryLog

/-- Runs from an empty server, with the calls of the registry logged. -/
def loggedRegistry : TransitionSystem (SharedWorld × RegistryLog) SharedAction :=
  (sharedSystem (· = .empty)).withHistory (fun _ => .start) RegistryLog.record

/-! ## Plain registries -/

namespace ObjectRegistry

theorem plain_insert (r : ObjectRegistry) (objectId : UInt64) (header : ObjectHeader) :
    (⟨r.objects.insert objectId header⟩ : ObjectRegistry).plain =
      Function.update r.plain objectId (some header) := by
  funext id
  simp only [plain, UnorderedMap.lookup_insert, Function.update_apply]

theorem plain_erase (r : ObjectRegistry) (objectId : UInt64) :
    (⟨r.objects.erase objectId⟩ : ObjectRegistry).plain =
      Function.update r.plain objectId none := by
  funext id
  simp only [plain, UnorderedMap.lookup_erase, Function.update_apply]

end ObjectRegistry

/-! ## The walk of a thread -/

/-- The object that a `Migrate` works on still has the header that it read, and what the functions
have left leads from this header to the view. -/
def Call.Walks (s : SharedWorld) (log : RegistryLog) (t : ThreadId) : Call → Prop
  | .migrating objectId target current view _ =>
      ∃ invoked left header, log.walks.lookup t = some (invoked, left) ∧ invoked ≤ log.clock ∧
        s.registry.objects.lookup objectId = some header ∧
        ∀ rest, headerAfter target header header.schemaVersion (left ++ rest) =
          headerAfter target view.header current rest
  | _ => True

variable {s s' : SharedWorld} {log log' : RegistryLog} {t : ThreadId} {call : Call}
  {blocks blocks' : List (CallBlock RegistryOp RegistryResult)} {start : PlainRegistry}

theorem Call.Walks.mono (h : call.Walks s log t) (hclock : log.clock ≤ log'.clock)
    (hwalk : log'.walks.lookup t = log.walks.lookup t)
    (hkept : ∀ objectId, call.locks = some objectId →
      s'.registry.objects.lookup objectId = s.registry.objects.lookup objectId) :
    call.Walks s' log' t := by
  cases call with
  | migrating objectId target current view inFunc =>
    obtain ⟨invoked, left, header, hleft, hinvoked, hheader, hsteps⟩ := h
    exact ⟨invoked, left, header, hwalk.trans hleft, hinvoked.trans hclock,
      (hkept objectId rfl).trans hheader, hsteps⟩
  | _ => trivial

/-- The log explains the registry and knows every walk in progress, and no object is in two walks. -/
structure Logged (start : PlainRegistry) (s : SharedWorld) (log : RegistryLog)
    (blocks : List (CallBlock RegistryOp RegistryResult)) : Prop where
  explains : Explains PlainRegistry.perform start blocks s.registry.plain log.clock log.completed
  walks : ∀ t call, s.calls.lookup t = some call → call.Walks s log t
  apart : ∀ t t' call call' objectId, s.calls.lookup t = some call →
    s.calls.lookup t' = some call' → call.locks = some objectId → call'.locks = some objectId →
    t = t'

namespace Logged

/-- A step of one thread: the walks of the others go on with the headers they have read. -/
theorem next (h : Logged start s log blocks)
    (hexplains : Explains PlainRegistry.perform start blocks' s'.registry.plain log'.clock
      log'.completed)
    (hclock : log.clock ≤ log'.clock)
    (hcalls : ∀ u call, s'.calls.lookup u = some call →
      (s.calls.lookup u = some call ∧ log'.walks.lookup u = log.walks.lookup u ∧
        ∀ objectId, call.locks = some objectId →
          s'.registry.objects.lookup objectId = s.registry.objects.lookup objectId) ∨
      (u = t ∧ call.Walks s' log' t ∧ ∀ objectId, call.locks = some objectId →
        s.EntryFree objectId ∨
          ∃ before, s.calls.lookup t = some before ∧ before.locks = some objectId)) :
    Logged start s' log' blocks' where
  explains := hexplains
  walks u call hcall := by
    rcases hcalls u call hcall with ⟨hbefore, hwalk, hkept⟩ | ⟨rfl, hwalks, -⟩
    · exact (h.walks u call hbefore).mono hclock hwalk hkept
    · exact hwalks
  apart u u' call call' objectId hcall hcall' hlocks hlocks' := by
    rcases hcalls u call hcall with ⟨hbefore, -⟩ | ⟨rfl, -, hnew⟩
    · rcases hcalls u' call' hcall' with ⟨hbefore', -⟩ | ⟨rfl, -, hnew'⟩
      · exact h.apart u u' call call' objectId hbefore hbefore' hlocks hlocks'
      · rcases hnew' objectId hlocks' with hfree | ⟨before, hbefore', hheld⟩
        · exact absurd hlocks (hfree.locks_ne hbefore)
        · exact h.apart u u' call before objectId hbefore hbefore' hlocks hheld
    · rcases hcalls u' call' hcall' with ⟨hbefore', -⟩ | ⟨rfl, -, -⟩
      · rcases hnew objectId hlocks with hfree | ⟨before, hbefore, hheld⟩
        · exact absurd hlocks' (hfree.locks_ne hbefore')
        · exact h.apart u u' before call' objectId hbefore hbefore' hheld hlocks'
      · rfl

/-- A step that does not change the registry and completes no call. -/
theorem quiet (h : Logged start s log blocks) (hregistry : s'.registry = s.registry)
    (hcalls : ∀ u call, s'.calls.lookup u = some call → s.calls.lookup u = some call ∨
      (u = t ∧ call.Walks s' log.tick t ∧ ∀ objectId, call.locks = some objectId →
        ∃ before, s.calls.lookup t = some before ∧ before.locks = some objectId)) :
    Logged start s' log.tick blocks := by
  refine h.next (t := t) ?_ (Nat.le_succ _) fun u call hcall => ?_
  · rw [hregistry]
    exact h.explains.wait (Nat.le_succ _)
  · rcases hcalls u call hcall with hbefore | ⟨rfl, hwalks, hlocks⟩
    · exact Or.inl ⟨hbefore, rfl, fun _ _ => by rw [hregistry]⟩
    · exact Or.inr ⟨rfl, hwalks, fun objectId hlock => Or.inr (hlocks objectId hlock)⟩

/-- A call that takes its effect in this step. -/
theorem finish (h : Logged start s log blocks) {op : RegistryOp} {result : RegistryResult}
    (hspec : PlainRegistry.perform op s.registry.plain = (result, s'.registry.plain))
    (hcalls : ∀ u call, s'.calls.lookup u = some call →
      (s.calls.lookup u = some call ∧ ∀ objectId, call.locks = some objectId →
          s'.registry.objects.lookup objectId = s.registry.objects.lookup objectId) ∨
      (u = t ∧ call.locks = none)) :
    ∃ blocks', Logged start s' (log.finish op log.clock result) blocks' := by
  refine ⟨_, h.next (t := t)
    (h.explains.commit (c := ⟨op, result, log.clock, log.clock⟩) le_rfl le_rfl hspec)
    (Nat.le_succ _) fun u call hcall => ?_⟩
  rcases hcalls u call hcall with ⟨hbefore, hkept⟩ | ⟨rfl, hlocks⟩
  · exact Or.inl ⟨hbefore, rfl, hkept⟩
  · refine Or.inr ⟨rfl, ?_, fun objectId hlock => absurd (hlocks.symm.trans hlock) nofun⟩
    cases call with
    | migrating => cases hlocks
    | _ => trivial

/-- A `Migrate` that returns in this step. -/
theorem finishWalk (h : Logged start s log blocks) {objectId : UInt64} {target current : UInt32}
    {view : GameObject} {inFunc ok : Bool} {last : List (Option ObjectHeader)}
    (hcall : s.calls.lookup t = some (.migrating objectId target current view inFunc))
    (hcalls : ∀ u, s'.calls.lookup u = if u = t then none else s.calls.lookup u)
    (hresult : match headerAfter target view.header current last with
      | none => ok = false ∧ s'.registry = s.registry
      | some header => ok = true ∧ s'.registry = ⟨s.registry.objects.insert objectId header⟩) :
    ∃ blocks', Logged start s' (log.finishWalk t objectId target last ok) blocks' := by
  obtain ⟨invoked, left, header, hwalk, hinvoked, hheader, hsteps⟩ := h.walks t _ hcall
  have hspec : PlainRegistry.perform (.migrate objectId target (left ++ last)) s.registry.plain =
      (.flag ok, s'.registry.plain) := by
    have hplain : s.registry.plain objectId = some header := hheader
    rw [PlainRegistry.perform, hplain, Option.bind_some, hsteps]
    cases hend : headerAfter target view.header current last with
    | none =>
      rw [hend] at hresult
      rw [hresult.1, hresult.2]
    | some header =>
      rw [hend] at hresult
      rw [hresult.1, hresult.2, ObjectRegistry.plain_insert]
  rw [RegistryLog.finishWalk, hwalk]
  dsimp only
  refine ⟨_, h.next (t := t) (h.explains.commit (c := ⟨_, _, invoked, log.clock⟩) hinvoked le_rfl
    hspec) (Nat.le_succ _) fun u call hu => ?_⟩
  rw [hcalls] at hu
  split at hu
  · cases hu
  · next hne =>
    refine Or.inl ⟨hu, (UnorderedMap.lookup_erase _ _ _).trans (if_neg hne), fun id hlock => ?_⟩
    -- The other thread's object is another one.
    have hid : id ≠ objectId := by
      rintro rfl
      exact hne (h.apart u t _ _ id hu hcall hlock rfl)
    cases hend : headerAfter target view.header current last with
    | none =>
      rw [hend] at hresult
      rw [hresult.2]
    | some header =>
      rw [hend] at hresult
      rw [hresult.2, UnorderedMap.lookup_insert, if_neg hid]

theorem create {header : ObjectHeader} (h : Logged start s log blocks)
    (hstep : s.create header = some s') :
    ∃ blocks', Logged start s' (log.record s (.create header)) blocks' := by
  obtain ⟨hfree, rfl⟩ := SharedWorld.create_eq hstep
  refine h.finish (t := 0) ?_ fun u call hcall =>
    Or.inl ⟨hcall, fun objectId hlock => absurd hlock (hfree.locks_ne hcall)⟩
  rw [PlainRegistry.perform, ← ObjectRegistry.plain_insert]
  rfl

theorem destroyErase {objectId : UInt64} (h : Logged start s log blocks)
    (hstep : s.destroyErase t objectId = some s') :
    ∃ blocks', Logged start s' (log.record s (.destroyErase t objectId)) blocks' := by
  simp only [SharedWorld.destroyErase, Option.ite_none_right_eq_some] at hstep
  obtain ⟨⟨hidle, hfree⟩, hstep⟩ := hstep
  split at hstep
  · next hnone =>
    cases hstep
    refine h.finish (t := t) ?_ fun u call hcall => Or.inl ⟨hcall, fun _ _ => rfl⟩
    rw [PlainRegistry.perform]
    exact congrArg _ (Function.update_eq_self_iff.mpr hnone.symm)
  · cases hstep
    refine h.finish (t := t) ?_ fun u call hcall => ?_
    · rw [PlainRegistry.perform, ← ObjectRegistry.plain_erase]
      rfl
    · rw [SharedWorld.lookup_enter] at hcall
      split at hcall
      · next hu =>
        cases hcall
        exact Or.inr ⟨hu, rfl⟩
      · exact Or.inl ⟨hcall, fun id hlock => absurd hlock (hfree.locks_ne hcall)⟩

theorem getSnapshot {objectId : UInt64} (h : Logged start s log blocks)
    (hstep : s.getSnapshot t objectId = some s') :
    ∃ blocks', Logged start s' (log.record s (.getSnapshot t objectId)) blocks' := by
  have hget : (s.registry.get objectId).map (·.header) = s.registry.plain objectId := by
    rw [ObjectRegistry.get, Option.map_map]
    exact Option.map_id_apply
  obtain ⟨hidle, hfree, rfl | ⟨header, hheader, rfl⟩⟩ := SharedWorld.getSnapshot_eq hstep
  · refine h.finish (t := t) ?_ fun u call hcall => Or.inl ⟨hcall, fun _ _ => rfl⟩
    rw [PlainRegistry.perform, hget]
  · refine h.finish (t := t) ?_ fun u call hcall => ?_
    · rw [PlainRegistry.perform, hget]
      rfl
    · rw [SharedWorld.lookup_enter] at hcall
      split at hcall
      · next hu =>
        cases hcall
        exact Or.inr ⟨hu, rfl⟩
      · exact Or.inl ⟨hcall, fun _ _ => rfl⟩

theorem migrateBegin {objectId : UInt64} {target : UInt32} (h : Logged start s log blocks)
    (hstep : s.migrateBegin t objectId target = some s') :
    ∃ blocks', Logged start s' (log.record s (.migrateBegin t objectId target)) blocks' := by
  simp only [SharedWorld.migrateBegin, Option.ite_none_right_eq_some] at hstep
  obtain ⟨⟨hidle, hfree⟩, hstep⟩ := hstep
  split at hstep
  · next hnone =>
    cases hstep
    simp only [RegistryLog.record, hnone]
    refine h.finish (t := t) ?_ fun u call hcall => Or.inl ⟨hcall, fun _ _ => rfl⟩
    have hplain : s.registry.plain objectId = none := Option.map_eq_none_iff.mp hnone
    rw [PlainRegistry.perform, hplain, Option.bind_none]
  · next view hview =>
    cases hstep
    simp only [RegistryLog.record, hview]
    obtain ⟨header, hheader, rfl⟩ := Option.map_eq_some_iff.mp hview
    refine ⟨blocks, h.next (t := t) (h.explains.wait (Nat.le_succ _)) (Nat.le_succ _)
      fun u call hcall => ?_⟩
    rw [SharedWorld.lookup_enter] at hcall
    split at hcall
    · next hu =>
      subst hu
      cases hcall
      refine Or.inr ⟨rfl, ⟨log.clock, [], header, ?_, Nat.le_succ _, hheader, fun rest => rfl⟩,
        fun id hlock => ?_⟩
      · exact (UnorderedMap.lookup_insert _ _ _ _).trans (if_pos rfl)
      · cases hlock
        exact Or.inl hfree
    · next hu =>
      exact Or.inl ⟨hcall, (UnorderedMap.lookup_insert _ _ _ _).trans (if_neg hu), fun _ _ => rfl⟩

theorem funcCall (h : Logged start s log blocks) (hstep : s.funcCall t = some s') :
    Logged start s' log.tick blocks := by
  obtain ⟨objectId, target, current, view, hbefore, -, rfl⟩ := SharedWorld.funcCall_eq hstep
  refine h.quiet (t := t) rfl fun u call hcall => ?_
  rw [SharedWorld.lookup_enter] at hcall
  split at hcall
  · next hu =>
    subst hu
    cases hcall
    have hwalks := h.walks u _ hbefore
    exact Or.inr ⟨rfl, hwalks.mono (Nat.le_succ _) rfl fun _ _ => rfl, fun id hlock =>
      ⟨_, hbefore, hlock⟩⟩
  · exact Or.inl hcall

theorem funcReturn {ok : Bool} {header : ObjectHeader} (h : Logged start s log blocks)
    (hstep : s.funcReturn t ok header = some s') :
    ∃ blocks', Logged start s' (log.record s (.funcReturn t ok header)) blocks' := by
  obtain ⟨objectId, target, current, view, hbefore, rfl⟩ := SharedWorld.funcReturn_eq hstep
  cases ok with
  | false =>
    simp only [RegistryLog.record, hbefore, Bool.false_eq_true, if_false]
    exact h.finishWalk hbefore (fun u => SharedWorld.lookup_leave _ _ _) ⟨rfl, rfl⟩
  | true =>
    simp only [RegistryLog.record, hbefore, if_true]
    obtain ⟨invoked, left, before, hwalk, hinvoked, hheader, hsteps⟩ := h.walks t _ hbefore
    rw [RegistryLog.leftByFunc, hwalk]
    refine ⟨blocks, h.next (t := t) (h.explains.wait (Nat.le_succ _)) (Nat.le_succ _)
      fun u call hcall => ?_⟩
    rw [SharedWorld.lookup_enter] at hcall
    split at hcall
    · next hu =>
      subst hu
      cases hcall
      refine Or.inr ⟨rfl, ⟨invoked, left ++ [some header], before, ?_,
        hinvoked.trans (Nat.le_succ _), hheader, fun rest => ?_⟩, fun id hlock =>
          Or.inr ⟨_, hbefore, hlock⟩⟩
      · exact (UnorderedMap.lookup_insert _ _ _ _).trans (if_pos rfl)
      · rw [List.append_assoc, hsteps]
        rfl
    · next hu =>
      exact Or.inl ⟨hcall, (UnorderedMap.lookup_insert _ _ _ _).trans (if_neg hu), fun _ _ => rfl⟩

theorem migrateEnd (h : Logged start s log blocks) (hstep : s.migrateEnd t = some s') :
    ∃ blocks', Logged start s' (log.record s (.migrateEnd t)) blocks' := by
  obtain ⟨objectId, target, current, view, hbefore, rfl⟩ := SharedWorld.migrateEnd_eq hstep
  simp only [RegistryLog.record, hbefore]
  by_cases hcurrent : current = target
  · rw [if_pos hcurrent]
    refine h.finishWalk hbefore (fun u => SharedWorld.lookup_leave _ _ _) ?_
    rw [headerAfter, if_pos hcurrent]
    exact ⟨decide_eq_true hcurrent, rfl⟩
  · rw [if_neg hcurrent]
    refine h.finishWalk hbefore (fun u => SharedWorld.lookup_leave _ _ _) ?_
    rw [headerAfter, if_neg hcurrent]
    exact ⟨decide_eq_false hcurrent, rfl⟩

theorem step {a : SharedAction} (h : Logged start s log blocks) (hstep : s.step a = some s') :
    ∃ blocks', Logged start s' (log.record s a) blocks' := by
  cases a with
  | create header => exact h.create hstep
  | destroyErase t objectId => exact h.destroyErase hstep
  -- The registry is not concerned: the call of the thread took effect before.
  | destroyRemoveAll t =>
    obtain ⟨objectId, -, rfl⟩ := SharedWorld.destroyRemoveAll_eq hstep
    refine ⟨blocks, h.quiet (t := t) rfl fun u call hcall => ?_⟩
    rw [SharedWorld.lookup_leave, Option.ite_none_left_eq_some] at hcall
    exact Or.inl hcall.2
  | getSnapshot t objectId => exact h.getSnapshot hstep
  | hostCall t call memory =>
    obtain ⟨_, _, -, rfl⟩ := SharedWorld.hostCall_eq hstep
    exact ⟨blocks, h.quiet (t := t) rfl fun u call hcall => Or.inl hcall⟩
  | invokeReturn t exported value =>
    obtain ⟨_, _, -, rfl⟩ := SharedWorld.invokeReturn_eq hstep
    refine ⟨blocks, h.quiet (t := t) rfl fun u call hcall => ?_⟩
    rw [SharedWorld.lookup_leave, Option.ite_none_left_eq_some] at hcall
    exact Or.inl hcall.2
  | register fromVersion toVersion =>
    cases hstep
    exact ⟨blocks, h.quiet (t := 0) rfl fun u call hcall => Or.inl hcall⟩
  | migrateBegin t objectId target => exact h.migrateBegin hstep
  | funcCall t => exact ⟨blocks, h.funcCall hstep⟩
  | funcWrite t w =>
    have hs' := SharedWorld.funcWrite_eq hstep
    subst hs'
    exact ⟨blocks, h.quiet (t := t) rfl fun u call hcall => Or.inl hcall⟩
  | funcRemove t objectId type =>
    have hs' := SharedWorld.funcRemove_eq hstep
    subst hs'
    exact ⟨blocks, h.quiet (t := t) rfl fun u call hcall => Or.inl hcall⟩
  | funcReturn t ok header => exact h.funcReturn hstep
  | migrateEnd t => exact h.migrateEnd hstep

end Logged

/-- In every interleaving of the calls of any threads, with any functions registered at any time and
doing anything to their views, the calls of the registry that have returned have a sequential order
that respects the order of non-overlapping calls and in which each of them returns what a plain map
gives, a `Migrate` performing its whole walk at once. -/
theorem registry_linearizable {p : SharedWorld × RegistryLog} (h : loggedRegistry.Reachable p) :
    ∃ order, SequentialSpec.Linearization PlainRegistry.perform (fun _ => none) p.2.completed
      order := by
  have hinv : ∃ blocks, Logged (fun _ => none) p.1 p.2 blocks := by
    refine h.invariant_withHistory (I := fun s log => ∃ blocks, Logged _ s log blocks) ?_
      fun s log a s' ⟨blocks, hinv⟩ _ hstep => hinv.step hstep
    rintro s rfl
    exact ⟨[], Explains.nil PlainRegistry.perform _ 0, fun _ _ => nofun, fun _ _ _ _ _ => nofun⟩
  obtain ⟨blocks, hinv⟩ := hinv
  exact ⟨_, hinv.explains.linearization⟩

/-- Thread 0 migrates object 5 to version 1. Meanwhile thread 1 gets object 6 and has it migrated to
the version that it has. -/
def getDuringMigrate : List SharedAction :=
  [.register 0 1, .create ⟨0, 1, 5⟩, .create ⟨0, 1, 6⟩, .migrateBegin 0 5 1, .funcCall 0,
    .getSnapshot 1 6, .migrateBegin 2 6 0, .migrateEnd 2, .funcReturn 0 true ⟨0, 1, 5⟩,
    .migrateEnd 0, .getSnapshot 2 5]

theorem registry_linearizable_getDuringMigrate :
    ∃ p, loggedRegistry.run (.empty, .start) getDuringMigrate = some p ∧
      p.2.completed = [⟨.create ⟨0, 1, 5⟩, .created 5, 1, 1⟩, ⟨.create ⟨0, 1, 6⟩, .created 6, 2, 2⟩,
        ⟨.get 6, .header (some ⟨0, 1, 6⟩), 5, 5⟩, ⟨.migrate 6 0 [], .flag true, 6, 7⟩,
        ⟨.migrate 5 1 [some ⟨0, 1, 5⟩], .flag true, 3, 9⟩,
        ⟨.get 5, .header (some ⟨1, 1, 5⟩), 10, 10⟩] ∧
      ∃ order, SequentialSpec.Linearization PlainRegistry.perform (fun _ => none) p.2.completed
        order := by
  have hstart : loggedRegistry.Reachable (.empty, .start) := .init ⟨rfl, rfl⟩
  exact ⟨_, rfl, rfl, registry_linearizable (hstart.of_run getDuringMigrate rfl)⟩

end WasmHot
