import WasmHot.Actor.Mailbox
import WasmHot.Lib.UnorderedMap
import Mathlib.Data.Finmap
import Mathlib.Logic.Function.Basic

/-!
# ActorRuntime

The runtime keeps the actors by id. `SendMessage` looks the target up under the shared lock and
enqueues afterwards, through the pointer it has copied; `Tick` copies all pointers and then schedules
one tick after the other. So an actor can be killed, or replaced by another one with its id, between
the lookup and the enqueue, and a killed actor lives on as long as calls and tasks point to it.

Actors are told apart by number here, and the `actor_id` of each is fixed. The threads include those
that run the strands: a message sent from inside a handler is a call of the handler's thread.
-/

namespace WasmHot

/-- Where a thread is in a call that has left the registry. -/
inductive RuntimeCall
  /-- `SendMessage` has found its actor. -/
  | sending (target : ℕ) (msg : ActorMessage)
  /-- `SendMessage` is in the critical section of `EnqueueMessage`. -/
  | enqueuing (target : ℕ)
  /-- `Tick` has still to schedule the actors of the rest of its snapshot. -/
  | ticking (intervalMs : UInt64) (snapshot : List ℕ)
  deriving DecidableEq

/-- `ActorRuntime`, with the actors it has ever been given and the calls in progress. -/
structure Runtime where
  actors : UnorderedMap UInt64 ℕ
  instances : ℕ → Actor
  calls : UnorderedMap ThreadId RuntimeCall

/-- One step of a thread or of a strand. -/
inductive RuntimeAction
  | spawn (target : ℕ)
  | kill (actorId : UInt64)
  | sendLookup (t : ThreadId) (fromId toId : UInt64) (payload : List UInt8)
  | enqueuePush (t : ThreadId)
  | enqueuePost (t : ThreadId)
  | enqueueUnlock (t : ThreadId)
  | tickSnapshot (t : ThreadId) (intervalMs : UInt64) (order : List ℕ)
  | tickSchedule (t : ThreadId)
  | tickReturn (t : ThreadId)
  | strand (target : ℕ) (action : ActorAction)

/-- The steps of a strand that runs its tasks. -/
def ActorAction.OfStrand : ActorAction → Bool
  | .startTask _ => true
  | .swapMailbox => true
  | .handleCall => true
  | .handleReturn => true
  | .batchDone => true
  | .tickReturn => true
  | _ => false

namespace Runtime

/-- Before the first call. -/
def start : Runtime := ⟨∅, fun _ => .fresh, ∅⟩

/-- One actor takes a step. -/
def setActor (s : Runtime) (target : ℕ) (a : Actor) : Runtime :=
  { s with instances := Function.update s.instances target a }

/-- The thread goes on to another place. -/
def enter (s : Runtime) (t : ThreadId) (call : RuntimeCall) : Runtime :=
  { s with calls := s.calls.insert t call }

/-- The thread returns from its call. -/
def leave (s : Runtime) (t : ThreadId) : Runtime :=
  { s with calls := s.calls.erase t }

/-- `SendMessage` up to the end of its lookup. -/
def sendLookup (s : Runtime) (t : ThreadId) (fromId toId : UInt64) (payload : List UInt8) :
    Option Runtime :=
  if s.calls.lookup t = none then
    match s.actors.lookup toId with
    | none => some s
    | some target => some (s.enter t (.sending target ⟨fromId, payload⟩))
  else none

/-- `EnqueueMessage` of the actor found, up to `push_back`. -/
def enqueuePush (s : Runtime) (t : ThreadId) : Option Runtime :=
  match s.calls.lookup t with
  | some (.sending target msg) =>
      ((s.instances target).enqueuePush (.thread t) msg).map fun a =>
        (s.setActor target a).enter t (.enqueuing target)
  | _ => none

/-- The thread is in the critical section of the actor. -/
def HoldsMutex (s : Runtime) (t : ThreadId) (target : ℕ) : Prop :=
  (s.instances target).mutex.map Prod.fst = some (.thread t)

instance (s : Runtime) (t : ThreadId) (target : ℕ) : Decidable (s.HoldsMutex t target) :=
  inferInstanceAs (Decidable (_ = _))

/-- The post in the critical section. -/
def enqueuePost (s : Runtime) (t : ThreadId) : Option Runtime :=
  match s.calls.lookup t with
  | some (.enqueuing target) =>
      if s.HoldsMutex t target then (s.instances target).enqueuePost.map (s.setActor target)
      else none
  | _ => none

/-- The end of the critical section and of `SendMessage`. -/
def enqueueUnlock (s : Runtime) (t : ThreadId) : Option Runtime :=
  match s.calls.lookup t with
  | some (.enqueuing target) =>
      if s.HoldsMutex t target then
        (s.instances target).enqueueUnlock.map fun a => (s.setActor target a).leave t
      else none
  | _ => none

/-- `Tick` up to the end of its copy, in the order of the hash map. -/
def tickSnapshot (s : Runtime) (t : ThreadId) (intervalMs : UInt64) (order : List ℕ) :
    Option Runtime :=
  if s.calls.lookup t = none ∧ (order : Multiset ℕ) = s.actors.entries.map (·.2) then
    some (s.enter t (.ticking intervalMs order))
  else none

/-- `ScheduleTick` of the next actor of the snapshot. -/
def tickSchedule (s : Runtime) (t : ThreadId) : Option Runtime :=
  match s.calls.lookup t with
  | some (.ticking intervalMs (target :: rest)) =>
      ((s.instances target).step (.scheduleTick intervalMs)).map fun a =>
        (s.setActor target a).enter t (.ticking intervalMs rest)
  | _ => none

/-- `Tick` returns. -/
def tickReturn (s : Runtime) (t : ThreadId) : Option Runtime :=
  match s.calls.lookup t with
  | some (.ticking _ []) => some (s.leave t)
  | _ => none

/-- A strand takes a step. -/
def strandStep (s : Runtime) (target : ℕ) (action : ActorAction) : Option Runtime :=
  if action.OfStrand then ((s.instances target).step action).map (s.setActor target) else none

/-- The step of an action, where it is enabled. -/
def step (actorId : ℕ → UInt64) (s : Runtime) : RuntimeAction → Option Runtime
  | .spawn target => some { s with actors := s.actors.insert (actorId target) target }
  | .kill id => some { s with actors := s.actors.erase id }
  | .sendLookup t fromId toId payload => s.sendLookup t fromId toId payload
  | .enqueuePush t => s.enqueuePush t
  | .enqueuePost t => s.enqueuePost t
  | .enqueueUnlock t => s.enqueueUnlock t
  | .tickSnapshot t intervalMs order => s.tickSnapshot t intervalMs order
  | .tickSchedule t => s.tickSchedule t
  | .tickReturn t => s.tickReturn t
  | .strand target action => s.strandStep target action

/-! ## What each step does -/

variable {s s' : Runtime} {t : ThreadId}

theorem instances_setActor (s : Runtime) (target other : ℕ) (a : Actor) :
    (s.setActor target a).instances other = if other = target then a else s.instances other :=
  Function.update_apply ..

theorem lookup_enter (s : Runtime) (t t' : ThreadId) (call : RuntimeCall) :
    (s.enter t call).calls.lookup t' = if t' = t then some call else s.calls.lookup t' :=
  UnorderedMap.lookup_insert ..

theorem lookup_leave (s : Runtime) (t t' : ThreadId) :
    (s.leave t).calls.lookup t' = if t' = t then none else s.calls.lookup t' :=
  UnorderedMap.lookup_erase ..

/-- A thread with this call goes on with it when another thread goes on to its next call. -/
theorem lookup_enter_of_ne {call call' : RuntimeCall} {t' : ThreadId}
    (hcall : s.calls.lookup t ≠ some call) (ht' : s.calls.lookup t' = some call) :
    (s.enter t call').calls.lookup t' = some call := by
  have hne : t' ≠ t := fun heq => hcall (heq ▸ ht')
  rw [lookup_enter, if_neg hne, ht']

/-- A thread with this call goes on with it when another thread returns. -/
theorem lookup_leave_of_ne {call : RuntimeCall} {t' : ThreadId}
    (hcall : s.calls.lookup t ≠ some call) (ht' : s.calls.lookup t' = some call) :
    (s.leave t).calls.lookup t' = some call := by
  have hne : t' ≠ t := fun heq => hcall (heq ▸ ht')
  rw [lookup_leave, if_neg hne, ht']

theorem sendLookup_eq {fromId toId : UInt64} {payload : List UInt8}
    (h : s.sendLookup t fromId toId payload = some s') :
    s.calls.lookup t = none ∧
      (s.actors.lookup toId = none ∧ s' = s ∨ ∃ target, s.actors.lookup toId = some target ∧
        s' = s.enter t (.sending target ⟨fromId, payload⟩)) := by
  simp only [sendLookup, Option.ite_none_right_eq_some] at h
  obtain ⟨hidle, h⟩ := h
  refine ⟨hidle, ?_⟩
  split at h
  · next hlookup => exact Or.inl ⟨hlookup, (Option.some.inj h).symm⟩
  · next target hlookup => exact Or.inr ⟨target, hlookup, (Option.some.inj h).symm⟩

theorem enqueuePush_eq (h : s.enqueuePush t = some s') :
    ∃ target msg a, s.calls.lookup t = some (.sending target msg) ∧
      (s.instances target).enqueuePush (.thread t) msg = some a ∧
      s' = (s.setActor target a).enter t (.enqueuing target) := by
  unfold enqueuePush at h
  split at h
  · next target msg hcall =>
    obtain ⟨a, ha, rfl⟩ := Option.map_eq_some_iff.mp h
    exact ⟨target, msg, a, hcall, ha, rfl⟩
  · cases h

theorem enqueuePost_eq (h : s.enqueuePost t = some s') :
    ∃ target a, s.calls.lookup t = some (.enqueuing target) ∧
      (s.instances target).enqueuePost = some a ∧ s' = s.setActor target a := by
  unfold enqueuePost at h
  split at h
  · next target hcall =>
    obtain ⟨-, h⟩ := Option.ite_none_right_eq_some.mp h
    obtain ⟨a, ha, rfl⟩ := Option.map_eq_some_iff.mp h
    exact ⟨target, a, hcall, ha, rfl⟩
  · cases h

theorem enqueueUnlock_eq (h : s.enqueueUnlock t = some s') :
    ∃ target a, s.calls.lookup t = some (.enqueuing target) ∧
      (s.instances target).enqueueUnlock = some a ∧ s' = (s.setActor target a).leave t := by
  unfold enqueueUnlock at h
  split at h
  · next target hcall =>
    obtain ⟨-, h⟩ := Option.ite_none_right_eq_some.mp h
    obtain ⟨a, ha, rfl⟩ := Option.map_eq_some_iff.mp h
    exact ⟨target, a, hcall, ha, rfl⟩
  · cases h

theorem tickSnapshot_eq {intervalMs : UInt64} {order : List ℕ}
    (h : s.tickSnapshot t intervalMs order = some s') :
    s.calls.lookup t = none ∧ (order : Multiset ℕ) = s.actors.entries.map (·.2) ∧
      s' = s.enter t (.ticking intervalMs order) := by
  simp only [tickSnapshot, Option.ite_none_right_eq_some, Option.some.injEq] at h
  exact ⟨h.1.1, h.1.2, h.2.symm⟩

theorem tickSchedule_eq (h : s.tickSchedule t = some s') :
    ∃ intervalMs target rest a, s.calls.lookup t = some (.ticking intervalMs (target :: rest)) ∧
      (s.instances target).step (.scheduleTick intervalMs) = some a ∧
      s' = (s.setActor target a).enter t (.ticking intervalMs rest) := by
  unfold tickSchedule at h
  split at h
  · next intervalMs target rest hcall =>
    obtain ⟨a, ha, rfl⟩ := Option.map_eq_some_iff.mp h
    exact ⟨intervalMs, target, rest, a, hcall, ha, rfl⟩
  · cases h

theorem tickReturn_eq (h : s.tickReturn t = some s') :
    ∃ intervalMs, s.calls.lookup t = some (.ticking intervalMs []) ∧ s' = s.leave t := by
  unfold tickReturn at h
  split at h
  · next intervalMs hcall => exact ⟨intervalMs, hcall, (Option.some.inj h).symm⟩
  · cases h

theorem strandStep_eq {target : ℕ} {action : ActorAction}
    (h : s.strandStep target action = some s') :
    ∃ a, action.OfStrand = true ∧ (s.instances target).step action = some a ∧
      s' = s.setActor target a := by
  unfold strandStep at h
  obtain ⟨hstrand, h⟩ := Option.ite_none_right_eq_some.mp h
  obtain ⟨a, ha, rfl⟩ := Option.map_eq_some_iff.mp h
  exact ⟨a, hstrand, ha, rfl⟩

end Runtime

end WasmHot
