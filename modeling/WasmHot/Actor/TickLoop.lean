import Mathlib.Algebra.Group.Action.Defs
import Mathlib.Algebra.Order.Ring.Nat
import WasmHot.Actor.ActorRuntime
import WasmHot.Actor.TickOrder
import WasmHot.Lib.SpacedTimes

/-!
# StartActorTickLoop

The timer has one wait outstanding, or its handler runs on one of the threads of the `io_context`.
The handler calls `ActorRuntime::Tick`, and arms the timer again when `Tick` has returned. No other
code calls `Tick`.

`Tick` posts a task for every actor in its snapshot. Strands may fall behind and call `Actor::Tick`
several times in a row, so the interval that an actor is given need not be the time since its last
tick. But each actor gets one tick in each round, and the intervals it is given never add up to more
than the time that has passed (`ticks_keep_time`).
-/

namespace WasmHot

/-! ## The loop -/

/-- An interval on a clock that counts nanoseconds. -/
def nanoseconds (intervalMs : UInt64) : ℕ := intervalMs.toNat * 1000000

/-- Where the loop is. -/
inductive TickTimer
  /-- `async_wait` is outstanding. -/
  | waiting (expiry : ℕ)
  /-- The handler is in `ActorRuntime::Tick` on this thread. -/
  | ticking (t : ThreadId)
  /-- `ActorRuntime::Tick` has returned, and the handler has not armed the timer. -/
  | ticked
  /-- The wait has ended with an error. -/
  | stopped
  deriving DecidableEq

/-- The loop with the runtime it ticks. -/
structure TickLoop where
  /-- What `steady_clock` shows. -/
  clock : ℕ
  timer : TickTimer
  runtime : Runtime

/-- What happens next. -/
inductive TickLoopAction
  | pass (nanoseconds : ℕ)
  /-- The wait is over, and the handler takes the snapshot of `Tick`. -/
  | fire (t : ThreadId) (order : List ℕ)
  | waitFailed
  | tickReturn
  /-- `expires_after` and `async_wait`. -/
  | rearm
  /-- A step of another thread, of a strand or of the loop of `Tick`. -/
  | runtime (action : RuntimeAction)

/-- The calls of `Tick` begin and end in the handler of the timer. -/
def RuntimeAction.InHandler : RuntimeAction → Bool
  | .tickSnapshot _ _ _ => true
  | .tickReturn _ => true
  | _ => false

namespace TickLoop

/-- `StartActorTickLoop`. -/
def start (intervalMs : UInt64) (clock : ℕ) : TickLoop :=
  ⟨clock, .waiting (clock + nanoseconds intervalMs), .start⟩

/-- The step of an action, where it is enabled. -/
def step (actorId : ℕ → UInt64) (intervalMs : UInt64) (s : TickLoop) :
    TickLoopAction → Option TickLoop
  | .pass nanoseconds => some { s with clock := s.clock + nanoseconds }
  | .fire t order =>
      match s.timer with
      | .waiting expiry =>
          if expiry ≤ s.clock then
            (s.runtime.tickSnapshot t intervalMs order).map fun runtime =>
              { s with timer := .ticking t, runtime }
          else none
      | _ => none
  | .waitFailed =>
      match s.timer with
      | .waiting _ => some { s with timer := .stopped }
      | _ => none
  | .tickReturn =>
      match s.timer with
      | .ticking t => (s.runtime.tickReturn t).map fun runtime => { s with timer := .ticked, runtime }
      | _ => none
  | .rearm =>
      match s.timer with
      | .ticked => some { s with timer := .waiting (s.clock + nanoseconds intervalMs) }
      | _ => none
  | .runtime action =>
      if action.InHandler then none
      else (s.runtime.step actorId action).map fun runtime => { s with runtime }

/-- The actors that the present round has still to schedule. -/
def unscheduled (s : TickLoop) : List ℕ :=
  match s.timer with
  | .ticking t =>
      match s.runtime.calls.lookup t with
      | some (.ticking _ rest) => rest
      | _ => []
  | _ => []

end TickLoop

/-! ## Ticks of one actor -/

namespace Actor

/-- The calls of `Tick` in a step of the strand. -/
def ticksCalled (a : Actor) : ActorAction → ℕ
  | .batchDone => a.tickAfterBatch.toList.length
  | _ => 0

/-- The calls of `ScheduleTick` in a step. -/
def ticksScheduled : ActorAction → ℕ
  | .scheduleTick _ => 1
  | _ => 0

/-- In whatever order the strand takes its tasks, a tick that is scheduled is ahead until it is
called. -/
theorem length_ticksAhead_step {a a' : Actor} {action : ActorAction} (h : a.step action = some a') :
    a'.ticksAhead.length + a.ticksCalled action = a.ticksAhead.length + ticksScheduled action := by
  cases action with
  | enqueuePush caller msg =>
    obtain ⟨-, rfl⟩ := enqueuePush_eq h
    rfl
  -- The wake-up that is posted is no tick.
  | enqueuePost =>
    obtain ⟨caller, wasEmpty, -, rfl⟩ := enqueuePost_eq h
    cases wasEmpty with
    | true => simp [ticksAhead, currentTick, ticksCalled, ticksScheduled, List.filterMap_append]
    | false => rfl
  | enqueueUnlock =>
    obtain ⟨caller, -, rfl⟩ := enqueueUnlock_eq h
    rfl
  | scheduleTick intervalMs =>
    cases h
    simp [ticksAhead, currentTick, ticksCalled, ticksScheduled, List.filterMap_append,
      Nat.add_assoc]
  | startTask index =>
    obtain ⟨task, hidle, htask, rfl⟩ := startTask_eq h
    obtain ⟨hlt, hget⟩ := List.getElem?_eq_some_iff.mp htask
    -- The task moves from the queue to the strand, so the ticks ahead are a permutation of the old.
    have hperm := (List.getElem_cons_eraseIdx_perm hlt).filterMap Task.interval?
    rw [hget, List.filterMap_cons] at hperm
    have hlength := hperm.length_eq
    simp only [ticksAhead, currentTick, ticksCalled, ticksScheduled, hidle, List.length_append,
      Option.toList_none, List.length_nil, Nat.add_zero, Nat.zero_add]
    rw [← hlength]
    cases task with
    | wakeUp => simp
    | tick intervalMs => simp [Nat.add_comm]
  | swapMailbox =>
    obtain ⟨task, hstrand, -, rfl⟩ := swapMailbox_eq h
    simp [ticksAhead, currentTick, ticksCalled, ticksScheduled, hstrand]
  | handleCall =>
    obtain ⟨task, msg, batch, hstrand, rfl⟩ := handleCall_eq h
    simp [ticksAhead, currentTick, ticksCalled, ticksScheduled, hstrand]
  | handleReturn =>
    obtain ⟨task, batch, hstrand, rfl⟩ := handleReturn_eq h
    simp [ticksAhead, currentTick, ticksCalled, ticksScheduled, hstrand]
  -- After the batch of a tick its `OnTick` is called, which the left side counts.
  | batchDone =>
    rcases batchDone_eq h with ⟨hstrand, rfl⟩ | ⟨intervalMs, hstrand, rfl⟩
    · simp [ticksAhead, currentTick, ticksCalled, ticksScheduled, tickAfterBatch, hstrand]
    · simp [ticksAhead, currentTick, ticksCalled, ticksScheduled, tickAfterBatch, hstrand]
  | tickReturn =>
    obtain ⟨intervalMs, hstrand, rfl⟩ := tickReturn_eq h
    simp [ticksAhead, currentTick, ticksCalled, ticksScheduled, hstrand]

end Actor

/-! ## Ticks of the runtime -/

namespace Runtime

variable {s s' : Runtime} {actorId : ℕ → UInt64} {action : RuntimeAction} {t : ThreadId}

/-- The calls of `ScheduleTick` of an actor in a step. -/
def ticksScheduled (s : Runtime) (target : ℕ) : RuntimeAction → ℕ
  | .tickSchedule t =>
      match s.calls.lookup t with
      | some (.ticking _ (next :: _)) => if next = target then 1 else 0
      | _ => 0
  | _ => 0

/-- The calls of `Actor::Tick` of an actor in a step. -/
def ticksCalled (s : Runtime) (target : ℕ) : RuntimeAction → ℕ
  | .strand target' action => if target' = target then (s.instances target).ticksCalled action else 0
  | _ => 0

/-- An actor takes a step that schedules and calls no tick. -/
theorem length_ticksAhead_setActor {target other : ℕ} {a : Actor} {action : ActorAction}
    (h : (s.instances target).step action = some a) (hcalled : ∀ a, Actor.ticksCalled a action = 0)
    (hscheduled : Actor.ticksScheduled action = 0) :
    ((s.setActor target a).instances other).ticksAhead.length =
      (s.instances other).ticksAhead.length := by
  rw [instances_setActor]
  split
  · next hother =>
    subst hother
    have hstep := Actor.length_ticksAhead_step h
    rwa [hcalled, hscheduled] at hstep
  · rfl

/-- A tick of an actor is ahead from its `ScheduleTick` to its call. -/
theorem length_ticksAhead_step (h : s.step actorId action = some s') (target : ℕ) :
    (s'.instances target).ticksAhead.length + s.ticksCalled target action =
      (s.instances target).ticksAhead.length + s.ticksScheduled target action := by
  cases action with
  | spawn target' =>
    cases h
    rfl
  | kill id =>
    cases h
    rfl
  | sendLookup t fromId toId payload =>
    obtain ⟨-, ⟨-, rfl⟩ | ⟨target', -, rfl⟩⟩ := sendLookup_eq h
    · rfl
    · rfl
  | enqueuePush t =>
    obtain ⟨target', msg, a, -, ha, rfl⟩ := enqueuePush_eq h
    have hstep : (s.instances target').step (.enqueuePush (.thread t) msg) = some a := ha
    exact length_ticksAhead_setActor hstep (fun _ => rfl) rfl
  | enqueuePost t =>
    obtain ⟨target', a, -, ha, rfl⟩ := enqueuePost_eq h
    have hstep : (s.instances target').step .enqueuePost = some a := ha
    exact length_ticksAhead_setActor hstep (fun _ => rfl) rfl
  | enqueueUnlock t =>
    obtain ⟨target', a, -, ha, rfl⟩ := enqueueUnlock_eq h
    have hstep : (s.instances target').step .enqueueUnlock = some a := ha
    exact length_ticksAhead_setActor hstep (fun _ => rfl) rfl
  | tickSnapshot t intervalMs order =>
    obtain ⟨-, -, rfl⟩ := tickSnapshot_eq h
    rfl
  -- The one step that schedules a tick, for the actor at the head of the snapshot.
  | tickSchedule t =>
    obtain ⟨intervalMs, next, rest, a, hcall, ha, rfl⟩ := tickSchedule_eq h
    have hstep := Actor.length_ticksAhead_step ha
    show ((s.setActor next a).instances target).ticksAhead.length + 0 = _
    simp only [ticksScheduled, hcall, instances_setActor, Nat.add_zero]
    by_cases htarget : target = next
    · rw [if_pos htarget, if_pos htarget.symm, htarget]
      exact hstep
    · rw [if_neg htarget, if_neg (Ne.symm htarget), Nat.add_zero]
  | tickReturn t =>
    obtain ⟨intervalMs, -, rfl⟩ := tickReturn_eq h
    rfl
  -- A strand calls ticks and schedules none.
  | strand target' action =>
    obtain ⟨a, hstrand, ha, rfl⟩ := strandStep_eq h
    have hscheduled : Actor.ticksScheduled action = 0 := by
      cases action <;> first | rfl | cases hstrand
    have hstep := Actor.length_ticksAhead_step ha
    simp only [ticksScheduled, ticksCalled, instances_setActor, Nat.add_zero]
    by_cases htarget : target = target'
    · subst htarget
      rw [if_pos rfl, if_pos rfl, hstep, hscheduled, Nat.add_zero]
    · rw [if_neg htarget, if_neg (Ne.symm htarget), Nat.add_zero]

/-- Outside the handler the thread in `Tick` stays in it, and its snapshot loses what it schedules. -/
theorem ticking_step (h : s.step actorId action = some s') (hhandler : action.InHandler = false)
    {intervalMs : UInt64} {rest : List ℕ}
    (hcall : s.calls.lookup t = some (.ticking intervalMs rest))
    (hone : ∀ t' intervalMs rest, s.calls.lookup t' = some (.ticking intervalMs rest) → t' = t) :
    ∃ rest', s'.calls.lookup t = some (.ticking intervalMs rest') ∧
      ∀ target, s.ticksScheduled target action + rest'.count target = rest.count target := by
  -- Most steps leave the call of the thread and schedule no tick.
  have hsame : s'.calls.lookup t = s.calls.lookup t →
      (∀ target, s.ticksScheduled target action = 0) →
      ∃ rest', s'.calls.lookup t = some (.ticking intervalMs rest') ∧
        ∀ target, s.ticksScheduled target action + rest'.count target = rest.count target := by
    intro hcalls hnone
    exact ⟨rest, hcalls.trans hcall, fun target => by rw [hnone target, Nat.zero_add]⟩
  have hother : ∀ {t' : ThreadId} {call : Option RuntimeCall}, s.calls.lookup t' = call →
      (∀ intervalMs rest, call ≠ some (.ticking intervalMs rest)) → t ≠ t' := by
    rintro t' call hcall' hnot rfl
    exact hnot _ _ (hcall'.symm.trans hcall)
  cases action with
  | spawn target' =>
    cases h
    exact hsame rfl fun _ => rfl
  | kill id =>
    cases h
    exact hsame rfl fun _ => rfl
  | sendLookup t' fromId toId payload =>
    obtain ⟨hidle, ⟨-, rfl⟩ | ⟨target', -, rfl⟩⟩ := sendLookup_eq h
    · exact hsame rfl fun _ => rfl
    · refine hsame ?_ fun _ => rfl
      rw [lookup_enter, if_neg (hother hidle nofun)]
  | enqueuePush t' =>
    obtain ⟨target', msg, a, hcall', -, rfl⟩ := enqueuePush_eq h
    refine hsame ?_ fun _ => rfl
    rw [lookup_enter, if_neg (hother hcall' nofun)]
    rfl
  | enqueuePost t' =>
    obtain ⟨target', a, -, -, rfl⟩ := enqueuePost_eq h
    exact hsame rfl fun _ => rfl
  | enqueueUnlock t' =>
    obtain ⟨target', a, hcall', -, rfl⟩ := enqueueUnlock_eq h
    refine hsame ?_ fun _ => rfl
    rw [lookup_leave, if_neg (hother hcall' nofun)]
    rfl
  | tickSnapshot t' intervalMs' order => cases hhandler
  -- The thread in `Tick` is the only one, so this is its own step: it takes the head of its
  -- snapshot.
  | tickSchedule t' =>
    obtain ⟨intervalMs', next, rest', a, hcall', -, rfl⟩ := tickSchedule_eq h
    have ht := hone t' _ _ hcall'
    subst ht
    cases hcall.symm.trans hcall'
    refine ⟨rest', by rw [lookup_enter, if_pos rfl], fun target => ?_⟩
    simp only [ticksScheduled, hcall, List.count_cons, beq_iff_eq]
    exact Nat.add_comm _ _
  | tickReturn t' => cases hhandler
  | strand target' action =>
    obtain ⟨a, -, -, rfl⟩ := strandStep_eq h
    exact hsame rfl fun _ => rfl

/-- Outside the handler no thread begins a `Tick`. -/
theorem ticking_of_step (h : s.step actorId action = some s') (hhandler : action.InHandler = false)
    {intervalMs : UInt64} {rest : List ℕ}
    (hcall : s'.calls.lookup t = some (.ticking intervalMs rest)) :
    ∃ rest, s.calls.lookup t = some (.ticking intervalMs rest) := by
  cases action with
  | spawn target' =>
    cases h
    exact ⟨rest, hcall⟩
  | kill id =>
    cases h
    exact ⟨rest, hcall⟩
  | sendLookup t' fromId toId payload =>
    obtain ⟨-, ⟨-, rfl⟩ | ⟨target', -, rfl⟩⟩ := sendLookup_eq h
    · exact ⟨rest, hcall⟩
    · rw [lookup_enter] at hcall
      split at hcall
      · cases hcall
      · exact ⟨rest, hcall⟩
  | enqueuePush t' =>
    obtain ⟨target', msg, a, -, -, rfl⟩ := enqueuePush_eq h
    rw [lookup_enter] at hcall
    split at hcall
    · cases hcall
    · exact ⟨rest, hcall⟩
  | enqueuePost t' =>
    obtain ⟨target', a, -, -, rfl⟩ := enqueuePost_eq h
    exact ⟨rest, hcall⟩
  | enqueueUnlock t' =>
    obtain ⟨target', a, -, -, rfl⟩ := enqueueUnlock_eq h
    rw [lookup_leave] at hcall
    split at hcall
    · cases hcall
    · exact ⟨rest, hcall⟩
  | tickSnapshot t' intervalMs' order => cases hhandler
  -- A thread that is in `Tick` afterwards was so before, with one more actor to go.
  | tickSchedule t' =>
    obtain ⟨intervalMs', next, rest', a, hcall', -, rfl⟩ := tickSchedule_eq h
    rw [lookup_enter] at hcall
    split at hcall
    · next ht =>
      cases hcall
      exact ⟨_, ht ▸ hcall'⟩
    · exact ⟨rest, hcall⟩
  | tickReturn t' => cases hhandler
  | strand target' action =>
    obtain ⟨a, -, -, rfl⟩ := strandStep_eq h
    exact ⟨rest, hcall⟩

/-- Every actor is registered under its own id. -/
def Named (actorId : ℕ → UInt64) (s : Runtime) : Prop :=
  ∀ id target, s.actors.lookup id = some target → actorId target = id

theorem Named.step (hnamed : s.Named actorId) (h : s.step actorId action = some s') :
    s'.Named actorId := by
  cases action with
  | spawn target' =>
    cases h
    intro id target hlookup
    simp only [UnorderedMap.lookup_insert] at hlookup
    split at hlookup
    · next hid =>
      cases hlookup
      exact hid.symm
    · exact hnamed id target hlookup
  | kill id' =>
    cases h
    intro id target hlookup
    simp only [UnorderedMap.lookup_erase] at hlookup
    split at hlookup
    · cases hlookup
    · exact hnamed id target hlookup
  | sendLookup t fromId toId payload =>
    obtain ⟨-, ⟨-, rfl⟩ | ⟨target', -, rfl⟩⟩ := sendLookup_eq h
    · exact hnamed
    · exact hnamed
  | enqueuePush t =>
    obtain ⟨target', msg, a, -, -, rfl⟩ := enqueuePush_eq h
    exact hnamed
  | enqueuePost t =>
    obtain ⟨target', a, -, -, rfl⟩ := enqueuePost_eq h
    exact hnamed
  | enqueueUnlock t =>
    obtain ⟨target', a, -, -, rfl⟩ := enqueueUnlock_eq h
    exact hnamed
  | tickSnapshot t intervalMs order =>
    obtain ⟨-, -, rfl⟩ := tickSnapshot_eq h
    exact hnamed
  | tickSchedule t =>
    obtain ⟨intervalMs, next, rest, a, -, -, rfl⟩ := tickSchedule_eq h
    exact hnamed
  | tickReturn t =>
    obtain ⟨intervalMs, -, rfl⟩ := tickReturn_eq h
    exact hnamed
  | strand target' action =>
    obtain ⟨a, -, -, rfl⟩ := strandStep_eq h
    exact hnamed

/-- So a snapshot holds no actor twice. -/
theorem Named.nodup_snapshot (hnamed : s.Named actorId) {order : List ℕ}
    (horder : (order : Multiset ℕ) = s.actors.entries.map (·.2)) : order.Nodup := by
  rw [← Multiset.coe_nodup, horder]
  refine Multiset.Nodup.map_on ?_ s.actors.nodup_entries
  rintro ⟨id, target⟩ hentry ⟨id', target'⟩ hentry' htarget
  dsimp only at htarget
  subst htarget
  have hid := hnamed id target (Finmap.lookup_eq_some_iff.mpr hentry)
  have hid' := hnamed id' target (Finmap.lookup_eq_some_iff.mpr hentry')
  rw [← hid, ← hid']

end Runtime

/-! ## Rounds -/

/-- The rounds of a loop and the ticks of the actors. -/
structure TickLog where
  /-- When the loop was started. -/
  start : ℕ
  /-- When each `ActorRuntime::Tick` began and the actors in its snapshot, the last one first. -/
  rounds : List (ℕ × List ℕ)
  scheduled : ℕ → ℕ
  called : ℕ → ℕ

namespace TickLog

/-- Extend the log by one step. -/
def record (log : TickLog) (s : TickLoop) : TickLoopAction → TickLog
  | .fire _ order => { log with rounds := (s.clock, order) :: log.rounds }
  | .runtime action =>
      { log with
        scheduled := fun target => log.scheduled target + s.runtime.ticksScheduled target action
        called := fun target => log.called target + s.runtime.ticksCalled target action }
  | _ => log

/-- When the loop was started and when its rounds began, the last one first. -/
def times (log : TickLog) : List ℕ := log.rounds.map (·.1) ++ [log.start]

/-- The rounds that have an actor in their snapshot. -/
def roundsOf (log : TickLog) (target : ℕ) : ℕ :=
  log.rounds.countP fun round => decide (target ∈ round.2)

end TickLog

/-- The interleavings of the loop, the strands and the other threads, with the log of the rounds. -/
def tickLoop (actorId : ℕ → UInt64) (intervalMs : UInt64) :
    TransitionSystem (TickLoop × TickLog) TickLoopAction :=
  TransitionSystem.withHistory
    ⟨fun s => ∃ clock, s = .start intervalMs clock, TickLoop.step actorId intervalMs⟩
    (fun s => ⟨s.clock, [], fun _ => 0, fun _ => 0⟩) TickLog.record

/-- The rounds are spaced, one at a time, and make up the ticks of each actor. -/
structure KeepsTime (actorId : ℕ → UInt64) (intervalMs : UInt64) (s : TickLoop) (log : TickLog) :
    Prop where
  named : s.runtime.Named actorId
  caller : ∀ t i rest, s.runtime.calls.lookup t = some (.ticking i rest) → s.timer = .ticking t
  inside : ∀ t, s.timer = .ticking t →
    ∃ rest, s.runtime.calls.lookup t = some (.ticking intervalMs rest)
  past : ∀ last, log.times.head? = some last → last ≤ s.clock
  armed : ∀ expiry, s.timer = .waiting expiry → ∀ last, log.times.head? = some last →
    last + nanoseconds intervalMs ≤ expiry
  spaced : SpacedTimes (nanoseconds intervalMs) log.times
  scheduled : ∀ target, log.scheduled target + s.unscheduled.count target = log.roundsOf target
  called : ∀ target,
    log.called target + (s.runtime.instances target).ticksAhead.length = log.scheduled target

namespace KeepsTime

variable {actorId : ℕ → UInt64} {intervalMs : UInt64} {s s' : TickLoop} {log : TickLog}

/-- What a round has still to schedule, where its thread is in `Tick`. -/
theorem unscheduled_eq {t : ThreadId} {i : UInt64} {rest : List ℕ} (htimer : s.timer = .ticking t)
    (hcall : s.runtime.calls.lookup t = some (.ticking i rest)) : s.unscheduled = rest := by
  simp only [TickLoop.unscheduled, htimer, hcall]

/-- A new round begins when the timer has expired. -/
theorem fire (h : KeepsTime actorId intervalMs s log) {t : ThreadId} {order : List ℕ} {expiry : ℕ}
    (htimer : s.timer = .waiting expiry) (hexpiry : expiry ≤ s.clock) {runtime : Runtime}
    (hsnapshot : s.runtime.tickSnapshot t intervalMs order = some runtime) :
    KeepsTime actorId intervalMs { s with timer := .ticking t, runtime }
      (log.record s (.fire t order)) := by
  obtain ⟨hidle, horder, rfl⟩ := Runtime.tickSnapshot_eq hsnapshot
  have hnodup := h.named.nodup_snapshot horder
  have hcall : (s.runtime.enter t (.ticking intervalMs order)).calls.lookup t =
      some (.ticking intervalMs order) := by
    rw [Runtime.lookup_enter, if_pos rfl]
  refine ⟨h.named, ?_, ?_, ?_, nofun, ?_, ?_, h.called⟩
  · intro t' i rest hcall'
    rw [Runtime.lookup_enter] at hcall'
    split at hcall'
    · next ht => rw [ht]
    · have htimer' := h.caller t' i rest hcall'
      rw [htimer] at htimer'
      cases htimer'
  · intro t' htimer'
    cases htimer'
    exact ⟨order, hcall⟩
  · intro last hlast
    cases hlast
    exact le_refl _
  · refine h.spaced.cons fun last hlast => ?_
    exact (h.armed expiry htimer last hlast).trans hexpiry
  -- The new round counts for an actor once if it is in the snapshot, which names nobody twice.
  · intro target
    have hbefore := h.scheduled target
    have hnone : s.unscheduled = [] := by simp only [TickLoop.unscheduled, htimer]
    rw [hnone, List.count_nil, Nat.add_zero] at hbefore
    rw [unscheduled_eq rfl hcall]
    show log.scheduled target + order.count target =
      ((s.clock, order) :: log.rounds).countP fun round => decide (target ∈ round.2)
    rw [List.countP_cons, hbefore, hnodup.count]
    simp only [decide_eq_true_eq]
    rfl

/-- A step outside the handler. -/
theorem runtime (h : KeepsTime actorId intervalMs s log) {action : RuntimeAction}
    (hhandler : action.InHandler = false) {runtime : Runtime}
    (hstep : s.runtime.step actorId action = some runtime) :
    KeepsTime actorId intervalMs { s with runtime } (log.record s (.runtime action)) := by
  have hcaller : ∀ t i rest, runtime.calls.lookup t = some (.ticking i rest) →
      s.timer = .ticking t := by
    intro t i rest hcall
    obtain ⟨rest₀, hcall₀⟩ := Runtime.ticking_of_step hstep hhandler hcall
    exact h.caller t i rest₀ hcall₀
  have hone : ∀ t, s.timer = .ticking t → ∀ t' i rest,
      s.runtime.calls.lookup t' = some (.ticking i rest) → t' = t := by
    intro t htimer t' i rest hcall
    exact TickTimer.ticking.inj ((h.caller t' i rest hcall).symm.trans htimer)
  refine ⟨h.named.step hstep, hcaller, ?_, h.past, h.armed, h.spaced, ?_, ?_⟩
  · intro t htimer
    obtain ⟨rest, hcall⟩ := h.inside t htimer
    obtain ⟨rest', hcall', -⟩ := Runtime.ticking_step hstep hhandler hcall (hone t htimer)
    exact ⟨rest', hcall'⟩
  -- What the step schedules it takes from the snapshot, so the sum stays.
  · intro target
    have hbefore := h.scheduled target
    show log.scheduled target + s.runtime.ticksScheduled target action +
      ({ s with runtime } : TickLoop).unscheduled.count target = log.roundsOf target
    by_cases hticking : ∃ t, s.timer = .ticking t
    · obtain ⟨t, htimer⟩ := hticking
      obtain ⟨rest, hcall⟩ := h.inside t htimer
      obtain ⟨rest', hcall', hcount⟩ :=
        Runtime.ticking_step hstep hhandler hcall (hone t htimer)
      rw [unscheduled_eq htimer hcall] at hbefore
      rw [unscheduled_eq (s := { s with runtime }) htimer hcall', Nat.add_assoc, hcount target,
        hbefore]
    · -- No thread is in `Tick`.
      have hnone : s.runtime.ticksScheduled target action = 0 := by
        unfold Runtime.ticksScheduled
        split
        · split
          · next hcall => exact absurd ⟨_, h.caller _ _ _ hcall⟩ hticking
          · rfl
        · rfl
      have hempty : ∀ s' : TickLoop, s'.timer = s.timer → s'.unscheduled = [] := by
        intro s' htimer
        unfold TickLoop.unscheduled
        rw [htimer]
        split
        · next t htimer => exact absurd ⟨t, htimer⟩ hticking
        · rfl
      rw [hempty s rfl] at hbefore
      rw [hnone, hempty { s with runtime } rfl, Nat.add_zero, hbefore]
  · intro target
    have hstep := Runtime.length_ticksAhead_step hstep target
    have hbefore := h.called target
    show log.called target + s.runtime.ticksCalled target action +
      (runtime.instances target).ticksAhead.length =
        log.scheduled target + s.runtime.ticksScheduled target action
    omega

theorem step (h : KeepsTime actorId intervalMs s log) {action : TickLoopAction}
    (hstep : s.step actorId intervalMs action = some s') :
    KeepsTime actorId intervalMs s' (log.record s action) := by
  cases action with
  | pass nanoseconds =>
    cases hstep
    refine ⟨h.named, h.caller, h.inside, fun last hlast => ?_, h.armed, h.spaced, h.scheduled,
      h.called⟩
    exact (h.past last hlast).trans (Nat.le_add_right _ _)
  | fire t order =>
    simp only [TickLoop.step] at hstep
    split at hstep
    · next expiry htimer =>
      obtain ⟨hexpiry, hstep⟩ := Option.ite_none_right_eq_some.mp hstep
      obtain ⟨runtime, hsnapshot, rfl⟩ := Option.map_eq_some_iff.mp hstep
      exact h.fire htimer hexpiry hsnapshot
    · cases hstep
  -- The timer is not set again: there are no more rounds.
  | waitFailed =>
    simp only [TickLoop.step] at hstep
    split at hstep
    · next expiry htimer =>
      cases hstep
      refine ⟨h.named, fun t i rest hcall => ?_, nofun, h.past, nofun, h.spaced, fun target => ?_,
        h.called⟩
      · have htimer' := h.caller t i rest hcall
        rw [htimer] at htimer'
        cases htimer'
      · have hbefore := h.scheduled target
        simp only [TickLoop.unscheduled, htimer] at hbefore
        exact hbefore
    · cases hstep
  -- The snapshot is used up, so nothing stays unscheduled.
  | tickReturn =>
    simp only [TickLoop.step] at hstep
    split at hstep
    · next t htimer =>
      obtain ⟨runtime, hreturn, rfl⟩ := Option.map_eq_some_iff.mp hstep
      obtain ⟨i, hcall, rfl⟩ := Runtime.tickReturn_eq hreturn
      refine ⟨h.named, fun t' i' rest hcall' => ?_, nofun, h.past, nofun, h.spaced,
        fun target => ?_, h.called⟩
      · rw [Runtime.lookup_leave] at hcall'
        split at hcall'
        · cases hcall'
        · next ht =>
          have htimer' := h.caller t' i' rest hcall'
          exact absurd (TickTimer.ticking.inj (htimer.symm.trans htimer')).symm ht
      · have hbefore := h.scheduled target
        rw [unscheduled_eq htimer hcall] at hbefore
        exact hbefore
    · cases hstep
  -- The next expiry is one interval after now, and so one interval after the last round.
  | rearm =>
    simp only [TickLoop.step] at hstep
    split at hstep
    · next htimer =>
      cases hstep
      refine ⟨h.named, fun t i rest hcall => ?_, nofun, h.past, ?_, h.spaced, fun target => ?_,
        h.called⟩
      · have htimer' := h.caller t i rest hcall
        rw [htimer] at htimer'
        cases htimer'
      · intro expiry hexpiry last hlast
        cases hexpiry
        exact Nat.add_le_add_right (h.past last hlast) _
      · have hbefore := h.scheduled target
        simp only [TickLoop.unscheduled, htimer] at hbefore
        exact hbefore
    · cases hstep
  | runtime action =>
    simp only [TickLoop.step] at hstep
    split at hstep
    · cases hstep
    · next hhandler =>
      obtain ⟨runtime, hruntime, rfl⟩ := Option.map_eq_some_iff.mp hstep
      exact h.runtime (Bool.not_eq_true _ ▸ hhandler) hruntime

end KeepsTime

/-- However the threads and the strands interleave, an actor gets one tick for each round that has it
in its snapshot: called, on its strand, or still to be scheduled by the round in progress. Rounds
begin at least one interval apart and one after the other, so the intervals that an actor has been
given add up to no more than the time that has passed. -/
theorem ticks_keep_time {actorId : ℕ → UInt64} {intervalMs : UInt64} {p : TickLoop × TickLog}
    (h : (tickLoop actorId intervalMs).Reachable p) (target : ℕ) :
    p.2.called target + (p.1.runtime.instances target).ticksAhead.length +
        p.1.unscheduled.count target = p.2.roundsOf target ∧
      SpacedTimes (nanoseconds intervalMs) p.2.times ∧
      p.2.start + p.2.called target * nanoseconds intervalMs ≤ p.1.clock ∧
      ∀ t t' i i' rest rest', p.1.runtime.calls.lookup t = some (.ticking i rest) →
        p.1.runtime.calls.lookup t' = some (.ticking i' rest') → t = t' := by
  have hinv : KeepsTime actorId intervalMs p.1 p.2 := by
    refine h.invariant_withHistory ?_ fun s log action s' hI _ hstep => hI.step hstep
    rintro _ ⟨clock, rfl⟩
    refine ⟨fun _ _ => nofun, fun _ _ _ => nofun, nofun, ?_, ?_, .singleton clock, fun _ => rfl,
      fun _ => rfl⟩
    · intro last hlast
      cases hlast
      exact le_refl _
    · intro expiry hexpiry last hlast
      cases hexpiry
      cases hlast
      exact le_refl _
  have hticks := hinv.called target
  have hrounds := hinv.scheduled target
  have hone : ∀ t t' i i' rest rest', p.1.runtime.calls.lookup t = some (.ticking i rest) →
      p.1.runtime.calls.lookup t' = some (.ticking i' rest') → t = t' := by
    intro t t' i i' rest rest' hcall hcall'
    exact TickTimer.ticking.inj
      ((hinv.caller t i rest hcall).symm.trans (hinv.caller t' i' rest' hcall'))
  refine ⟨by omega, hinv.spaced, ?_, hone⟩
  -- An actor has had at most one tick of each round, and the rounds are spaced.
  have hmost : p.2.called target ≤ p.2.rounds.length :=
    (show p.2.called target ≤ p.2.roundsOf target by omega).trans List.countP_le_length
  obtain ⟨last, hlast⟩ : ∃ last, p.2.times.head? = some last := by
    rw [← Option.isSome_iff_exists, List.isSome_head?]
    exact List.append_ne_nil_of_right_ne_nil _ (List.cons_ne_nil _ _)
  have helapsed := hinv.spaced.first_add_nsmul_le (Nat.zero_le _) hlast
  rw [List.length_map, smul_eq_mul] at helapsed
  calc p.2.start + p.2.called target * nanoseconds intervalMs
      ≤ p.2.start + p.2.rounds.length * nanoseconds intervalMs :=
        Nat.add_le_add_left (Nat.mul_le_mul_right _ hmost) _
    _ ≤ last := helapsed
    _ ≤ p.1.clock := hinv.past last hlast

/-- `g_interval_ms`. -/
def gIntervalMs : UInt64 := 16

/-- Two actors, one of which is killed before the second round; the other one falls behind. -/
def twoRounds : List TickLoopAction :=
  [.runtime (.spawn 0), .runtime (.spawn 1), .pass 17000000, .fire 5 [0, 1],
    .runtime (.tickSchedule 5), .runtime (.tickSchedule 5), .tickReturn, .rearm,
    .runtime (.kill 1), .pass 16000000, .fire 6 [0], .runtime (.tickSchedule 6),
    .runtime (.strand 0 (.startTask 0)), .runtime (.strand 0 .swapMailbox),
    .runtime (.strand 0 .batchDone)]

/-- `ticks_keep_time` for the actor that falls behind. -/
theorem ticks_keep_time_twoRounds :
    ∃ p, (tickLoop UInt64.ofNat gIntervalMs).run
        (.start gIntervalMs 0, ⟨0, [], fun _ => 0, fun _ => 0⟩) twoRounds = some p ∧
      p.2.called 0 = 1 ∧ p.2.roundsOf 0 = 2 ∧
      p.2.called 0 + (p.1.runtime.instances 0).ticksAhead.length + p.1.unscheduled.count 0 =
        p.2.roundsOf 0 ∧
      p.2.start + p.2.called 0 * nanoseconds gIntervalMs ≤ p.1.clock := by
  have hstart : (tickLoop UInt64.ofNat gIntervalMs).Reachable
      (.start gIntervalMs 0, ⟨0, [], fun _ => 0, fun _ => 0⟩) := .init ⟨⟨0, rfl⟩, rfl⟩
  refine ⟨_, rfl, rfl, rfl, ?_, ?_⟩
  · exact (ticks_keep_time (hstart.of_run twoRounds rfl) 0).1
  · exact (ticks_keep_time (hstart.of_run twoRounds rfl) 0).2.2.1

end WasmHot
