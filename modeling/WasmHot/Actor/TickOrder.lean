import WasmHot.Actor.Mailbox
import Mathlib.Data.List.Basic

/-!
# Ticks

A tick task swaps the mailbox out and handles the batch before it calls `Tick`, as a wake-up does
before it returns. So inside `Tick` the messages handled are those enqueued before the swap of this
very task (`tick_sees_earlier`), also while others are being enqueued.

Here the strand takes its tasks in the order in which they were posted. Then the ticks run in the
order of the `ScheduleTick` calls, one for each.
-/

namespace WasmHot

/-- The strand takes the task that was posted first. -/
def ActorAction.InPostOrder : ActorAction → Prop
  | .startTask index => index = 0
  | _ => True

instance (action : ActorAction) : Decidable action.InPostOrder := by
  cases action <;> unfold ActorAction.InPostOrder <;> infer_instance

/-- The messages and ticks of one actor so far: what had been enqueued at the last swap, the
`ScheduleTick` calls and the `Tick` calls. -/
structure TickHistory where
  messages : MailboxHistory
  beforeSwap : List ActorMessage
  scheduled : List UInt64
  ticked : List UInt64

/-- The tick that the strand calls when the batch is done. -/
def Actor.tickAfterBatch (a : Actor) : Option UInt64 :=
  match a.strand with
  | .draining (.tick intervalMs) _ => some intervalMs
  | _ => none

/-- Extend the history by one step. `Tick` is called when `ProcessMessages` of a tick task returns. -/
def TickHistory.record (h : TickHistory) (a : Actor) (action : ActorAction) : TickHistory :=
  let h' := { h with messages := h.messages.record a action }
  match action with
  | .swapMailbox => { h' with beforeSwap := h.messages.enqueued }
  | .scheduleTick intervalMs => { h' with scheduled := h.scheduled ++ [intervalMs] }
  | .batchDone => { h' with ticked := h.ticked ++ a.tickAfterBatch.toList }
  | _ => h'

/-- The interleavings of one actor with the history of its ticks. -/
def tickSystem : TransitionSystem (Actor × TickHistory) ActorAction :=
  actorSystem.withHistory (fun _ => ⟨⟨[], []⟩, [], [], []⟩) TickHistory.record

/-- The tick of a task. -/
def Task.interval? : Task → Option UInt64
  | .wakeUp => none
  | .tick intervalMs => some intervalMs

@[simp] theorem Task.interval?_wakeUp : Task.wakeUp.interval? = none := rfl

@[simp] theorem Task.interval?_tick (intervalMs : UInt64) :
    (Task.tick intervalMs).interval? = some intervalMs := rfl

namespace Actor

/-- The tick that the running task has still to call. -/
def currentTick (a : Actor) : Option UInt64 :=
  match a.strand with
  | .entered task => task.interval?
  | .draining task _ => task.interval?
  | .handling task _ => task.interval?
  | _ => none

/-- The ticks that have been scheduled and not called, in the order of their posts. -/
def ticksAhead (a : Actor) : List UInt64 :=
  a.currentTick.toList ++ a.posted.filterMap Task.interval?

theorem batchDone_eq {a a' : Actor} (h : a.batchDone = some a') :
    (a.strand = .draining .wakeUp [] ∧ a' = { a with strand := .idle }) ∨
      ∃ intervalMs, a.strand = .draining (.tick intervalMs) [] ∧
        a' = { a with strand := .ticking intervalMs } := by
  unfold batchDone at h
  split at h
  · next hstrand => exact Or.inl ⟨hstrand, (Option.some.inj h).symm⟩
  · next intervalMs hstrand => exact Or.inr ⟨intervalMs, hstrand, (Option.some.inj h).symm⟩
  · cases h

theorem handleReturn_eq {a a' : Actor} (h : a.handleReturn = some a') :
    ∃ task batch, a.strand = .handling task batch ∧
      a' = { a with strand := .draining task batch } := by
  unfold handleReturn at h
  split at h
  · next task batch hstrand =>
    simp only [Option.ite_none_right_eq_some, Option.some.injEq] at h
    exact ⟨task, batch, hstrand, h.2.symm⟩
  · cases h

theorem tickReturn_eq {a a' : Actor} (h : a.tickReturn = some a') :
    ∃ intervalMs, a.strand = .ticking intervalMs ∧ a' = { a with strand := .idle } := by
  unfold tickReturn at h
  split at h
  · next intervalMs hstrand =>
    simp only [Option.ite_none_right_eq_some, Option.some.injEq] at h
    exact ⟨intervalMs, hstrand, h.2.symm⟩
  · cases h

end Actor

/-- The messages of all handler calls, the rest of the batch and the messages enqueued since the last
swap follow one another; the ticks called, the ticks ahead and no others were scheduled. -/
structure TickInv (a : Actor) (h : TickHistory) : Prop where
  conserved : Conserved a h.messages
  /-- Between its swap and its end a task works off what had been enqueued at the swap. -/
  batch : (∀ task, a.strand ≠ .entered task) → a.strand ≠ .idle →
    h.messages.handled ++ a.batchRest = h.beforeSwap
  ticks : h.ticked ++ a.ticksAhead = h.scheduled
  current : ∀ intervalMs, a.strand = .ticking intervalMs → ∃ before,
    h.ticked = before ++ [intervalMs]

theorem TickInv.step {a a' : Actor} {h : TickHistory} {action : ActorAction} (hinv : TickInv a h)
    (horder : action.InPostOrder) (hstep : a.step action = some a') :
    TickInv a' (h.record a action) := by
  have hconserved := hinv.conserved.step hstep
  cases action with
  | enqueuePush caller msg =>
    obtain ⟨-, rfl⟩ := Actor.enqueuePush_eq hstep
    exact ⟨hconserved, hinv.batch, hinv.ticks, hinv.current⟩
  | enqueuePost =>
    obtain ⟨caller, wasEmpty, -, rfl⟩ := Actor.enqueuePost_eq hstep
    refine ⟨hconserved, hinv.batch, ?_, hinv.current⟩
    have hticks := hinv.ticks
    cases wasEmpty with
    | true =>
      have hnone : [Task.wakeUp].filterMap Task.interval? = [] := rfl
      simp only [Actor.ticksAhead, Actor.currentTick, if_true, List.filterMap_append, hnone,
        List.append_nil] at hticks ⊢
      exact hticks
    | false => exact hticks
  | enqueueUnlock =>
    obtain ⟨_, -, rfl⟩ := Actor.enqueueUnlock_eq hstep
    exact ⟨hconserved, hinv.batch, hinv.ticks, hinv.current⟩
  | scheduleTick intervalMs =>
    cases hstep
    refine ⟨hconserved, hinv.batch, ?_, hinv.current⟩
    have hticks := hinv.ticks
    simp only [TickHistory.record, ← hticks]
    simp [Actor.ticksAhead, Actor.currentTick, Task.interval?]
  | startTask index =>
    obtain rfl : index = 0 := horder
    obtain ⟨task, hidle, hfirst, rfl⟩ := Actor.startTask_eq hstep
    refine ⟨hconserved, fun hne => absurd rfl (hne task), ?_, fun _ hticking => ?_⟩
    swap
    · cases hticking
    have hticks := hinv.ticks
    -- the first posted task is the one that runs next
    cases hposted : a.posted with
    | nil => simp [hposted] at hfirst
    | cons first rest =>
      simp only [hposted, List.getElem?_cons_zero, Option.some.injEq] at hfirst
      subst hfirst
      simp only [Actor.ticksAhead, Actor.currentTick, hidle, hposted, List.eraseIdx_zero,
        List.tail_cons] at hticks ⊢
      cases hinterval : first.interval? with
      | none => simpa [hinterval, TickHistory.record] using hticks
      | some intervalMs => simpa [hinterval, TickHistory.record] using hticks
  | swapMailbox =>
    obtain ⟨task, hstrand, -, rfl⟩ := Actor.swapMailbox_eq hstep
    refine ⟨hconserved, fun _ _ => ?_, ?_, fun _ hticking => ?_⟩
    · have hall := hinv.conserved
      simp only [Conserved, Actor.batchRest, hstrand, List.append_nil] at hall
      exact hall
    · have hticks := hinv.ticks
      simp only [Actor.ticksAhead, Actor.currentTick, hstrand] at hticks
      exact hticks
    · cases hticking
  | handleCall =>
    obtain ⟨task, msg, batch, hstrand, rfl⟩ := Actor.handleCall_eq hstep
    refine ⟨hconserved, fun _ _ => ?_, ?_, fun _ hticking => ?_⟩
    · have hbatch := hinv.batch (by simp [hstrand]) (by simp [hstrand])
      simpa [TickHistory.record, MailboxHistory.record, Actor.batchRest, hstrand] using hbatch
    · have hticks := hinv.ticks
      simp only [Actor.ticksAhead, Actor.currentTick, hstrand] at hticks
      exact hticks
    · cases hticking
  | handleReturn =>
    obtain ⟨task, batch, hstrand, rfl⟩ := Actor.handleReturn_eq hstep
    refine ⟨hconserved, fun _ _ => ?_, ?_, fun _ hticking => ?_⟩
    · have hbatch := hinv.batch (by simp [hstrand]) (by simp [hstrand])
      simp only [Actor.batchRest, hstrand] at hbatch
      exact hbatch
    · have hticks := hinv.ticks
      simp only [Actor.ticksAhead, Actor.currentTick, hstrand] at hticks
      exact hticks
    · cases hticking
  | batchDone =>
    have hticks := hinv.ticks
    obtain ⟨hstrand, rfl⟩ | ⟨intervalMs, hstrand, rfl⟩ := Actor.batchDone_eq hstep
    · simp only [Actor.ticksAhead, Actor.currentTick, hstrand] at hticks
      refine ⟨hconserved, fun _ hidle => absurd rfl hidle, ?_, fun _ hticking => ?_⟩
      · simpa [TickHistory.record, Actor.tickAfterBatch, Actor.ticksAhead, Actor.currentTick,
          hstrand] using hticks
      · cases hticking
    · simp only [Actor.ticksAhead, Actor.currentTick, hstrand] at hticks
      have hbatch := hinv.batch (by simp [hstrand]) (by simp [hstrand])
      simp only [Actor.batchRest, hstrand] at hbatch
      refine ⟨hconserved, fun _ _ => ?_, ?_, fun _ hticking => ?_⟩
      · simpa [TickHistory.record, MailboxHistory.record, Actor.batchRest] using hbatch
      · simpa [TickHistory.record, Actor.tickAfterBatch, Actor.ticksAhead, Actor.currentTick,
          hstrand] using hticks
      · cases hticking
        exact ⟨h.ticked, by simp [TickHistory.record, Actor.tickAfterBatch, hstrand]⟩
  | tickReturn =>
    obtain ⟨intervalMs, hstrand, rfl⟩ := Actor.tickReturn_eq hstep
    refine ⟨hconserved, fun _ hidle => absurd rfl hidle, ?_, fun _ hticking => ?_⟩
    · have hticks := hinv.ticks
      simp only [Actor.ticksAhead, Actor.currentTick, hstrand] at hticks
      exact hticks
    · cases hticking

theorem tickInv_of_reach {p : Actor × TickHistory}
    (h : tickSystem.ReachWhere (fun _ action => action.InPostOrder) p) : TickInv p.1 p.2 := by
  refine h.invariant_withHistory ?_ fun _ _ _ _ hinv horder hstep => hinv.step horder hstep
  rintro a rfl
  exact ⟨rfl, fun _ hidle => absurd rfl hidle, rfl, nofun⟩

/-- With tasks run in posting order: while `Tick` runs, the messages handled are those enqueued before
the swap of its task, each once and in order, and those enqueued since are in the mailbox; the last
`Tick` call is its own; and at any time the `Tick` calls made and those ahead are the `ScheduleTick`
calls, in order. -/
theorem tick_sees_earlier {p : Actor × TickHistory}
    (h : tickSystem.ReachWhere (fun _ action => action.InPostOrder) p) :
    (∀ intervalMs, p.1.strand = .ticking intervalMs →
      p.2.messages.handled = p.2.beforeSwap ∧
        p.2.messages.enqueued = p.2.beforeSwap ++ p.1.mailbox ∧
        ∃ before, p.2.ticked = before ++ [intervalMs]) ∧
      p.2.ticked ++ p.1.ticksAhead = p.2.scheduled := by
  have hinv := tickInv_of_reach h
  refine ⟨fun intervalMs hstrand => ?_, hinv.ticks⟩
  have hbatch := hinv.batch (by simp [hstrand]) (by simp [hstrand])
  have hall := hinv.conserved
  simp only [Conserved, Actor.batchRest, hstrand, List.append_nil] at hbatch hall
  exact ⟨hbatch, by rw [← hall, hbatch], hinv.current intervalMs hstrand⟩

/-- A message before and a message after the swap of a tick's task, which is posted second. -/
def messageDuringTick : List ActorAction :=
  [.enqueuePush (.thread 0) ping, .enqueuePost, .enqueueUnlock, .scheduleTick 50, .startTask 0,
    .swapMailbox, .handleCall, .handleReturn, .batchDone, .startTask 0, .swapMailbox,
    .enqueuePush (.thread 0) echo, .enqueuePost, .enqueueUnlock, .batchDone]

/-- `tick_sees_earlier` inside that tick. -/
theorem tick_sees_earlier_messageDuringTick :
    ∃ p, tickSystem.runWhere (fun _ action => action.InPostOrder)
        (.fresh, ⟨⟨[], []⟩, [], [], []⟩) messageDuringTick = some p ∧
      p.2.messages.handled = p.2.beforeSwap ∧ p.2.beforeSwap = [ping] ∧
      p.1.mailbox = [echo] ∧ p.2.ticked = [50] :=
  have hstart : tickSystem.Init (.fresh, ⟨⟨[], []⟩, [], [], []⟩) := ⟨rfl, rfl⟩
  ⟨_, rfl, ((tick_sees_earlier (.of_runWhere (.init hstart) messageDuringTick rfl)).1 50 rfl).1,
    rfl, rfl, rfl⟩

end WasmHot
