import WasmHot.Lib.Transition

/-!
# An actor's mailbox and strand

`EnqueueMessage` appends under `mailbox_mutex_` and posts a wake-up when the mailbox was empty.
`ProcessMessages` swaps the whole mailbox out under the same mutex and then handles the messages one
by one without it. `ScheduleTick` posts a task that does the same and ticks afterwards. The strand
runs one posted task at a time; in which order it picks them is left open here.

`Conserved` accounts for every enqueued message: handled, in the batch, or in the mailbox, in the
order of the critical sections. `Covered` says why no wake-up is lost: a message in the mailbox is
always ahead of the swap of some task, or of the post of the `EnqueueMessage` that pushed it.
-/

namespace WasmHot

/-- `ActorMessage`. -/
structure ActorMessage where
  senderId : UInt64
  payload : List UInt8
  deriving DecidableEq

/-- What is posted on `strand_`: the wake-up of `EnqueueMessage` or the task of `ScheduleTick`. Both
call `ProcessMessages` first. -/
inductive Task
  | wakeUp
  | tick (intervalMs : UInt64)
  deriving DecidableEq

/-- Who calls `EnqueueMessage`: some thread, or the strand from inside `HandleMessage` or `Tick`. -/
inductive Caller
  | thread (id : ℕ)
  | strand
  deriving DecidableEq

/-- What is left of a critical section of `EnqueueMessage` after its `push_back`. -/
inductive EnqueuePhase
  | pushed (wasEmpty : Bool)
  | posted
  deriving DecidableEq

/-- Where the strand is: between two tasks, before the swap of a task, between two messages of its
batch, inside `HandleMessage`, or inside `Tick`. -/
inductive StrandState
  | idle
  | entered (task : Task)
  | draining (task : Task) (batch : List ActorMessage)
  | handling (task : Task) (batch : List ActorMessage)
  | ticking (intervalMs : UInt64)
  deriving DecidableEq

/-- `Actor`. `mutex` is the `EnqueueMessage` that holds `mailbox_mutex_`; `posted` are the tasks on
`strand_` that have not started. -/
structure Actor where
  mailbox : List ActorMessage
  mutex : Option (Caller × EnqueuePhase)
  posted : List Task
  strand : StrandState
  deriving DecidableEq

/-- One step of a thread or of the strand. -/
inductive ActorAction
  | enqueuePush (caller : Caller) (msg : ActorMessage)
  | enqueuePost
  | enqueueUnlock
  | scheduleTick (intervalMs : UInt64)
  | startTask (index : ℕ)
  | swapMailbox
  | handleCall
  | handleReturn
  | batchDone
  | tickReturn

namespace Actor

/-- A new actor. -/
def fresh : Actor := ⟨[], none, [], .idle⟩

/-- Code of the actor's subclass is running on the strand. -/
def inUserCode (a : Actor) : Bool :=
  match a.strand with
  | .handling _ _ => true
  | .ticking _ => true
  | _ => false

/-- The strand is not inside an `EnqueueMessage` of its own. -/
def strandFree (a : Actor) : Bool :=
  match a.mutex with
  | some (.strand, _) => false
  | _ => true

/-- The critical section up to `push_back`. -/
def enqueuePush (a : Actor) (caller : Caller) (msg : ActorMessage) : Option Actor :=
  if a.mutex = none ∧ (caller = .strand → a.inUserCode) then
    some { a with
      mailbox := a.mailbox ++ [msg]
      mutex := some (caller, .pushed a.mailbox.isEmpty) }
  else none

/-- The post inside the critical section, if the mailbox was empty. -/
def enqueuePost (a : Actor) : Option Actor :=
  match a.mutex with
  | some (caller, .pushed wasEmpty) =>
      some { a with
        posted := if wasEmpty then a.posted ++ [.wakeUp] else a.posted
        mutex := some (caller, .posted) }
  | _ => none

/-- The end of the critical section. -/
def enqueueUnlock (a : Actor) : Option Actor :=
  match a.mutex with
  | some (_, .posted) => some { a with mutex := none }
  | _ => none

/-- The strand takes a posted task. -/
def startTask (a : Actor) (index : ℕ) : Option Actor :=
  match a.strand, a.posted[index]? with
  | .idle, some task =>
      some { a with posted := a.posted.eraseIdx index, strand := .entered task }
  | _, _ => none

/-- `local_messages.swap(mailbox_)`. -/
def swapMailbox (a : Actor) : Option Actor :=
  match a.strand, a.mutex with
  -- `local_messages` is empty before the swap, so the mailbox is afterwards.
  | .entered task, none => some { a with mailbox := [], strand := .draining task a.mailbox }
  | _, _ => none

/-- The strand enters `HandleMessage` with the next message of the batch. -/
def handleCall (a : Actor) : Option Actor :=
  match a.strand with
  | .draining task (_ :: batch) => some { a with strand := .handling task batch }
  | _ => none

/-- `HandleMessage` returns. -/
def handleReturn (a : Actor) : Option Actor :=
  match a.strand with
  | .handling task batch =>
      if a.strandFree then some { a with strand := .draining task batch } else none
  | _ => none

/-- `ProcessMessages` returns; a tick task goes on to `Tick`. -/
def batchDone (a : Actor) : Option Actor :=
  match a.strand with
  | .draining .wakeUp [] => some { a with strand := .idle }
  | .draining (.tick intervalMs) [] => some { a with strand := .ticking intervalMs }
  | _ => none

/-- `Tick` returns. -/
def tickReturn (a : Actor) : Option Actor :=
  match a.strand with
  | .ticking _ => if a.strandFree then some { a with strand := .idle } else none
  | _ => none

/-- The step of an action, where it is enabled. -/
def step (a : Actor) : ActorAction → Option Actor
  | .enqueuePush caller msg => a.enqueuePush caller msg
  | .enqueuePost => a.enqueuePost
  | .enqueueUnlock => a.enqueueUnlock
  | .scheduleTick intervalMs => some { a with posted := a.posted ++ [.tick intervalMs] }
  | .startTask index => a.startTask index
  | .swapMailbox => a.swapMailbox
  | .handleCall => a.handleCall
  | .handleReturn => a.handleReturn
  | .batchDone => a.batchDone
  | .tickReturn => a.tickReturn

/-- The rest of the batch being processed: its messages not yet passed to `HandleMessage`. -/
def batchRest (a : Actor) : List ActorMessage :=
  match a.strand with
  | .draining _ batch => batch
  | .handling _ batch => batch
  | _ => []

/-- Some task that calls `ProcessMessages` has not done its swap. -/
def HasPendingSwap (a : Actor) : Prop :=
  a.posted ≠ [] ∨ ∃ task, a.strand = .entered task

end Actor

/-- All interleavings of the steps of one actor. -/
def actorSystem : TransitionSystem Actor ActorAction where
  Init a := a = .fresh
  step := Actor.step

/-- The messages of all `EnqueueMessage` critical sections and of all `HandleMessage` calls, each in
order. -/
structure MailboxHistory where
  enqueued : List ActorMessage
  handled : List ActorMessage

/-- Extend the history by one step. -/
def MailboxHistory.record (h : MailboxHistory) (a : Actor) : ActorAction → MailboxHistory
  | .enqueuePush _ msg => { h with enqueued := h.enqueued ++ [msg] }
  | .handleCall => { h with handled := h.handled ++ a.batchRest.head?.toList }
  | _ => h

/-- The interleavings of one actor with their history. -/
def recordedActor : TransitionSystem (Actor × MailboxHistory) ActorAction :=
  actorSystem.withHistory (fun _ => ⟨[], []⟩) MailboxHistory.record

/-! ## What each step does to the mailbox, the batch and the pending tasks -/

namespace Actor

variable {a a' : Actor}

theorem enqueuePush_eq {caller : Caller} {msg : ActorMessage}
    (h : a.enqueuePush caller msg = some a') :
    a.mutex = none ∧ a' = { a with
      mailbox := a.mailbox ++ [msg]
      mutex := some (caller, .pushed a.mailbox.isEmpty) } := by
  simp only [enqueuePush, Option.ite_none_right_eq_some, Option.some.injEq] at h
  exact ⟨h.1.1, h.2.symm⟩

theorem enqueuePost_eq (h : a.enqueuePost = some a') :
    ∃ caller wasEmpty, a.mutex = some (caller, .pushed wasEmpty) ∧ a' = { a with
      posted := if wasEmpty then a.posted ++ [.wakeUp] else a.posted
      mutex := some (caller, .posted) } := by
  unfold enqueuePost at h
  split at h
  · next caller wasEmpty hmutex => exact ⟨caller, wasEmpty, hmutex, (Option.some.inj h).symm⟩
  · cases h

theorem enqueueUnlock_eq (h : a.enqueueUnlock = some a') :
    ∃ caller, a.mutex = some (caller, .posted) ∧ a' = { a with mutex := none } := by
  unfold enqueueUnlock at h
  split at h
  · next caller hmutex => exact ⟨caller, hmutex, (Option.some.inj h).symm⟩
  · cases h

theorem startTask_eq {index : ℕ} (h : a.startTask index = some a') :
    ∃ task, a.strand = .idle ∧ a.posted[index]? = some task ∧
      a' = { a with posted := a.posted.eraseIdx index, strand := .entered task } := by
  unfold startTask at h
  split at h
  · next task hidle htask => exact ⟨task, hidle, htask, (Option.some.inj h).symm⟩
  · cases h

theorem swapMailbox_eq (h : a.swapMailbox = some a') :
    ∃ task, a.strand = .entered task ∧ a.mutex = none ∧
      a' = { a with mailbox := [], strand := .draining task a.mailbox } := by
  unfold swapMailbox at h
  split at h
  · next task hstrand hmutex => exact ⟨task, hstrand, hmutex, (Option.some.inj h).symm⟩
  · cases h

theorem handleCall_eq (h : a.handleCall = some a') :
    ∃ task msg batch, a.strand = .draining task (msg :: batch) ∧
      a' = { a with strand := .handling task batch } := by
  unfold handleCall at h
  split at h
  · next task msg batch hstrand => exact ⟨task, msg, batch, hstrand, (Option.some.inj h).symm⟩
  · cases h

/-- The steps between and after handler calls move the strand on and nothing else, from a place with
some rest of the batch to a place with the same rest. -/
theorem strandStep_eq (h : a.handleReturn = some a' ∨ a.batchDone = some a' ∨
    a.tickReturn = some a') :
    ∃ strand, a' = { a with strand } ∧ a'.batchRest = a.batchRest ∧
      (∀ task, a.strand ≠ .entered task) := by
  rcases h with h | h | h
  · unfold handleReturn at h
    split at h
    · next task batch hstrand =>
      simp only [Option.ite_none_right_eq_some, Option.some.injEq] at h
      obtain ⟨-, rfl⟩ := h
      exact ⟨_, rfl, by simp [batchRest, hstrand], by simp [hstrand]⟩
    · cases h
  · unfold batchDone at h
    split at h
    · next hstrand =>
      cases h
      exact ⟨_, rfl, by simp [batchRest, hstrand], by simp [hstrand]⟩
    · next hstrand =>
      cases h
      exact ⟨_, rfl, by simp [batchRest, hstrand], by simp [hstrand]⟩
    · cases h
  · unfold tickReturn at h
    split at h
    · next hstrand =>
      simp only [Option.ite_none_right_eq_some, Option.some.injEq] at h
      obtain ⟨-, rfl⟩ := h
      exact ⟨_, rfl, by simp [batchRest, hstrand], by simp [hstrand]⟩
    · cases h

end Actor

/-! ## No message is lost, duplicated or reordered -/

/-- Handled messages, the rest of the batch and the mailbox make up everything enqueued. -/
def Conserved (a : Actor) (h : MailboxHistory) : Prop :=
  h.handled ++ a.batchRest ++ a.mailbox = h.enqueued

theorem Conserved.step {a a' : Actor} {h : MailboxHistory} {action : ActorAction}
    (hinv : Conserved a h) (hstep : a.step action = some a') :
    Conserved a' (h.record a action) := by
  unfold Conserved at hinv ⊢
  cases action with
  | enqueuePush caller msg =>
    obtain ⟨-, rfl⟩ := Actor.enqueuePush_eq hstep
    simp only [MailboxHistory.record, Actor.batchRest] at hinv ⊢
    -- The message goes to the end of the mailbox, and to the end of what was enqueued.
    rw [← List.append_assoc, hinv]
  | enqueuePost =>
    obtain ⟨_, _, -, rfl⟩ := Actor.enqueuePost_eq hstep
    exact hinv
  | enqueueUnlock =>
    obtain ⟨_, -, rfl⟩ := Actor.enqueueUnlock_eq hstep
    exact hinv
  | scheduleTick intervalMs =>
    cases hstep
    exact hinv
  | startTask index =>
    obtain ⟨task, hidle, -, rfl⟩ := Actor.startTask_eq hstep
    simpa [MailboxHistory.record, Actor.batchRest, hidle] using hinv
  -- What was the mailbox is the rest of the batch now.
  | swapMailbox =>
    obtain ⟨task, hstrand, -, rfl⟩ := Actor.swapMailbox_eq hstep
    simpa [MailboxHistory.record, Actor.batchRest, hstrand] using hinv
  -- The head of the batch has been handled.
  | handleCall =>
    obtain ⟨task, msg, batch, hstrand, rfl⟩ := Actor.handleCall_eq hstep
    simpa [MailboxHistory.record, Actor.batchRest, hstrand] using hinv
  | handleReturn =>
    obtain ⟨strand, rfl, hrest, -⟩ := Actor.strandStep_eq (Or.inl hstep)
    rw [hrest]
    exact hinv
  | batchDone =>
    obtain ⟨strand, rfl, hrest, -⟩ := Actor.strandStep_eq (Or.inr (Or.inl hstep))
    rw [hrest]
    exact hinv
  | tickReturn =>
    obtain ⟨strand, rfl, hrest, -⟩ := Actor.strandStep_eq (Or.inr (Or.inr hstep))
    rw [hrest]
    exact hinv

theorem conserved_of_reachable {p : Actor × MailboxHistory} (h : recordedActor.Reachable p) :
    Conserved p.1 p.2 := by
  refine h.invariant_withHistory ?_ fun _ _ _ _ hinv _ hstep => hinv.step hstep
  intro a ha
  obtain rfl : a = .fresh := ha
  rfl

/-! ## No wake-up is lost -/

namespace Actor

/-- A message in the mailbox is ahead of the swap of some task, or of the post that the
`EnqueueMessage` holding the mutex is about to make. -/
def Covered (a : Actor) : Prop :=
  a.mailbox = [] ∨ a.HasPendingSwap ∨ ∃ caller, a.mutex = some (caller, .pushed true)

theorem Covered.step {a a' : Actor} {action : ActorAction} (h : a.Covered)
    (hstep : a.step action = some a') : a'.Covered := by
  -- The swap is the only step that uses up a pending task, and it empties the mailbox.
  have hmove : ∀ strand, (∀ task, a.strand ≠ .entered task) → { a with strand }.Covered := by
    intro strand hne
    rcases h with hempty | (hposted | ⟨task, htask⟩) | hpost
    · exact Or.inl hempty
    · exact Or.inr (Or.inl (Or.inl hposted))
    · exact absurd htask (hne task)
    · exact Or.inr (Or.inr hpost)
  cases action with
  | enqueuePush caller msg =>
    obtain ⟨hfree, rfl⟩ := enqueuePush_eq hstep
    rcases h with hempty | hpending | ⟨_, hpost⟩
    · exact Or.inr (Or.inr ⟨caller, by simp [hempty]⟩)
    · exact Or.inr (Or.inl hpending)
    · rw [hfree] at hpost
      cases hpost
  | enqueuePost =>
    obtain ⟨caller, wasEmpty, hmutex, rfl⟩ := enqueuePost_eq hstep
    cases wasEmpty with
    | true => exact Or.inr (Or.inl (Or.inl (by simp)))
    | false =>
      rcases h with hempty | hpending | ⟨_, hpost⟩
      · exact Or.inl hempty
      · exact Or.inr (Or.inl hpending)
      · rw [hmutex] at hpost
        cases hpost
  | enqueueUnlock =>
    obtain ⟨caller, hmutex, rfl⟩ := enqueueUnlock_eq hstep
    rcases h with hempty | hpending | ⟨_, hpost⟩
    · exact Or.inl hempty
    · exact Or.inr (Or.inl hpending)
    · rw [hmutex] at hpost
      cases hpost
  | scheduleTick intervalMs =>
    cases hstep
    exact Or.inr (Or.inl (Or.inl (by simp)))
  | startTask index =>
    obtain ⟨task, -, -, rfl⟩ := startTask_eq hstep
    exact Or.inr (Or.inl (Or.inr ⟨task, rfl⟩))
  | swapMailbox =>
    obtain ⟨task, -, -, rfl⟩ := swapMailbox_eq hstep
    exact Or.inl rfl
  | handleCall =>
    obtain ⟨task, msg, batch, hstrand, rfl⟩ := handleCall_eq hstep
    exact hmove _ (by simp [hstrand])
  | handleReturn =>
    obtain ⟨strand, rfl, -, hne⟩ := strandStep_eq (Or.inl hstep)
    exact hmove _ hne
  | batchDone =>
    obtain ⟨strand, rfl, -, hne⟩ := strandStep_eq (Or.inr (Or.inl hstep))
    exact hmove _ hne
  | tickReturn =>
    obtain ⟨strand, rfl, -, hne⟩ := strandStep_eq (Or.inr (Or.inr hstep))
    exact hmove _ hne

theorem covered_of_reachable {a : Actor} (h : actorSystem.Reachable a) : a.Covered := by
  refine h.invariant ?_ fun _ _ _ hinv _ hstep => hinv.step hstep
  intro a ha
  obtain rfl : a = .fresh := ha
  exact Or.inl rfl

end Actor

/-! ## The mailbox's contract -/

/-- In every reachable state the handled messages, the rest of the batch and the mailbox are, in
this order, the messages enqueued so far. -/
theorem mailbox_keeps_order {p : Actor × MailboxHistory} (h : recordedActor.Reachable p) :
    p.2.handled ++ p.1.batchRest ++ p.1.mailbox = p.2.enqueued :=
  conserved_of_reachable h

/-- Outside the critical section of `EnqueueMessage` a message in the mailbox has a task ahead of
its swap; so once the strand has nothing left to do, every enqueued message has been handled. -/
theorem no_wakeup_lost {p : Actor × MailboxHistory} (h : recordedActor.Reachable p) :
    (p.1.mutex = none → p.1.mailbox ≠ [] → p.1.HasPendingSwap) ∧
      (p.1.mutex = none → p.1.posted = [] → p.1.strand = .idle →
        p.2.handled = p.2.enqueued) := by
  have hcovered : p.1.Covered :=
    Actor.covered_of_reachable (TransitionSystem.Reachable.fst_withHistory h)
  have hpending : p.1.mutex = none → p.1.mailbox ≠ [] → p.1.HasPendingSwap := by
    intro hfree hne
    rcases hcovered with hempty | hpending | ⟨_, hpost⟩
    · exact absurd hempty hne
    · exact hpending
    · rw [hfree] at hpost
      cases hpost
  refine ⟨hpending, fun hfree hposted hidle => ?_⟩
  have hempty : p.1.mailbox = [] := by
    by_contra hne
    rcases hpending hfree hne with hposted' | ⟨task, htask⟩
    · exact hposted' hposted
    · rw [hidle] at htask
      cases htask
  have hconserved := conserved_of_reachable h
  simpa [Conserved, Actor.batchRest, hidle, hempty] using hconserved

/-! A thread sends one message; its handler sends the actor another one; both tasks run. -/

/-- The message of the thread. -/
def ping : ActorMessage := ⟨1, [7]⟩

/-- The message of the handler. -/
def echo : ActorMessage := ⟨2, [7]⟩

/-- The steps up to the handler's own `EnqueueMessage`. -/
def pingThenEcho : List ActorAction :=
  [.enqueuePush (.thread 0) ping, .enqueuePost, .enqueueUnlock, .startTask 0, .swapMailbox,
    .handleCall, .enqueuePush .strand echo, .enqueuePost, .enqueueUnlock]

theorem freshActor_reachable : recordedActor.Reachable (.fresh, ⟨[], []⟩) :=
  .init ⟨rfl, rfl⟩

/-- `mailbox_keeps_order` with the second message still in the mailbox. -/
theorem mailbox_keeps_order_pingThenEcho :
    ∃ p, recordedActor.run (.fresh, ⟨[], []⟩) pingThenEcho = some p ∧
      p.2.handled ++ p.1.batchRest ++ p.1.mailbox = p.2.enqueued ∧ p.2.enqueued = [ping, echo] :=
  ⟨_, rfl, mailbox_keeps_order (freshActor_reachable.of_run pingThenEcho rfl), rfl⟩

/-- `no_wakeup_lost` there: a wake-up is posted for the second message. -/
theorem no_wakeup_lost_pingThenEcho :
    ∃ p, recordedActor.run (.fresh, ⟨[], []⟩) pingThenEcho = some p ∧ p.1.mailbox = [echo] ∧
      p.1.HasPendingSwap :=
  ⟨_, rfl, rfl, (no_wakeup_lost (freshActor_reachable.of_run pingThenEcho rfl)).1 rfl (by decide)⟩

end WasmHot
