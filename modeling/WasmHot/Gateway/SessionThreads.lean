import WasmHot.Gateway.SendQueue
import WasmHot.Lib.UnorderedMap

/-!
# The write chain of a session on several threads

The socket's executor is the `io_context` itself, which any number of threads run, so the handlers
that `Session::Send` posts and the completions of `async_write` start in any order and on any
thread. Nothing locks `send_queue_` and `send_in_progress_`: a step here is one access to one of
them, and the handlers of one session interleave between any two accesses.

As long as no two of these handlers overlap and the posted ones of each sender start in the order of
the posts, the chain has one write outstanding at a time and puts the messages of each sender on the
wire in the order of its calls (`sends_in_order`). Two handlers that overlap can each find the flag
clear and start a write (`overlapping_sends`).
-/

namespace WasmHot

/-- A message passed to `Gateway::Send`, with the thread that made the call. -/
structure Outgoing where
  sender : ThreadId
  msg : Message
  deriving DecidableEq

/-- What a handler of the write chain does next. -/
inductive HandlerPhase
  /-- `send_queue_.push_back(msg)` -/
  | pushBack (m : Outgoing)
  /-- `if (!send_in_progress_)` -/
  | testFlag
  /-- `send_in_progress_ = true` -/
  | setFlag
  /-- `if (send_queue_.empty())`, the first access of `DoWrite`. -/
  | testEmpty
  /-- `send_in_progress_ = false` -/
  | clearFlag
  /-- `std::move(send_queue_.front())` -/
  | moveFront
  /-- `send_queue_.pop_front()` -/
  | popFront (m : Outgoing)
  /-- `async_write` of the framed message. -/
  | startWrite (m : Outgoing)
  deriving DecidableEq

/-- The write chain of a session with the handlers that are posted and running. -/
structure SessionThreads where
  sendQueue : List Outgoing
  sendInProgress : Bool
  /-- The handlers that `Session::Send` has posted and no thread has taken. -/
  posted : List Outgoing
  handlers : UnorderedMap ThreadId HandlerPhase
  /-- The outstanding `async_write`s; the buffer of each is the `frame` of its message. -/
  writes : List Outgoing
  /-- A write has called `HandleError`. -/
  failed : Bool
  deriving DecidableEq

/-- What a thread of the `io_context` does for the write chain. -/
inductive HandlerAction
  /-- The thread takes the posted handler at this position. -/
  | runSend (t : ThreadId) (k : ℕ)
  /-- The handler on this thread makes its next access. -/
  | advance (t : ThreadId)
  /-- The outstanding write at this position has completed, and the thread runs its completion. -/
  | writeDone (t : ThreadId) (k : ℕ)
  /-- The completion of a write that has failed. -/
  | writeFailed (k : ℕ)
  deriving DecidableEq

namespace SessionThreads

/-- A new session. -/
def new : SessionThreads where
  sendQueue := []
  sendInProgress := false
  posted := []
  handlers := ∅
  writes := []
  failed := false

/-- `Session::Send`. -/
def post (s : SessionThreads) (m : Outgoing) : SessionThreads :=
  { s with posted := s.posted ++ [m] }

/-- The thread goes on to another access of its handler. -/
def enter (s : SessionThreads) (t : ThreadId) (phase : HandlerPhase) : SessionThreads :=
  { s with handlers := s.handlers.insert t phase }

/-- The handler on the thread returns. -/
def leave (s : SessionThreads) (t : ThreadId) : SessionThreads :=
  { s with handlers := s.handlers.erase t }

/-- The next access of the handler on a thread. There is no step for `front` and `pop_front` of an
empty deque, which are undefined. -/
def advance (s : SessionThreads) (t : ThreadId) : Option SessionThreads :=
  match s.handlers.lookup t with
  | none => none
  | some (.pushBack m) => some ({ s with sendQueue := s.sendQueue ++ [m] }.enter t .testFlag)
  | some .testFlag => some (if s.sendInProgress then s.leave t else s.enter t .setFlag)
  | some .setFlag => some ({ s with sendInProgress := true }.enter t .testEmpty)
  | some .testEmpty => some (s.enter t (if s.sendQueue = [] then .clearFlag else .moveFront))
  | some .clearFlag => some ({ s with sendInProgress := false }.leave t)
  | some .moveFront =>
      match s.sendQueue with
      | [] => none
      | m :: rest =>
          -- The vector that is moved from stays in the deque, empty.
          some ({ s with sendQueue := { m with msg := [] } :: rest }.enter t (.popFront m))
  | some (.popFront m) =>
      match s.sendQueue with
      | [] => none
      | _ :: rest => some ({ s with sendQueue := rest }.enter t (.startWrite m))
  | some (.startWrite m) => some ({ s with writes := s.writes ++ [m] }.leave t)

/-- The step of an action, where it is enabled. -/
def step (s : SessionThreads) : HandlerAction → Option SessionThreads
  | .runSend t k =>
      match s.handlers.lookup t, s.posted[k]? with
      | none, some m => some ({ s with posted := s.posted.eraseIdx k }.enter t (.pushBack m))
      | _, _ => none
  | .advance t => s.advance t
  | .writeDone t k =>
      if s.handlers.lookup t = none ∧ k < s.writes.length then
        some ({ s with writes := s.writes.eraseIdx k }.enter t .testEmpty)
      else none
  | .writeFailed k =>
      if k < s.writes.length then
        some { s with writes := s.writes.eraseIdx k, failed := true }
      else none

/-! ## What an access does -/

/-- The thread goes on to another access, or its handler returns. -/
def goOn (s : SessionThreads) (t : ThreadId) : Option HandlerPhase → SessionThreads
  | some phase => s.enter t phase
  | none => s.leave t

/-- What an access makes of the chain, and what the handler does after it. -/
inductive Access (s : SessionThreads) :
    HandlerPhase → Option HandlerPhase → SessionThreads → Prop
  | pushBack (m : Outgoing) :
      Access s (.pushBack m) (some .testFlag) { s with sendQueue := s.sendQueue ++ [m] }
  | found (h : s.sendInProgress = true) : Access s .testFlag none s
  | notFound (h : s.sendInProgress = false) : Access s .testFlag (some .setFlag) s
  | setFlag : Access s .setFlag (some .testEmpty) { s with sendInProgress := true }
  | noMessage (h : s.sendQueue = []) : Access s .testEmpty (some .clearFlag) s
  | message (h : s.sendQueue ≠ []) : Access s .testEmpty (some .moveFront) s
  | clearFlag : Access s .clearFlag none { s with sendInProgress := false }
  | moveFront (m : Outgoing) (rest : List Outgoing) (h : s.sendQueue = m :: rest) :
      Access s .moveFront (some (.popFront m))
        { s with sendQueue := { m with msg := [] } :: rest }
  | popFront (m moved : Outgoing) (rest : List Outgoing) (h : s.sendQueue = moved :: rest) :
      Access s (.popFront m) (some (.startWrite m)) { s with sendQueue := rest }
  | startWrite (m : Outgoing) : Access s (.startWrite m) none { s with writes := s.writes ++ [m] }

theorem advance_eq {s s' : SessionThreads} {t : ThreadId} (h : s.advance t = some s') :
    ∃ phase next inner, s.handlers.lookup t = some phase ∧ s.Access phase next inner ∧
      s' = inner.goOn t next := by
  unfold advance at h
  cases hphase : s.handlers.lookup t with
  | none =>
    rw [hphase] at h
    cases h
  | some phase =>
    simp only [hphase] at h
    cases phase with
    | pushBack m => exact ⟨_, _, _, rfl, .pushBack m, (Option.some.inj h).symm⟩
    | testFlag =>
      -- What is tested decides where the handler goes on.
      cases hflag : s.sendInProgress with
      | true =>
        simp only [hflag, if_true] at h
        exact ⟨_, _, _, rfl, .found hflag, (Option.some.inj h).symm⟩
      | false =>
        simp only [hflag, Bool.false_eq_true, if_false] at h
        exact ⟨_, _, _, rfl, .notFound hflag, (Option.some.inj h).symm⟩
    | setFlag => exact ⟨_, _, _, rfl, .setFlag, (Option.some.inj h).symm⟩
    | testEmpty =>
      by_cases hqueue : s.sendQueue = []
      · rw [if_pos hqueue] at h
        exact ⟨_, _, _, rfl, .noMessage hqueue, (Option.some.inj h).symm⟩
      · rw [if_neg hqueue] at h
        exact ⟨_, _, _, rfl, .message hqueue, (Option.some.inj h).symm⟩
    | clearFlag => exact ⟨_, _, _, rfl, .clearFlag, (Option.some.inj h).symm⟩
    | moveFront =>
      cases hqueue : s.sendQueue with
      -- `front` of an empty deque is undefined, and the model has no step for it.
      | nil =>
        rw [hqueue] at h
        cases h
      | cons m rest =>
        rw [hqueue] at h
        exact ⟨_, _, _, rfl, .moveFront m rest hqueue, (Option.some.inj h).symm⟩
    | popFront m =>
      cases hqueue : s.sendQueue with
      | nil =>
        rw [hqueue] at h
        cases h
      | cons moved rest =>
        rw [hqueue] at h
        exact ⟨_, _, _, rfl, .popFront m moved rest hqueue, (Option.some.inj h).symm⟩
    | startWrite m => exact ⟨_, _, _, rfl, .startWrite m, (Option.some.inj h).symm⟩

/-- An access touches neither the handlers, nor what is posted, nor the record of a failure. -/
theorem Access.frame {s inner : SessionThreads} {phase : HandlerPhase} {next : Option HandlerPhase}
    (h : s.Access phase next inner) :
    inner.handlers = s.handlers ∧ inner.posted = s.posted ∧ inner.failed = s.failed := by
  cases h
  all_goals exact ⟨rfl, rfl, rfl⟩

@[simp] theorem goOn_posted (s : SessionThreads) (t : ThreadId) (next : Option HandlerPhase) :
    (s.goOn t next).posted = s.posted := by
  cases next <;> rfl

@[simp] theorem goOn_failed (s : SessionThreads) (t : ThreadId) (next : Option HandlerPhase) :
    (s.goOn t next).failed = s.failed := by
  cases next <;> rfl

/-- A failed write is recorded and not forgotten, and nothing else is recorded as one. -/
theorem failed_iff {s s' : SessionThreads} {a : HandlerAction} (hstep : s.step a = some s') :
    s'.failed = true ↔ s.failed = true ∨ ∃ k, a = .writeFailed k := by
  cases a with
  | runSend t k =>
    simp only [step] at hstep
    split at hstep
    · cases hstep
      exact (or_iff_left nofun).symm
    · cases hstep
  | advance t =>
    obtain ⟨phase, next, inner, -, haccess, rfl⟩ := advance_eq hstep
    rw [goOn_failed, haccess.frame.2.2]
    exact (or_iff_left nofun).symm
  | writeDone t k =>
    simp only [step, Option.ite_none_right_eq_some, Option.some.injEq] at hstep
    rw [← hstep.2]
    exact (or_iff_left nofun).symm
  | writeFailed k =>
    simp only [step, Option.ite_none_right_eq_some, Option.some.injEq] at hstep
    rw [← hstep.2]
    exact iff_of_true rfl (Or.inr ⟨k, rfl⟩)

end SessionThreads

/-! ## One session of the gateway -/

/-- A session and its place in the gateway. -/
structure SessionLink where
  threads : SessionThreads
  /-- `sessions_` has the session. -/
  registered : Bool
  deriving DecidableEq

/-- What happens to a session as far as its write chain is concerned. -/
inductive LinkAction
  /-- The thread calls `Gateway::Send` for the session. -/
  | send (t : ThreadId) (msg : Message)
  /-- The read chain calls `OnSessionClosed`. -/
  | closed
  | handler (a : HandlerAction)
  deriving DecidableEq

namespace SessionLink

/-- A session that has just been accepted. -/
def accepted : SessionLink := ⟨.new, true⟩

/-- The step of an action, where it is enabled. -/
def step (l : SessionLink) : LinkAction → Option SessionLink
  | .send t msg =>
      -- Lookup and post are one step: only posts of other senders can fall between them.
      if l.registered then some { l with threads := l.threads.post ⟨t, msg⟩ }
      else some l
  | .closed => some { l with registered := false }
  | .handler (.writeFailed k) =>
      -- `HandleError` calls `OnSessionClosed`.
      (l.threads.step (.writeFailed k)).map fun threads => ⟨threads, false⟩
  | .handler a => (l.threads.step a).map fun threads => { l with threads }

end SessionLink

/-- All interleavings of a session's handlers, of any threads that send and run handlers. -/
def linkSystem : TransitionSystem SessionLink LinkAction where
  Init l := l = .accepted
  step := SessionLink.step

/-- The calls of `Gateway::Send` for the session, and the `async_write`s started, in order. -/
structure SendHistory where
  sent : List Outgoing
  started : List Outgoing
  deriving DecidableEq

/-- A call is recorded as it is made, and a write as it is started. -/
def SendHistory.record (h : SendHistory) (l : SessionLink) : LinkAction → SendHistory
  | .send t msg => { h with sent := h.sent ++ [⟨t, msg⟩] }
  | .handler (.advance t) =>
      match l.threads.handlers.lookup t with
      | some (.startWrite m) => { h with started := h.started ++ [m] }
      | _ => h
  | _ => h

/-- The session with its history. -/
abbrev recordedLink : TransitionSystem (SessionLink × SendHistory) LinkAction :=
  linkSystem.withHistory (fun _ => ⟨[], []⟩) SendHistory.record

theorem reach_accepted {C : SessionLink × SendHistory → LinkAction → Prop} :
    recordedLink.ReachWhere C (.accepted, ⟨[], []⟩) :=
  .init ⟨rfl, rfl⟩

/-- The messages of one sender. -/
def sentBy (t : ThreadId) (msgs : List Outgoing) : List Outgoing :=
  msgs.filter fun m => m.sender = t

/-- Nothing is left to be done for the write chain. -/
structure SessionThreads.AtRest (s : SessionThreads) : Prop where
  posted : s.posted = []
  handlers : s.handlers = ∅
  writes : s.writes = []

/-- One write at a time, the messages of each sender on the wire in the order of its calls, none of
them twice, and none missing when the chain has come to rest without a write error. -/
structure InOrder (l : SessionLink) (h : SendHistory) : Prop where
  single : l.threads.writes.length ≤ 1
  ordered : ∀ t, sentBy t h.started <+: sentBy t h.sent
  complete : l.threads.AtRest → l.threads.failed = false →
    ∀ t, sentBy t h.started = sentBy t h.sent

/-! ## Handlers that do not overlap -/

/-- The thread takes a handler while no other handler of the session runs, and a posted one only
after those that its sender has posted before; and messages are sent while the gateway has the
session. -/
def SessionLink.Serial (l : SessionLink) : LinkAction → Prop
  | .send _ _ => l.registered = true
  | .handler (.runSend _ k) => l.threads.handlers = ∅ ∧
      ∀ m ∈ l.threads.posted[k]?, ∀ m' ∈ l.threads.posted.take k, m'.sender ≠ m.sender
  | .handler (.writeDone _ _) => l.threads.handlers = ∅
  | _ => True

instance (l : SessionLink) : DecidablePred l.Serial
  | .send _ _ => inferInstanceAs (Decidable (l.registered = true))
  | .closed => inferInstanceAs (Decidable True)
  | .handler (.runSend _ _) => inferInstanceAs (Decidable (_ ∧ _))
  | .handler (.advance _) => inferInstanceAs (Decidable True)
  | .handler (.writeDone _ _) => inferInstanceAs (Decidable (_ = _))
  | .handler (.writeFailed _) => inferInstanceAs (Decidable True)

@[simp] theorem sentBy_append (t : ThreadId) (xs ys : List Outgoing) :
    sentBy t (xs ++ ys) = sentBy t xs ++ sentBy t ys :=
  List.filter_append xs ys

/-- A message can be taken out of turn if none of its sender's is in front of it. -/
theorem sentBy_take_cons_eraseIdx {posted : List Outgoing} {k : ℕ} {m : Outgoing}
    (hm : posted[k]? = some m) (hturn : ∀ m' ∈ posted.take k, m'.sender ≠ m.sender)
    (t : ThreadId) : sentBy t (m :: posted.eraseIdx k) = sentBy t posted := by
  obtain ⟨hk, rfl⟩ := List.getElem?_eq_some_iff.mp hm
  have hsplit : posted = posted.take k ++ posted[k] :: posted.drop (k + 1) := by
    rw [List.getElem_cons_drop, List.take_append_drop]
  rw [List.eraseIdx_eq_take_drop_succ]
  conv_rhs => rw [hsplit]
  by_cases ht : posted[k].sender = t
  · -- The sender of the message has none in front.
    have hnone : sentBy t (posted.take k) = [] := by
      refine List.filter_eq_nil_iff.mpr fun m' hm' => ?_
      have hne := hturn m' hm'
      rw [ht] at hne
      simpa using hne
    have hcons : ∀ rest, sentBy t (posted[k] :: rest) = sentBy t [posted[k]] ++ sentBy t rest :=
      fun rest => sentBy_append t [posted[k]] rest
    rw [hcons (posted.take k ++ _), sentBy_append, sentBy_append, hnone,
      hcons (posted.drop (k + 1))]
    rfl
  · have hskip : ∀ rest, sentBy t (posted[k] :: rest) = sentBy t rest := by
      intro rest
      exact List.filter_cons_of_neg (by simpa using ht)
    rw [hskip, sentBy_append, sentBy_append, hskip]

namespace SessionThreads

variable {s s' : SessionThreads} {t : ThreadId} {phase phase' : HandlerPhase}

/-- At most one handler runs, and it is in this phase. -/
def Runs (s : SessionThreads) : Option HandlerPhase → Prop
  | none => s.handlers = ∅
  | some phase => ∃ t, s.handlers = Finmap.singleton t phase

/-- The messages that are neither on the wire nor waiting for their posted handler, in the order in
which they will go out. -/
def queued (s : SessionThreads) : Option HandlerPhase → List Outgoing
  | some (.pushBack m) => s.sendQueue ++ [m]
  | some (.popFront m) => m :: s.sendQueue.tail
  | some (.startWrite m) => m :: s.sendQueue
  | _ => s.sendQueue

/-- The flag is set and the chain waits for its write, or a write has failed and it has ended. -/
structure Busy (s : SessionThreads) : Prop where
  flag : s.sendInProgress = true
  waits : s.writes.length = 1 ∨ (s.writes = [] ∧ s.failed = true)

/-- The flag is clear, and there is nothing to write. -/
structure Resting (s : SessionThreads) : Prop where
  flag : s.sendInProgress = false
  queue : s.sendQueue = []
  writes : s.writes = []

/-- The running handler has the chain to itself. -/
structure Owned (s : SessionThreads) : Prop where
  flag : s.sendInProgress = true
  writes : s.writes = []

/-- What the flag and the writes are when the running handler is about to make its next access. -/
def Control (s : SessionThreads) : Option HandlerPhase → Prop
  | none => s.Busy ∨ s.Resting
  | some (.pushBack _) => s.Busy ∨ s.Resting
  | some .testFlag => s.Busy ∨ (s.sendInProgress = false ∧ s.writes = [])
  | some .setFlag => s.writes = []
  | some .testEmpty => s.Owned
  | some .clearFlag => s.Owned ∧ s.sendQueue = []
  | some .moveFront => s.Owned
  | some (.popFront _) => s.Owned
  | some (.startWrite _) => s.Owned

theorem Runs.lookup (h : s.Runs (some phase)) (ht : s.handlers.lookup t = some phase') :
    phase' = phase ∧ s.handlers = Finmap.singleton t phase := by
  obtain ⟨u, hu⟩ := h
  by_cases heq : t = u
  · subst heq
    rw [hu, Finmap.lookup_singleton_eq] at ht
    exact ⟨(Option.some.inj ht).symm, hu⟩
  · have hnone : s.handlers.lookup t = none := by
      rw [hu]
      exact Finmap.lookup_eq_none.mpr fun hmem => heq (Finmap.mem_singleton t u phase |>.mp hmem)
    rw [hnone] at ht
    cases ht

theorem runs_goOn (h : s.handlers = Finmap.singleton t phase) (next : Option HandlerPhase) :
    (s.goOn t next).Runs next := by
  cases next with
  | none =>
    show s.handlers.erase t = ∅
    rw [h]
    refine Finmap.ext_lookup fun u => ?_
    rw [UnorderedMap.lookup_erase, Finmap.lookup_empty]
    split_ifs with hu
    · rfl
    · exact Finmap.lookup_eq_none.mpr fun hmem => hu (Finmap.mem_singleton u t phase |>.mp hmem)
  | some phase' =>
    refine ⟨t, ?_⟩
    show s.handlers.insert t phase' = _
    rw [h, Finmap.insert_singleton_eq]

theorem runs_start (h : s.handlers = ∅) (t : ThreadId) (phase : HandlerPhase) :
    (s.enter t phase).Runs (some phase) := by
  refine ⟨t, ?_⟩
  show s.handlers.insert t phase = _
  rw [h]
  rfl

/-- The handler on a thread is the one that runs. -/
theorem Runs.handler {running : Option HandlerPhase} (h : s.Runs running)
    (ht : s.handlers.lookup t = some phase) :
    running = some phase ∧ s.handlers = Finmap.singleton t phase := by
  cases running with
  | none =>
    have hempty : s.handlers = ∅ := h
    rw [hempty, Finmap.lookup_empty] at ht
    cases ht
  | some phase' =>
    obtain ⟨rfl, hsingle⟩ := h.lookup ht
    exact ⟨rfl, hsingle⟩

/-- An access by the one handler that runs leaves the flag and the writes as the next one expects
them. -/
theorem Access.control {inner : SessionThreads} {next : Option HandlerPhase}
    (h : s.Access phase next inner) (hcontrol : s.Control (some phase)) (t : ThreadId) :
    (inner.goOn t next).Control next := by
  cases h with
  | pushBack m =>
    exact hcontrol.imp (fun hbusy => ⟨hbusy.flag, hbusy.waits⟩) fun hrest =>
      ⟨hrest.flag, hrest.writes⟩
  | found hflag =>
    refine Or.inl (hcontrol.elim (fun hbusy => ⟨hbusy.flag, hbusy.waits⟩) fun hclear => ?_)
    rw [hflag] at hclear
    cases hclear.1
  | notFound hflag =>
    refine hcontrol.elim (fun hbusy => ?_) fun hclear => hclear.2
    have hset := hbusy.flag
    rw [hflag] at hset
    cases hset
  | setFlag => exact ⟨rfl, hcontrol⟩
  | noMessage hqueue => exact ⟨⟨hcontrol.flag, hcontrol.writes⟩, hqueue⟩
  | message hqueue => exact ⟨hcontrol.flag, hcontrol.writes⟩
  | clearFlag => exact Or.inr ⟨rfl, hcontrol.2, hcontrol.1.writes⟩
  | moveFront m rest hqueue => exact ⟨hcontrol.flag, hcontrol.writes⟩
  | popFront m moved rest hqueue => exact ⟨hcontrol.flag, hcontrol.writes⟩
  | startWrite m =>
    refine Or.inl ⟨hcontrol.flag, Or.inl ?_⟩
    show (s.writes ++ [m]).length = 1
    rw [hcontrol.writes]
    rfl

/-- The writes that an access starts. -/
def starts : HandlerPhase → List Outgoing
  | .startWrite m => [m]
  | _ => []

/-- An access keeps the messages that are on their way and their order. -/
theorem Access.queued_eq {inner : SessionThreads} {next : Option HandlerPhase}
    (h : s.Access phase next inner) (t : ThreadId) :
    starts phase ++ (inner.goOn t next).queued next = s.queued (some phase) := by
  cases h with
  | moveFront m rest hqueue => exact hqueue.symm
  | popFront m moved rest hqueue =>
    show m :: rest = m :: s.sendQueue.tail
    rw [hqueue, List.tail_cons]
  | _ => rfl

/-- The state of the chain in terms of the one handler that runs. -/
structure Chain (s : SessionThreads) (h : SendHistory) (phase : Option HandlerPhase) : Prop where
  runs : s.Runs phase
  control : s.Control phase
  order : ∀ t, sentBy t (h.started ++ s.queued phase ++ s.posted) = sentBy t h.sent

variable {h : SendHistory} {running : Option HandlerPhase}

theorem record_advance (h : SendHistory) (hphase : s.handlers.lookup t = some phase)
    (registered : Bool) : h.record ⟨s, registered⟩ (.handler (.advance t)) =
      { h with started := h.started ++ starts phase } := by
  simp only [SendHistory.record, hphase]
  cases phase with
  | startWrite m => rfl
  | _ => simp only [starts, List.append_nil]

/-- The running handler makes its next access. -/
theorem Chain.access {inner : SessionThreads} {next : Option HandlerPhase}
    (hchain : s.Chain h running) (hphase : s.handlers.lookup t = some phase)
    (haccess : s.Access phase next inner) :
    (inner.goOn t next).Chain { h with started := h.started ++ starts phase } next := by
  obtain ⟨rfl, hsingle⟩ := hchain.runs.handler hphase
  obtain ⟨hhandlers, hposted, -⟩ := haccess.frame
  refine ⟨runs_goOn (hhandlers.trans hsingle) next, haccess.control hchain.control t,
    fun u => ?_⟩
  rw [goOn_posted, hposted, ← hchain.order u, ← haccess.queued_eq t, ← List.append_assoc]

theorem Chain.advance (hchain : s.Chain h running) (hstep : s.advance t = some s')
    (registered : Bool) :
    ∃ next, s'.Chain (h.record ⟨s, registered⟩ (.handler (.advance t))) next := by
  obtain ⟨phase, next, inner, hphase, haccess, rfl⟩ := advance_eq hstep
  rw [record_advance h hphase]
  exact ⟨next, hchain.access hphase haccess⟩

/-- A message that is posted waits for its handler. -/
@[simp] theorem queued_post (s : SessionThreads) (m : Outgoing) (running : Option HandlerPhase) :
    (s.post m).queued running = s.queued running := by
  cases running with
  | none => rfl
  | some phase => cases phase <;> rfl

/-- A message is posted behind the others. -/
theorem Chain.post (hchain : s.Chain h running) (m : Outgoing) :
    (s.post m).Chain { h with sent := h.sent ++ [m] } running where
  runs := hchain.runs
  control := by
    have hsettled : s.Busy ∨ s.Resting → (s.post m).Busy ∨ (s.post m).Resting :=
      Or.imp (fun hbusy => ⟨hbusy.flag, hbusy.waits⟩)
        fun hrest => ⟨hrest.flag, hrest.queue, hrest.writes⟩
    have howned : s.Owned → (s.post m).Owned := fun howned => ⟨howned.flag, howned.writes⟩
    have hcontrol := hchain.control
    cases running with
    | none => exact hsettled hcontrol
    | some phase =>
      cases phase with
      | pushBack m => exact hsettled hcontrol
      | testFlag => exact hcontrol.imp_left fun hbusy => ⟨hbusy.flag, hbusy.waits⟩
      | setFlag => exact hcontrol
      | testEmpty => exact howned hcontrol
      | clearFlag => exact hcontrol.imp_left howned
      | moveFront => exact howned hcontrol
      | popFront m => exact howned hcontrol
      | startWrite m => exact howned hcontrol
  order := by
    intro t
    show sentBy t (h.started ++ (s.post m).queued running ++ (s.posted ++ [m])) =
      sentBy t (h.sent ++ [m])
    rw [queued_post, ← List.append_assoc, sentBy_append, hchain.order t, ← sentBy_append]

/-- Without handlers, the chain waits for its write or rests. -/
theorem Chain.none_of_empty (hchain : s.Chain h running) (hempty : s.handlers = ∅) :
    running = none := by
  cases running with
  | none => rfl
  | some phase =>
    obtain ⟨t, ht⟩ := hchain.runs
    have hlookup : s.handlers.lookup t = some phase := by
      rw [ht, Finmap.lookup_singleton_eq]
    rw [hempty, Finmap.lookup_empty] at hlookup
    cases hlookup

/-- A thread takes a posted handler in its turn. -/
theorem Chain.runSend {k : ℕ} (hchain : s.Chain h running) (hempty : s.handlers = ∅)
    (hturn : ∀ m ∈ s.posted[k]?, ∀ m' ∈ s.posted.take k, m'.sender ≠ m.sender)
    (hstep : s.step (.runSend t k) = some s') :
    ∃ m, s'.Chain h (some (.pushBack m)) ∧
      s' = { s with posted := s.posted.eraseIdx k }.enter t (.pushBack m) := by
  cases hchain.none_of_empty hempty
  simp only [SessionThreads.step] at hstep
  split at hstep
  · next m hidle hm =>
    cases hstep
    refine ⟨m, ⟨runs_start hempty t _, ?_, fun u => ?_⟩, rfl⟩
    · exact hchain.control.imp (fun hbusy => ⟨hbusy.flag, hbusy.waits⟩)
        fun hrest => ⟨hrest.flag, hrest.queue, hrest.writes⟩
    · show sentBy u (h.started ++ (s.sendQueue ++ [m]) ++ s.posted.eraseIdx k) = _
      rw [← hchain.order u, sentBy_append _ _ s.posted,
        ← sentBy_take_cons_eraseIdx hm (hturn m hm) u, ← sentBy_append]
      simp only [queued, List.append_assoc, List.singleton_append]
  · cases hstep

/-- The one write is the only one. -/
theorem Busy.eraseIdx {k : ℕ} (hbusy : s.Busy) (hk : k < s.writes.length) :
    s.writes.eraseIdx k = [] := by
  rcases hbusy.waits with hone | ⟨hnone, -⟩
  · apply List.eq_nil_of_length_eq_zero
    rw [List.length_eraseIdx_of_lt hk, hone]
  · rw [hnone] at hk
    exact absurd hk (Nat.not_lt_zero k)

/-- A thread takes the completion of the one write. -/
theorem Chain.writeDone {k : ℕ} (hchain : s.Chain h running) (hempty : s.handlers = ∅)
    (hstep : s.step (.writeDone t k) = some s') :
    s'.Chain h (some .testEmpty) ∧ s.writes ≠ [] ∧
      s' = { s with writes := s.writes.eraseIdx k }.enter t .testEmpty := by
  cases hchain.none_of_empty hempty
  simp only [SessionThreads.step, Option.ite_none_right_eq_some, Option.some.injEq] at hstep
  obtain ⟨⟨-, hk⟩, rfl⟩ := hstep
  have hwrites : s.writes ≠ [] := List.ne_nil_of_length_pos (Nat.zero_lt_of_lt hk)
  refine ⟨⟨runs_start hempty t _, ?_, hchain.order⟩, hwrites, rfl⟩
  rcases hchain.control with hbusy | hrest
  · exact ⟨hbusy.flag, hbusy.eraseIdx hk⟩
  · exact absurd hrest.writes hwrites

/-- While a write is outstanding, a handler that runs is one of `Send` that has not tested the
flag. -/
theorem Control.untested (hcontrol : s.Control running) (hwrites : s.writes ≠ []) :
    running = none ∨ (∃ m, running = some (.pushBack m)) ∨ running = some .testFlag := by
  cases running with
  | none => exact Or.inl rfl
  | some phase =>
    cases phase with
    | pushBack m => exact Or.inr (Or.inl ⟨m, rfl⟩)
    | testFlag => exact Or.inr (Or.inr rfl)
    | setFlag => exact absurd hcontrol hwrites
    | testEmpty => exact absurd hcontrol.writes hwrites
    | clearFlag => exact absurd hcontrol.1.writes hwrites
    | moveFront => exact absurd hcontrol.writes hwrites
    | popFront m => exact absurd hcontrol.writes hwrites
    | startWrite m => exact absurd hcontrol.writes hwrites

/-- A write is outstanding only while the chain waits for it, and then the running handler does not
mind whether the write goes on or has failed. -/
theorem Control.of_writes (hcontrol : s.Control running) (hwrites : s.writes ≠ []) :
    s.Busy ∧ ∀ s' : SessionThreads, s'.Busy → s'.Control running := by
  obtain rfl | ⟨m, rfl⟩ | rfl := hcontrol.untested hwrites
  · exact ⟨hcontrol.resolve_right fun hrest => hwrites hrest.writes, fun _ hbusy => Or.inl hbusy⟩
  · exact ⟨hcontrol.resolve_right fun hrest => hwrites hrest.writes, fun _ hbusy => Or.inl hbusy⟩
  · exact ⟨hcontrol.resolve_right fun hclear => hwrites hclear.2, fun _ hbusy => Or.inl hbusy⟩

/-- Whatever handler runs, only a chain that waits has a write that can fail. -/
theorem Chain.writeFailed {k : ℕ} (hchain : s.Chain h running)
    (hstep : s.step (.writeFailed k) = some s') : s'.Chain h running := by
  simp only [SessionThreads.step, Option.ite_none_right_eq_some, Option.some.injEq] at hstep
  obtain ⟨hk, rfl⟩ := hstep
  have hwrites : s.writes ≠ [] := List.ne_nil_of_length_pos (Nat.zero_lt_of_lt hk)
  obtain ⟨hbusy, hcontrol⟩ := hchain.control.of_writes hwrites
  exact ⟨hchain.runs, hcontrol _ ⟨hbusy.flag, Or.inr ⟨hbusy.eraseIdx hk, rfl⟩⟩, hchain.order⟩

/-- A chain that has come to rest without a write error has nothing queued. -/
theorem Chain.resting (hchain : s.Chain h running) (hrest : s.AtRest) (hfailed : s.failed = false) :
    s.Resting := by
  cases hchain.none_of_empty hrest.handlers
  refine hchain.control.resolve_left fun hbusy => ?_
  rcases hbusy.waits with hone | ⟨-, hended⟩
  · rw [hrest.writes] at hone
    cases hone
  · rw [hfailed] at hended
    cases hended

/-- The invariant says that the chain is in order. -/
theorem Chain.inOrder (hchain : s.Chain h running) (registered : Bool) :
    InOrder ⟨s, registered⟩ h where
  single := by
    by_cases hwrites : s.writes = []
    · simp [hwrites]
    · have hbusy := (hchain.control.of_writes hwrites).1
      exact hbusy.waits.elim Nat.le_of_eq fun hended => absurd hended.1 hwrites
  ordered := by
    intro t
    rw [← hchain.order t, List.append_assoc, sentBy_append]
    exact List.prefix_append _ _
  complete := by
    intro hrest hfailed t
    cases hchain.none_of_empty hrest.handlers
    have hqueued : s.queued none = [] := (hchain.resting hrest hfailed).queue
    rw [← hchain.order t, hrest.posted, hqueued, List.append_nil, List.append_nil]

end SessionThreads

namespace SessionLink

variable {l l' : SessionLink} {h : SendHistory} {running : Option HandlerPhase} {a : LinkAction}

theorem handler_step {b : HandlerAction} (hstep : l.step (.handler b) = some l') :
    l.threads.step b = some l'.threads := by
  cases b with
  | writeFailed k =>
    obtain ⟨threads, hthreads, rfl⟩ := Option.map_eq_some_iff.mp hstep
    exact hthreads
  | _ =>
    obtain ⟨threads, hthreads, rfl⟩ := Option.map_eq_some_iff.mp hstep
    exact hthreads

/-- One step keeps the invariant of the write chain, if handlers do not overlap. -/
theorem chain_step (hchain : l.threads.Chain h running) (hserial : l.Serial a)
    (hstep : l.step a = some l') : ∃ next, l'.threads.Chain (h.record l a) next := by
  cases a with
  | send t msg =>
    have hregistered : l.registered = true := hserial
    simp only [step, hregistered, if_true, Option.some.injEq] at hstep
    subst hstep
    exact ⟨running, hchain.post ⟨t, msg⟩⟩
  | closed =>
    cases hstep
    exact ⟨running, hchain⟩
  | handler b =>
    have hthreads := handler_step hstep
    cases b with
    | runSend t k =>
      obtain ⟨m, hnext, -⟩ := hchain.runSend hserial.1 hserial.2 hthreads
      exact ⟨_, hnext⟩
    | advance t => exact hchain.advance hthreads l.registered
    | writeDone t k => exact ⟨_, (hchain.writeDone hserial hthreads).1⟩
    | writeFailed k => exact ⟨running, hchain.writeFailed hthreads⟩

end SessionLink

/-- In every run in which no two handlers of the session overlap, the posted handlers of each sender
start in the order of its calls and messages are sent while the gateway has the session, at most one
`async_write` is outstanding and the messages of each sender go out in the order of its calls, each
once. -/
theorem sends_in_order {p : SessionLink × SendHistory}
    (hreach : recordedLink.ReachWhere (fun p a => p.1.Serial a) p) : InOrder p.1 p.2 := by
  have hinv : ∃ running, p.1.threads.Chain p.2 running := by
    refine hreach.invariant_withHistory (I := fun l h => ∃ running, l.threads.Chain h running) ?_
      fun l h a l' ⟨running, hchain⟩ hserial hstep => l.chain_step hchain hserial hstep
    rintro l rfl
    exact ⟨none, rfl, Or.inr ⟨rfl, rfl, rfl⟩, fun _ => rfl⟩
  obtain ⟨running, hchain⟩ := hinv
  exact hchain.inOrder p.1.registered

/-- Thread 0 sends two messages, and their handlers run on threads 1 and 2: the second one first,
and each finds the flag clear. -/
def overlappingSends : List LinkAction :=
  [.send 0 [1], .send 0 [2], .handler (.runSend 1 0), .handler (.runSend 2 0)] ++
    [2, 2, 1, 1, 1, 2, 1, 2, 2, 2, 2, 1, 1, 1].map fun t => .handler (.advance t)

/-- Two writes are outstanding at once, and the second message is written first. -/
theorem overlapping_sends :
    ∃ p, recordedLink.run (.accepted, ⟨[], []⟩) overlappingSends = some p ∧
      p.1.threads.writes.length = 2 ∧
      p.2 = ⟨[⟨0, [1]⟩, ⟨0, [2]⟩], [⟨0, [2]⟩, ⟨0, [1]⟩]⟩ ∧ ¬ InOrder p.1 p.2 :=
  ⟨_, rfl, rfl, rfl, fun horder => absurd horder.single (by decide)⟩

/-- The same two messages, the second sent while the first is being written. -/
def serialSends : List LinkAction :=
  [.send 0 [1], .handler (.runSend 1 0)] ++ List.replicate 7 (.handler (.advance 1)) ++
    [.send 0 [2], .handler (.runSend 2 0), .handler (.advance 2), .handler (.advance 2),
      .handler (.writeDone 1 0)] ++ List.replicate 4 (.handler (.advance 1))

/-- `sends_in_order` for `serialSends`. -/
theorem sends_in_order_serialSends :
    ∃ p, recordedLink.runWhere (fun p a => p.1.Serial a) (.accepted, ⟨[], []⟩) serialSends = some p ∧
      p.2.started = [⟨0, [1]⟩, ⟨0, [2]⟩] ∧ InOrder p.1 p.2 :=
  ⟨_, rfl, rfl, sends_in_order (.of_runWhere reach_accepted serialSends rfl)⟩

end WasmHot
