import WasmHot.Gateway.SessionThreads

/-!
# The send queue on one io thread

When a single thread runs the `io_context`, the handlers of a session run one after the other, and
the posted ones in the order of the posts. `Session::Send` is called at any time all the same, also
while a handler runs, and each write completes or fails when it likes.

Then the flag says between two handlers whether the chain is at work: either one write is
outstanding, or a write has failed and the chain has ended with the flag set. So a message that
arrives when the queue has just run empty is written, and one that arrives after an error stays in
the queue (`drains_in_order`).
-/

namespace WasmHot

/-- What happens to the write chain of a session. -/
inductive ThreadsAction
  /-- `Session::Send`. -/
  | send (m : Outgoing)
  | handler (a : HandlerAction)
  deriving DecidableEq

/-- The write chain of one session. -/
def threadsSystem : TransitionSystem SessionThreads ThreadsAction where
  Init s := s = .new
  step s
    | .send m => some (s.post m)
    | .handler a => s.step a

/-- The messages sent, those whose write has started and those written to the last byte. -/
structure WriteHistory extends SendHistory where
  written : List Outgoing
  deriving DecidableEq

namespace SessionThreads

/-- A write is recorded where it starts and where it completes. -/
def recordWrites (h : WriteHistory) (s : SessionThreads) : ThreadsAction → WriteHistory
  | .send m => { h with sent := h.sent ++ [m] }
  | .handler (.advance t) =>
      { h with started := h.started ++ ((s.handlers.lookup t).map starts).getD [] }
  | .handler (.writeDone _ k) => { h with written := h.written ++ (s.writes[k]?).toList }
  | .handler _ => h

/-- The thread takes a handler when the one before has returned, and the posted ones in their
order. -/
def OneThread (s : SessionThreads) : ThreadsAction → Prop
  | .handler (.runSend _ k) => s.handlers = ∅ ∧ k = 0
  | .handler (.writeDone _ _) => s.handlers = ∅
  | _ => True

instance (s : SessionThreads) : DecidablePred s.OneThread
  | .send _ => inferInstanceAs (Decidable True)
  | .handler (.runSend _ _) => inferInstanceAs (Decidable (_ ∧ _))
  | .handler (.advance _) => inferInstanceAs (Decidable True)
  | .handler (.writeDone _ _) => inferInstanceAs (Decidable (_ = _))
  | .handler (.writeFailed _) => inferInstanceAs (Decidable True)

end SessionThreads

/-- The write chain with its history. -/
abbrev recordedThreads : TransitionSystem (SessionThreads × WriteHistory) ThreadsAction :=
  threadsSystem.withHistory (fun _ => ⟨⟨[], []⟩, []⟩) SessionThreads.recordWrites

theorem recordedThreads_new {C : SessionThreads × WriteHistory → ThreadsAction → Prop} :
    recordedThreads.ReachWhere C (.new, ⟨⟨[], []⟩, []⟩) :=
  .init ⟨rfl, rfl⟩

/-- The send queue drains in order. What is said of the flag and the queue is said between two
handlers. -/
structure DrainsInOrder (s : SessionThreads) (h : WriteHistory) : Prop where
  single : s.writes.length ≤ 1
  flag : s.handlers = ∅ → (s.sendInProgress = true ↔ s.writes.length = 1 ∨ s.failed = true)
  queue : s.handlers = ∅ → s.sendQueue ≠ [] → s.sendInProgress = true
  written : h.written <+: h.sent
  complete : s.failed = false → s.AtRest → s.sendQueue = [] ∧ h.written = h.sent

namespace SessionThreads

variable {s s' inner : SessionThreads} {h : WriteHistory} {t : ThreadId} {k : ℕ}
  {phase : HandlerPhase} {next running : Option HandlerPhase}

/-! ## The chain after an error -/

/-- After a failed write the flag stays set and nothing is written any more: a handler that runs is
one of `Send` that has not tested the flag. -/
structure Ended (s : SessionThreads) (running : Option HandlerPhase) : Prop where
  flag : s.sendInProgress = true
  writes : s.writes = []
  untested : running = none ∨ (∃ m, running = some (.pushBack m)) ∨ running = some .testFlag

/-- The handlers of `Send` leave a chain that has ended as it is. -/
theorem Access.ended (h : s.Access phase next inner) (hended : s.Ended (some phase)) (t : ThreadId) :
    (inner.goOn t next).Ended next := by
  obtain ⟨hflag, hwrites, hnone | ⟨m, hpush⟩ | htest⟩ := hended
  · cases hnone
  · cases hpush
    cases h
    exact ⟨hflag, hwrites, Or.inr (Or.inr rfl)⟩
  · cases htest
    cases h with
    | found _ => exact ⟨hflag, hwrites, Or.inl rfl⟩
    | notFound hclear =>
      rw [hflag] at hclear
      cases hclear

/-! ## The invariant -/

/-- The chain with its messages in the order of the calls: those started, those queued and those
posted are the ones sent, and the started ones are written but for the one that is outstanding. -/
structure Ordered (s : SessionThreads) (h : WriteHistory) (running : Option HandlerPhase) :
    Prop where
  chain : s.Chain h.toSendHistory running
  order : h.started ++ s.queued running ++ s.posted = h.sent
  written : h.written <+: h.started
  alive : s.failed = false → h.written ++ s.writes = h.started
  ended : s.failed = true → s.Ended running

/-- An access starts a write or leaves the writes as they are. -/
theorem Access.writes_eq (h : s.Access phase next inner) :
    inner.writes = s.writes ++ starts phase := by
  cases h with
  | startWrite m => rfl
  | _ => exact (List.append_nil _).symm

@[simp] theorem goOn_writes (s : SessionThreads) (t : ThreadId) (next : Option HandlerPhase) :
    (s.goOn t next).writes = s.writes := by
  cases next <;> rfl

theorem Ordered.send (hs : s.Ordered h running) (m : Outgoing) :
    (s.post m).Ordered (s.recordWrites h (.send m)) running where
  chain := hs.chain.post m
  order := by
    show h.started ++ (s.post m).queued running ++ (s.posted ++ [m]) = h.sent ++ [m]
    rw [queued_post, ← List.append_assoc, hs.order]
  written := hs.written
  alive := hs.alive
  ended hfailed := by
    obtain ⟨hflag, hwrites, huntested⟩ := hs.ended hfailed
    exact ⟨hflag, hwrites, huntested⟩

/-- The running handler makes its next access. -/
theorem Ordered.advance (hs : s.Ordered h running) (hstep : s.advance t = some s') :
    ∃ next, s'.Ordered (s.recordWrites h (.handler (.advance t))) next := by
  obtain ⟨phase, next, inner, hphase, haccess, rfl⟩ := advance_eq hstep
  obtain ⟨rfl, -⟩ := hs.chain.runs.handler hphase
  obtain ⟨-, hposted, hfailed⟩ := haccess.frame
  have hrecord : s.recordWrites h (.handler (.advance t)) =
      { h with started := h.started ++ starts phase } := by
    simp only [recordWrites, hphase, Option.map_some, Option.getD_some]
  rw [hrecord]
  refine ⟨next, hs.chain.access hphase haccess, ?_, ?_, fun halive => ?_, fun hdead => ?_⟩
  · rw [goOn_posted, hposted, ← hs.order, ← haccess.queued_eq t, ← List.append_assoc]
  · exact hs.written.trans (List.prefix_append _ _)
  · rw [goOn_failed, hfailed] at halive
    rw [goOn_writes, haccess.writes_eq, ← List.append_assoc, hs.alive halive]
  · rw [goOn_failed, hfailed] at hdead
    exact haccess.ended (hs.ended hdead) t

/-- The thread takes the first of the posted handlers. -/
theorem Ordered.runSend (hs : s.Ordered h running) (hempty : s.handlers = ∅)
    (hstep : s.step (.runSend t 0) = some s') : ∃ next, s'.Ordered h next := by
  cases hs.chain.none_of_empty hempty
  have hfirst : ∀ m ∈ s.posted[0]?, ∀ m' ∈ s.posted.take 0, m'.sender ≠ m.sender :=
    fun _ _ _ hmem => absurd hmem List.not_mem_nil
  obtain ⟨m, hchain, rfl⟩ := hs.chain.runSend hempty hfirst hstep
  -- The handler that is taken is that of the first message.
  have hposted : s.posted = m :: s.posted.eraseIdx 0 := by
    simp only [SessionThreads.step] at hstep
    split at hstep
    · next m' _ hm' =>
      have hpushes := congrArg (fun s => s.handlers.lookup t) (Option.some.inj hstep)
      simp only [enter, Finmap.lookup_insert, Option.some.injEq,
        HandlerPhase.pushBack.injEq] at hpushes
      subst hpushes
      cases hqueue : s.posted with
      | nil =>
        rw [hqueue] at hm'
        cases hm'
      | cons m' rest =>
        rw [hqueue] at hm'
        cases hm'
        rfl
    · cases hstep
  refine ⟨_, hchain, ?_, hs.written, hs.alive, fun hdead => ?_⟩
  · show h.started ++ (s.sendQueue ++ [m]) ++ s.posted.eraseIdx 0 = h.sent
    rw [← hs.order]
    conv_rhs => rw [hposted]
    simp [queued]
  · obtain ⟨hflag, hwrites, -⟩ := hs.ended hdead
    exact ⟨hflag, hwrites, Or.inr (Or.inl ⟨m, rfl⟩)⟩

/-- While a write is outstanding it is the only one, and no write has failed. -/
theorem Ordered.writing (hs : s.Ordered h running) (hk : k < s.writes.length) :
    s.failed = false ∧ ∃ m, s.writes = [m] ∧ k = 0 := by
  have hwrites : s.writes ≠ [] := List.ne_nil_of_length_pos (Nat.zero_lt_of_lt hk)
  have hbusy := (hs.chain.control.of_writes hwrites).1
  have hone : s.writes.length = 1 := hbusy.waits.resolve_right fun hended => hwrites hended.1
  obtain ⟨m, hm⟩ := List.length_eq_one_iff.mp hone
  refine ⟨?_, m, hm, by omega⟩
  cases hfailed : s.failed with
  | false => rfl
  | true => exact absurd (hs.ended hfailed).writes hwrites

/-- The write completes, and its message is the next of those that are written. -/
theorem Ordered.writeDone (hs : s.Ordered h running) (hempty : s.handlers = ∅)
    (hstep : s.step (.writeDone t k) = some s') :
    s'.Ordered (s.recordWrites h (.handler (.writeDone t k))) (some .testEmpty) := by
  cases hs.chain.none_of_empty hempty
  obtain ⟨hchain, hwrites, rfl⟩ := hs.chain.writeDone hempty hstep
  simp only [SessionThreads.step, Option.ite_none_right_eq_some] at hstep
  obtain ⟨hfailed, m, hm, rfl⟩ := hs.writing hstep.1.2
  have halive := hs.alive hfailed
  have hrecord : s.recordWrites h (.handler (.writeDone t 0)) =
      { h with written := h.written ++ [m] } := by
    simp only [recordWrites, hm]
    rfl
  rw [hrecord]
  refine ⟨hchain, hs.order, ?_, fun _ => ?_, fun hdead => ?_⟩
  · show h.written ++ [m] <+: h.started
    rw [← halive, hm]
  · show h.written ++ [m] ++ s.writes.eraseIdx 0 = h.started
    rw [← halive, hm]
    exact List.append_nil _
  · exact absurd (hfailed.symm.trans hdead) Bool.false_ne_true

/-- The write fails, and the chain has ended. -/
theorem Ordered.writeFailed (hs : s.Ordered h running)
    (hstep : s.step (.writeFailed k) = some s') : s'.Ordered h running := by
  have hchain := hs.chain.writeFailed hstep
  simp only [SessionThreads.step, Option.ite_none_right_eq_some, Option.some.injEq] at hstep
  obtain ⟨hk, rfl⟩ := hstep
  have hwrites : s.writes ≠ [] := List.ne_nil_of_length_pos (Nat.zero_lt_of_lt hk)
  have hbusy := (hs.chain.control.of_writes hwrites).1
  refine ⟨hchain, hs.order, hs.written, fun hfailed => ?_, fun _ => ?_⟩
  · cases hfailed
  · exact ⟨hbusy.flag, hbusy.eraseIdx hk, hs.chain.control.untested hwrites⟩

/-- One step on the thread keeps the invariant. -/
theorem Ordered.step {a : ThreadsAction} (hs : s.Ordered h running) (hthread : s.OneThread a)
    (hstep : threadsSystem.step s a = some s') : ∃ next, s'.Ordered (s.recordWrites h a) next := by
  cases a with
  | send m =>
    cases hstep
    exact ⟨running, hs.send m⟩
  | handler b =>
    cases b with
    | runSend t k =>
      obtain ⟨hempty, rfl⟩ := hthread
      exact hs.runSend hempty hstep
    | advance t => exact hs.advance hstep
    | writeDone t k => exact ⟨_, hs.writeDone hthread hstep⟩
    | writeFailed k => exact ⟨running, hs.writeFailed hstep⟩

/-- The invariant says that the queue drains in order. -/
theorem Ordered.drains (hs : s.Ordered h running) : DrainsInOrder s h where
  single := (hs.chain.inOrder true).single
  flag hempty := by
    cases hs.chain.none_of_empty hempty
    rcases hs.chain.control with hbusy | hrest
    · exact iff_of_true hbusy.flag (hbusy.waits.imp_right fun hended => hended.2)
    · refine iff_of_false (by simp [hrest.flag]) ?_
      rintro (hone | hfailed)
      · rw [hrest.writes] at hone
        cases hone
      · have hflag := (hs.ended hfailed).flag
        rw [hrest.flag] at hflag
        cases hflag
  queue hempty hqueue := by
    cases hs.chain.none_of_empty hempty
    exact (hs.chain.control.resolve_right fun hrest => hqueue hrest.queue).flag
  written := by
    rw [← hs.order, List.append_assoc]
    exact hs.written.trans (List.prefix_append _ _)
  complete hfailed hrest := by
    cases hs.chain.none_of_empty hrest.handlers
    have hqueue := (hs.chain.resting hrest hfailed).queue
    have halive := hs.alive hfailed
    rw [hrest.writes, List.append_nil] at halive
    refine ⟨hqueue, ?_⟩
    rw [← hs.order, hrest.posted, halive]
    show h.started = h.started ++ s.sendQueue ++ []
    rw [hqueue, List.append_nil, List.append_nil]

end SessionThreads

/-- In every run of a session's handlers on one thread, whenever messages are sent and whichever
writes fail, the send queue drains in order. -/
theorem drains_in_order {p : SessionThreads × WriteHistory}
    (hreach : recordedThreads.ReachWhere (fun p a => p.1.OneThread a) p) :
    DrainsInOrder p.1 p.2 := by
  have hinv : ∃ running, p.1.Ordered p.2 running := by
    refine hreach.invariant_withHistory (I := fun s h => ∃ running, s.Ordered h running) ?_
      fun s h a s' ⟨running, hs⟩ hthread hstep => hs.step hthread hstep
    rintro s rfl
    exact ⟨none, ⟨rfl, Or.inr ⟨rfl, rfl, rfl⟩, fun _ => rfl⟩, rfl, List.nil_prefix, fun _ => rfl,
      nofun⟩
  obtain ⟨running, hs⟩ := hinv
  exact hs.drains

/-- Two messages, the second sent while the handler of the first finds the queue empty, and written
when the completion of the first runs. -/
def lateSend : List ThreadsAction :=
  [.send ⟨0, [1]⟩, .handler (.runSend 1 0)] ++ List.replicate 7 (.handler (.advance 1)) ++
    [.handler (.writeDone 1 0), .handler (.advance 1), .send ⟨0, [2]⟩, .handler (.advance 1),
      .handler (.runSend 1 0)] ++ List.replicate 7 (.handler (.advance 1)) ++
    [.handler (.writeDone 1 0), .handler (.advance 1), .handler (.advance 1)]

/-- `drains_in_order` for `lateSend`. -/
theorem drains_in_order_lateSend :
    ∃ p, recordedThreads.runWhere (fun p a => p.1.OneThread a) (.new, ⟨⟨[], []⟩, []⟩) lateSend =
        some p ∧
      p.2.written = [⟨0, [1]⟩, ⟨0, [2]⟩] ∧ p.1.sendInProgress = false ∧ DrainsInOrder p.1 p.2 :=
  ⟨_, rfl, rfl, rfl, drains_in_order (.of_runWhere recordedThreads_new lateSend rfl)⟩

end WasmHot
