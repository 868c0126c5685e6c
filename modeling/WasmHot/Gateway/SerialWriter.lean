import WasmHot.Gateway.FrameReader
import WasmHot.Gateway.SessionThreads

/-!
# Handlers that do not overlap run the chain of `SessionWriter`

`WasmHot.Gateway.SendQueue` lets a handler of the write chain run as one event. Here that is
connected to the accesses of `WasmHot.Gateway.SessionThreads`: as long as handlers do not overlap,
the chain as it will be when the running handler has returned (`SessionWriter.settle`) moves by the
events of `writerSystem`. A handler of `Send` takes effect at its `push_back`, a completion where it
starts, and every later access leaves the settled chain as it is (`serial_refines_writer`).

So the wire carries the frames of the started writes, and the session at the other end receives the
messages of each sender in the order of its calls (`serial_sends_received`).
-/

namespace WasmHot

/-- The chain as a handler in this phase will leave it; a handler of `Send` that has not appended its
message counts as not begun. -/
def SessionWriter.settle (w : SessionWriter) : Option HandlerPhase → SessionWriter
  | none => w
  | some (.pushBack _) => w
  | some .testFlag => if w.sendInProgress then w else doWrite { w with sendInProgress := true }
  | some .setFlag => doWrite { w with sendInProgress := true }
  | some .testEmpty => w.doWrite
  | some .clearFlag => w.doWrite
  | some .moveFront => w.doWrite
  | some (.popFront m) =>
      { w with sendQueue := w.sendQueue.tail, writing := some (frame m.msg) }
  | some (.startWrite m) => { w with writing := some (frame m.msg) }

namespace SessionThreads

variable {s s' inner : SessionThreads} {t : ThreadId} {phase : HandlerPhase}
  {next running : Option HandlerPhase}

/-- The members that the write chain of `SessionWriter` has. -/
def writer (s : SessionThreads) : SessionWriter where
  sendQueue := s.sendQueue.map (·.msg)
  sendInProgress := s.sendInProgress
  writing := s.writes.head?.map fun m => frame m.msg

/-- The messages that are queued or about to be written, in order. -/
def taken (s : SessionThreads) : Option HandlerPhase → List Outgoing
  | some (.pushBack _) => s.sendQueue
  | running => s.queued running

@[simp] theorem writer_goOn (s : SessionThreads) (t : ThreadId) (next : Option HandlerPhase) :
    (s.goOn t next).writer = s.writer := by
  cases next <;> rfl

@[simp] theorem queued_goOn (s : SessionThreads) (t : ThreadId)
    (next running : Option HandlerPhase) : (s.goOn t next).queued running = s.queued running := by
  cases next <;> rfl

@[simp] theorem taken_goOn (s : SessionThreads) (t : ThreadId)
    (next running : Option HandlerPhase) : (s.goOn t next).taken running = s.taken running := by
  cases next <;> rfl

/-- Appending its message is the event of a handler of `Send`. -/
theorem settle_pushBack (s : SessionThreads) (m : Outgoing) :
    ({ s with sendQueue := s.sendQueue ++ [m] } : SessionThreads).writer.settle (some .testFlag) =
      s.writer.send m.msg := by
  have hqueue : (s.sendQueue ++ [m]).map (·.msg) = s.writer.sendQueue ++ [m.msg] :=
    List.map_append
  simp only [SessionWriter.settle, SessionWriter.send, writer, hqueue]
  rfl

/-- Any other access leaves the settled chain as it is. -/
theorem Access.settle_eq (h : s.Access phase next inner) (hcontrol : s.Control (some phase))
    (hphase : ∀ m, phase ≠ .pushBack m) :
    inner.writer.settle next = s.writer.settle (some phase) := by
  cases h with
  | pushBack m => exact absurd rfl (hphase m)
  | found hflag => exact (if_pos hflag).symm
  | notFound hflag =>
    -- The rest of the `if` is `DoWrite`, which `settle` runs to its end.
    have hclear : ¬ s.writer.sendInProgress = true := by
      show ¬ s.sendInProgress = true
      simp [hflag]
    exact (if_neg hclear).symm
  | setFlag => rfl
  | noMessage hqueue => rfl
  | message hqueue => rfl
  | clearFlag =>
    have hempty : s.writer.sendQueue = [] := by
      show s.sendQueue.map (·.msg) = []
      rw [hcontrol.2, List.map_nil]
    exact (SessionWriter.doWrite_of_nil hempty).symm
  | moveFront m rest hqueue =>
    have hfront : s.writer.sendQueue = m.msg :: rest.map (·.msg) := by
      show s.sendQueue.map (·.msg) = _
      rw [hqueue, List.map_cons]
    exact (SessionWriter.doWrite_of_cons hfront).symm
  | popFront m moved rest hqueue =>
    have htail : s.writer.sendQueue.tail = rest.map (·.msg) := by
      show (s.sendQueue.map (·.msg)).tail = _
      rw [hqueue, List.map_cons, List.tail_cons]
    show _ = ({ s.writer with sendQueue := s.writer.sendQueue.tail, writing := _ } : SessionWriter)
    rw [htail]
    rfl
  -- Nothing was being written, so the message is the first of the writes.
  | startWrite m =>
    have hhead : (s.writes ++ [m]).head? = some m := by
      rw [hcontrol.writes, List.nil_append, List.head?_cons]
    show SessionWriter.mk _ _ ((s.writes ++ [m]).head?.map fun m => WasmHot.frame m.msg) = _
    rw [hhead]
    rfl

theorem writing_isSome (hwrites : s.writes ≠ []) : s.writer.writing.isSome = true := by
  cases hhead : s.writes with
  | nil => exact absurd hhead hwrites
  | cons m rest =>
    show (s.writes.head?.map _).isSome = true
    rw [hhead]
    rfl

/-- Taking the one write away takes `writing` away. -/
theorem writer_erase {k : ℕ} (h : s.writes.eraseIdx k = []) (failed : Bool) :
    ({ s with writes := s.writes.eraseIdx k, failed } : SessionThreads).writer =
      { s.writer with writing := none } := by
  unfold writer
  rw [h]
  rfl

/-- What is taken moves with the writes that are started, once the message is appended. -/
theorem Access.taken_eq (h : s.Access phase next inner) (hphase : ∀ m, phase ≠ .pushBack m) :
    starts phase ++ inner.taken next = s.taken (some phase) := by
  have hafter : inner.taken next = inner.queued next := by
    cases h
    all_goals rfl
  have hbefore : s.taken (some phase) = s.queued (some phase) := by
    cases phase with
    | pushBack m => exact absurd rfl (hphase m)
    | _ => rfl
  rw [hafter, hbefore, ← h.queued_eq 0, queued_goOn]

/-- A write is outstanding only where the settled chain is the chain itself. -/
theorem settle_of_writes (hcontrol : s.Control running) (hwrites : s.writes ≠ [])
    {w : SessionWriter} (hflag : w.sendInProgress = true) : w.settle running = w := by
  obtain rfl | ⟨m, rfl⟩ | rfl := hcontrol.untested hwrites
  · rfl
  · rfl
  · exact if_pos hflag

end SessionThreads

/-- The settled chain has been reached by whole handlers, which have been sent the messages taken so
far. -/
structure RunsWriter (s : SessionThreads) (h : SendHistory) (running : Option HandlerPhase)
    (g : WriterHistory) : Prop where
  chain : s.Chain h running
  reachable : recordedWriter.Reachable (s.writer.settle running, g)
  sent : g.sent = (h.started ++ s.taken running).map (·.msg)

namespace RunsWriter

variable {s s' : SessionThreads} {h : SendHistory} {running : Option HandlerPhase}
  {g : WriterHistory} {t : ThreadId}

/-- The settled chain moves by an event. -/
theorem reachable_step (hruns : RunsWriter s h running g) {e : WriterEvent} {w : SessionWriter}
    (hstep : (s.writer.settle running).step e = some w) :
    recordedWriter.Reachable (w, g.record (s.writer.settle running) e) :=
  hruns.reachable.step trivial (TransitionSystem.withHistory_step.mpr ⟨hstep, rfl⟩)

/-- The running handler appends its message, or makes an access that changes nothing for the settled
chain. -/
theorem advance (hruns : RunsWriter s h running g) (hstep : s.advance t = some s')
    (registered : Bool) :
    ∃ next g', RunsWriter s' (h.record ⟨s, registered⟩ (.handler (.advance t))) next g' := by
  obtain ⟨phase, next, inner, hphase, haccess, rfl⟩ := SessionThreads.advance_eq hstep
  have hchain := hruns.chain.access hphase haccess
  obtain ⟨rfl, -⟩ := hruns.chain.runs.handler hphase
  rw [SessionThreads.record_advance h hphase]
  refine ⟨next, ?_⟩
  by_cases hpush : ∃ m, phase = .pushBack m
  · obtain ⟨m, rfl⟩ := hpush
    cases haccess
    have hevent : (s.writer.settle (some (.pushBack m))).step (.send m.msg) =
        some (s.writer.send m.msg) := rfl
    refine ⟨g.record (s.writer.settle (some (.pushBack m))) (.send m.msg), hchain, ?_, ?_⟩
    · rw [SessionThreads.writer_goOn, SessionThreads.settle_pushBack]
      exact hruns.reachable_step hevent
    · have htaken : (h.started ++ s.sendQueue).map Outgoing.msg = g.sent := hruns.sent.symm
      show g.sent ++ [m.msg] = ((h.started ++ []) ++ (s.sendQueue ++ [m])).map Outgoing.msg
      rw [List.append_nil, ← List.append_assoc, List.map_append, htaken]
      rfl
  · have hother : ∀ m, phase ≠ .pushBack m := fun m hm => hpush ⟨m, hm⟩
    refine ⟨g, hchain, ?_, ?_⟩
    · rw [SessionThreads.writer_goOn, haccess.settle_eq hruns.chain.control hother]
      exact hruns.reachable
    · rw [SessionThreads.taken_goOn, hruns.sent, ← haccess.taken_eq hother, List.append_assoc]

/-- A posted handler begins without effect. -/
theorem runSend {k : ℕ} (hruns : RunsWriter s h running g) (hempty : s.handlers = ∅)
    (hturn : ∀ m ∈ s.posted[k]?, ∀ m' ∈ s.posted.take k, m'.sender ≠ m.sender)
    (hstep : s.step (.runSend t k) = some s') : ∃ next, RunsWriter s' h next g := by
  cases hruns.chain.none_of_empty hempty
  obtain ⟨m, hchain, rfl⟩ := hruns.chain.runSend hempty hturn hstep
  exact ⟨_, hchain, hruns.reachable, hruns.sent⟩

/-- The completion of the one write is an event. -/
theorem writeDone {k : ℕ} (hruns : RunsWriter s h running g) (hempty : s.handlers = ∅)
    (hstep : s.step (.writeDone t k) = some s') : ∃ next g', RunsWriter s' h next g' := by
  cases hruns.chain.none_of_empty hempty
  obtain ⟨hchain, hwrites, hs'⟩ := hruns.chain.writeDone hempty hstep
  have hevent : (s.writer.settle none).step .writeDone =
      some (SessionWriter.doWrite { s.writer with writing := none }) :=
    if_pos (SessionThreads.writing_isSome hwrites)
  subst hs'
  refine ⟨some .testEmpty, g.record (s.writer.settle none) .writeDone, hchain, ?_, hruns.sent⟩
  have hreach := hruns.reachable_step hevent
  rw [← SessionThreads.writer_erase hchain.control.writes s.failed] at hreach
  exact hreach

/-- So is its failure, whatever handler runs. -/
theorem writeFailed {k : ℕ} (hruns : RunsWriter s h running g)
    (hstep : s.step (.writeFailed k) = some s') : ∃ g', RunsWriter s' h running g' := by
  have hchain := hruns.chain.writeFailed hstep
  simp only [SessionThreads.step, Option.ite_none_right_eq_some, Option.some.injEq] at hstep
  obtain ⟨hk, rfl⟩ := hstep
  have hwrites : s.writes ≠ [] := List.ne_nil_of_length_pos (Nat.zero_lt_of_lt hk)
  have hbusy := (hruns.chain.control.of_writes hwrites).1
  have hsettled : ∀ w : SessionWriter, w.sendInProgress = true → w.settle running = w :=
    fun w => SessionThreads.settle_of_writes hruns.chain.control hwrites
  have hevent : (s.writer.settle running).step .writeFailed =
      some { s.writer with writing := none } := by
    rw [hsettled s.writer hbusy.flag]
    exact if_pos (SessionThreads.writing_isSome hwrites)
  refine ⟨g.record (s.writer.settle running) .writeFailed, hchain, ?_, hruns.sent⟩
  have hreach := hruns.reachable_step hevent
  rw [SessionThreads.writer_erase (hbusy.eraseIdx hk) true, hsettled]
  · exact hreach
  · exact hbusy.flag

/-- A posted message changes nothing yet. -/
theorem post (hruns : RunsWriter s h running g) (m : Outgoing) :
    RunsWriter (s.post m) { h with sent := h.sent ++ [m] } running g := by
  have htaken : (s.post m).taken running = s.taken running := by
    cases running with
    | none => rfl
    | some phase => cases phase <;> rfl
  exact ⟨hruns.chain.post m, hruns.reachable, by rw [htaken]; exact hruns.sent⟩

/-- One step of a session whose handlers do not overlap. -/
theorem step {l l' : SessionLink} {a : LinkAction} (hruns : RunsWriter l.threads h running g)
    (hserial : l.Serial a) (hstep : l.step a = some l') :
    ∃ next g', RunsWriter l'.threads (h.record l a) next g' := by
  cases a with
  | send t msg =>
    have hregistered : l.registered = true := hserial
    simp only [SessionLink.step, hregistered, if_true, Option.some.injEq] at hstep
    subst hstep
    exact ⟨running, g, hruns.post ⟨t, msg⟩⟩
  | closed =>
    cases hstep
    exact ⟨running, g, hruns⟩
  | handler b =>
    have hthreads := SessionLink.handler_step hstep
    cases b with
    | runSend t k =>
      obtain ⟨next, hnext⟩ := hruns.runSend hserial.1 hserial.2 hthreads
      exact ⟨next, g, hnext⟩
    | advance t => exact hruns.advance hthreads l.registered
    | writeDone t k => exact hruns.writeDone hserial hthreads
    | writeFailed k =>
      obtain ⟨g', hnext⟩ := hruns.writeFailed hthreads
      exact ⟨running, g', hnext⟩

end RunsWriter

/-- In a run whose handlers do not overlap, the chain that the running handler will leave is one that
whole handlers leave. -/
theorem exists_runsWriter {p : SessionLink × SendHistory}
    (hreach : recordedLink.ReachWhere (fun p a => p.1.Serial a) p) :
    ∃ running g, RunsWriter p.1.threads p.2 running g := by
  refine hreach.invariant_withHistory
    (I := fun l h => ∃ running g, RunsWriter l.threads h running g) ?_ ?_
  · rintro l rfl
    exact ⟨none, ⟨[], []⟩, ⟨rfl, Or.inr ⟨rfl, rfl, rfl⟩, fun _ => rfl⟩, reachable_new, rfl⟩
  · intro l h a l' hinv hserial hstep
    obtain ⟨running, g, hruns⟩ := hinv
    exact hruns.step hserial hstep

/-- Between its handlers, a session whose handlers do not overlap is where `writerSystem` gets, sent
the messages that are on the wire or queued. -/
theorem serial_refines_writer {p : SessionLink × SendHistory}
    (hreach : recordedLink.ReachWhere (fun p a => p.1.Serial a) p)
    (hidle : p.1.threads.handlers = ∅) :
    ∃ g, recordedWriter.Reachable (p.1.threads.writer, g) ∧
      g.sent = (p.2.started ++ p.1.threads.sendQueue).map (·.msg) := by
  obtain ⟨running, g, hruns⟩ := exists_runsWriter hreach
  cases hruns.chain.none_of_empty hidle
  exact ⟨g, hruns.reachable, hruns.sent⟩

/-- When such a session has come to rest without a write error, the bytes on the wire are read as the
messages of its started writes, however they are cut into pieces, and these are the messages of each
sender in the order of its calls. -/
theorem serial_sends_received {p : SessionLink × SendHistory}
    (hreach : recordedLink.ReachWhere (fun p a => p.1.Serial a) p) (hrest : p.1.threads.AtRest)
    (hfailed : p.1.threads.failed = false)
    (hsize : ∀ m ∈ p.2.sent, 4 ≤ m.msg.length ∧ m.msg.length < 2 ^ 32) :
    (∀ t, sentBy t p.2.started = sentBy t p.2.sent) ∧
    ∃ g, recordedWriter.Reachable (p.1.threads.writer, g) ∧
      ∀ pieces : List (List UInt8), pieces.flatten = g.wire →
        readPieces .header [] pieces =
          { phase := .header, received := p.2.started.map (·.msg), rest := [] } := by
  obtain ⟨running, g, hruns⟩ := exists_runsWriter hreach
  have horder := (hruns.chain.inOrder p.1.registered).complete hrest hfailed
  have hresting := hruns.chain.resting hrest hfailed
  cases hruns.chain.none_of_empty hrest.handlers
  refine ⟨horder, g, hruns.reachable, fun pieces hcut => ?_⟩
  have hsent : g.sent = p.2.started.map (·.msg) := by
    have htaken : p.1.threads.taken none = [] := hresting.queue
    rw [hruns.sent, htaken, List.append_nil]
  have hwire := wire_eq_of_idle hruns.reachable hresting.flag
  rw [readPieces_eq, List.nil_append, hcut, hwire, hsent]
  refine readStream_frames fun msg hmsg => ?_
  obtain ⟨m, hm, rfl⟩ := List.mem_map.mp hmsg
  -- A started message is one of its sender's calls.
  have hmem : m ∈ sentBy m.sender p.2.started := List.mem_filter.mpr ⟨hm, by simp⟩
  rw [horder m.sender] at hmem
  exact hsize m (List.mem_filter.mp hmem).1

end WasmHot
