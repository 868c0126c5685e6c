import WasmHot.Gateway.FrameGrammar

/-!
# What a session dispatches of a stream

The peer of a session is free to send any bytes and to end anywhere. Here the socket of one session
delivers a given stream: a read that completes gets the next bytes of it, and a read fails when the
stream has not that many left. Everything else in the gateway goes on as it likes.

What such a session has taken is complete frames and at most one accepted header after them
(`ReadsStream`). When it stops, it has passed the bodies of the longest beginning of the stream that
the grammar derives to `OnReceive`, and nothing else (`reader_accepts_frames`).
-/

namespace WasmHot

variable {η : Type*}

/-- The read that a session waits for. While a handler is called there is none, and the next one is
for a header. -/
def ReadChain.phase : ReadChain η → ReadPhase
  | .reading phase => phase
  | .calling _ _ => .header
  | .running => .header

/-- The header that has been taken for the body that is outstanding. -/
def ReadPhase.headerTaken : ReadPhase → List UInt8
  | .body length => storeU32 length.1
  | _ => []

/-- The bytes that a session has taken and the messages that it has passed to `OnReceive`. -/
structure ReadLog where
  taken : List UInt8
  received : List Message
  deriving DecidableEq

/-- A read that completes is recorded with its bytes, and a body as a call of `OnReceive`. -/
def ReadLog.record (ref : SessionRef) (log : ReadLog) (g : Gateway η) : GatewayAction η → ReadLog
  | .session ref' (.readDone bytes) =>
      if ref' = ref then
        match g.objects[ref]? with
        | some session =>
            ⟨log.taken ++ bytes, log.received ++ (session.read.phase.complete bytes).2⟩
        | none => log
      else log
  | _ => log

/-- The gateway with the log of one session. -/
abbrev recordedReader (η : Type*) (ref : SessionRef) :
    TransitionSystem (Gateway η × ReadLog) (GatewayAction η) :=
  (gatewaySystem η).withHistory (fun _ => ⟨[], []⟩) (ReadLog.record ref)

/-- The socket of the session delivers the stream: a read gets the next bytes of it, and fails only
when fewer are left than it asks for. -/
def FromStream (stream : List UInt8) (ref : SessionRef) (p : Gateway η × ReadLog) :
    GatewayAction η → Prop
  | .session ref' (.readDone bytes) => ref' = ref → p.2.taken ++ bytes <+: stream
  | .session ref' .readFailed => ref' = ref → ∀ session ∈ p.1.objects[ref]?,
      stream.length < p.2.taken.length + session.read.phase.wants
  | _ => True

instance (stream : List UInt8) (ref : SessionRef) (p : Gateway η × ReadLog) :
    DecidablePred (FromStream stream ref p)
  | .accept => inferInstanceAs (Decidable True)
  | .registerHandler _ _ => inferInstanceAs (Decidable True)
  | .findSession _ _ _ => inferInstanceAs (Decidable True)
  | .post _ => inferInstanceAs (Decidable True)
  | .session _ (.readDone _) => inferInstanceAs (Decidable (_ → _))
  | .session _ .readFailed => inferInstanceAs (Decidable (_ → ∀ session ∈ _, _))
  | .session _ .callHandler => inferInstanceAs (Decidable True)
  | .session _ .handlerReturned => inferInstanceAs (Decidable True)
  | .session _ (.write _) => inferInstanceAs (Decidable True)

/-! ## What an event makes of a read chain -/

/-- The events in which a read ends. -/
def SessionEvent.EndsRead : SessionEvent → Prop
  | .readDone _ => True
  | .readFailed => True
  | _ => False

namespace Gateway

variable {g g' : Gateway η} {ref ref' : SessionRef} {session : Session η}

/-- Closing a session adds no entry to `sessions_`. -/
theorem lookup_of_onSessionClosed {sessionId id : UInt64}
    (h : (g.onSessionClosed sessionId).sessions.lookup id = some ref) :
    g.sessions.lookup id = some ref := by
  simp only [onSessionClosed, UnorderedMap.lookup_erase] at h
  split at h
  · cases h
  · exact h

/-- A read completes with the bytes it has asked for. The chain goes on as `complete` says, and
closes the session where that is to stop. -/
theorem readDone_spec {bytes : List UInt8}
    (h : g.sessionStep ref session (.readDone bytes) = some g') :
    session.read.phase ≠ .stopped ∧ bytes.length = session.read.phase.wants ∧
      ∃ read, read.phase = (session.read.phase.complete bytes).1 ∧
        g'.objects = g.objects.set ref { session with read } ∧
        (read.phase = .stopped → g'.sessions.lookup session.sessionId = none) := by
  simp only [sessionStep] at h
  split at h
  · next hread =>
    simp only [Option.ite_none_right_eq_some, Option.some.injEq] at h
    obtain ⟨hlength, rfl⟩ := h
    rw [hread]
    refine ⟨ReadPhase.noConfusion, hlength, ?_⟩
    unfold headerDone
    split
    · next hstop =>
      refine ⟨.reading .stopped, hstop.symm, rfl, fun _ => ?_⟩
      exact Finmap.lookup_erase _ _
    · next hgoes => exact ⟨.reading _, rfl, rfl, fun hstop => absurd hstop hgoes⟩
  · next length hread =>
    simp only [Option.ite_none_right_eq_some, Option.some.injEq] at h
    obtain ⟨hlength, rfl⟩ := h
    rw [hread]
    refine ⟨ReadPhase.noConfusion, hlength, ?_⟩
    unfold bodyDone
    split
    · next handler _ => exact ⟨.calling handler bytes, rfl, rfl, ReadPhase.noConfusion⟩
    · exact ⟨.reading .header, rfl, rfl, ReadPhase.noConfusion⟩
  · cases h

/-- A read that fails closes the session and ends the chain. -/
theorem readFailed_spec (h : g.sessionStep ref session .readFailed = some g') :
    session.read.phase ≠ .stopped ∧
      g'.objects = g.objects.set ref { session with read := .reading .stopped } ∧
      g'.sessions.lookup session.sessionId = none := by
  simp only [sessionStep] at h
  split at h
  · cases h
  · next phase hnot hread =>
    cases h
    refine ⟨?_, rfl, Finmap.lookup_erase _ _⟩
    rw [hread]
    exact hnot
  · cases h

/-- An event changes its own session only, which keeps its id, and adds no entry to `sessions_`; and
where it does not end a read, the session goes on waiting for the same one. -/
theorem sessionStep_spec {e : SessionEvent} (h : g.sessionStep ref session e = some g') :
    (∃ session' : Session η, g'.objects = g.objects.set ref session' ∧
      session'.sessionId = session.sessionId ∧
      (¬ e.EndsRead → session'.read.phase = session.read.phase)) ∧
    ∀ id ref', g'.sessions.lookup id = some ref' → g.sessions.lookup id = some ref' := by
  cases e with
  | readDone bytes =>
    obtain ⟨-, -, read, -, hobjects, -⟩ := readDone_spec h
    refine ⟨⟨_, hobjects, rfl, fun hends => absurd trivial hends⟩, fun id ref' hid => ?_⟩
    rcases readDone_eq h with ⟨-, rfl⟩ | ⟨length, -, rfl⟩
    -- `OnSessionClosed` takes an entry out, and everything else leaves the table.
    · unfold headerDone at hid
      split at hid
      · exact lookup_of_onSessionClosed hid
      · exact hid
    · unfold bodyDone at hid
      split at hid <;> exact hid
  | readFailed =>
    obtain ⟨-, hobjects, -⟩ := readFailed_spec h
    refine ⟨⟨_, hobjects, rfl, fun hends => absurd trivial hends⟩, fun id ref' hid => ?_⟩
    rw [readFailed_eq h] at hid
    exact lookup_of_onSessionClosed hid
  | callHandler =>
    obtain ⟨handler, msg, hread, rfl⟩ := callHandler_eq h
    exact ⟨⟨_, rfl, rfl, fun _ => by rw [hread]; rfl⟩, fun _ _ hid => hid⟩
  | handlerReturned =>
    obtain ⟨hread, rfl⟩ := handlerReturned_eq h
    exact ⟨⟨_, rfl, rfl, fun _ => by rw [hread]; rfl⟩, fun _ _ hid => hid⟩
  | write a =>
    obtain ⟨writer, -, ⟨-, rfl⟩ | ⟨-, rfl⟩⟩ := write_eq h
    · exact ⟨⟨_, rfl, rfl, fun _ => rfl⟩, fun _ _ hid => lookup_of_onSessionClosed hid⟩
    · exact ⟨⟨_, rfl, rfl, fun _ => rfl⟩, fun _ _ hid => hid⟩

/-- A session that waits for the read it has waited for, and was not put back into `sessions_`; or
one that is new. -/
structure Untouched (g g' : Gateway η) (ref : SessionRef) : Prop where
  object : ∀ session' : Session η, g'.objects[ref]? = some session' →
    (∃ session : Session η, g.objects[ref]? = some session ∧
      session'.read.phase = session.read.phase ∧ session'.sessionId = session.sessionId) ∨
    (g.objects[ref]? = none ∧ session'.read = .reading .header)
  gone : g'.objects[ref]? = none → g.objects[ref]? = none
  entry : ∀ session : Session η, g.objects[ref]? = some session →
    ∀ id, g'.sessions.lookup id = some ref → g.sessions.lookup id = some ref

/-- A change of one session leaves the others untouched, and itself if it keeps its id and waits for
the same read. -/
theorem Untouched.of_set {session session' : Session η} (hsession : g.objects[ref']? = some session)
    (hsame : ref' = ref → session'.read.phase = session.read.phase ∧
      session'.sessionId = session.sessionId)
    (hobjects : g'.objects = g.objects.set ref' session')
    (hentry : ∀ id, g'.sessions.lookup id = some ref → g.sessions.lookup id = some ref) :
    g.Untouched g' ref := by
  obtain ⟨hlt, -⟩ := List.getElem?_eq_some_iff.mp hsession
  by_cases href : ref' = ref
  · subst href
    have hself : g'.objects[ref']? = some session' := by
      rw [hobjects, List.getElem?_set_self hlt]
    refine ⟨fun s hs => ?_, fun hnone => ?_, fun _ _ => hentry⟩
    · cases hself.symm.trans hs
      exact Or.inl ⟨session, hsession, hsame rfl⟩
    · rw [hself] at hnone
      cases hnone
  · have hother : g'.objects[ref]? = g.objects[ref]? := by
      rw [hobjects, List.getElem?_set_ne href]
    refine ⟨fun s hs => ?_, fun hnone => hother.symm.trans hnone, fun _ _ => hentry⟩
    exact Or.inl ⟨s, hother.symm.trans hs, rfl, rfl⟩

/-- Every step but the end of a read of the session leaves it untouched. -/
theorem Untouched.of_step {a : GatewayAction η} (hstep : g.step a = some g')
    (hends : ∀ e, a = .session ref e → ¬ e.EndsRead) : g.Untouched g' ref := by
  -- The steps that touch neither the sessions nor their table.
  have hsame : ∀ {g₁ : Gateway η}, g₁.objects = g.objects → g₁.sessions = g.sessions →
      g.Untouched g₁ ref := by
    intro g₁ hobjects hsessions
    refine ⟨fun s hs => Or.inl ⟨s, ?_, rfl, rfl⟩, fun hnone => ?_, fun _ _ id hid => ?_⟩
    · rw [← hobjects, hs]
    · rw [← hobjects, hnone]
    · rw [← hsessions, hid]
  cases a with
  | accept =>
    cases hstep
    refine ⟨fun s hs => ?_, fun hnone => ?_, fun s hs id hid => ?_⟩
    · simp only [Gateway.accept, List.getElem?_append, List.getElem?_singleton] at hs
      split_ifs at hs with hlt hzero
      · exact Or.inl ⟨s, hs, rfl, rfl⟩
      · cases hs
        exact Or.inr ⟨List.getElem?_eq_none (Nat.not_lt.mp hlt), rfl⟩
    · simp only [Gateway.accept, List.getElem?_eq_none_iff, List.length_append] at hnone
      exact List.getElem?_eq_none (Nat.le_of_add_right_le hnone)
    · -- The new entry is for the new session.
      obtain ⟨hlt, -⟩ := List.getElem?_eq_some_iff.mp hs
      simp only [Gateway.accept, UnorderedMap.lookup_insert] at hid
      split at hid
      · cases hid
        exact absurd hlt (Nat.lt_irrefl _)
      · exact hid
  | registerHandler msgType handler =>
    cases hstep
    exact hsame rfl rfl
  | findSession t sessionId msg =>
    obtain ⟨sending, rfl⟩ := findSession_eq hstep
    exact hsame rfl rfl
  | post t =>
    obtain ⟨ref', session, m, hsession, rfl⟩ := post_eq hstep
    -- `DoSend` is the writer's, and the reader is untouched.
    refine .of_set hsession ?_ rfl fun _ hid => hid
    exact fun _ => ⟨rfl, rfl⟩
  | session ref' e =>
    obtain ⟨session, hsession, hstep⟩ := Option.bind_eq_some_iff.mp hstep
    obtain ⟨⟨session', hobjects, hid, hphase⟩, hentry⟩ := sessionStep_spec hstep
    refine .of_set hsession (fun href => ?_) hobjects fun id => hentry id ref
    subst href
    exact ⟨hphase (hends e rfl), hid⟩

end Gateway

/-! ## What has been taken -/

/-- What a session has taken of a stream: complete frames and the header of the body it waits for,
and the whole beginning of complete frames once it has stopped. -/
structure ReadsStream (stream : List UInt8) (ref : SessionRef) (g : Gateway η) (log : ReadLog) :
    Prop where
  start : g.objects[ref]? = none → log = ⟨[], []⟩
  taken : log.taken <+: stream
  going : ∀ session ∈ g.objects[ref]?, session.read.phase ≠ .stopped →
    Frames (log.received.flatMap frame) log.received ∧
      log.taken = log.received.flatMap frame ++ session.read.phase.headerTaken
  stopped : ∀ session ∈ g.objects[ref]?, session.read.phase = .stopped →
    log.received = (readStream .header stream).received ∧
      g.sessions.lookup session.sessionId ≠ some ref

/-- A reader at the front of a stream that begins with complete frames and a header waits for the
body of the header. -/
theorem Frames.readStream_headerTaken {bytes : List UInt8} {bodies : List Message}
    (h : Frames bytes bodies) {phase : ReadPhase} (hphase : phase ≠ .stopped)
    (later : List UInt8) :
    readStream .header (bytes ++ phase.headerTaken ++ later) =
      (readStream phase later).after bodies := by
  rw [List.append_assoc, h.readStream_append]
  cases phase with
  | header => rfl
  | body length => rw [ReadPhase.headerTaken, readStream_header]
  | stopped => exact absurd rfl hphase

/-- A read that completes and does not stop the chain has taken a header, or the body that makes a
frame of one taken before. -/
theorem ReadPhase.complete_frames {phase : ReadPhase} (hphase : phase ≠ .stopped)
    {bytes : List UInt8} (hlength : bytes.length = phase.wants)
    (hgoes : (phase.complete bytes).1 ≠ .stopped) :
    Frames ((phase.complete bytes).2.flatMap frame) (phase.complete bytes).2 ∧
      phase.headerTaken ++ bytes =
        (phase.complete bytes).2.flatMap frame ++ (phase.complete bytes).1.headerTaken := by
  cases phase with
  | header =>
    have hfour : bytes.length = 4 := hlength
    have hword : storeU32 (loadU32 bytes) = bytes := by
      have hload := storeU32_loadU32 hfour.ge
      rwa [List.drop_eq_nil_of_le hfour.le, List.append_nil] at hload
    by_cases hsmall : loadU32 bytes < 4
    · simp [complete, hsmall] at hgoes
    · simp only [complete, dif_neg hsmall]
      exact ⟨.nil, hword.symm⟩
  | body length =>
    have hbody : length.1.toNat = bytes.length := hlength.symm
    have hone : Frames (storeU32 length.1 ++ bytes ++ []) [bytes] := .cons hbody .nil
    rw [List.append_nil, ← Frames.frame_eq hbody] at hone
    simp only [complete, headerTaken, List.flatMap_singleton, List.append_nil]
    exact ⟨hone, (Frames.frame_eq hbody).symm⟩
  | stopped => exact absurd rfl hphase

namespace ReadsStream

variable {stream : List UInt8} {ref : SessionRef} {g g' : Gateway η} {log : ReadLog}
  {session : Session η}

/-- A step that leaves the session untouched keeps the invariant. -/
theorem untouched (h : ReadsStream stream ref g log) (hg' : g.Untouched g' ref) :
    ReadsStream stream ref g' log where
  start hnone := h.start (hg'.gone hnone)
  taken := h.taken
  going session' hsession' hphase := by
    rcases hg'.object session' hsession' with ⟨session, hsession, hsame, -⟩ | ⟨hnone, hread⟩
    · rw [hsame] at hphase ⊢
      exact h.going session hsession hphase
    · rw [h.start hnone, hread]
      exact ⟨.nil, rfl⟩
  stopped session' hsession' hphase := by
    rcases hg'.object session' hsession' with ⟨session, hsession, hsame, hid⟩ | ⟨-, hread⟩
    · rw [hsame] at hphase
      obtain ⟨hreceived, hentry⟩ := h.stopped session hsession hphase
      refine ⟨hreceived, fun hentry' => hentry ?_⟩
      rw [← hid]
      exact hg'.entry session hsession _ hentry'
    · rw [hread] at hphase
      cases hphase

/-- While the chain goes on, the rest of the stream is read from where it is. -/
theorem received_eq (h : ReadsStream stream ref g log) (hsession : g.objects[ref]? = some session)
    (hphase : session.read.phase ≠ .stopped) {later : List UInt8}
    (hstream : log.taken ++ later = stream) :
    (readStream .header stream).received =
      log.received ++ (readStream session.read.phase later).received := by
  obtain ⟨hframes, htaken⟩ := h.going session hsession hphase
  rw [← hstream, htaken, hframes.readStream_headerTaken hphase]
  rfl

/-- A read that completes keeps the invariant. -/
theorem readDone (h : ReadsStream stream ref g log) (hsession : g.objects[ref]? = some session)
    {bytes : List UInt8} (hbytes : log.taken ++ bytes <+: stream)
    (hstep : g.sessionStep ref session (.readDone bytes) = some g') :
    ReadsStream stream ref g'
      ⟨log.taken ++ bytes, log.received ++ (session.read.phase.complete bytes).2⟩ := by
  obtain ⟨hphase, hlength, read, hread, hobjects, hclosed⟩ := Gateway.readDone_spec hstep
  obtain ⟨hlt, -⟩ := List.getElem?_eq_some_iff.mp hsession
  have hself : g'.objects[ref]? = some { session with read } := by
    rw [hobjects, List.getElem?_set_self hlt]
  obtain ⟨hframes, htaken⟩ := h.going session hsession hphase
  refine ⟨fun hnone => ?_, hbytes, fun session' hsession' hgoes => ?_,
    fun session' hsession' hstop => ?_⟩
  · rw [hself] at hnone
    cases hnone
  · cases hself.symm.trans hsession'
    show Frames _ _ ∧ _ = _ ++ read.phase.headerTaken
    rw [hread] at hgoes ⊢
    -- The chain goes on, so the read has completed a frame or the header of one.
    obtain ⟨hnew, hbytes⟩ := ReadPhase.complete_frames hphase hlength hgoes
    rw [List.flatMap_append]
    refine ⟨hframes.append hnew, ?_⟩
    rw [htaken, List.append_assoc, hbytes, List.append_assoc]
  · cases hself.symm.trans hsession'
    -- The chain has stopped at a length it does not read, where the reader of whole streams stops
    -- too.
    have hstopped : read.phase = .stopped := hstop
    refine ⟨?_, ?_⟩
    · obtain ⟨later, hlater⟩ := hbytes
      rw [List.append_assoc] at hlater
      rw [h.received_eq hsession hphase hlater, readStream_of_le hphase (by simp [hlength]),
        ← hlength, List.take_left' rfl, List.drop_left' rfl, ← hread, hstopped,
        readStream_of_not fun hboth => hboth.1 rfl]
      simp [ReadOutcome.after]
    · show g'.sessions.lookup session.sessionId ≠ some ref
      rw [hclosed hstopped]
      exact (Option.some_ne_none ref).symm

/-- A read that fails has met the end of the stream. -/
theorem readFailed (h : ReadsStream stream ref g log) (hsession : g.objects[ref]? = some session)
    (hshort : stream.length < log.taken.length + session.read.phase.wants)
    (hstep : g.sessionStep ref session .readFailed = some g') :
    ReadsStream stream ref g' log := by
  obtain ⟨hphase, hobjects, hclosed⟩ := Gateway.readFailed_spec hstep
  obtain ⟨hlt, -⟩ := List.getElem?_eq_some_iff.mp hsession
  have hself : g'.objects[ref]? = some { session with read := .reading .stopped } := by
    rw [hobjects, List.getElem?_set_self hlt]
  refine ⟨fun hnone => ?_, h.taken, fun session' hsession' hgoes => ?_,
    fun session' hsession' _ => ?_⟩
  · rw [hself] at hnone
    cases hnone
  · cases hself.symm.trans hsession'
    exact absurd rfl hgoes
  · cases hself.symm.trans hsession'
    obtain ⟨later, hlater⟩ := h.taken
    have hrest : later.length < session.read.phase.wants := by
      rw [← hlater, List.length_append] at hshort
      omega
    refine ⟨?_, ?_⟩
    · rw [h.received_eq hsession hphase hlater,
        readStream_of_not fun hboth => Nat.not_le.mpr hrest hboth.2, List.append_nil]
    · show g'.sessions.lookup session.sessionId ≠ some ref
      rw [hclosed]
      exact (Option.some_ne_none ref).symm

/-- One step keeps the invariant. -/
theorem step {a : GatewayAction η} (h : ReadsStream stream ref g log)
    (hstream : FromStream stream ref (g, log) a) (hstep : g.step a = some g') :
    ReadsStream stream ref g' (log.record ref g a) := by
  by_cases hends : ∃ e, a = .session ref e ∧ e.EndsRead
  · obtain ⟨e, rfl, hends⟩ := hends
    obtain ⟨session, hsession, hstep⟩ := Option.bind_eq_some_iff.mp hstep
    cases e with
    | readDone bytes =>
      simp only [ReadLog.record, hsession, if_true]
      exact h.readDone hsession (hstream rfl) hstep
    | readFailed => exact h.readFailed hsession (hstream rfl session hsession) hstep
    | callHandler => cases hends
    | handlerReturned => cases hends
    | write b => cases hends
  · have hlog : log.record ref g a = log := by
      cases a with
      | session ref' e =>
        cases e with
        | readDone bytes =>
          refine if_neg fun href => hends ?_
          exact ⟨.readDone bytes, by rw [href], trivial⟩
        | _ => rfl
      | _ => rfl
    rw [hlog]
    refine h.untouched (.of_step hstep fun e ha hread => hends ?_)
    exact ⟨e, ha, hread⟩

end ReadsStream

/-! ## What is dispatched -/

/-- What the read chain of a session has made of a stream whose longest beginning of complete frames
is `front`, with these bodies. -/
structure AcceptsFrames (stream : List UInt8) (ref : SessionRef) (p : Gateway η × ReadLog)
    (session : Session η) (front : List UInt8) (bodies : List Message) : Prop where
  longest : LongestFrames stream front bodies
  /-- To frame the bodies again gives the bytes. -/
  reframed : bodies.flatMap frame = front
  /-- Nothing but bodies of complete frames goes to `OnReceive`, in their order. -/
  dispatched : p.2.received <+: bodies
  /-- While the chain goes on, every length it has taken was an accepted one. -/
  going : session.read.phase ≠ .stopped →
    p.2.taken = p.2.received.flatMap frame ++ session.read.phase.headerTaken
  /-- The chain does not stop before the stream makes it. -/
  goesOn : session.read.phase ≠ .stopped → ∃ e p', FromStream stream ref p (.session ref e) ∧
    (recordedReader η ref).step p (.session ref e) = some p'
  /-- When it has stopped, all bodies were dispatched and the session is not in `sessions_`. -/
  stopped : session.read.phase = .stopped →
    p.2.received = bodies ∧ p.1.sessions.lookup session.sessionId ≠ some ref
  /-- No read follows. -/
  stays : session.read.phase = .stopped → ∀ a p', (recordedReader η ref).step p a = some p' →
    ∃ session' : Session η, p'.1.objects[ref]? = some session' ∧ session'.read.phase = .stopped

variable {stream : List UInt8} {ref : SessionRef} {g g' : Gateway η} {log : ReadLog}
  {session : Session η}

/-- An outstanding read can complete with the bytes it asks for, and can fail. -/
theorem Gateway.read_enabled (g : Gateway η) (ref : SessionRef) {phase : ReadPhase}
    (hread : session.read = .reading phase) (hphase : phase ≠ .stopped) :
    (∀ bytes : List UInt8, bytes.length = phase.wants →
      ∃ g', g.sessionStep ref session (.readDone bytes) = some g') ∧
    ∃ g', g.sessionStep ref session .readFailed = some g' := by
  cases phase with
  | header =>
    simp only [sessionStep, hread]
    exact ⟨fun bytes hlength => ⟨_, if_pos hlength⟩, _, rfl⟩
  | body length =>
    simp only [sessionStep, hread]
    exact ⟨fun bytes hlength => ⟨_, if_pos hlength⟩, _, rfl⟩
  | stopped => exact absurd rfl hphase

/-- A chain that has not stopped has a next event that the stream allows. -/
theorem exists_next (htaken : log.taken <+: stream) (hsession : g.objects[ref]? = some session)
    (hphase : session.read.phase ≠ .stopped) :
    ∃ e g', FromStream stream ref (g, log) (.session ref e) ∧
      g.sessionStep ref session e = some g' := by
  obtain ⟨later, hlater⟩ := htaken
  cases hread : session.read with
  | calling handler msg =>
    obtain ⟨g', hstep⟩ : ∃ g', g.sessionStep ref session .callHandler = some g' := by
      simp only [Gateway.sessionStep, hread]
      exact ⟨_, rfl⟩
    exact ⟨.callHandler, g', trivial, hstep⟩
  | running =>
    obtain ⟨g', hstep⟩ : ∃ g', g.sessionStep ref session .handlerReturned = some g' := by
      simp only [Gateway.sessionStep, hread]
      exact ⟨_, rfl⟩
    exact ⟨.handlerReturned, g', trivial, hstep⟩
  | reading phase =>
    have hphase' : phase ≠ .stopped := by
      rw [hread] at hphase
      exact hphase
    obtain ⟨hdone, g₁, hfailed⟩ := g.read_enabled ref hread hphase'
    -- The stream has the bytes that the read wants, or ends before, and then the read fails.
    by_cases henough : phase.wants ≤ later.length
    · obtain ⟨g', hstep⟩ := hdone (later.take phase.wants) (List.length_take_of_le henough)
      have hnext : log.taken ++ later.take phase.wants <+: stream := by
        refine ⟨later.drop phase.wants, ?_⟩
        rw [List.append_assoc, List.take_append_drop, hlater]
      exact ⟨.readDone _, g', fun _ => hnext, hstep⟩
    · refine ⟨.readFailed, g₁, fun _ session' hsession' => ?_, hfailed⟩
      cases hsession.symm.trans hsession'
      rw [← hlater, List.length_append, hread]
      exact Nat.add_lt_add_left (Nat.not_le.mp henough) _

/-- A chain that has stopped stays so. -/
theorem stopped_step {a : GatewayAction η} (hsession : g.objects[ref]? = some session)
    (hphase : session.read.phase = .stopped) (hstep : g.step a = some g') :
    ∃ session' : Session η, g'.objects[ref]? = some session' ∧ session'.read.phase = .stopped := by
  have huntouched : g.Untouched g' ref := by
    refine .of_step hstep fun e ha hends => ?_
    subst ha
    rw [Gateway.step, hsession, Option.bind_some] at hstep
    cases e with
    | readDone bytes => exact (Gateway.readDone_spec hstep).1 hphase
    | readFailed => exact (Gateway.readFailed_spec hstep).1 hphase
    | callHandler => exact hends
    | handlerReturned => exact hends
    | write b => exact hends
  cases hsession' : g'.objects[ref]? with
  | none =>
    rw [huntouched.gone hsession'] at hsession
    cases hsession
  | some session' =>
    refine ⟨session', rfl, ?_⟩
    rcases huntouched.object session' hsession' with ⟨session₁, hsession₁, hsame, -⟩ | ⟨hnone, -⟩
    · cases hsession.symm.trans hsession₁
      rw [hsame, hphase]
    · rw [hnone] at hsession
      cases hsession

/-- In every run of the gateway in which the socket of a session delivers a stream, the session
passes the bodies of the longest beginning of the stream that consists of complete frames to
`OnReceive`, each once and in order, and then closes. -/
theorem reader_accepts_frames {p : Gateway η × ReadLog}
    (hreach : (recordedReader η ref).ReachWhere (FromStream stream ref) p)
    (hsession : p.1.objects[ref]? = some session) :
    ∃ front bodies, AcceptsFrames stream ref p session front bodies := by
  have hinv : ReadsStream stream ref p.1 p.2 := by
    refine hreach.invariant_withHistory ?_ fun g log a g' hinv hstream hstep =>
      hinv.step hstream hstep
    rintro g rfl
    exact ⟨fun _ => rfl, List.nil_prefix, nofun, nofun⟩
  obtain ⟨front, hlongest⟩ := readStream_longest stream
  have hstopped := hinv.stopped session hsession
  refine ⟨front, _, hlongest, hlongest.frames.flatMap_frame, ?_, fun hphase => ?_, fun hphase => ?_,
    hstopped, fun hphase a p' hstep => ?_⟩
  · by_cases hphase : session.read.phase = .stopped
    · rw [(hstopped hphase).1]
    · obtain ⟨later, hlater⟩ := hinv.taken
      rw [hinv.received_eq hsession hphase hlater]
      exact List.prefix_append _ _
  · exact (hinv.going session hsession hphase).2
  · obtain ⟨e, g', hstream, hnext⟩ := exists_next hinv.taken hsession hphase
    have hstep : p.1.step (.session ref e) = some g' := by
      rw [Gateway.step, hsession, Option.bind_some, hnext]
    refine ⟨e, (g', p.2.record ref p.1 (.session ref e)), hstream, ?_⟩
    exact TransitionSystem.withHistory_step.mpr ⟨hstep, rfl⟩
  · exact stopped_step hsession hphase (TransitionSystem.withHistory_step.mp hstep).1

theorem recordedReader_initial {C : Gateway η × ReadLog → GatewayAction η → Prop} :
    (recordedReader η ref).ReachWhere C (.initial, ⟨[], []⟩) :=
  .init ⟨rfl, rfl⟩

/-- A frame and a length that is cut off: the peer has closed the connection in the middle of it. -/
def cutStream : List UInt8 := [4, 0, 0, 0, 7, 0, 0, 0, 9, 0]

/-- `reader_accepts_frames` for a session that has read `cutStream` to its end. -/
theorem reader_accepts_cutStream :
    ∃ p session, (recordedReader ℕ 0).runWhere (FromStream cutStream 0) (.initial, ⟨[], []⟩)
        [.accept, .session 0 (.readDone [4, 0, 0, 0]), .session 0 (.readDone [7, 0, 0, 0]),
          .session 0 .readFailed] = some p ∧
      p.1.objects[0]? = some session ∧ p.2 = ⟨[4, 0, 0, 0, 7, 0, 0, 0], [[7, 0, 0, 0]]⟩ ∧
      ∃ front bodies, AcceptsFrames cutStream 0 p session front bodies :=
  ⟨_, _, rfl, rfl, rfl, reader_accepts_frames (.of_runWhere recordedReader_initial
    [.accept, .session 0 (.readDone [4, 0, 0, 0]), .session 0 (.readDone [7, 0, 0, 0]),
      .session 0 .readFailed] rfl) rfl⟩

end WasmHot
