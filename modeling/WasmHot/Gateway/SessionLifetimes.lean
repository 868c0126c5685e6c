import WasmHot.Gateway.SessionTable

/-!
# How long a session lives

A session is kept by `shared_ptr`s: in `sessions_`, in the handlers of its outstanding read and
writes, in the handlers that `Session::Send` has posted or that run, and in the calls of
`Gateway::Send` that have found it. It is destroyed when the last of them is gone.

Nothing that the gateway does brings one of them back, so a destroyed session stays untouched. And
none of them is forgotten: the read chain takes the session out of the table before it stops, so a
session whose chains have both come to their end is destroyed (`sessions_released`).
-/

namespace WasmHot

variable {η : Type*}

namespace SessionThreads

/-- No handler of the write chain is posted or runs, and no write is outstanding. -/
def Idle (s : SessionThreads) : Prop := s.posted = [] ∧ s.handlers = ∅ ∧ s.writes = []

/-- The write chain does not begin again by itself. -/
theorem Idle.step_eq_none {s : SessionThreads} (h : s.Idle) (a : HandlerAction) : s.step a = none := by
  obtain ⟨hposted, hhandlers, hwrites⟩ := h
  cases a with
  | runSend t k => simp [step, hposted]
  | advance t => simp [step, advance, hhandlers]
  | writeDone t k => simp [step, hwrites]
  | writeFailed k => simp [step, hwrites]

end SessionThreads

namespace Gateway

variable {g g' : Gateway η} {ref : SessionRef} {session : Session η}

/-- Something points to the session. -/
inductive PointsTo (g : Gateway η) (ref : SessionRef) : Prop
  | table {id : UInt64} (hlookup : g.sessions.lookup id = some ref)
  /-- `session` in `Gateway::Send`. -/
  | sending {t : ThreadId} {msg : Message} (hlookup : g.sending.lookup t = some (ref, msg))
  /-- `self` in the read chain. -/
  | reading {session : Session η} (hsession : g.objects[ref]? = some session)
      (hread : session.read ≠ .reading .stopped)
  /-- `self` in the write chain. -/
  | writing {session : Session η} (hsession : g.objects[ref]? = some session)
      (hwriter : ¬ session.writer.Idle)

/-- The session was made, and nothing points to it any more. -/
structure Released (g : Gateway η) (ref : SessionRef) : Prop where
  made : ref < g.objects.length
  alone : ¬ g.PointsTo ref

/-- The session has no event any more. -/
theorem Released.sessionStep_eq_none (h : g.Released ref) (hsession : g.objects[ref]? = some session)
    (e : SessionEvent) : g.sessionStep ref session e = none := by
  have hread : session.read = .reading .stopped :=
    not_not.mp fun hread => h.alone (.reading hsession hread)
  have hwriter : session.writer.Idle := not_not.mp fun hwriter => h.alone (.writing hsession hwriter)
  cases e with
  | readDone bytes => simp [sessionStep, hread]
  | readFailed => simp [sessionStep, hread]
  | callHandler => simp [sessionStep, hread]
  | handlerReturned => simp [sessionStep, hread]
  | write a => cases a <;> simp [sessionStep, hwriter.step_eq_none]

/-- An event of a session is no call of `Gateway::Send`. -/
theorem sending_sessionStep {e : SessionEvent} (h : g.sessionStep ref session e = some g') :
    g'.sending = g.sending := by
  cases e with
  | readDone bytes =>
    rcases readDone_eq h with ⟨-, rfl⟩ | ⟨length, -, rfl⟩
    · unfold headerDone
      split <;> rfl
    · unfold bodyDone
      split <;> rfl
  | readFailed =>
    rw [readFailed_eq h]
    rfl
  | callHandler =>
    obtain ⟨handler, msg, -, rfl⟩ := callHandler_eq h
    rfl
  | handlerReturned =>
    obtain ⟨-, rfl⟩ := handlerReturned_eq h
    rfl
  | write a =>
    obtain ⟨writer, -, ⟨-, rfl⟩ | ⟨-, rfl⟩⟩ := write_eq h
    · rfl
    · rfl

/-- No step touches a session that nothing points to. -/
theorem Released.object_step {a : GatewayAction η} (h : g.Released ref) (hstep : g.step a = some g') :
    g'.objects[ref]? = g.objects[ref]? := by
  cases a with
  | accept =>
    cases hstep
    exact List.getElem?_append_left h.made
  | registerHandler msgType handler =>
    cases hstep
    rfl
  | findSession t sessionId msg =>
    obtain ⟨sending, rfl⟩ := findSession_eq hstep
    rfl
  | post t =>
    have hpost : g.post t = some g' := hstep
    unfold post at hpost
    split at hpost
    · next ref' msg hlookup =>
      obtain ⟨session, -, rfl⟩ := Option.map_eq_some_iff.mp hpost
      refine List.getElem?_set_ne ?_
      rintro rfl
      exact h.alone (.sending hlookup)
    · cases hpost
  | session ref' e =>
    obtain ⟨session, hsession, hevent⟩ := Option.bind_eq_some_iff.mp hstep
    obtain ⟨⟨session', hobjects, -⟩, -⟩ := sessionStep_spec hevent
    rw [hobjects]
    refine List.getElem?_set_ne ?_
    rintro rfl
    cases (h.sessionStep_eq_none hsession e).symm.trans hevent

/-- Only a session that is new gets into the table. -/
theorem pointsTo_of_table_step {a : GatewayAction η} (hmade : ref < g.objects.length)
    (hstep : g.step a = some g') {id : UInt64} (hlookup : g'.sessions.lookup id = some ref) :
    g.PointsTo ref := by
  cases a with
  | accept =>
    cases hstep
    rw [Gateway.accept, UnorderedMap.lookup_insert] at hlookup
    split at hlookup
    · cases hlookup
      exact absurd hmade (lt_irrefl _)
    · exact .table hlookup
  | registerHandler msgType handler =>
    cases hstep
    exact .table hlookup
  | findSession t sessionId msg =>
    obtain ⟨sending, rfl⟩ := findSession_eq hstep
    exact .table hlookup
  | post t =>
    obtain ⟨ref', session, m, -, rfl⟩ := post_eq hstep
    exact .table hlookup
  | session ref' e =>
    obtain ⟨session, hsession, hevent⟩ := Option.bind_eq_some_iff.mp hstep
    exact .table ((sessionStep_spec hevent).2 id ref hlookup)

/-- A call of `Gateway::Send` gets its session from the table. -/
theorem pointsTo_of_sending_step {a : GatewayAction η} (hstep : g.step a = some g') {t : ThreadId}
    {msg : Message} (hlookup : g'.sending.lookup t = some (ref, msg)) : g.PointsTo ref := by
  cases a with
  | accept =>
    cases hstep
    exact .sending hlookup
  | registerHandler msgType handler =>
    cases hstep
    exact .sending hlookup
  | findSession t' sessionId msg' =>
    simp only [Gateway.step, findSession, Option.ite_none_right_eq_some] at hstep
    obtain ⟨-, hstep⟩ := hstep
    split at hstep
    · next hfound =>
      cases hstep
      rw [UnorderedMap.lookup_insert] at hlookup
      split at hlookup
      -- The pointer is the copy that `Send` takes under the lock of the table.
      · cases hlookup
        exact .table hfound
      · exact .sending hlookup
    · cases hstep
      exact .sending hlookup
  | post t' =>
    obtain ⟨ref', session, m, -, rfl⟩ := post_eq hstep
    rw [UnorderedMap.lookup_erase, Option.ite_none_left_eq_some] at hlookup
    exact .sending hlookup.2
  | session ref' e =>
    obtain ⟨session, hsession, hevent⟩ := Option.bind_eq_some_iff.mp hstep
    rw [sending_sessionStep hevent] at hlookup
    exact .sending hlookup

/-- So it stays released. -/
theorem Released.step {a : GatewayAction η} (h : g.Released ref) (hstep : g.step a = some g') :
    g'.Released ref where
  made := h.made.trans_le (length_objects_le hstep)
  alone hpoints := by
    have hobject := h.object_step hstep
    cases hpoints with
    | table hlookup => exact h.alone (pointsTo_of_table_step h.made hstep hlookup)
    | sending hlookup => exact h.alone (pointsTo_of_sending_step hstep hlookup)
    | reading hsession hread => exact h.alone (.reading (hobject ▸ hsession) hread)
    | writing hsession hwriter => exact h.alone (.writing (hobject ▸ hsession) hwriter)

/-- A run does not touch it either. -/
theorem Released.run {acts : List (GatewayAction η)} (h : g.Released ref)
    (hrun : (gatewaySystem η).run g acts = some g') :
    g'.Released ref ∧ g'.objects[ref]? = g.objects[ref]? := by
  induction acts generalizing g with
  | nil =>
    cases hrun
    exact ⟨h, rfl⟩
  | cons a acts ih =>
    obtain ⟨g₁, hstep, hrest⟩ := Option.bind_eq_some_iff.mp hrun
    obtain ⟨hreleased, hobject⟩ := ih (h.step hstep) hrest
    exact ⟨hreleased, hobject.trans (h.object_step hstep)⟩

end Gateway

/-- A session that nothing points to any more stays so and is left alone, whatever the gateway does
next. And a session is not forgotten: as long as no more than `2 ^ 64` sessions were accepted, one
whose read chain has stopped, whose write chain has nothing left to do and which no `Gateway::Send`
has in its hands has nothing that points to it. -/
theorem sessions_released {g : Gateway η} (h : (gatewaySystem η).Reachable g) :
    (∀ (ref : SessionRef), g.Released ref → ∀ acts g', (gatewaySystem η).run g acts = some g' →
      g'.Released ref ∧ g'.objects[ref]? = g.objects[ref]?) ∧
    (g.objects.length ≤ 2 ^ 64 → ∀ (ref : SessionRef) (session : Session η),
      g.objects[ref]? = some session → session.read = .reading .stopped → session.writer.Idle →
      (∀ t msg, g.sending.lookup t ≠ some (ref, msg)) → g.Released ref) := by
  refine ⟨fun ref hreleased acts g' hrun => hreleased.run hrun, ?_⟩
  intro hcount ref session hsession hread hwriter hsending
  refine ⟨(List.getElem?_eq_some_iff.mp hsession).1, fun hpoints => ?_⟩
  cases hpoints with
  | table hlookup =>
    obtain ⟨session', hsession', -, hopen⟩ := (holdsOpen_of_reachable h hcount _ _).mp hlookup
    cases hsession.symm.trans hsession'
    exact hopen.1 hread
  | sending hlookup => exact hsending _ _ hlookup
  | reading hsession' hread' =>
    cases hsession.symm.trans hsession'
    exact hread' hread
  | writing hsession' hwriter' =>
    cases hsession.symm.trans hsession'
    exact hwriter' hwriter

/-- The peer closes the connection while a message is written to it. -/
def closedWhileWriting : List (GatewayAction ℕ) := sendWhileReading ++ [.session 0 .readFailed]

/-- The write keeps the session until it fails too. -/
theorem sessions_released_closedWhileWriting :
    ∃ g g', (gatewaySystem ℕ).run .initial closedWhileWriting = some g ∧ g.PointsTo 0 ∧
      (gatewaySystem ℕ).run g [.session 0 (.write (.writeFailed 0))] = some g' ∧ g'.Released 0 := by
  obtain ⟨g, g', session, session', hrun, hbefore, hwrites, hrun', hafter, hread, hidle, hsending,
      hcount⟩ : ∃ g g' session session',
      (gatewaySystem ℕ).run .initial closedWhileWriting = some g ∧ g.objects[0]? = some session ∧
        session.writer.writes.length = 1 ∧
        (gatewaySystem ℕ).run g [.session 0 (.write (.writeFailed 0))] = some g' ∧
        g'.objects[0]? = some session' ∧ session'.read = .reading .stopped ∧ session'.writer.Idle ∧
        g'.sending = ∅ ∧ g'.objects.length = 1 :=
    ⟨_, _, _, _, rfl, rfl, rfl, rfl, rfl, rfl, ⟨rfl, rfl, rfl⟩, rfl, rfl⟩
  have hreach : (gatewaySystem ℕ).Reachable g := .of_run (.init rfl) closedWhileWriting hrun
  refine ⟨g, g', hrun, .writing hbefore fun hwriter => ?_, hrun',
    (sessions_released (hreach.of_run _ hrun')).2 ?_ 0 session' hafter hread hidle ?_⟩
  · rw [hwriter.2.2] at hwrites
    cases hwrites
  · rw [hcount]
    exact Nat.one_le_two_pow
  · intro t msg
    rw [hsending]
    exact fun hlookup => nomatch (Finmap.lookup_empty t).symm.trans hlookup

end WasmHot
