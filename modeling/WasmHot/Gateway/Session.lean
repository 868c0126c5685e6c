import WasmHot.Gateway.FrameReader
import WasmHot.Gateway.SessionThreads

/-!
# The sessions of the gateway

The read chain and the write chain of a session run independently of each other. Either can close
the session: a failed read, a length too small for a type and a failed write all call
`OnSessionClosed`, which takes the session out of `sessions_`. The pending operations keep the
object alive.

The read chain stops when it closes the session. A write that fails does not stop it: the outstanding
read may still complete, `OnReceive` does not ask whether the session is in `sessions_`, and the
handler is called for a session that is closed (`calls_before_close`, `call_after_write_error`).
-/

namespace WasmHot

/-- The identity of a `Session` object. -/
abbrev SessionRef := ℕ

/-- Where the read chain of a session is. -/
inductive ReadChain (η : Type*)
  /-- An `async_read` is outstanding, or the chain has stopped. -/
  | reading (phase : ReadPhase)
  /-- `OnReceive` has copied the handler and has not called it yet. -/
  | calling (handler : η) (msg : Message)
  /-- The handler runs. -/
  | running
  deriving DecidableEq

namespace ReadChain

variable {η : Type*}

/-- The outstanding read asks for a body. -/
def inBody : ReadChain η → Bool
  | .reading (.body _) => true
  | _ => false

/-- A handler is about to be called. -/
def isCalling : ReadChain η → Bool
  | .calling _ _ => true
  | _ => false

end ReadChain

/-- A `Session`. -/
structure Session (η : Type*) where
  sessionId : UInt64
  read : ReadChain η
  writer : SessionThreads
  deriving DecidableEq

/-- A call of a registered handler. -/
structure HandlerCall (η : Type*) where
  sessionId : UInt64
  handler : η
  msg : Message
  /-- `OnSessionClosed` had been called with the session id. -/
  afterClose : Bool
  deriving DecidableEq

/-- The gateway with every session it has made. -/
structure Gateway (η : Type*) where
  handlers : UnorderedMap UInt32 η
  sessions : UnorderedMap UInt64 SessionRef
  nextSessionId : UInt64
  objects : List (Session η)
  /-- The threads inside `Gateway::Send` that have found their session. -/
  sending : UnorderedMap ThreadId (SessionRef × Message)
  /-- The ids that `OnSessionClosed` has been called with. -/
  closed : List UInt64
  /-- The handler calls so far. -/
  calls : List (HandlerCall η)
  deriving DecidableEq

/-- What happens to one session. -/
inductive SessionEvent
  /-- The outstanding `async_read` completes with these bytes. -/
  | readDone (bytes : List UInt8)
  | readFailed
  /-- `OnReceive` calls the handler it has found. -/
  | callHandler
  | handlerReturned
  /-- A step of the write chain. -/
  | write (a : HandlerAction)
  deriving DecidableEq

/-- What happens in the gateway. -/
inductive GatewayAction (η : Type*)
  /-- `async_accept` completes. -/
  | accept
  | registerHandler (msgType : UInt32) (handler : η)
  /-- `Gateway::Send` looks the session up. -/
  | findSession (t : ThreadId) (sessionId : UInt64) (msg : Message)
  /-- `Gateway::Send` calls `Session::Send`. -/
  | post (t : ThreadId)
  | session (ref : SessionRef) (e : SessionEvent)
  deriving DecidableEq

namespace Gateway

variable {η : Type*}

/-- The gateway after `Initialize`. -/
def initial : Gateway η where
  handlers := ∅
  sessions := ∅
  nextSessionId := 1
  objects := []
  sending := ∅
  closed := []
  calls := []

/-- The session object changes. -/
def update (g : Gateway η) (ref : SessionRef) (session : Session η) : Gateway η :=
  { g with objects := g.objects.set ref session }

/-- `OnSessionClosed`. -/
def onSessionClosed (g : Gateway η) (sessionId : UInt64) : Gateway η :=
  { g with sessions := g.sessions.erase sessionId, closed := g.closed ++ [sessionId] }

/-- The read chain closes the session and stops. -/
def stopReading (g : Gateway η) (ref : SessionRef) (session : Session η) : Gateway η :=
  (g.update ref { session with read := .reading .stopped }).onSessionClosed session.sessionId

/-- The completion handler of `DoReadHeader`. -/
def headerDone (g : Gateway η) (ref : SessionRef) (session : Session η) (bytes : List UInt8) :
    Gateway η :=
  match (ReadPhase.header.complete bytes).1 with
  | .stopped => g.stopReading ref session
  | next => g.update ref { session with read := .reading next }

/-- The completion handler of `DoReadBody`, up to the call of the handler. Whether the session is in
`sessions_` makes no difference. -/
def bodyDone (g : Gateway η) (ref : SessionRef) (session : Session η) (msg : Message) : Gateway η :=
  match onReceive g.handlers msg with
  | some handler => g.update ref { session with read := .calling handler msg }
  | none => g.update ref { session with read := .reading .header }

/-- An event of one session. -/
def sessionStep (g : Gateway η) (ref : SessionRef) (session : Session η) :
    SessionEvent → Option (Gateway η)
  | .readDone bytes =>
      match session.read with
      | .reading .header =>
          if bytes.length = 4 then some (g.headerDone ref session bytes) else none
      | .reading (.body length) =>
          if bytes.length = length.1.toNat then some (g.bodyDone ref session bytes) else none
      | _ => none
  | .readFailed =>
      match session.read with
      | .reading .stopped => none
      | .reading _ => some (g.stopReading ref session)
      | _ => none
  | .callHandler =>
      match session.read with
      | .calling handler msg =>
          some { g.update ref { session with read := .running } with
            calls := g.calls ++
              [⟨session.sessionId, handler, msg, decide (session.sessionId ∈ g.closed)⟩] }
      | _ => none
  | .handlerReturned =>
      match session.read with
      | .running => some (g.update ref { session with read := .reading .header })
      | _ => none
  | .write (.writeFailed k) =>
      -- `HandleError` closes the session; the read chain is not told.
      (session.writer.step (.writeFailed k)).map fun writer =>
        (g.update ref { session with writer }).onSessionClosed session.sessionId
  | .write a => (session.writer.step a).map fun writer => g.update ref { session with writer }

/-- `DoAccept` on a new connection. -/
def accept (g : Gateway η) : Gateway η :=
  { g with
    sessions := g.sessions.insert g.nextSessionId g.objects.length
    nextSessionId := g.nextSessionId + 1
    objects := g.objects ++ [⟨g.nextSessionId, .reading .header, .new⟩] }

/-- The lookup of `Gateway::Send`. Without a session the call returns. -/
def findSession (g : Gateway η) (t : ThreadId) (sessionId : UInt64) (msg : Message) :
    Option (Gateway η) :=
  if g.sending.lookup t = none then
    match g.sessions.lookup sessionId with
    | some ref => some { g with sending := g.sending.insert t (ref, msg) }
    | none => some g
  else none

/-- The call of `Session::Send` on the session found, which may have been closed since. -/
def post (g : Gateway η) (t : ThreadId) : Option (Gateway η) :=
  match g.sending.lookup t with
  | some (ref, msg) =>
      (g.objects[ref]?).map fun session =>
        { g.update ref { session with writer := session.writer.post ⟨t, msg⟩ } with
          sending := g.sending.erase t }
  | none => none

/-- The step of an action, where it is enabled. -/
def step (g : Gateway η) : GatewayAction η → Option (Gateway η)
  | .accept => some g.accept
  | .registerHandler msgType handler =>
      some { g with handlers := g.handlers.insert msgType handler }
  | .findSession t sessionId msg => g.findSession t sessionId msg
  | .post t => g.post t
  | .session ref e => (g.objects[ref]?).bind fun session => g.sessionStep ref session e

end Gateway

/-- All interleavings of reads, writes, sends and handler calls of any number of sessions. -/
def gatewaySystem (η : Type*) : TransitionSystem (Gateway η) (GatewayAction η) where
  Init g := g = .initial
  step := Gateway.step

/-! ## What each event does -/

namespace Gateway

variable {η : Type*} {g g' : Gateway η} {ref : SessionRef} {session : Session η}

theorem readDone_eq {bytes : List UInt8}
    (h : g.sessionStep ref session (.readDone bytes) = some g') :
    (session.read = .reading .header ∧ g' = g.headerDone ref session bytes) ∨
      ∃ length, session.read = .reading (.body length) ∧ g' = g.bodyDone ref session bytes := by
  simp only [sessionStep] at h
  split at h
  · next hread =>
    simp only [Option.ite_none_right_eq_some, Option.some.injEq] at h
    exact Or.inl ⟨hread, h.2.symm⟩
  · next length hread =>
    simp only [Option.ite_none_right_eq_some, Option.some.injEq] at h
    exact Or.inr ⟨length, hread, h.2.symm⟩
  · cases h

theorem readFailed_eq (h : g.sessionStep ref session .readFailed = some g') :
    g' = g.stopReading ref session := by
  simp only [sessionStep] at h
  split at h
  · cases h
  · exact (Option.some.inj h).symm
  · cases h

theorem callHandler_eq (h : g.sessionStep ref session .callHandler = some g') :
    ∃ handler msg, session.read = .calling handler msg ∧
      g' = { g.update ref { session with read := .running } with
        calls := g.calls ++
          [⟨session.sessionId, handler, msg, decide (session.sessionId ∈ g.closed)⟩] } := by
  simp only [sessionStep] at h
  split at h
  · next handler msg hread => exact ⟨handler, msg, hread, (Option.some.inj h).symm⟩
  · cases h

theorem handlerReturned_eq (h : g.sessionStep ref session .handlerReturned = some g') :
    session.read = .running ∧ g' = g.update ref { session with read := .reading .header } := by
  simp only [sessionStep] at h
  split at h
  · next hread => exact ⟨hread, (Option.some.inj h).symm⟩
  · cases h

/-- A step of the write chain changes the writer, and closes the session if a write has failed. -/
theorem write_eq {a : HandlerAction} (h : g.sessionStep ref session (.write a) = some g') :
    ∃ writer, session.writer.step a = some writer ∧
      (((∃ k, a = .writeFailed k) ∧
          g' = (g.update ref { session with writer }).onSessionClosed session.sessionId) ∨
        ((¬ ∃ k, a = .writeFailed k) ∧ g' = g.update ref { session with writer })) := by
  cases a with
  | writeFailed k =>
    obtain ⟨writer, hwriter, hg⟩ := Option.map_eq_some_iff.mp h
    exact ⟨writer, hwriter, Or.inl ⟨⟨k, rfl⟩, hg.symm⟩⟩
  | _ =>
    obtain ⟨writer, hwriter, hg⟩ := Option.map_eq_some_iff.mp h
    exact ⟨writer, hwriter, Or.inr ⟨nofun, hg.symm⟩⟩

theorem findSession_eq {t : ThreadId} {sessionId : UInt64} {msg : Message}
    (h : g.findSession t sessionId msg = some g') :
    ∃ sending, g' = { g with sending } := by
  simp only [findSession, Option.ite_none_right_eq_some] at h
  obtain ⟨-, h⟩ := h
  split at h
  · exact ⟨_, (Option.some.inj h).symm⟩
  · exact ⟨g.sending, (Option.some.inj h).symm⟩

theorem post_eq {t : ThreadId} (h : g.post t = some g') :
    ∃ (ref : SessionRef) (session : Session η) (m : Outgoing), g.objects[ref]? = some session ∧
      g' = { g.update ref { session with writer := session.writer.post m } with
        sending := g.sending.erase t } := by
  unfold post at h
  split at h
  · next ref msg hsending =>
    obtain ⟨session, hsession, hg⟩ := Option.map_eq_some_iff.mp h
    exact ⟨ref, session, ⟨t, msg⟩, hsession, hg.symm⟩
  · cases h

end Gateway

/-! ## Closed sessions and their handlers -/

namespace Gateway

variable {η : Type*} {g g' : Gateway η} {ref : SessionRef} {session session' : Session η}

/-- What a session does next leads to no handler call after its close: a body that is read after a
write has failed has no handler, and no handler is about to be called when a write fails. -/
def EventSettled (g : Gateway η) (session : Session η) : SessionEvent → Prop
  | .readDone bytes => session.writer.failed = true → session.read.inBody = true →
      onReceive g.handlers bytes = none
  | .write (.writeFailed _) => session.read.isCalling = false
  | _ => True

/-- The events of the sessions are settled, and no session is given the id of an earlier one; the
first `2 ^ 64` are not. -/
def Settled (g : Gateway η) : GatewayAction η → Prop
  | .accept => ∀ session ∈ g.objects, session.sessionId ≠ g.nextSessionId
  | .session ref e => ∀ session ∈ g.objects[ref]?, g.EventSettled session e
  | _ => True

instance (g : Gateway η) (session : Session η) : DecidablePred (g.EventSettled session)
  | .readDone _ => inferInstanceAs (Decidable (_ → _ → _))
  | .readFailed => inferInstanceAs (Decidable True)
  | .callHandler => inferInstanceAs (Decidable True)
  | .handlerReturned => inferInstanceAs (Decidable True)
  | .write (.writeFailed _) => inferInstanceAs (Decidable (_ = _))
  | .write (.runSend _ _) => inferInstanceAs (Decidable True)
  | .write (.advance _) => inferInstanceAs (Decidable True)
  | .write (.writeDone _ _) => inferInstanceAs (Decidable True)

instance (g : Gateway η) : DecidablePred g.Settled
  | .accept => inferInstanceAs (Decidable (∀ session ∈ g.objects, _))
  | .registerHandler _ _ => inferInstanceAs (Decidable True)
  | .findSession _ _ _ => inferInstanceAs (Decidable True)
  | .post _ => inferInstanceAs (Decidable True)
  | .session _ _ => inferInstanceAs (Decidable (∀ session ∈ _, _))

/-- A closed session calls no handler any more: its read chain has stopped, or one of its writes has
failed and no handler is about to be called. -/
def SessionQuiet (session : Session η) : Prop :=
  session.read = .reading .stopped ∨
    (session.writer.failed = true ∧ session.read.isCalling = false)

/-- The law of closed sessions. -/
structure Quiet (g : Gateway η) : Prop where
  distinct : ∀ (i j : SessionRef) (s₁ s₂ : Session η), g.objects[i]? = some s₁ →
    g.objects[j]? = some s₂ → s₁.sessionId = s₂.sessionId → i = j
  known : ∀ id ∈ g.closed, ∃ session ∈ g.objects, session.sessionId = id
  quiet : ∀ session ∈ g.objects, session.sessionId ∈ g.closed → SessionQuiet session
  calls : ∀ call ∈ g.calls, call.afterClose = false

/-- A session that changes and perhaps closes keeps the law if it is quiet once it is closed. -/
theorem Quiet.update (h : g.Quiet) (hsession : g.objects[ref]? = some session)
    (hid : session'.sessionId = session.sessionId)
    (hobjects : g'.objects = g.objects.set ref session')
    (hclosed : ∀ id ∈ g'.closed, id ∈ g.closed ∨ id = session.sessionId)
    (hquiet : session.sessionId ∈ g'.closed → SessionQuiet session')
    (hcalls : ∀ call ∈ g'.calls, call.afterClose = false) : g'.Quiet := by
  have hself : g'.objects[ref]? = some session' := by
    obtain ⟨hlt, -⟩ := List.getElem?_eq_some_iff.mp hsession
    rw [hobjects, List.getElem?_set_self hlt]
  have hother : ∀ i, i ≠ ref → g'.objects[i]? = g.objects[i]? := by
    intro i hi
    rw [hobjects, List.getElem?_set_ne (Ne.symm hi)]
  -- Every session object has the id it had.
  have hold : ∀ (i : SessionRef) (s : Session η), g'.objects[i]? = some s →
      ∃ s₀ : Session η, g.objects[i]? = some s₀ ∧ s₀.sessionId = s.sessionId := by
    intro i s hs
    by_cases hi : i = ref
    · subst hi
      cases hself.symm.trans hs
      exact ⟨session, hsession, hid.symm⟩
    · exact ⟨s, (hother i hi).symm.trans hs, rfl⟩
  refine ⟨fun i j s₁ s₂ hs₁ hs₂ heq => ?_, fun id hmem => ?_, fun s hs hmem => ?_, hcalls⟩
  · obtain ⟨t₁, ht₁, hid₁⟩ := hold i s₁ hs₁
    obtain ⟨t₂, ht₂, hid₂⟩ := hold j s₂ hs₂
    exact h.distinct i j t₁ t₂ ht₁ ht₂ (by rw [hid₁, hid₂, heq])
  · rcases hclosed id hmem with hmem | rfl
    · obtain ⟨s₀, hs₀, rfl⟩ := h.known id hmem
      obtain ⟨i, hi⟩ := List.mem_iff_getElem?.mp hs₀
      by_cases hir : i = ref
      · subst hir
        cases hsession.symm.trans hi
        exact ⟨session', List.mem_of_getElem? hself, hid⟩
      · exact ⟨s₀, List.mem_of_getElem? ((hother i hir).trans hi), rfl⟩
    · exact ⟨session', List.mem_of_getElem? hself, hid⟩
  · obtain ⟨i, hi⟩ := List.mem_iff_getElem?.mp hs
    by_cases hir : i = ref
    · subst hir
      cases hself.symm.trans hi
      exact hquiet (hid ▸ hmem)
    · rw [hother i hir] at hi
      rcases hclosed _ hmem with hmem | hsame
      · exact h.quiet s (List.mem_of_getElem? hi) hmem
      · exact absurd (h.distinct i ref s session hi hsession hsame) hir

/-- A session that changes without closing. -/
theorem Quiet.update_open (h : g.Quiet) (hsession : g.objects[ref]? = some session)
    (hid : session'.sessionId = session.sessionId)
    (hquiet : session.sessionId ∈ g.closed → SessionQuiet session') :
    (g.update ref session').Quiet :=
  h.update hsession hid rfl (fun _ hmem => Or.inl hmem) hquiet h.calls

/-- A session that changes and closes. -/
theorem Quiet.update_close (h : g.Quiet) (hsession : g.objects[ref]? = some session)
    (hid : session'.sessionId = session.sessionId) (hquiet : SessionQuiet session') :
    ((g.update ref session').onSessionClosed session.sessionId).Quiet := by
  refine h.update hsession hid rfl (fun id hmem => ?_) (fun _ => hquiet) h.calls
  rcases List.mem_append.mp hmem with hmem | hmem
  · exact Or.inl hmem
  · exact Or.inr (List.mem_singleton.mp hmem)

/-- A read chain that is about to call or runs a handler, or reads on, has not closed its session:
if the session is closed, a write has failed. -/
theorem Quiet.failed (h : g.Quiet) (hsession : g.objects[ref]? = some session)
    (hreads : session.read ≠ .reading .stopped) (hmem : session.sessionId ∈ g.closed) :
    session.writer.failed = true ∧ session.read.isCalling = false :=
  (h.quiet session (List.mem_of_getElem? hsession) hmem).resolve_left hreads

theorem Quiet.headerDone (h : g.Quiet) (hsession : g.objects[ref]? = some session)
    (hread : session.read = .reading .header) (bytes : List UInt8) :
    (g.headerDone ref session bytes).Quiet := by
  unfold Gateway.headerDone
  split
  · exact h.update_close hsession rfl (Or.inl rfl)
  · refine h.update_open hsession rfl fun hmem => ?_
    exact Or.inr ⟨(h.failed hsession (by rw [hread]; nofun) hmem).1, rfl⟩

theorem Quiet.bodyDone {length : FrameLength} (h : g.Quiet)
    (hsession : g.objects[ref]? = some session) (hread : session.read = .reading (.body length))
    {msg : Message} (hsettled : g.EventSettled session (.readDone msg)) :
    (g.bodyDone ref session msg).Quiet := by
  have hfailed := h.failed hsession (by rw [hread]; nofun)
  unfold Gateway.bodyDone
  split
  · next handler hhandler =>
    -- A closed session has a failed write, and then there is no handler.
    refine h.update_open hsession rfl fun hmem => ?_
    have hnone := hsettled (hfailed hmem).1 (by rw [hread]; rfl)
    rw [hnone] at hhandler
    cases hhandler
  · exact h.update_open hsession rfl fun hmem => Or.inr ⟨(hfailed hmem).1, rfl⟩

/-- A step of the write chain leaves the read chain alone. -/
theorem Quiet.write {a : HandlerAction} (h : g.Quiet) (hsession : g.objects[ref]? = some session)
    (hsettled : g.EventSettled session (.write a))
    (hstep : g.sessionStep ref session (.write a) = some g') : g'.Quiet := by
  obtain ⟨writer, hwriter, ⟨⟨k, rfl⟩, rfl⟩ | ⟨-, rfl⟩⟩ := write_eq hstep
  · have hfailed := (SessionThreads.failed_iff hwriter).mpr (Or.inr ⟨k, rfl⟩)
    exact h.update_close hsession rfl (Or.inr ⟨hfailed, hsettled⟩)
  · refine h.update_open hsession rfl fun hmem => ?_
    refine (h.quiet session (List.mem_of_getElem? hsession) hmem).imp_right fun hfailed => ?_
    exact ⟨(SessionThreads.failed_iff hwriter).mpr (Or.inl hfailed.1), hfailed.2⟩

/-- The session that is about to call a handler is not closed, so the call is in time. -/
theorem Quiet.callHandler {handler : η} {msg : Message} (h : g.Quiet)
    (hsession : g.objects[ref]? = some session) (hread : session.read = .calling handler msg)
    (hg' : g' = { g.update ref { session with read := .running } with
      calls := g.calls ++
        [⟨session.sessionId, handler, msg, decide (session.sessionId ∈ g.closed)⟩] }) :
    g'.Quiet := by
  subst hg'
  have hopen : session.sessionId ∉ g.closed := by
    intro hmem
    have hcalling := (h.failed hsession (by rw [hread]; nofun) hmem).2
    rw [hread] at hcalling
    cases hcalling
  have hid : ({ session with read := .running } : Session η).sessionId = session.sessionId := rfl
  refine h.update hsession hid rfl (fun _ hmem => Or.inl hmem) (fun hmem => absurd hmem hopen) ?_
  intro call hcall
  rcases List.mem_append.mp hcall with hcall | hcall
  · exact h.calls call hcall
  · cases List.mem_singleton.mp hcall
    exact decide_eq_false hopen

theorem Quiet.sessionStep {e : SessionEvent} (h : g.Quiet)
    (hsession : g.objects[ref]? = some session) (hsettled : g.EventSettled session e)
    (hstep : g.sessionStep ref session e = some g') :
    g'.Quiet := by
  cases e with
  | readDone bytes =>
    rcases readDone_eq hstep with ⟨hread, rfl⟩ | ⟨length, hread, rfl⟩
    · exact h.headerDone hsession hread bytes
    · exact h.bodyDone hsession hread hsettled
  | readFailed =>
    rw [readFailed_eq hstep]
    exact h.update_close hsession rfl (Or.inl rfl)
  | callHandler =>
    obtain ⟨handler, msg, hread, hg'⟩ := callHandler_eq hstep
    exact h.callHandler hsession hread hg'
  | handlerReturned =>
    obtain ⟨hread, rfl⟩ := handlerReturned_eq hstep
    refine h.update_open hsession rfl fun hmem => ?_
    exact Or.inr ⟨(h.failed hsession (by rw [hread]; nofun) hmem).1, rfl⟩
  | write a => exact h.write hsession hsettled hstep

theorem Quiet.accept (h : g.Quiet)
    (hfresh : ∀ session ∈ g.objects, session.sessionId ≠ g.nextSessionId) : g.accept.Quiet := by
  have hnew : ∀ (i : SessionRef) (s : Session η), g.accept.objects[i]? = some s →
      g.objects[i]? = some s ∨ (i = g.objects.length ∧ s.sessionId = g.nextSessionId) := by
    intro i s hs
    simp only [Gateway.accept, List.getElem?_append, List.getElem?_singleton] at hs
    split_ifs at hs with hlt hzero
    · exact Or.inl hs
    · cases hs
      have hlast := Nat.le_antisymm (Nat.le_of_sub_eq_zero hzero) (Nat.le_of_not_lt hlt)
      exact Or.inr ⟨hlast, rfl⟩
  have hne : ∀ (i : SessionRef) (s : Session η), g.objects[i]? = some s →
      s.sessionId ≠ g.nextSessionId := fun i s hs => hfresh s (List.mem_of_getElem? hs)
  refine ⟨fun i j s₁ s₂ hs₁ hs₂ heq => ?_, fun id hmem => ?_, fun s hs hmem => ?_, h.calls⟩
  · rcases hnew i s₁ hs₁ with hs₁ | ⟨rfl, hid₁⟩
    · rcases hnew j s₂ hs₂ with hs₂ | ⟨rfl, hid₂⟩
      · exact h.distinct i j s₁ s₂ hs₁ hs₂ heq
      · exact absurd (heq.trans hid₂) (hne i s₁ hs₁)
    · rcases hnew j s₂ hs₂ with hs₂ | ⟨rfl, -⟩
      · exact absurd (heq.symm.trans hid₁) (hne j s₂ hs₂)
      · rfl
  · obtain ⟨s, hs, hid⟩ := h.known id hmem
    exact ⟨s, List.mem_append_left _ hs, hid⟩
  · rcases List.mem_append.mp hs with hs | hs
    · exact h.quiet s hs hmem
    · -- The new session has no id of a closed one.
      cases List.mem_singleton.mp hs
      obtain ⟨s₀, hs₀, hid⟩ := h.known _ hmem
      exact absurd hid (hfresh s₀ hs₀)

theorem Quiet.post {t : ThreadId} (h : g.Quiet) (hstep : g.post t = some g') : g'.Quiet := by
  obtain ⟨ref, session, m, hsession, rfl⟩ := post_eq hstep
  have hid : ({ session with writer := session.writer.post m } : Session η).sessionId =
    session.sessionId := rfl
  refine h.update hsession hid rfl (fun _ hmem => Or.inl hmem) ?_ h.calls
  exact fun hmem => h.quiet session (List.mem_of_getElem? hsession) hmem

/-- One settled step keeps the law. -/
theorem Quiet.step {a : GatewayAction η} (h : g.Quiet) (hsettled : g.Settled a)
    (hstep : g.step a = some g') : g'.Quiet := by
  cases a with
  | accept =>
    cases hstep
    exact h.accept hsettled
  | registerHandler msgType handler =>
    cases hstep
    exact ⟨h.distinct, h.known, h.quiet, h.calls⟩
  | findSession t sessionId msg =>
    obtain ⟨sending, rfl⟩ := findSession_eq hstep
    exact ⟨h.distinct, h.known, h.quiet, h.calls⟩
  | post t => exact h.post hstep
  | session ref e =>
    obtain ⟨session, hsession, hstep⟩ := Option.bind_eq_some_iff.mp hstep
    exact h.sessionStep hsession (hsettled session hsession) hstep

/-! ## What a step that is not settled leads to -/

/-- A session with a failed write is closed. -/
def FailedClosed (g : Gateway η) : Prop :=
  ∀ session ∈ g.objects, session.writer.failed = true → session.sessionId ∈ g.closed

/-- A session that changes keeps the law if it is closed when a write of it has failed. -/
theorem FailedClosed.update (h : g.FailedClosed)
    (hobjects : g'.objects = g.objects.set ref session')
    (hclosed : ∀ id ∈ g.closed, id ∈ g'.closed)
    (hfailed : session'.writer.failed = true → session'.sessionId ∈ g'.closed) :
    g'.FailedClosed := by
  intro s hs
  rw [hobjects] at hs
  rcases List.mem_or_eq_of_mem_set hs with hs | rfl
  · exact fun hsfailed => hclosed _ (h s hs hsfailed)
  · exact hfailed

/-- A read chain that goes on does not touch the writes. -/
theorem FailedClosed.update_read (h : g.FailedClosed) (hsession : g.objects[ref]? = some session)
    (read : ReadChain η) : (g.update ref { session with read }).FailedClosed :=
  h.update rfl (fun _ hmem => hmem) (h session (List.mem_of_getElem? hsession))

theorem FailedClosed.onSessionClosed (h : g.FailedClosed) (id : UInt64) :
    (g.onSessionClosed id).FailedClosed :=
  fun s hs hfailed => List.mem_append_left _ (h s hs hfailed)

theorem FailedClosed.sessionStep {e : SessionEvent} (h : g.FailedClosed)
    (hsession : g.objects[ref]? = some session) (hstep : g.sessionStep ref session e = some g') :
    g'.FailedClosed := by
  cases e with
  | readDone bytes =>
    rcases readDone_eq hstep with ⟨-, rfl⟩ | ⟨length, -, rfl⟩
    · unfold Gateway.headerDone
      split
      · exact (h.update_read hsession _).onSessionClosed _
      · exact h.update_read hsession _
    · unfold Gateway.bodyDone
      split
      · exact h.update_read hsession _
      · exact h.update_read hsession _
  | readFailed =>
    rw [readFailed_eq hstep]
    exact (h.update_read hsession _).onSessionClosed _
  | callHandler =>
    obtain ⟨handler, msg, -, rfl⟩ := callHandler_eq hstep
    exact h.update_read hsession .running
  | handlerReturned =>
    obtain ⟨-, rfl⟩ := handlerReturned_eq hstep
    exact h.update_read hsession _
  | write a =>
    obtain ⟨writer, hwriter, ⟨-, rfl⟩ | ⟨hother, rfl⟩⟩ := write_eq hstep
    -- A write that fails closes the session at once.
    · refine h.update rfl (fun _ hmem => List.mem_append_left _ hmem) fun _ => ?_
      exact List.mem_append_right _ (List.mem_singleton_self _)
    · refine h.update rfl (fun _ hmem => hmem) fun hfailed => ?_
      -- The write went well, so if one has failed it was before.
      have hbefore := ((SessionThreads.failed_iff hwriter).mp hfailed).resolve_right hother
      exact h session (List.mem_of_getElem? hsession) hbefore

theorem FailedClosed.step {a : GatewayAction η} (h : g.FailedClosed) (hstep : g.step a = some g') :
    g'.FailedClosed := by
  cases a with
  | accept =>
    cases hstep
    intro s hs hfailed
    rcases List.mem_append.mp hs with hs | hs
    · exact h s hs hfailed
    · cases List.mem_singleton.mp hs
      cases hfailed
  | registerHandler msgType handler =>
    cases hstep
    exact h
  | findSession t sessionId msg =>
    obtain ⟨sending, rfl⟩ := findSession_eq hstep
    exact h
  | post t =>
    obtain ⟨ref, session, m, hsession, rfl⟩ := post_eq hstep
    refine h.update rfl (fun _ hmem => hmem) fun hfailed => ?_
    exact h session (List.mem_of_getElem? hsession) hfailed
  | session ref e =>
    obtain ⟨session, hsession, hstep⟩ := Option.bind_eq_some_iff.mp hstep
    exact h.sessionStep hsession hstep

/-- A session that is about to call a handler although it is closed makes a call after its close. -/
theorem late_call {handler : η} {msg : Message} (hsession : g.objects[ref]? = some session)
    (hread : session.read = .calling handler msg) (hmem : session.sessionId ∈ g.closed) :
    ∃ g', g.step (.session ref .callHandler) = some g' ∧
      ∃ call ∈ g'.calls, call.afterClose = true := by
  have hcall : g.step (.session ref .callHandler) = some
      { g.update ref { session with read := .running } with
        calls := g.calls ++
          [⟨session.sessionId, handler, msg, decide (session.sessionId ∈ g.closed)⟩] } := by
    rw [Gateway.step, hsession, Option.bind_some, Gateway.sessionStep, hread]
  exact ⟨_, hcall, _, List.mem_append_right _ (List.mem_singleton_self _), decide_eq_true hmem⟩

/-- After an event that is not settled, the session is about to call a handler although it is
closed. -/
theorem late_of_not_settled {e : SessionEvent} (h : g.FailedClosed)
    (hsession : g.objects[ref]? = some session) (hsettled : ¬ g.EventSettled session e)
    (hstep : g.sessionStep ref session e = some g') :
    ∃ g'', g'.step (.session ref .callHandler) = some g'' ∧
      ∃ call ∈ g''.calls, call.afterClose = true := by
  obtain ⟨hlt, -⟩ := List.getElem?_eq_some_iff.mp hsession
  have hset : ∀ session', (g.objects.set ref session')[ref]? = some session' :=
    fun session' => List.getElem?_set_self hlt
  cases e with
  | readDone bytes =>
    simp only [EventSettled, not_forall] at hsettled
    -- The body of a message with a handler arrives after a write has failed: the handler is next.
    obtain ⟨hfailed, hbody, hhandler⟩ := hsettled
    have hclosed := h session (List.mem_of_getElem? hsession) hfailed
    rcases readDone_eq hstep with ⟨hread, -⟩ | ⟨length, -, rfl⟩
    · rw [hread] at hbody
      cases hbody
    · unfold Gateway.bodyDone
      cases hfound : onReceive g.handlers bytes with
      | none => exact absurd hfound hhandler
      | some handler => exact late_call (hset _) rfl hclosed
  | write a =>
    cases a with
    | writeFailed k =>
      obtain ⟨writer, -, rfl⟩ := Option.map_eq_some_iff.mp hstep
      cases hread : session.read with
      -- The write fails while the handler is about to be called, and closes the session before
      -- that.
      | calling handler msg =>
        exact late_call (hset _) rfl (List.mem_append_right _ (List.mem_singleton_self _))
      | reading phase => exact absurd (by rw [EventSettled, hread]; rfl) hsettled
      | running => exact absurd (by rw [EventSettled, hread]; rfl) hsettled
    | runSend t k => exact absurd trivial hsettled
    | advance t => exact absurd trivial hsettled
    | writeDone t k => exact absurd trivial hsettled
  | readFailed => exact absurd trivial hsettled
  | callHandler => exact absurd trivial hsettled
  | handlerReturned => exact absurd trivial hsettled

end Gateway

variable {η : Type*}

/-- In every run whose events are settled no handler is called with the id of a session that has been
closed before. In any run, an event that is not settled is followed by such a call as soon as the
session goes on. -/
theorem calls_before_close :
    (∀ g : Gateway η, (gatewaySystem η).ReachWhere Gateway.Settled g →
      ∀ call ∈ g.calls, call.afterClose = false) ∧
    ∀ (g g' : Gateway η) (ref : SessionRef) (e : SessionEvent), (gatewaySystem η).Reachable g →
      g.step (.session ref e) = some g' → ¬ g.Settled (.session ref e) →
      ∃ g'', g'.step (.session ref .callHandler) = some g'' ∧
        ∃ call ∈ g''.calls, call.afterClose = true := by
  constructor
  · intro g h
    have hinv : g.Quiet := by
      refine h.invariant ?_ fun g a g' hinv hsettled hstep => hinv.step hsettled hstep
      rintro g rfl
      exact ⟨fun _ _ _ _ => nofun, fun _ => nofun, fun _ => nofun, fun _ => nofun⟩
    exact hinv.calls
  · intro g g' ref e h hstep hsettled
    have hinv : g.FailedClosed := by
      refine h.invariant ?_ fun g a g' hinv _ hstep => hinv.step hstep
      rintro g rfl
      exact fun _ => nofun
    obtain ⟨session, hsession, hstep⟩ := Option.bind_eq_some_iff.mp hstep
    refine Gateway.late_of_not_settled hinv hsession (fun hevent => hsettled ?_) hstep
    intro session' hsession'
    cases hsession.symm.trans hsession'
    exact hevent

/-- Session 1 has sent a message and reads the body of a frame of length 4; handler 0 is registered
for type 7. -/
def sendWhileReading : List (GatewayAction ℕ) :=
  [.registerHandler 7 0, .accept, .session 0 (.readDone [4, 0, 0, 0]), .findSession 1 1 [9, 0, 0, 0],
    .post 1, .session 0 (.write (.runSend 2 0))] ++
    List.replicate 7 (.session 0 (.write (.advance 2)))

/-- The write fails and closes the session; then the read completes and the handler is called. -/
def writeErrorThenRead : List (GatewayAction ℕ) :=
  sendWhileReading ++ [.session 0 (.write (.writeFailed 0)), .session 0 (.readDone [7, 0, 0, 0]),
    .session 0 .callHandler]

theorem call_after_write_error :
    ∃ g, (gatewaySystem ℕ).run .initial writeErrorThenRead = some g ∧
      g.sessions.lookup 1 = none ∧ g.calls = [⟨1, 0, [7, 0, 0, 0], true⟩] :=
  ⟨_, rfl, rfl, rfl⟩

/-- `calls_before_close` for the same session when the read completes before the write fails. -/
theorem calls_before_close_readFirst :
    ∃ g, (gatewaySystem ℕ).runWhere Gateway.Settled .initial (sendWhileReading ++
        [.session 0 (.readDone [7, 0, 0, 0]), .session 0 .callHandler,
          .session 0 (.write (.writeFailed 0))]) = some g ∧
      g.calls = [⟨1, 0, [7, 0, 0, 0], false⟩] ∧ ∀ call ∈ g.calls, call.afterClose = false :=
  ⟨_, rfl, rfl, calls_before_close.1 _ (.of_runWhere (.init rfl) (sendWhileReading ++
    [.session 0 (.readDone [7, 0, 0, 0]), .session 0 .callHandler,
      .session 0 (.write (.writeFailed 0))]) rfl)⟩

end WasmHot
