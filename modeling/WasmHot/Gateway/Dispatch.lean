import WasmHot.Gateway.SessionTable

/-!
# From frames to handler calls

A session reads a body, looks up the handler of its type and copies it, and calls the copy later.
In between, other threads register handlers and other sessions dispatch theirs.

`Dispatcher` says what the gateway is for: a frame that arrives is dispatched at once, to the handler
that was registered last. Each session makes the calls of the dispatcher, in order and each of them
once (`calls_as_dispatched`). With the handlers registered beforehand, the calls of a session are
those for the complete frames at the beginning of what its peer has sent (`calls_of_stream`).
-/

namespace WasmHot

variable {η : Type*}

/-! ## Dispatching at once -/

/-- What the gateway takes in. -/
inductive Intake (η : Type*)
  | registered (type : UInt32) (handler : η)
  | received (ref : SessionRef) (msg : Message)

/-- A gateway that calls handlers at once. -/
structure Dispatcher (η : Type*) where
  handlers : UInt32 → Option η
  calls : SessionRef → List (η × Message)

/-- A handler is registered, or a message is passed to the handler of its type. -/
def Dispatcher.take (d : Dispatcher η) : Intake η → Dispatcher η
  | .registered type handler =>
      { d with handlers := Function.update d.handlers type (some handler) }
  | .received ref msg =>
      match (msgType msg).bind d.handlers with
      | some handler =>
          { d with calls := Function.update d.calls ref (d.calls ref ++ [(handler, msg)]) }
      | none => d

/-- The dispatcher after it has taken in all of this. -/
def dispatched (log : List (Intake η)) : Dispatcher η :=
  log.foldl Dispatcher.take ⟨fun _ => none, fun _ => []⟩

theorem dispatched_concat (log : List (Intake η)) (intake : Intake η) :
    dispatched (log ++ [intake]) = (dispatched log).take intake := by
  rw [dispatched, List.foldl_append]
  rfl

/-! ## The calls of one session -/

/-- The call that the read chain has looked up and not made. -/
def ReadChain.pending : ReadChain η → List (η × Message)
  | .calling handler msg => [(handler, msg)]
  | _ => []

/-- The call of a message, if a handler is registered for its type. -/
def callOf (handlers : UnorderedMap UInt32 η) (msg : Message) : Option (η × Message) :=
  (onReceive handlers msg).map fun handler => (handler, msg)

namespace Gateway

variable {g g' : Gateway η} {ref : SessionRef} {session session' : Session η}
  {due : List (η × Message)} {a : GatewayAction η}

/-- The calls that were made with a session id. -/
def callsOf (g : Gateway η) (id : UInt64) : List (η × Message) :=
  (g.calls.filter fun call => call.sessionId = id).map fun call => (call.handler, call.msg)

/-- The messages that a session passes to `OnReceive` in a step. -/
def received (g : Gateway η) (ref : SessionRef) : GatewayAction η → List Message
  | .session ref' (.readDone bytes) =>
      if ref' = ref then
        match g.objects[ref]? with
        | some session => (session.read.phase.complete bytes).2
        | none => []
      else []
  | _ => []

/-- A session has made the calls that are due, but for the one it is about to make. -/
structure CallsDue (g : Gateway η) (ref : SessionRef) (due : List (η × Message)) : Prop where
  calls : ∀ session : Session η, g.objects[ref]? = some session →
    g.callsOf session.sessionId ++ session.read.pending = due
  start : g.objects[ref]? = none → due = []

/-- The handlers are called with the ids of sessions. -/
def CallsNumbered (g : Gateway η) : Prop :=
  ∀ call ∈ g.calls, ∃ i < g.objects.length, call.sessionId = sessionNumber i

/-- A session changes, makes some calls and perhaps owes another one. -/
theorem CallsDue.set (h : g.CallsDue ref due) (hsession : g.objects[ref]? = some session)
    (session' : Session η) (hobjects : g'.objects = g.objects.set ref session')
    (hid : session'.sessionId = session.sessionId) {made : List (HandlerCall η)}
    (hcalls : g'.calls = g.calls ++ made) (hmade : ∀ call ∈ made, call.sessionId = session.sessionId)
    {owed : List (η × Message)}
    (howed : session.read.pending ++ owed =
      made.map (fun call => (call.handler, call.msg)) ++ session'.read.pending) :
    g'.CallsDue ref (due ++ owed) := by
  obtain ⟨hlt, -⟩ := List.getElem?_eq_some_iff.mp hsession
  have hself : g'.objects[ref]? = some session' := by
    rw [hobjects, List.getElem?_set_self hlt]
  have hall : made.filter (fun call => call.sessionId = session.sessionId) = made :=
    List.filter_eq_self.mpr fun call hcall => decide_eq_true (hmade call hcall)
  refine ⟨fun s hs => ?_, fun hnone => ?_⟩
  · cases hself.symm.trans hs
    calc g'.callsOf session'.sessionId ++ session'.read.pending
        = g.callsOf session.sessionId ++
            (made.map (fun call => (call.handler, call.msg)) ++ session'.read.pending) := by
          rw [callsOf, hcalls, hid, List.filter_append, hall, List.map_append, List.append_assoc]
          rfl
      _ = g.callsOf session.sessionId ++ session.read.pending ++ owed := by
          rw [← howed, List.append_assoc]
      _ = due ++ owed := by rw [h.calls session hsession]
  · rw [hself] at hnone
    cases hnone

/-- A session that changes and keeps what it owes. -/
theorem CallsDue.keep (h : g.CallsDue ref due) (hsession : g.objects[ref]? = some session)
    (session' : Session η) (hobjects : g'.objects = g.objects.set ref session')
    (hid : session'.sessionId = session.sessionId) (hcalls : g'.calls = g.calls)
    (hpending : session'.read.pending = session.read.pending) :
    g'.CallsDue ref (due ++ []) := by
  have hnone : g'.calls = g.calls ++ [] := by rw [hcalls, List.append_nil]
  refine h.set hsession session' hobjects hid hnone nofun ?_
  rw [hpending, List.append_nil, List.map_nil, List.nil_append]

/-- Another session changes, and its calls have another id. -/
theorem CallsDue.other (h : g.CallsDue ref due) (hnumbered : g.Numbered)
    (hcount : g.objects.length ≤ 2 ^ 64) {ref' : SessionRef} (href : ref' ≠ ref)
    (hsession : g.objects[ref']? = some session) (session' : Session η)
    (hobjects : g'.objects = g.objects.set ref' session') {made : List (HandlerCall η)}
    (hcalls : g'.calls = g.calls ++ made)
    (hmade : ∀ call ∈ made, call.sessionId = session.sessionId) :
    g'.CallsDue ref due := by
  have hsame : g'.objects[ref]? = g.objects[ref]? := by
    rw [hobjects, List.getElem?_set_ne href]
  refine ⟨fun s hs => ?_, fun hnone => h.start (hsame.symm.trans hnone)⟩
  rw [hsame] at hs
  have hnone : made.filter (fun call => call.sessionId = s.sessionId) = [] := by
    refine List.filter_eq_nil_iff.mpr fun call hcall hid => href ?_
    have hlt := (List.getElem?_eq_some_iff.mp hsession).1.trans_le hcount
    have hlt' := (List.getElem?_eq_some_iff.mp hs).1.trans_le hcount
    refine sessionNumber_inj hlt hlt' ?_
    rw [← hnumbered.sessions ref' session hsession, ← hnumbered.sessions ref s hs,
      ← hmade call hcall]
    exact of_decide_eq_true hid
  rw [callsOf, hcalls, List.filter_append, hnone, List.append_nil]
  exact h.calls s hs

/-- An event of a session registers no handler, and makes calls with the id of the session only. -/
theorem sessionStep_calls {e : SessionEvent} (h : g.sessionStep ref session e = some g') :
    g'.handlers = g.handlers ∧ ∃ made, g'.calls = g.calls ++ made ∧
      ∀ call ∈ made, call.sessionId = session.sessionId := by
  have hsame : g'.handlers = g.handlers → g'.calls = g.calls → g'.handlers = g.handlers ∧
      ∃ made, g'.calls = g.calls ++ made ∧ ∀ call ∈ made, call.sessionId = session.sessionId :=
    fun hhandlers hcalls => ⟨hhandlers, [], by rw [hcalls, List.append_nil], nofun⟩
  cases e with
  | readDone bytes =>
    rcases readDone_eq h with ⟨-, rfl⟩ | ⟨length, -, rfl⟩
    · unfold headerDone at hsame ⊢
      split at hsame <;> exact hsame rfl rfl
    · unfold bodyDone at hsame ⊢
      split at hsame <;> exact hsame rfl rfl
  | readFailed =>
    rw [readFailed_eq h] at hsame ⊢
    exact hsame rfl rfl
  | callHandler =>
    obtain ⟨handler, msg, -, rfl⟩ := callHandler_eq h
    refine ⟨rfl, _, rfl, fun call hcall => ?_⟩
    rw [List.mem_singleton.mp hcall]
  | handlerReturned =>
    obtain ⟨-, rfl⟩ := handlerReturned_eq h
    exact hsame rfl rfl
  | write b =>
    obtain ⟨writer, -, ⟨-, rfl⟩ | ⟨-, rfl⟩⟩ := write_eq h
    · exact hsame rfl rfl
    · exact hsame rfl rfl

/-- A header is passed to nobody. -/
theorem complete_header (bytes : List UInt8) : (ReadPhase.header.complete bytes).2 = [] := by
  by_cases hsmall : loadU32 bytes < 4
  · rw [ReadPhase.complete, dif_pos hsmall]
  · rw [ReadPhase.complete, dif_neg hsmall]

/-- The session reads a header or a body. A body becomes due if its type has a handler. -/
theorem CallsDue.readDone (h : g.CallsDue ref due) (hsession : g.objects[ref]? = some session)
    {bytes : List UInt8} (hstep : g.sessionStep ref session (.readDone bytes) = some g') :
    g'.CallsDue ref
      (due ++ (session.read.phase.complete bytes).2.filterMap (callOf g.handlers)) := by
  rcases readDone_eq hstep with ⟨hread, rfl⟩ | ⟨length, hread, rfl⟩
  · have hpending : session.read.pending = [] := by rw [hread]; rfl
    rw [hread, show (ReadChain.reading ReadPhase.header : ReadChain η).phase = .header from rfl,
      complete_header, List.filterMap_nil]
    unfold headerDone
    split
    · exact h.keep hsession { session with read := .reading .stopped } rfl rfl rfl hpending.symm
    · exact h.keep hsession { session with read := .reading (ReadPhase.header.complete bytes).1 }
        rfl rfl rfl hpending.symm
  · have hpending : session.read.pending = [] := by rw [hread]; rfl
    rw [hread, show ((ReadChain.reading (.body length) : ReadChain η).phase.complete bytes).2 =
      [bytes] from rfl, List.filterMap_cons, callOf, List.filterMap_nil]
    unfold bodyDone
    cases onReceive g.handlers bytes with
    | some handler =>
      have hnone : (g.update ref { session with read := .calling handler bytes }).calls =
          g.calls ++ [] := (List.append_nil _).symm
      refine h.set hsession { session with read := .calling handler bytes } rfl rfl hnone nofun ?_
      rw [hpending]
      rfl
    | none =>
      exact h.keep hsession { session with read := .reading .header } rfl rfl rfl hpending.symm

/-- One step adds the calls of the messages that the session has passed to `OnReceive`. -/
theorem CallsDue.sessionStep (h : g.CallsDue ref due) (hsession : g.objects[ref]? = some session)
    {e : SessionEvent} (hstep : g.sessionStep ref session e = some g') :
    g'.CallsDue ref (due ++ (g.received ref (.session ref e)).filterMap (callOf g.handlers)) := by
  cases e with
  | readDone bytes =>
    simp only [received, if_true, hsession]
    exact h.readDone hsession hstep
  | readFailed =>
    have hphase := (readFailed_spec hstep).1
    rw [readFailed_eq hstep]
    refine h.keep hsession { session with read := .reading .stopped } rfl rfl rfl ?_
    cases hread : session.read with
    | reading phase => rfl
    | calling handler msg =>
      simp only [Gateway.sessionStep, hread] at hstep
      cases hstep
    | running => rfl
  | callHandler =>
    obtain ⟨handler, msg, hread, rfl⟩ := callHandler_eq hstep
    refine h.set hsession { session with read := .running } rfl rfl rfl ?_ ?_
    · exact fun call hcall => by rw [List.mem_singleton.mp hcall]
    · rw [hread]
      rfl
  | handlerReturned =>
    obtain ⟨hread, rfl⟩ := handlerReturned_eq hstep
    exact h.keep hsession { session with read := .reading .header } rfl rfl rfl (by rw [hread]; rfl)
  | write b =>
    obtain ⟨writer, -, ⟨-, rfl⟩ | ⟨-, rfl⟩⟩ := write_eq hstep
    · exact h.keep hsession { session with writer } rfl rfl rfl rfl
    · exact h.keep hsession { session with writer } rfl rfl rfl rfl

/-- A new session has made no calls. -/
theorem CallsDue.accept (h : g.CallsDue ref due) (hnumbered : g.Numbered)
    (hcalls : g.CallsNumbered) (hcount : g.objects.length < 2 ^ 64) :
    g.accept.CallsDue ref due := by
  constructor
  · intro s hs
    simp only [Gateway.accept, List.getElem?_append, List.getElem?_singleton] at hs
    split_ifs at hs with hlt hzero
    · exact h.calls s hs
    · cases hs
      rw [h.start (List.getElem?_eq_none (Nat.not_lt.mp hlt))]
      refine (List.append_nil _).trans (List.map_eq_nil_iff.mpr ?_)
      refine List.filter_eq_nil_iff.mpr fun call hcall hid => ?_
      obtain ⟨i, hi, hnumber⟩ := hcalls call hcall
      have hsame : sessionNumber i = sessionNumber g.objects.length := by
        rw [← hnumber, ← hnumbered.next]
        exact of_decide_eq_true hid
      exact hi.ne (sessionNumber_inj (hi.trans hcount) hcount hsame)
  · intro hnone
    refine h.start ?_
    simp only [Gateway.accept, List.getElem?_eq_none_iff, List.length_append] at hnone
    exact List.getElem?_eq_none (Nat.le_of_add_right_le hnone)

theorem CallsDue.step (h : g.CallsDue ref due) (hnumbered : g.Numbered) (hcalls : g.CallsNumbered)
    (hcount : g'.objects.length ≤ 2 ^ 64) (hstep : g.step a = some g') :
    g'.CallsDue ref (due ++ (g.received ref a).filterMap (callOf g.handlers)) := by
  have hbefore := (length_objects_le hstep).trans hcount
  cases a with
  -- No bytes are received, so nothing new is due.
  | accept =>
    cases hstep
    rw [show g.received ref .accept = [] from rfl, List.filterMap_nil,
      List.append_nil]
    refine h.accept hnumbered hcalls ?_
    simp only [Gateway.accept, List.length_append, List.length_singleton] at hcount
    omega
  | registerHandler type handler =>
    cases hstep
    rw [show g.received ref (.registerHandler type handler) = [] from rfl, List.filterMap_nil,
      List.append_nil]
    exact ⟨h.calls, h.start⟩
  | findSession t sessionId msg =>
    obtain ⟨sending, rfl⟩ := findSession_eq hstep
    rw [show g.received ref (.findSession t sessionId msg) = [] from rfl, List.filterMap_nil,
      List.append_nil]
    exact ⟨h.calls, h.start⟩
  | post t =>
    obtain ⟨ref', session, m, hsession, rfl⟩ := post_eq hstep
    -- A `DoSend` receives nothing, whichever session it is of.
    by_cases href : ref' = ref
    · subst href
      exact h.keep hsession { session with writer := session.writer.post m } rfl rfl rfl rfl
    · rw [show g.received ref (.post t) = [] from rfl, List.filterMap_nil, List.append_nil]
      exact h.other hnumbered hbefore href hsession { session with writer := session.writer.post m }
        rfl (List.append_nil _).symm (by simp)
  | session ref' e =>
    obtain ⟨session, hsession, hstep⟩ := Option.bind_eq_some_iff.mp hstep
    by_cases href : ref' = ref
    · subst href
      exact h.sessionStep hsession hstep
    -- Bytes that another session reads are not received here.
    · have hnothing : g.received ref (.session ref' e) = [] := by
        cases e with
        | readDone bytes => exact if_neg href
        | _ => rfl
      obtain ⟨⟨session', hobjects, -⟩, -⟩ := sessionStep_spec hstep
      obtain ⟨-, made, hmade, hids⟩ := sessionStep_calls hstep
      rw [hnothing, List.filterMap_nil, List.append_nil]
      exact h.other hnumbered hbefore href hsession session' hobjects hmade hids

theorem CallsNumbered.step (h : g.CallsNumbered) (hnumbered : g.Numbered)
    (hstep : g.step a = some g') : g'.CallsNumbered := by
  have hlength := length_objects_le hstep
  have hold : ∀ call ∈ g.calls, ∃ i < g'.objects.length, call.sessionId = sessionNumber i := by
    intro call hcall
    obtain ⟨i, hi, hnumber⟩ := h call hcall
    exact ⟨i, hi.trans_le hlength, hnumber⟩
  cases a with
  | accept =>
    cases hstep
    exact hold
  | registerHandler type handler =>
    cases hstep
    exact hold
  | findSession t sessionId msg =>
    obtain ⟨sending, rfl⟩ := findSession_eq hstep
    exact hold
  | post t =>
    obtain ⟨ref', session, m, -, rfl⟩ := post_eq hstep
    exact hold
  | session ref e =>
    obtain ⟨session, hsession, hstep⟩ := Option.bind_eq_some_iff.mp hstep
    obtain ⟨-, made, hmade, hids⟩ := sessionStep_calls hstep
    obtain ⟨hlt, -⟩ := List.getElem?_eq_some_iff.mp hsession
    intro call hcall
    rw [hmade] at hcall
    rcases List.mem_append.mp hcall with hcall | hcall
    · exact hold call hcall
    · refine ⟨ref, hlt.trans_le hlength, ?_⟩
      rw [hids call hcall, hnumbered.sessions ref session hsession]

end Gateway

/-! ## The calls of a run -/

/-- The messages that arrive and the handlers that are registered, in order. -/
def intake (log : List (Intake η)) (g : Gateway η) : GatewayAction η → List (Intake η)
  | .registerHandler type handler => log ++ [.registered type handler]
  | .session ref e => log ++ (g.received ref (.session ref e)).map (.received ref)
  | _ => log

/-- The gateway with what it has taken in. -/
abbrev recordedIntake (η : Type*) : TransitionSystem (Gateway η × List (Intake η)) (GatewayAction η) :=
  (gatewaySystem η).withHistory (fun _ => []) intake

/-- What a session has passed to `OnReceive` is at most one message per step. -/
theorem Gateway.received_eq (g : Gateway η) (ref : SessionRef) (a : GatewayAction η) :
    g.received ref a = [] ∨ ∃ msg, g.received ref a = [msg] := by
  unfold received
  split
  · split_ifs
    · split
      · next session _ =>
        cases session.read.phase with
        | header => exact .inl (complete_header _)
        | body length => exact .inr ⟨_, rfl⟩
        | stopped => exact .inl rfl
      · exact .inl rfl
    · exact .inl rfl
  · exact .inl rfl

/-- The dispatcher has the handlers of the gateway. -/
def SameHandlers (g : Gateway η) (log : List (Intake η)) : Prop :=
  ∀ type, (dispatched log).handlers type = g.handlers.lookup type

theorem Dispatcher.take_none {d : Dispatcher η} {ref : SessionRef} {msg : Message}
    (h : (msgType msg).bind d.handlers = none) : d.take (.received ref msg) = d := by
  simp only [take, h]

theorem Dispatcher.take_some {d : Dispatcher η} {ref : SessionRef} {msg : Message} {handler : η}
    (h : (msgType msg).bind d.handlers = some handler) :
    d.take (.received ref msg) =
      { d with calls := Function.update d.calls ref (d.calls ref ++ [(handler, msg)]) } := by
  simp only [take, h]

/-- A message that is received registers no handler, and makes one call of its session due if its
type has one. -/
theorem Dispatcher.take_received {d : Dispatcher η} {handlers : UnorderedMap UInt32 η}
    (h : ∀ type, d.handlers type = handlers.lookup type) (ref ref' : SessionRef) (msg : Message) :
    (d.take (.received ref' msg)).handlers = d.handlers ∧
      (d.take (.received ref' msg)).calls ref =
        d.calls ref ++ if ref' = ref then [msg].filterMap (callOf handlers) else [] := by
  have hsame : onReceive handlers msg = (msgType msg).bind d.handlers := by
    rw [onReceive]
    exact congrArg _ (funext fun type => (h type).symm)
  rw [List.filterMap_cons, List.filterMap_nil, callOf, hsame]
  cases hfound : (msgType msg).bind d.handlers with
  | none =>
    rw [take_none hfound]
    refine ⟨rfl, ?_⟩
    split <;> exact (List.append_nil _).symm
  | some handler =>
    rw [take_some hfound]
    refine ⟨rfl, ?_⟩
    by_cases href : ref' = ref
    · subst href
      rw [if_pos rfl]
      exact Function.update_self ..
    · rw [if_neg href, List.append_nil]
      exact Function.update_of_ne (Ne.symm href) ..

/-- What one step adds to the calls of the dispatcher. -/
theorem intake_calls {g : Gateway η} {log : List (Intake η)} (h : SameHandlers g log)
    (ref : SessionRef) (a : GatewayAction η) :
    (dispatched (intake log g a)).calls ref =
      (dispatched log).calls ref ++ (g.received ref a).filterMap (callOf g.handlers) := by
  cases a with
  | session ref' e =>
    have hother : ref' ≠ ref → g.received ref (.session ref' e) = [] := by
      intro href
      cases e with
      | readDone bytes => exact if_neg href
      | _ => rfl
    unfold intake
    dsimp only
    rcases g.received_eq ref' (.session ref' e) with hnone | ⟨msg, hmsg⟩
    · rw [hnone, List.map_nil, List.append_nil]
      by_cases href : ref' = ref
      · rw [← href, hnone, List.filterMap_nil, List.append_nil]
      · rw [hother href, List.filterMap_nil, List.append_nil]
    · rw [hmsg, List.map_singleton, dispatched_concat, (Dispatcher.take_received h ref ref' msg).2]
      by_cases href : ref' = ref
      · rw [if_pos href, ← href, hmsg]
      · rw [if_neg href, hother href, List.filterMap_nil]
  | registerHandler type handler =>
    unfold intake
    dsimp only
    rw [dispatched_concat]
    exact (List.append_nil _).symm
  | accept => exact (List.append_nil _).symm
  | findSession t sessionId msg => exact (List.append_nil _).symm
  | post t => exact (List.append_nil _).symm

theorem SameHandlers.step {g g' : Gateway η} {log : List (Intake η)} {a : GatewayAction η}
    (h : SameHandlers g log) (hstep : g.step a = some g') : SameHandlers g' (intake log g a) := by
  cases a with
  | registerHandler type handler =>
    cases hstep
    intro type'
    unfold intake
    dsimp only
    rw [dispatched_concat, UnorderedMap.lookup_insert]
    by_cases htype : type' = type
    · rw [if_pos htype, htype]
      exact Function.update_self ..
    · rw [if_neg htype, ← h type']
      exact Function.update_of_ne htype ..
  | accept =>
    cases hstep
    exact h
  | findSession t sessionId msg =>
    obtain ⟨sending, rfl⟩ := Gateway.findSession_eq hstep
    exact h
  | post t =>
    obtain ⟨ref, session, m, -, rfl⟩ := Gateway.post_eq hstep
    exact h
  | session ref e =>
    obtain ⟨session, -, hstep⟩ := Option.bind_eq_some_iff.mp hstep
    intro type
    rw [(Gateway.sessionStep_calls hstep).1, ← h type]
    unfold intake
    dsimp only
    rcases g.received_eq ref (.session ref e) with hnone | ⟨msg, hmsg⟩
    · rw [hnone, List.map_nil, List.append_nil]
    · rw [hmsg, List.map_singleton, dispatched_concat,
        (Dispatcher.take_received h ref ref msg).1]

/-- Every session makes the calls of the dispatcher. -/
structure AsDispatched (g : Gateway η) (log : List (Intake η)) : Prop where
  numbered : g.Numbered
  callsNumbered : g.CallsNumbered
  handlers : SameHandlers g log
  due : g.objects.length ≤ 2 ^ 64 → ∀ ref, g.CallsDue ref ((dispatched log).calls ref)

theorem AsDispatched.step {g g' : Gateway η} {log : List (Intake η)} {a : GatewayAction η}
    (h : AsDispatched g log) (hstep : g.step a = some g') : AsDispatched g' (intake log g a) where
  numbered := h.numbered.step hstep
  callsNumbered := h.callsNumbered.step h.numbered hstep
  handlers := h.handlers.step hstep
  due hcount ref := by
    rw [intake_calls h.handlers]
    have hbefore := (Gateway.length_objects_le hstep).trans hcount
    exact (h.due hbefore ref).step h.numbered h.callsNumbered hcount hstep

theorem asDispatched_of_reachable {p : Gateway η × List (Intake η)}
    (h : (recordedIntake η).Reachable p) : AsDispatched p.1 p.2 := by
  refine h.invariant_withHistory ?_ fun g log a g' hI _ hstep => hI.step hstep
  rintro g rfl
  exact ⟨⟨rfl, fun _ _ => nofun⟩, nofun, fun _ => rfl, fun _ ref => ⟨nofun, fun _ => rfl⟩⟩

/-- However the sessions, the registrations and the handlers interleave, a session has called the
handlers that a dispatcher without any delay calls for it, each call once and in this order, except
for the call that it is about to make; and there are no calls but those. -/
theorem calls_as_dispatched {p : Gateway η × List (Intake η)} (h : (recordedIntake η).Reachable p)
    (hcount : p.1.objects.length ≤ 2 ^ 64) :
    (∀ (ref : SessionRef) (session : Session η), p.1.objects[ref]? = some session →
      p.1.callsOf session.sessionId ++ session.read.pending = (dispatched p.2).calls ref) ∧
    ∀ call ∈ p.1.calls, ∃ (ref : SessionRef) (session : Session η),
      p.1.objects[ref]? = some session ∧ call.sessionId = session.sessionId := by
  have hinv := asDispatched_of_reachable h
  refine ⟨fun ref session hsession => (hinv.due hcount ref).calls session hsession, ?_⟩
  intro call hcall
  obtain ⟨ref, hlt, hnumber⟩ := hinv.callsNumbered call hcall
  have hsession : p.1.objects[ref]? = some p.1.objects[ref] := List.getElem?_eq_getElem hlt
  exact ⟨ref, _, hsession, hnumber.trans (hinv.numbered.sessions ref _ hsession).symm⟩

/-- The handler of a type is replaced between two frames, and the first call is still to be made. -/
def replacedBetween : List (GatewayAction ℕ) :=
  [.registerHandler 7 0, .accept, .session 0 (.readDone [4, 0, 0, 0]),
    .session 0 (.readDone [7, 0, 0, 0]), .registerHandler 7 1, .session 0 .callHandler,
    .session 0 .handlerReturned, .session 0 (.readDone [4, 0, 0, 0]),
    .session 0 (.readDone [7, 0, 0, 0])]

/-- The first frame goes to the handler that was registered when it arrived. -/
theorem calls_as_dispatched_replacedBetween :
    ∃ p, (recordedIntake ℕ).run (.initial, []) replacedBetween = some p ∧
      p.1.calls.map (fun call => call.handler) = [0] ∧
      (∀ (ref : SessionRef) (session : Session ℕ), p.1.objects[ref]? = some session →
        p.1.callsOf session.sessionId ++ session.read.pending = (dispatched p.2).calls ref) ∧
      (dispatched p.2).calls 0 = [(0, [7, 0, 0, 0]), (1, [7, 0, 0, 0])] := by
  have hinitial : (recordedIntake ℕ).Reachable (.initial, []) := .init ⟨rfl, rfl⟩
  refine ⟨_, rfl, rfl, (calls_as_dispatched (hinitial.of_run replacedBetween rfl) ?_).1, rfl⟩
  exact show 1 ≤ 2 ^ 64 by decide

/-! ## From the stream to the calls -/

/-- Handlers are registered before the session is accepted. -/
def HandlersFirst (ref : SessionRef) (p : Gateway η × ReadLog) : GatewayAction η → Prop
  | .registerHandler _ _ => p.1.objects.length ≤ ref
  | _ => True

instance (ref : SessionRef) (p : Gateway η × ReadLog) : DecidablePred (HandlersFirst ref p)
  | .accept => inferInstanceAs (Decidable True)
  | .registerHandler _ _ => inferInstanceAs (Decidable (_ ≤ _))
  | .findSession _ _ _ => inferInstanceAs (Decidable True)
  | .post _ => inferInstanceAs (Decidable True)
  | .session _ _ => inferInstanceAs (Decidable True)

/-- The log of a session grows by what it passes to `OnReceive`. -/
theorem ReadLog.record_received (log : ReadLog) (ref : SessionRef) (g : Gateway η)
    (a : GatewayAction η) : (log.record ref g a).received = log.received ++ g.received ref a := by
  cases a with
  | session ref' e =>
    cases e with
    | readDone bytes =>
      simp only [record, Gateway.received]
      split_ifs
      · cases g.objects[ref]? with
        | some session => rfl
        | none => exact (List.append_nil _).symm
      · exact (List.append_nil _).symm
    | _ => exact (List.append_nil _).symm
  | _ => exact (List.append_nil _).symm

/-- What was passed to `OnReceive` is a beginning of what the stream gives. -/
theorem ReadsStream.received_prefix {stream : List UInt8} {ref : SessionRef} {g : Gateway η}
    {log : ReadLog} {session : Session η} (h : ReadsStream stream ref g log)
    (hsession : g.objects[ref]? = some session) :
    log.received <+: (readStream .header stream).received := by
  by_cases hphase : session.read.phase = .stopped
  · rw [(h.stopped session hsession hphase).1]
  · obtain ⟨later, hlater⟩ := h.taken
    rw [h.received_eq hsession hphase hlater]
    exact List.prefix_append _ _

/-- The calls of a session are those of the messages it has passed to `OnReceive`. -/
structure CallsReceived (stream : List UInt8) (ref : SessionRef) (g : Gateway η) (log : ReadLog) :
    Prop where
  numbered : g.Numbered
  callsNumbered : g.CallsNumbered
  reads : ReadsStream stream ref g log
  due : g.objects.length ≤ 2 ^ 64 →
    g.CallsDue ref (log.received.filterMap (callOf g.handlers))

theorem CallsReceived.step {stream : List UInt8} {ref : SessionRef} {g g' : Gateway η}
    {log : ReadLog} {a : GatewayAction η} (h : CallsReceived stream ref g log)
    (hstream : FromStream stream ref (g, log) a) (hfirst : HandlersFirst ref (g, log) a)
    (hstep : g.step a = some g') : CallsReceived stream ref g' (log.record ref g a) where
  numbered := h.numbered.step hstep
  callsNumbered := h.callsNumbered.step h.numbered hstep
  reads := h.reads.step hstream hstep
  due hcount := by
    have hbefore := (Gateway.length_objects_le hstep).trans hcount
    have hdue := (h.due hbefore).step h.numbered h.callsNumbered hcount hstep
    rw [ReadLog.record_received, List.filterMap_append]
    have hsame : g'.handlers = g.handlers →
        g'.CallsDue ref (log.received.filterMap (callOf g'.handlers) ++
          (g.received ref a).filterMap (callOf g'.handlers)) := by
      intro hhandlers
      rwa [hhandlers]
    cases a with
    | registerHandler type handler =>
      -- The session is not there yet and has received nothing.
      have hlog : log = ⟨[], []⟩ := h.reads.start (List.getElem?_eq_none hfirst)
      rw [hlog] at hdue ⊢
      exact hdue
    | accept =>
      cases hstep
      exact hsame rfl
    | findSession t sessionId msg =>
      obtain ⟨sending, rfl⟩ := Gateway.findSession_eq hstep
      exact hsame rfl
    | post t =>
      obtain ⟨ref', session, m, -, rfl⟩ := Gateway.post_eq hstep
      exact hsame rfl
    | session ref' e =>
      obtain ⟨session, -, hstep⟩ := Option.bind_eq_some_iff.mp hstep
      exact hsame (Gateway.sessionStep_calls hstep).1

/-- From the bytes of the peer to the handlers: if they are registered first, the handlers called
for a session are those of the complete frames at the beginning of what its peer sends, in order and
each once, and all of them when the read chain has stopped. -/
theorem calls_of_stream {stream : List UInt8} {ref : SessionRef} {p : Gateway η × ReadLog}
    (h : (recordedReader η ref).ReachWhere
      (fun p a => FromStream stream ref p a ∧ HandlersFirst ref p a) p)
    (hcount : p.1.objects.length ≤ 2 ^ 64) {session : Session η}
    (hsession : p.1.objects[ref]? = some session) :
    ∃ front bodies, LongestFrames stream front bodies ∧
      p.1.callsOf session.sessionId ++ session.read.pending <+:
        bodies.filterMap (callOf p.1.handlers) ∧
      (session.read = .reading .stopped →
        p.1.callsOf session.sessionId = bodies.filterMap (callOf p.1.handlers)) := by
  have hinv : CallsReceived stream ref p.1 p.2 := by
    refine h.invariant_withHistory ?_ fun g log a g' hI hC hstep => hI.step hC.1 hC.2 hstep
    rintro g rfl
    refine ⟨⟨rfl, fun _ _ => nofun⟩, nofun, ⟨fun _ => rfl, List.nil_prefix, nofun, nofun⟩, fun _ => ?_⟩
    exact ⟨nofun, fun _ => rfl⟩
  obtain ⟨front, hlongest⟩ := readStream_longest stream
  have hcalls := (hinv.due hcount).calls session hsession
  refine ⟨front, _, hlongest, ?_, fun hstop => ?_⟩
  · rw [hcalls]
    exact (hinv.reads.received_prefix hsession).filterMap _
  · have hphase : session.read.phase = .stopped := by rw [hstop]; rfl
    rw [← (hinv.reads.stopped session hsession hphase).1, ← hcalls, hstop]
    exact (List.append_nil _).symm

/-- A session reads `cutStream` to its end and dispatches the frame in it. -/
def readCutStream : List (GatewayAction ℕ) :=
  [.registerHandler 7 5, .accept, .session 0 (.readDone [4, 0, 0, 0]),
    .session 0 (.readDone [7, 0, 0, 0]), .session 0 .callHandler, .session 0 .handlerReturned,
    .session 0 .readFailed]

theorem calls_of_stream_readCutStream :
    ∃ p session, (recordedReader ℕ 0).runWhere
        (fun p a => FromStream cutStream 0 p a ∧ HandlersFirst 0 p a) (.initial, ⟨[], []⟩)
        readCutStream = some p ∧
      p.1.objects[0]? = some session ∧ p.1.callsOf session.sessionId = [(5, [7, 0, 0, 0])] ∧
      ∃ front bodies, LongestFrames cutStream front bodies ∧
        p.1.callsOf session.sessionId ++ session.read.pending <+:
          bodies.filterMap (callOf p.1.handlers) ∧
        (session.read = .reading .stopped →
          p.1.callsOf session.sessionId = bodies.filterMap (callOf p.1.handlers)) := by
  refine ⟨_, ⟨1, .reading .stopped, .new⟩, rfl, rfl, rfl, ?_⟩
  refine @calls_of_stream ℕ cutStream 0 _
    (.of_runWhere recordedReader_initial readCutStream rfl) ?_ ⟨1, .reading .stopped, .new⟩ rfl
  exact show 1 ≤ 2 ^ 64 by decide

end WasmHot
