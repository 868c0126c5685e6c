import WasmHot.Gateway.Session

/-!
# The grammar of frames

The protocol of the gateway is a grammar: a stream consists of frames, a frame of a length that is
at least 4 and of a body of that many bytes. `Frames` is this grammar by itself, without a reader.

The reader takes the longest beginning of a stream that the grammar derives and gives its bodies
(`readStream_longest`). `DoWrite` writes in the grammar only what has room for a message type and
fits a `uint32_t`; `Gateway::Send` takes messages of any size (`sent_frame_legal_iff`).
-/

namespace WasmHot

/-! ## Derivations -/

/-- The bytes are complete frames with these bodies. -/
inductive Frames : List UInt8 → List Message → Prop
  | nil : Frames [] []
  | cons {length : FrameLength} {body : Message} {bytes : List UInt8} {bodies : List Message}
      (hlength : length.1.toNat = body.length) (hrest : Frames bytes bodies) :
      Frames (storeU32 length.1 ++ body ++ bytes) (body :: bodies)

namespace Frames

variable {bytes bytes' : List UInt8} {bodies bodies' : List Message}

/-- The frame of a body is the one that `DoWrite` makes of it. -/
theorem frame_eq {length : FrameLength} {body : Message}
    (hlength : length.1.toNat = body.length) : frame body = storeU32 length.1 ++ body := by
  rw [frame, ← hlength, UInt32.ofNat_toNat]

/-- To frame the bodies again gives the bytes. -/
theorem flatMap_frame (h : Frames bytes bodies) : bodies.flatMap frame = bytes := by
  induction h with
  | nil => rfl
  | cons hlength _ ih => rw [List.flatMap_cons, ih, frame_eq hlength]

/-- A reader at the front of complete frames takes their bodies. -/
theorem readStream_append (h : Frames bytes bodies) (later : List UInt8) :
    readStream .header (bytes ++ later) = (readStream .header later).after bodies := by
  induction h with
  | nil => rw [List.nil_append, ReadOutcome.after_nil]
  | cons hlength _ ih =>
    rw [List.append_assoc, List.append_assoc, readStream_header, readStream_body hlength, ih,
      ReadOutcome.after_after, List.singleton_append]

theorem append (h : Frames bytes bodies) (h' : Frames bytes' bodies') :
    Frames (bytes ++ bytes') (bodies ++ bodies') := by
  induction h with
  | nil => exact h'
  | cons hlength _ ih =>
    rw [List.append_assoc]
    exact .cons hlength ih

end Frames

/-! ## The longest beginning that the grammar derives -/

/-- `front` is the longest beginning of the stream that consists of complete frames. -/
structure LongestFrames (stream front : List UInt8) (bodies : List Message) : Prop where
  front_le : front <+: stream
  frames : Frames front bodies
  longest : ∀ front' bodies', front' <+: stream → Frames front' bodies' →
    front'.length ≤ front.length

/-- A header that is cut off stays outstanding. -/
theorem readStream_short {bytes : List UInt8} (h : bytes.length < 4) :
    readStream .header bytes = { phase := .header, received := [], rest := bytes } :=
  readStream_of_not fun hboth => Nat.not_le.mpr h hboth.2

/-- A length without room for a type ends the chain. -/
theorem readStream_bad {length : UInt32} (h : length < 4) (bytes : List UInt8) :
    readStream .header (storeU32 length ++ bytes) =
      { phase := .stopped, received := [], rest := bytes } := by
  have htake : (storeU32 length ++ bytes).take 4 = storeU32 length := rfl
  have hdrop : (storeU32 length ++ bytes).drop 4 = bytes := rfl
  have hnext : ReadPhase.header.complete (storeU32 length) = (.stopped, []) := by
    simp [ReadPhase.complete, h]
  rw [readStream_of_le (by decide) (by simp [ReadPhase.wants]), ReadPhase.wants, htake, hdrop,
    hnext, readStream_of_not (fun hboth => hboth.1 rfl), ReadOutcome.after_nil]

/-- Either a stream begins with a complete frame, or its reader receives nothing. -/
theorem readStream_received_eq_nil {stream : List UInt8}
    (h : ∀ (length : FrameLength) (body rest : List UInt8), length.1.toNat = body.length →
      stream ≠ storeU32 length.1 ++ body ++ rest) :
    (readStream .header stream).received = [] := by
  by_cases hheader : stream.length < 4
  · rw [readStream_short hheader]
  have hstream := storeU32_loadU32 (Nat.not_lt.mp hheader)
  by_cases hsmall : loadU32 stream < 4
  · rw [← hstream, readStream_bad hsmall]
  · obtain ⟨length, hlength⟩ : ∃ length : FrameLength, length.1 = loadU32 stream :=
      ⟨⟨_, UInt32.not_lt.mp hsmall⟩, rfl⟩
    rw [← hlength] at hstream
    rw [← hstream, readStream_header, readStream_of_not]
    rintro ⟨-, hbody⟩
    -- The body is all there, so the stream begins with a frame.
    refine h length ((stream.drop 4).take length.1.toNat)
      ((stream.drop 4).drop length.1.toNat) ?_ ?_
    · exact (List.length_take_of_le hbody).symm
    · rw [List.append_assoc, List.take_append_drop, hstream]

/-- The bodies that the reader receives are those of complete frames at the front of the stream. -/
theorem exists_frames (stream : List UInt8) :
    ∃ front rest, stream = front ++ rest ∧ Frames front (readStream .header stream).received := by
  -- One frame is read after the other, so the induction is on the bytes that are left.
  induction hn : stream.length using Nat.strong_induction_on generalizing stream with
  | _ n ih =>
    subst hn
    by_cases h : ∃ (length : FrameLength) (body rest : List UInt8),
        length.1.toNat = body.length ∧ stream = storeU32 length.1 ++ body ++ rest
    · obtain ⟨length, body, rest, hlength, rfl⟩ := h
      have hshorter : rest.length < (storeU32 length.1 ++ body ++ rest).length := by
        rw [List.length_append, List.length_append, length_storeU32]
        omega
      obtain ⟨front, rest', hrest, hframes⟩ := ih _ hshorter rest rfl
      refine ⟨storeU32 length.1 ++ body ++ front, rest', ?_, ?_⟩
      · conv_lhs => rw [hrest, ← List.append_assoc]
      · have hfirst : Frames (storeU32 length.1 ++ body ++ []) [body] := .cons hlength .nil
        rw [List.append_nil] at hfirst
        rw [hfirst.readStream_append]
        exact hfirst.append hframes
    · refine ⟨[], stream, rfl, ?_⟩
      rw [readStream_received_eq_nil fun length body rest hlength heq =>
        h ⟨length, body, rest, hlength, heq⟩]
      exact .nil

/-- The reader receives the bodies of the longest beginning of the stream that consists of complete
frames. -/
theorem readStream_longest (stream : List UInt8) :
    ∃ front, LongestFrames stream front (readStream .header stream).received := by
  obtain ⟨front, rest, hstream, hframes⟩ := exists_frames stream
  refine ⟨front, ⟨rest, hstream.symm⟩, hframes, ?_⟩
  rintro front' bodies' ⟨rest', hstream'⟩ hframes'
  -- What the grammar derives at the front is read first, so its bodies are received first.
  have hreceived : (readStream .header stream).received =
      bodies' ++ (readStream .header rest').received := by
    rw [← hstream', hframes'.readStream_append]
    rfl
  rw [← hframes'.flatMap_frame, ← hframes.flatMap_frame, hreceived, List.flatMap_append,
    List.length_append]
  exact Nat.le_add_right _ _

/-- A stream has one longest beginning of complete frames. -/
theorem LongestFrames.unique {stream front front' : List UInt8} {bodies bodies' : List Message}
    (h : LongestFrames stream front bodies) (h' : LongestFrames stream front' bodies') :
    front = front' ∧ bodies = bodies' := by
  have hlength := Nat.le_antisymm (h'.longest _ _ h.front_le h.frames)
    (h.longest _ _ h'.front_le h'.frames)
  have hfront : front = front' :=
    (List.prefix_of_prefix_length_le h.front_le h'.front_le hlength.le).eq_of_length hlength
  refine ⟨hfront, ?_⟩
  have hread := h.frames.readStream_append []
  rw [hfront, h'.frames.readStream_append, readStream_of_not (by decide)] at hread
  have hreceived := congrArg ReadOutcome.received hread
  simp only [ReadOutcome.after, List.append_nil] at hreceived
  exact hreceived.symm

/-! ## What the gateway sends -/

/-- The reader at the other end takes the buffer as one frame with this body, whatever comes after
it: the length is one it accepts, and is the number of bytes that follow. -/
structure LegalFrame (buffer : List UInt8) (body : Message) : Prop where
  accepted : 4 ≤ loadU32 buffer
  length : (loadU32 buffer).toNat = (buffer.drop 4).length
  read : ∀ later, readStream .header (buffer ++ later) = (readStream .header later).after [body]

/-- The frame of a message is legal if the message has room for a type and fits a `uint32_t`. -/
theorem legalFrame_iff (msg : Message) :
    LegalFrame (frame msg) msg ↔ 4 ≤ msg.length ∧ msg.length < 2 ^ 32 := by
  have hload : loadU32 (frame msg) = UInt32.ofNat msg.length := loadU32_storeU32_append _ _
  have hdrop : (frame msg).drop 4 = msg := rfl
  constructor
  · intro h
    have haccepted := h.accepted
    have hlength := h.length
    rw [hload, hdrop] at hlength
    rw [hload, UInt32.le_iff_toNat_le, hlength] at haccepted
    refine ⟨haccepted, ?_⟩
    rw [← hlength]
    exact UInt32.toNat_lt _
  · rintro ⟨hmin, hmax⟩
    have hcast : (UInt32.ofNat msg.length).toNat = msg.length := UInt32.toNat_ofNat_of_lt' hmax
    refine ⟨?_, ?_, readStream_frame hmin hmax⟩
    · rw [hload, UInt32.le_iff_toNat_le, hcast]
      exact hmin
    · rw [hload, hdrop, hcast]

variable {η : Type*} {g : Gateway η} {ref : SessionRef} {session : Session η}

/-- `Gateway::Send` posts a message of any size to a session that is open. -/
theorem Gateway.run_send {t : ThreadId} {sessionId : UInt64}
    (hopen : g.sessions.lookup sessionId = some ref) (hsession : g.objects[ref]? = some session)
    (hfree : g.sending.lookup t = none) (msg : Message) :
    ∃ g', (gatewaySystem η).run g [.findSession t sessionId msg, .post t] = some g' ∧
      g'.objects[ref]? = some { session with writer := session.writer.post ⟨t, msg⟩ } := by
  obtain ⟨hlt, -⟩ := List.getElem?_eq_some_iff.mp hsession
  obtain ⟨found, hfound⟩ : ∃ found : Gateway η,
      found = { g with sending := g.sending.insert t (ref, msg) } := ⟨_, rfl⟩
  obtain ⟨posted, hposted⟩ : ∃ posted : Gateway η, posted =
      { found.update ref { session with writer := session.writer.post ⟨t, msg⟩ } with
        sending := found.sending.erase t } := ⟨_, rfl⟩
  have hfind : (gatewaySystem η).step g (.findSession t sessionId msg) = some found := by
    show g.findSession t sessionId msg = _
    rw [Gateway.findSession, if_pos hfree, hopen, hfound]
  have hpost : (gatewaySystem η).step found (.post t) = some posted := by
    have hsending : found.sending.lookup t = some (ref, msg) := by
      rw [hfound, UnorderedMap.lookup_insert, if_pos rfl]
    have hobject : found.objects[ref]? = some session := by
      rw [hfound, hsession]
    show found.post t = _
    simp only [Gateway.post, hsending, hobject, Option.map_some, hposted]
  refine ⟨posted, ?_, ?_⟩
  · rw [TransitionSystem.run, hfind, Option.bind_some, TransitionSystem.run, hpost]
    rfl
  · rw [hposted, hfound]
    exact List.getElem?_set_self hlt

/-- `Gateway::Send` accepts every message for an open session, and the frame that `DoWrite` makes of
it is legal exactly when the message has room for a type and fits a `uint32_t`. -/
theorem sent_frame_legal_iff {t : ThreadId} {sessionId : UInt64}
    (hopen : g.sessions.lookup sessionId = some ref) (hsession : g.objects[ref]? = some session)
    (hfree : g.sending.lookup t = none) (msg : Message) :
    (∃ g' session', (gatewaySystem η).run g [.findSession t sessionId msg, .post t] = some g' ∧
      g'.objects[ref]? = some session' ∧
      session'.writer.posted = session.writer.posted ++ [⟨t, msg⟩]) ∧
    ∀ (w : SessionWriter) (rest : List Message), w.sendQueue = msg :: rest →
      ∃ buffer, w.doWrite.writing = some buffer ∧
        (LegalFrame buffer msg ↔ 4 ≤ msg.length ∧ msg.length < 2 ^ 32) := by
  constructor
  · obtain ⟨g', hrun, hposted⟩ := Gateway.run_send hopen hsession hfree msg
    exact ⟨g', _, hrun, hposted, rfl⟩
  · intro w rest hqueue
    refine ⟨frame msg, ?_, legalFrame_iff msg⟩
    rw [SessionWriter.doWrite_of_cons hqueue]

/-- A gateway with one session. -/
def oneSession : Gateway ℕ := Gateway.initial.accept

/-- `sent_frame_legal_iff` for a message that is a type and nothing else. -/
theorem bare_type_legal :
    LegalFrame (frame [7, 0, 0, 0]) [7, 0, 0, 0] := by
  have hopen : oneSession.sessions.lookup 1 = some 0 := rfl
  have hsession : oneSession.objects[0]? = some ⟨1, .reading .header, .new⟩ := rfl
  have hfree : oneSession.sending.lookup 1 = none := rfl
  have hsend := sent_frame_legal_iff hopen hsession hfree [7, 0, 0, 0]
  obtain ⟨buffer, hbuffer, hlegal⟩ := hsend.2 ⟨[[7, 0, 0, 0]], true, none⟩ [] rfl
  cases hbuffer
  exact hlegal.mpr (by decide)

/-- A message of three bytes is accepted, and its frame makes the other end close the connection. -/
theorem short_message_closes_peer :
    ∃ g, (gatewaySystem ℕ).run .initial [.accept, .findSession 1 1 [1, 2, 3], .post 1] = some g ∧
      (g.objects.map (·.writer.posted)) = [[⟨1, [1, 2, 3]⟩]] ∧
      (SessionWriter.send [1, 2, 3] .new).writing = some (frame [1, 2, 3]) ∧
      readStream .header (frame [1, 2, 3]) = ⟨.stopped, [], [1, 2, 3]⟩ ∧
      ¬ LegalFrame (frame [1, 2, 3]) [1, 2, 3] := by
  refine ⟨_, rfl, rfl, rfl, readStream_bad (by decide) _, fun hlegal => ?_⟩
  exact absurd hlegal.accepted (by decide)

end WasmHot
