import WasmHot.Gateway.SendQueue
import WasmHot.Lib.UnorderedMap

/-!
# The read chain of a session

`DoReadHeader` asks the socket for the four bytes of a length and `DoReadBody` for that many bytes,
which go to `OnReceive`. A length too small for a message type closes the session and ends the
chain. An `async_read` completes with exactly the bytes it asked for, whatever pieces they arrived
in, so the chain is a function of the bytes that have arrived (`readPieces_eq`).

A frame of the write chain is read as the message it was made from (`readStream_frame`), so a
stream of frames is read as the messages sent, up to the last byte.
-/

namespace WasmHot

/-- A frame length that `DoReadHeader` accepts: there is room for the message type. -/
abbrev FrameLength := { length : UInt32 // 4 ≤ length }

/-- What a session has asked the socket for. -/
inductive ReadPhase
  /-- `async_read` into `length_`. -/
  | header
  /-- `async_read` into `body_buf_`, which has the size of the length just read. -/
  | body (length : FrameLength)
  /-- Nothing: an error or a bad length has ended the chain. -/
  | stopped
  deriving DecidableEq

namespace ReadPhase

/-- The size of the buffer of the outstanding `async_read`. -/
def wants : ReadPhase → ℕ
  | header => 4
  | body length => length.1.toNat
  | stopped => 0

/-- The completion handlers of `DoReadHeader` and `DoReadBody` on the bytes read: what the session
asks for next and the messages it passes to `OnReceive`. -/
def complete : ReadPhase → List UInt8 → ReadPhase × List Message
  | header, bytes =>
      if h : loadU32 bytes < 4 then (stopped, [])
      else (body ⟨loadU32 bytes, UInt32.not_lt.mp h⟩, [])
  | body _, bytes => (header, [bytes])
  | stopped, _ => (stopped, [])

/-- A read that is outstanding asks for something. -/
theorem wants_pos {phase : ReadPhase} (h : phase ≠ stopped) : 0 < phase.wants := by
  cases phase with
  | header => decide
  | body length =>
    have hlength : 4 ≤ length.1.toNat := UInt32.le_iff_toNat_le.mp length.2
    exact Nat.lt_of_lt_of_le (by decide) hlength
  | stopped => exact absurd rfl h

end ReadPhase

/-- The type under which `OnReceive` looks for a handler; it drops a message that has none. -/
def msgType (msg : Message) : Option UInt32 :=
  if msg.length < 4 then none else some (loadU32 msg)

/-- `OnReceive`: the handler it calls with the message. -/
def onReceive {η : Type*} (handlers : UnorderedMap UInt32 η) (msg : Message) : Option η :=
  (msgType msg).bind fun type => handlers.lookup type

/-- A message is dispatched under the type that its sender put first. -/
theorem msgType_storeU32 (type : UInt32) (payload : List UInt8) :
    msgType (storeU32 type ++ payload) = some type := by
  have hlength : ¬ (storeU32 type ++ payload).length < 4 := by simp
  rw [msgType, if_neg hlength, loadU32_storeU32_append]

/-! ## Reading a stream -/

/-- How far a read chain gets: its phase, the messages passed to `OnReceive` and the bytes that no
read has taken. -/
structure ReadOutcome where
  phase : ReadPhase
  received : List Message
  rest : List UInt8
  deriving DecidableEq

/-- The outcome with messages received before. -/
def ReadOutcome.after (received : List Message) (outcome : ReadOutcome) : ReadOutcome :=
  { outcome with received := received ++ outcome.received }

/-- Complete one read after the other as long as the bytes last. -/
def readStream (phase : ReadPhase) (bytes : List UInt8) : ReadOutcome :=
  if _h : phase ≠ .stopped ∧ phase.wants ≤ bytes.length then
    let next := phase.complete (bytes.take phase.wants)
    (readStream next.1 (bytes.drop phase.wants)).after next.2
  else { phase, received := [], rest := bytes }
termination_by bytes.length
decreasing_by
  have hpos := ReadPhase.wants_pos _h.1
  rw [List.length_drop]
  omega

/-- A read whose bytes have arrived completes and the chain goes on. -/
theorem readStream_of_le {phase : ReadPhase} {bytes : List UInt8} (hphase : phase ≠ .stopped)
    (hlength : phase.wants ≤ bytes.length) :
    readStream phase bytes =
      (readStream (phase.complete (bytes.take phase.wants)).1 (bytes.drop phase.wants)).after
        (phase.complete (bytes.take phase.wants)).2 := by
  rw [readStream, dif_pos ⟨hphase, hlength⟩]

/-- A read that lacks bytes stays outstanding, and a chain that has stopped reads nothing. -/
theorem readStream_of_not {phase : ReadPhase} {bytes : List UInt8}
    (h : ¬ (phase ≠ .stopped ∧ phase.wants ≤ bytes.length)) :
    readStream phase bytes = { phase, received := [], rest := bytes } := by
  rw [readStream, dif_neg h]

@[simp] theorem ReadOutcome.after_nil (outcome : ReadOutcome) : outcome.after [] = outcome := rfl

@[simp] theorem ReadOutcome.after_after (xs ys : List Message) (outcome : ReadOutcome) :
    (outcome.after ys).after xs = outcome.after (xs ++ ys) := by
  simp [after]

/-- Bytes that arrive later are read from where the chain was waiting for them. -/
theorem readStream_append (phase : ReadPhase) (bytes more : List UInt8) :
    readStream phase (bytes ++ more) =
      (readStream (readStream phase bytes).phase ((readStream phase bytes).rest ++ more)).after
        (readStream phase bytes).received := by
  induction phase, bytes using readStream.induct with
  | case1 phase bytes h next ih =>
    have hmore : phase.wants ≤ (bytes ++ more).length := by
      rw [List.length_append]
      omega
    rw [readStream_of_le h.1 hmore, List.take_append_of_le_length h.2,
      List.drop_append_of_le_length h.2, ih, readStream_of_le h.1 h.2]
    exact ReadOutcome.after_after _ _ _
  | case2 phase bytes h =>
    rw [readStream_of_not h]
    rfl

/-- Read a stream that arrives in pieces, with `rest` left over from the pieces before. -/
def readPieces (phase : ReadPhase) (rest : List UInt8) : List (List UInt8) → ReadOutcome
  | [] => readStream phase rest
  | piece :: pieces =>
      let outcome := readStream phase rest
      (readPieces outcome.phase (outcome.rest ++ piece) pieces).after outcome.received

/-- How the stream is cut into pieces makes no difference. -/
theorem readPieces_eq (phase : ReadPhase) (rest : List UInt8) (pieces : List (List UInt8)) :
    readPieces phase rest pieces = readStream phase (rest ++ pieces.flatten) := by
  induction pieces generalizing phase rest with
  | nil => simp [readPieces]
  | cons piece pieces ih =>
    rw [readPieces, ih, List.flatten_cons, readStream_append phase rest, List.append_assoc]

/-! ## Frames -/

/-- A length with room for a type is accepted and the body asked for. -/
theorem readStream_header (length : FrameLength) (bytes : List UInt8) :
    readStream .header (storeU32 length.1 ++ bytes) = readStream (.body length) bytes := by
  have hbig : ¬ length.1 < 4 := UInt32.not_lt.mpr length.2
  have htake : (storeU32 length.1 ++ bytes).take 4 = storeU32 length.1 := rfl
  have hdrop : (storeU32 length.1 ++ bytes).drop 4 = bytes := rfl
  have hnext : ReadPhase.header.complete (storeU32 length.1) = (.body length, []) := by
    simp [ReadPhase.complete, hbig]
  rw [readStream_of_le (by decide) (by simp [ReadPhase.wants]), ReadPhase.wants, htake, hdrop,
    hnext, ReadOutcome.after_nil]

/-- A body of the length asked for goes to `OnReceive` and the next header is asked for. -/
theorem readStream_body {length : FrameLength} {msg : Message}
    (hlength : length.1.toNat = msg.length) (bytes : List UInt8) :
    readStream (.body length) (msg ++ bytes) = (readStream .header bytes).after [msg] := by
  have hwants : (ReadPhase.body length).wants = msg.length := hlength
  have henough : (ReadPhase.body length).wants ≤ (msg ++ bytes).length := by
    rw [hwants, List.length_append]
    exact Nat.le_add_right _ _
  have hreading : ReadPhase.body length ≠ .stopped := nofun
  rw [readStream_of_le hreading henough, hwants, List.take_left' rfl, List.drop_left' rfl]
  rfl

/-- A frame of the write chain is read as one message. -/
theorem readStream_frame {msg : Message} (hmin : 4 ≤ msg.length) (hmax : msg.length < 2 ^ 32)
    (bytes : List UInt8) :
    readStream .header (frame msg ++ bytes) = (readStream .header bytes).after [msg] := by
  have hcast : (UInt32.ofNat msg.length).toNat = msg.length := UInt32.toNat_ofNat_of_lt' hmax
  have hbig : 4 ≤ UInt32.ofNat msg.length := by
    rw [UInt32.le_iff_toNat_le, hcast]
    exact hmin
  rw [frame, List.append_assoc, readStream_header ⟨_, hbig⟩, readStream_body hcast]

/-- A stream of frames is read as the messages framed, and the reader ends at a frame boundary. -/
theorem readStream_frames {msgs : List Message}
    (hsize : ∀ msg ∈ msgs, 4 ≤ msg.length ∧ msg.length < 2 ^ 32) :
    readStream .header (msgs.flatMap frame) = { phase := .header, received := msgs, rest := [] } := by
  induction msgs with
  | nil => exact readStream_of_not (by simp [ReadPhase.wants])
  | cons msg msgs ih =>
    obtain ⟨hmin, hmax⟩ := hsize msg List.mem_cons_self
    have hrest := ih fun m hm => hsize m (List.mem_cons_of_mem _ hm)
    rw [List.flatMap_cons, readStream_frame hmin hmax, hrest]
    rfl

/-- The messages that a session sends are the messages that the session at the other end passes to
`OnReceive`, under their types: however the sends fall between the writes, once the write chain is
at rest, and however the stream is cut into pieces on its way. -/
theorem sent_messages_received (msgs : List Message)
    (hsize : ∀ msg ∈ msgs, 4 ≤ msg.length ∧ msg.length < 2 ^ 32) :
    (∃ p, recordedWriter.Reachable p ∧ p.2.sent = msgs ∧ p.1.sendInProgress = false) ∧
    (∀ p, recordedWriter.Reachable p → p.2.sent = msgs → p.1.sendInProgress = false →
      ∀ pieces : List (List UInt8), pieces.flatten = p.2.wire →
        readPieces .header [] pieces = { phase := .header, received := msgs, rest := [] }) ∧
    (∀ msg ∈ msgs, ∃ type payload, msg = storeU32 type ++ payload) ∧
    ∀ type payload, storeU32 type ++ payload ∈ msgs →
      msgType (storeU32 type ++ payload) = some type := by
  refine ⟨exists_idle msgs, ?_, ?_, fun type payload _ => msgType_storeU32 type payload⟩
  · intro p hreach hsent hidle pieces hcut
    rw [readPieces_eq, List.nil_append, hcut, wire_eq_of_idle hreach hidle, hsent]
    exact readStream_frames hsize
  · intro msg hmsg
    exact ⟨_, _, (storeU32_loadU32 (hsize msg hmsg).1).symm⟩

/-- Two messages, the second sent while the first is being written, their frames cut in the middle
of a length and of a type. -/
theorem two_messages_received :
    readPieces .header [] [[6, 0], [0, 0, 7, 0, 0, 0, 1, 2, 4, 0, 0, 0, 9], [0, 0, 0]] =
      { phase := .header, received := [[7, 0, 0, 0, 1, 2], [9, 0, 0, 0]], rest := [] } :=
  (sent_messages_received [[7, 0, 0, 0, 1, 2], [9, 0, 0, 0]] (by decide)).2.1 _
    (.of_run reachable_new
      [.send [7, 0, 0, 0, 1, 2], .send [9, 0, 0, 0], .writeDone, .writeDone] rfl)
    rfl rfl _ rfl

end WasmHot
