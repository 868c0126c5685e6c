import WasmHot.Core.Words
import WasmHot.Lib.Transition

/-!
# The send queue of a session

A frame is the number of bytes of a message, as a `uint32_t`, and then the message, which begins
with its type. `Session::Send` posts a handler that appends the message to `send_queue_` and starts
the write chain unless one is in progress; `DoWrite` takes one message off the queue, frames it and
hands the frame to `async_write`, whose completion calls `DoWrite` again.

Here the handlers of a session run one at a time. When the chain stops the wire carries exactly the
frames of the messages sent, in order (`wire_eq_of_idle`).
-/

namespace WasmHot

/-- A message as the gateway passes it on: its type, least significant byte first, and a payload. -/
abbrev Message := List UInt8

/-- The `framed` vector of `DoWrite`. The length is cast from `size_t`. -/
def frame (msg : Message) : List UInt8 :=
  storeU32 (UInt32.ofNat msg.length) ++ msg

@[simp] theorem length_frame (msg : Message) : (frame msg).length = msg.length + 4 := by
  rw [frame, List.length_append, length_storeU32, Nat.add_comm]

/-! ## The write chain -/

/-- The members of a `Session` that its write chain uses. -/
structure SessionWriter where
  sendQueue : List Message
  sendInProgress : Bool
  /-- The buffer of the outstanding `async_write`. -/
  writing : Option (List UInt8)
  deriving DecidableEq

namespace SessionWriter

/-- A new session. -/
def new : SessionWriter where
  sendQueue := []
  sendInProgress := false
  writing := none

/-- `DoWrite`. -/
def doWrite (w : SessionWriter) : SessionWriter :=
  match w.sendQueue with
  | [] => { w with sendInProgress := false }
  -- `asio::buffer(framed)` is taken before `framed` moves into the handler. C++ leaves the order of
  -- these two arguments open; the compiler of the repository, clang, goes from left to right.
  | msg :: rest => { w with sendQueue := rest, writing := some (frame msg) }

/-- The handler that `Send` posts. -/
def send (msg : Message) (w : SessionWriter) : SessionWriter :=
  if w.sendInProgress then { w with sendQueue := w.sendQueue ++ [msg] }
  else doWrite { w with sendQueue := w.sendQueue ++ [msg], sendInProgress := true }

theorem doWrite_of_nil {w : SessionWriter} (h : w.sendQueue = []) :
    w.doWrite = { w with sendInProgress := false } := by
  rw [doWrite, h]

theorem doWrite_of_cons {w : SessionWriter} {msg : Message} {rest : List Message}
    (h : w.sendQueue = msg :: rest) :
    w.doWrite = { w with sendQueue := rest, writing := some (frame msg) } := by
  rw [doWrite, h]

theorem send_of_busy {msg : Message} {w : SessionWriter} (h : w.sendInProgress = true) :
    w.send msg = { w with sendQueue := w.sendQueue ++ [msg] } :=
  if_pos h

theorem send_of_idle {msg : Message} {w : SessionWriter} (h : w.sendInProgress = false) :
    w.send msg = doWrite { w with sendQueue := w.sendQueue ++ [msg], sendInProgress := true } :=
  if_neg (by simp [h])

end SessionWriter

/-- What happens to the write chain of a session. -/
inductive WriterEvent
  /-- A handler that `Send` posted runs. -/
  | send (msg : Message)
  /-- The outstanding `async_write` completes. -/
  | writeDone
  /-- The outstanding `async_write` fails. -/
  | writeFailed
  deriving DecidableEq

namespace SessionWriter

/-- One event. A completion calls `DoWrite` again and a failure does not. -/
def step (w : SessionWriter) : WriterEvent → Option SessionWriter
  | .send msg => some (w.send msg)
  | .writeDone => if w.writing.isSome then some (doWrite { w with writing := none }) else none
  | .writeFailed => if w.writing.isSome then some { w with writing := none } else none

end SessionWriter

/-- The write chain of one session, its handlers run one at a time. -/
def writerSystem : TransitionSystem SessionWriter WriterEvent where
  Init w := w = .new
  step := SessionWriter.step

/-- What was sent and what went out. -/
structure WriterHistory where
  sent : List Message
  wire : List UInt8

/-- A completed `async_write` has emitted its buffer. -/
def WriterHistory.record (h : WriterHistory) (w : SessionWriter) : WriterEvent → WriterHistory
  | .send msg => { h with sent := h.sent ++ [msg] }
  | .writeDone => { h with wire := h.wire ++ w.writing.getD [] }
  | .writeFailed => h

/-- The write chain with its history. -/
abbrev recordedWriter : TransitionSystem (SessionWriter × WriterHistory) WriterEvent :=
  writerSystem.withHistory (fun _ => ⟨[], []⟩) WriterHistory.record

theorem reachable_new : recordedWriter.Reachable (.new, ⟨[], []⟩) :=
  .init ⟨rfl, rfl⟩

/-- A chain at rest has written everything that was sent; one at work has written all but the frame
it is writing and the frames of the queue. -/
structure Drains (w : SessionWriter) (h : WriterHistory) : Prop where
  idle : w.sendInProgress = false →
    w.sendQueue = [] ∧ w.writing = none ∧ h.wire = h.sent.flatMap frame
  busy : ∀ bytes, w.writing = some bytes →
    w.sendInProgress = true ∧ h.wire ++ bytes ++ w.sendQueue.flatMap frame = h.sent.flatMap frame

/-- `DoWrite` is called with the flag set, no write outstanding and the frames of the queue owed. -/
theorem Drains.doWrite {w : SessionWriter} {h : WriterHistory} (hflag : w.sendInProgress = true)
    (hnone : w.writing = none)
    (hwire : h.wire ++ w.sendQueue.flatMap frame = h.sent.flatMap frame) :
    Drains w.doWrite h := by
  obtain ⟨queue, flag, writing⟩ := w
  dsimp only at hflag hnone hwire
  subst hflag hnone
  cases queue with
  | nil =>
    rw [List.flatMap_nil, List.append_nil] at hwire
    exact ⟨fun _ => ⟨rfl, rfl, hwire⟩, fun bytes hbytes => by cases hbytes⟩
  | cons msg rest =>
    rw [List.flatMap_cons, ← List.append_assoc] at hwire
    refine ⟨nofun, fun bytes hbytes => ⟨rfl, ?_⟩⟩
    cases hbytes
    exact hwire

/-- One event keeps the invariant. -/
theorem Drains.step {w w' : SessionWriter} {h : WriterHistory} {e : WriterEvent} (hI : Drains w h)
    (hstep : w.step e = some w') : Drains w' (h.record w e) := by
  cases e with
  | send msg =>
    cases hstep
    cases hflag : w.sendInProgress with
    | false =>
      obtain ⟨hqueue, hnone, hwire⟩ := hI.idle hflag
      rw [SessionWriter.send_of_idle hflag]
      apply Drains.doWrite
      · rfl
      · exact hnone
      · simp [hqueue, hwire, WriterHistory.record]
    | true =>
      rw [SessionWriter.send_of_busy hflag]
      refine ⟨fun hidle => absurd hidle (by simp [hflag]), fun bytes hbytes => ⟨hflag, ?_⟩⟩
      have hbusy := (hI.busy bytes hbytes).2
      simp only [WriterHistory.record, List.flatMap_append, ← List.append_assoc]
      rw [hbusy]
  | writeDone =>
    simp only [SessionWriter.step, Option.ite_none_right_eq_some, Option.some.injEq] at hstep
    obtain ⟨hsome, rfl⟩ := hstep
    obtain ⟨bytes, hbytes⟩ := Option.isSome_iff_exists.mp hsome
    obtain ⟨hflag, hbusy⟩ := hI.busy bytes hbytes
    apply Drains.doWrite
    · exact hflag
    · rfl
    · simpa [WriterHistory.record, hbytes] using hbusy
  | writeFailed =>
    simp only [SessionWriter.step, Option.ite_none_right_eq_some, Option.some.injEq] at hstep
    obtain ⟨hsome, rfl⟩ := hstep
    obtain ⟨bytes, hbytes⟩ := Option.isSome_iff_exists.mp hsome
    -- the flag stays set, so a chain that has failed owes nothing more
    have hflag := (hI.busy bytes hbytes).1
    exact ⟨fun hidle => absurd hidle (by simp [hflag]), fun _ hwriting => by cases hwriting⟩

theorem drains_of_reachable {p : SessionWriter × WriterHistory} (h : recordedWriter.Reachable p) :
    Drains p.1 p.2 := by
  refine h.invariant_withHistory ?_ ?_
  · rintro w rfl
    exact ⟨fun _ => ⟨rfl, rfl, rfl⟩, fun bytes hbytes => by cases hbytes⟩
  · intro w g e w' hI _ hstep
    exact hI.step hstep

/-- When no write is in progress, the wire carries the frames of what was sent. -/
theorem wire_eq_of_idle {p : SessionWriter × WriterHistory} (h : recordedWriter.Reachable p)
    (hidle : p.1.sendInProgress = false) : p.2.wire = p.2.sent.flatMap frame :=
  ((drains_of_reachable h).idle hidle).2.2

/-- Any messages can be sent and written to the last byte. -/
theorem exists_idle (msgs : List Message) : ∃ p, recordedWriter.Reachable p ∧ p.2.sent = msgs ∧
    p.1.sendInProgress = false := by
  induction msgs using List.reverseRecOn with
  | nil => exact ⟨_, reachable_new, rfl, rfl⟩
  | append_singleton msgs msg ih =>
    obtain ⟨⟨⟨queue, flag, writing⟩, ⟨sent, wire⟩⟩, hreach, rfl, hidle⟩ := ih
    obtain ⟨hqueue, -, -⟩ := (drains_of_reachable hreach).idle hidle
    dsimp only at hidle hqueue
    subst hidle hqueue
    exact ⟨_, .of_run hreach [.send msg, .writeDone] rfl, rfl, rfl⟩

end WasmHot
