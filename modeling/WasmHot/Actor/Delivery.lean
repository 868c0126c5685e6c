import WasmHot.Actor.ActorRuntime
import Mathlib.Data.List.Nodup

/-!
# Each message to one actor

The history numbers the `SendMessage` calls whose lookup finds an actor and follows the number of each
message through the mailbox and the batch of its actor to `HandleMessage`. It also keeps which actors
have been killed and not spawned again.

`Delivered` places every number: with the call, until the call has pushed it, and then in one of the
three lists of the actor that was registered at the lookup, once. `messages_delivered` puts this
together with what the mailbox guarantees.
-/

namespace WasmHot

/-- A `SendMessage` call that found an actor: its `to_id`, the registry at its lookup and the
message. -/
structure Send where
  toId : UInt64
  registered : UnorderedMap UInt64 ℕ
  msg : ActorMessage

/-- The actor registered under the id at the lookup. -/
def Send.target (send : Send) : Option ℕ := send.registered.lookup send.toId

/-- The numbers of the messages in an actor's mailbox and in its batch, of those that it has handled,
and the arguments of its `HandleMessage` calls. -/
structure InstanceHistory where
  mailbox : List ℕ
  batch : List ℕ
  handled : List ℕ
  handledMessages : List ActorMessage

namespace InstanceHistory

/-- All numbers that an actor has got, from the first handled to the last enqueued. -/
def all (h : InstanceHistory) : List ℕ := h.handled ++ h.batch ++ h.mailbox

/-- A message is pushed. -/
def push (h : InstanceHistory) (n : ℕ) : InstanceHistory :=
  { h with mailbox := h.mailbox ++ [n] }

/-- The strand takes a step. -/
def record (h : InstanceHistory) (a : Actor) : ActorAction → InstanceHistory
  | .swapMailbox => { h with mailbox := [], batch := h.mailbox }
  | .handleCall =>
      { h with
        batch := h.batch.tail
        handled := h.handled ++ h.batch.head?.toList
        handledMessages := h.handledMessages ++ a.batchRest.head?.toList }
  | _ => h

end InstanceHistory

/-- What has happened: the sends in the order of their lookups, which of them each thread is making,
the numbers at each actor, the actors that have been killed and not spawned since, those that had
been when a thread's call made its lookup, and for each actor that a call has reached, by a message
or a tick, which had been at that call's lookup. -/
structure RuntimeHistory where
  sends : List Send
  sendOf : ThreadId → ℕ
  instances : ℕ → InstanceHistory
  killed : List ℕ
  killedBefore : ThreadId → List ℕ
  reached : List (ℕ × List ℕ)

namespace RuntimeHistory

/-- Nothing has happened. -/
def start : RuntimeHistory :=
  ⟨[], fun _ => 0, fun _ => ⟨[], [], [], []⟩, [], fun _ => [], []⟩

/-- The actor is spawned. -/
def spawn (h : RuntimeHistory) (target : ℕ) : RuntimeHistory :=
  { h with killed := h.killed.filter (· ≠ target) }

/-- The actor under an id is killed, if there is one. -/
def kill (h : RuntimeHistory) (target : Option ℕ) : RuntimeHistory :=
  { h with killed := target.toList ++ h.killed }

/-- A call makes its lookup. -/
def look (h : RuntimeHistory) (t : ThreadId) : RuntimeHistory :=
  { h with killedBefore := Function.update h.killedBefore t h.killed }

/-- A `SendMessage` has found an actor. -/
def send (h : RuntimeHistory) (t : ThreadId) (send : Send) : RuntimeHistory :=
  { h.look t with
    sends := h.sends ++ [send]
    sendOf := Function.update h.sendOf t h.sends.length }

/-- A call reaches an actor. -/
def reach (h : RuntimeHistory) (t : ThreadId) (target : ℕ) : RuntimeHistory :=
  { h with reached := h.reached ++ [(target, h.killedBefore t)] }

/-- A `SendMessage` pushes its message. -/
def push (h : RuntimeHistory) (t : ThreadId) (target : ℕ) : RuntimeHistory :=
  { h.reach t target with
    instances := Function.update h.instances target ((h.instances target).push (h.sendOf t)) }

/-- Extend the history by one step. -/
def record (h : RuntimeHistory) (s : Runtime) : RuntimeAction → RuntimeHistory
  | .spawn target => h.spawn target
  | .kill actorId => h.kill (s.actors.lookup actorId)
  | .sendLookup t fromId toId payload =>
      if (s.actors.lookup toId).isSome then h.send t ⟨toId, s.actors, ⟨fromId, payload⟩⟩ else h
  | .enqueuePush t =>
      match s.calls.lookup t with
      | some (.sending target _) => h.push t target
      | _ => h
  | .tickSnapshot t _ _ => h.look t
  | .tickSchedule t =>
      match s.calls.lookup t with
      | some (.ticking _ (target :: _)) => h.reach t target
      | _ => h
  | .strand target action =>
      { h with
        instances := Function.update h.instances target
          ((h.instances target).record (s.instances target) action) }
  | _ => h

/-- The message of a number. -/
def msgOf (h : RuntimeHistory) (n : ℕ) : Option ActorMessage := (h.sends[n]?).map (·.msg)

/-- The numbers of earlier sends stay. -/
theorem getElem?_send {h : RuntimeHistory} {n : ℕ} {old : Send} (hold : h.sends[n]? = some old)
    (t : ThreadId) (send : Send) : (h.send t send).sends[n]? = some old := by
  have hlt := (List.getElem?_eq_some_iff.mp hold).1
  exact (List.getElem?_append_left hlt).trans hold

end RuntimeHistory

/-- All interleavings of the calls and strands of a runtime whose actors have the given ids. -/
def runtimeSystem (actorId : ℕ → UInt64) :
    TransitionSystem (Runtime × RuntimeHistory) RuntimeAction :=
  TransitionSystem.withHistory
    { Init := fun s => s = .start
      step := Runtime.step actorId }
    (fun _ => .start) RuntimeHistory.record

/-! ## The lists of one actor -/

/-- The numbers stand for the messages: those in the mailbox, in the batch and handled. -/
structure Carries (msgOf : ℕ → Option ActorMessage) (a : Actor) (h : InstanceHistory) : Prop where
  mailbox : a.mailbox.map some = h.mailbox.map msgOf
  batch : a.batchRest.map some = h.batch.map msgOf
  handled : h.handledMessages.map some = h.handled.map msgOf

namespace Carries

variable {msgOf : ℕ → Option ActorMessage} {a a' : Actor} {h : InstanceHistory}

/-- An empty list of messages has no numbers. -/
theorem eq_nil {messages : List ActorMessage} {numbers : List ℕ}
    (h : messages.map some = numbers.map msgOf) (hnil : messages = []) : numbers = [] := by
  rw [hnil] at h
  exact List.map_eq_nil_iff.mp h.symm

/-- Steps of the strand keep the numbers with their messages and neither add nor drop one. -/
theorem strandStep {action : ActorAction} (hc : Carries msgOf a h)
    (hstrand : action.OfStrand = true)
    (hstep : a.step action = some a') :
    Carries msgOf a' (h.record a action) ∧ (h.record a action).all = h.all := by
  cases action with
  | startTask index =>
    obtain ⟨task, hidle, -, rfl⟩ := Actor.startTask_eq hstep
    have hbatch := hc.batch
    simp only [Actor.batchRest, hidle] at hbatch
    exact ⟨⟨hc.mailbox, hbatch, hc.handled⟩, rfl⟩
  | swapMailbox =>
    obtain ⟨task, hentered, -, rfl⟩ := Actor.swapMailbox_eq hstep
    have hempty : h.batch = [] := eq_nil hc.batch (by simp [Actor.batchRest, hentered])
    refine ⟨⟨rfl, hc.mailbox, hc.handled⟩, ?_⟩
    simp [InstanceHistory.all, InstanceHistory.record, hempty]
  | handleCall =>
    obtain ⟨task, msg, batch, hdraining, rfl⟩ := Actor.handleCall_eq hstep
    have hbatch := hc.batch
    have hrest : a.batchRest = msg :: batch := by simp [Actor.batchRest, hdraining]
    rw [hrest] at hbatch
    -- the first of the batch and its number go together
    cases hnumbers : h.batch with
    | nil => simp [hnumbers] at hbatch
    | cons n numbers =>
      rw [hnumbers, List.map_cons, List.map_cons, List.cons.injEq] at hbatch
      refine ⟨⟨hc.mailbox, ?_, ?_⟩, ?_⟩
      · simp only [InstanceHistory.record, hnumbers, List.tail_cons]
        exact hbatch.2
      · simp only [InstanceHistory.record, hnumbers, hrest, List.head?_cons, Option.toList_some,
          List.map_append, hc.handled, List.map_cons, List.map_nil, ← hbatch.1]
      · simp [InstanceHistory.all, InstanceHistory.record, hnumbers]
  | handleReturn =>
    obtain ⟨strand, rfl, hrest, -⟩ := Actor.strandStep_eq (Or.inl hstep)
    exact ⟨⟨hc.mailbox, hrest ▸ hc.batch, hc.handled⟩, rfl⟩
  | batchDone =>
    obtain ⟨strand, rfl, hrest, -⟩ := Actor.strandStep_eq (Or.inr (Or.inl hstep))
    exact ⟨⟨hc.mailbox, hrest ▸ hc.batch, hc.handled⟩, rfl⟩
  | tickReturn =>
    obtain ⟨strand, rfl, hrest, -⟩ := Actor.strandStep_eq (Or.inr (Or.inr hstep))
    exact ⟨⟨hc.mailbox, hrest ▸ hc.batch, hc.handled⟩, rfl⟩
  | _ => cases hstrand

/-- A new send leaves the messages of the earlier numbers. -/
theorem mono {msgOf' : ℕ → Option ActorMessage} (hc : Carries msgOf a h)
    (hmsg : ∀ n msg, msgOf n = some msg → msgOf' n = some msg) : Carries msgOf' a h := by
  have hmap : ∀ (messages : List ActorMessage) (numbers : List ℕ),
      messages.map some = numbers.map msgOf → messages.map some = numbers.map msgOf' := by
    intro messages
    induction messages with
    | nil =>
      intro numbers hnumbers
      rw [eq_nil hnumbers rfl]
      rfl
    | cons msg messages ih =>
      intro numbers hnumbers
      cases numbers with
      | nil => simp at hnumbers
      | cons n numbers =>
        rw [List.map_cons, List.map_cons, List.cons.injEq] at hnumbers ⊢
        exact ⟨(hmsg n msg hnumbers.1.symm).symm, ih numbers hnumbers.2⟩
  exact ⟨hmap _ _ hc.mailbox, hmap _ _ hc.batch, hmap _ _ hc.handled⟩

/-- A push adds a message with its number. -/
theorem push (hc : Carries msgOf a h) {caller : Caller} {msg : ActorMessage} {n : ℕ}
    (hmsg : msgOf n = some msg) (hpush : a.enqueuePush caller msg = some a') :
    Carries msgOf a' (h.push n) := by
  obtain ⟨-, rfl⟩ := Actor.enqueuePush_eq hpush
  refine ⟨?_, hc.batch, hc.handled⟩
  simp only [InstanceHistory.push, List.map_append, hc.mailbox, List.map_cons, List.map_nil, hmsg]

end Carries

/-- Steps that leave the mailbox and the strand alone. -/
theorem Carries.of_eq {msgOf : ℕ → Option ActorMessage} {a a' : Actor} {h : InstanceHistory}
    (hc : Carries msgOf a h) (hmailbox : a'.mailbox = a.mailbox) (hstrand : a'.strand = a.strand) :
    Carries msgOf a' h := by
  refine ⟨hmailbox ▸ hc.mailbox, ?_, hc.handled⟩
  rw [Actor.batchRest, hstrand]
  exact hc.batch

/-! ## Mailboxes and mutexes -/

/-- At every actor the numbers stand for the messages and no wake-up is lost, and the thread that
holds its mutex is in its critical section. -/
structure Queues (s : Runtime) (h : RuntimeHistory) : Prop where
  carries : ∀ target, Carries h.msgOf (s.instances target) (h.instances target)
  covered : ∀ target, (s.instances target).Covered
  mutex : ∀ target caller phase, (s.instances target).mutex = some (caller, phase) →
    ∃ t, caller = .thread t ∧ s.calls.lookup t = some (.enqueuing target)

/-- Every number is with its call or, once, with the actor that was registered at its lookup. -/
structure Delivered (s : Runtime) (h : RuntimeHistory) : Prop where
  nodup : ∀ target, (h.instances target).all.Nodup
  owned : ∀ target n, n ∈ (h.instances target).all →
    ∃ send, h.sends[n]? = some send ∧ send.target = some target
  sending : ∀ t target msg, s.calls.lookup t = some (.sending target msg) →
    ∃ send, h.sends[h.sendOf t]? = some send ∧ send.target = some target ∧ send.msg = msg
  unpushed : ∀ t target msg, s.calls.lookup t = some (.sending target msg) →
    h.sendOf t ∉ (h.instances target).all
  distinct : ∀ t t' target target' msg msg', s.calls.lookup t = some (.sending target msg) →
    s.calls.lookup t' = some (.sending target' msg') → h.sendOf t = h.sendOf t' → t = t'
  accounted : ∀ n send, h.sends[n]? = some send → ∃ target, send.target = some target ∧
    (n ∈ (h.instances target).all ∨
      ∃ t msg, s.calls.lookup t = some (.sending target msg) ∧ h.sendOf t = n)

/-- A thread that goes from one place to another, neither of them a `SendMessage` that has yet to
push, leaves the calls that have. -/
theorem sending_iff {calls calls' : UnorderedMap ThreadId RuntimeCall} {t : ThreadId}
    {call : Option RuntimeCall}
    (hlookup : ∀ t', calls'.lookup t' = if t' = t then call else calls.lookup t')
    (hold : ∀ target msg, calls.lookup t ≠ some (.sending target msg))
    (hnew : ∀ target msg, call ≠ some (.sending target msg)) (t' : ThreadId) (target : ℕ)
    (msg : ActorMessage) : calls'.lookup t' = some (.sending target msg) ↔
      calls.lookup t' = some (.sending target msg) := by
  rw [hlookup]
  by_cases ht : t' = t
  · rw [if_pos ht, ht]
    exact iff_of_false (hnew target msg) (hold target msg)
  · rw [if_neg ht]

namespace Delivered

variable {s s' : Runtime} {h h' : RuntimeHistory}

/-- Steps that neither send nor push. -/
theorem frame (hd : Delivered s h)
    (hall : ∀ target, (h'.instances target).all = (h.instances target).all)
    (hsends : h'.sends = h.sends) (hsendOf : h'.sendOf = h.sendOf)
    (hcalls : ∀ t target msg, s'.calls.lookup t = some (.sending target msg) ↔
      s.calls.lookup t = some (.sending target msg)) : Delivered s' h' := by
  constructor
  · intro target
    rw [hall]
    exact hd.nodup target
  · intro target n hn
    rw [hall] at hn
    rw [hsends]
    exact hd.owned target n hn
  · intro t target msg hcall
    rw [hsends, hsendOf]
    exact hd.sending t target msg ((hcalls ..).mp hcall)
  · intro t target msg hcall
    rw [hall, hsendOf]
    exact hd.unpushed t target msg ((hcalls ..).mp hcall)
  · intro t t' target target' msg msg' hcall hcall'
    rw [hsendOf]
    exact hd.distinct t t' target target' msg msg' ((hcalls ..).mp hcall) ((hcalls ..).mp hcall')
  · intro n send hsend
    rw [hsends] at hsend
    obtain ⟨target, htarget, hplace⟩ := hd.accounted n send hsend
    refine ⟨target, htarget, ?_⟩
    rw [hall]
    rcases hplace with hin | ⟨t, msg, hcall, hn⟩
    · exact Or.inl hin
    · exact Or.inr ⟨t, msg, (hcalls ..).mpr hcall, hsendOf ▸ hn⟩

/-- All numbers in use are those of sends made before. -/
theorem lt_of_mem (hd : Delivered s h) {target n : ℕ} (hn : n ∈ (h.instances target).all) :
    n < h.sends.length := by
  obtain ⟨send, hsend, -⟩ := hd.owned target n hn
  exact (List.getElem?_eq_some_iff.mp hsend).1

/-- A `SendMessage` that finds an actor takes the next number. -/
theorem send (hd : Delivered s h) {t : ThreadId} {target : ℕ} (send : Send)
    (hidle : s.calls.lookup t = none) (htarget : send.target = some target) :
    Delivered (s.enter t (.sending target send.msg)) (h.send t send) := by
  -- After the step the sends in progress are the new one and the old ones of the other threads.
  have hcall : ∀ t' target' msg', (s.enter t (.sending target send.msg)).calls.lookup t' =
      some (.sending target' msg') →
        t' = t ∧ target' = target ∧ msg' = send.msg ∨
          t' ≠ t ∧ s.calls.lookup t' = some (.sending target' msg') := by
    intro t' target' msg' hlookup
    rw [Runtime.lookup_enter] at hlookup
    split at hlookup
    · next ht =>
      cases hlookup
      exact Or.inl ⟨ht, rfl, rfl⟩
    · next ht => exact Or.inr ⟨ht, hlookup⟩
  have hself : (h.send t send).sendOf t = h.sends.length := Function.update_self ..
  have hother : ∀ t', t' ≠ t → (h.send t send).sendOf t' = h.sendOf t' :=
    fun t' ht => Function.update_of_ne ht ..
  have hlast : (h.send t send).sends[h.sends.length]? = some send := List.getElem?_concat_length ..
  have hless : ∀ t' target' msg', s.calls.lookup t' = some (.sending target' msg') →
      h.sendOf t' < h.sends.length := by
    intro t' target' msg' hlookup
    obtain ⟨old, hold, -⟩ := hd.sending t' target' msg' hlookup
    exact (List.getElem?_eq_some_iff.mp hold).1
  constructor
  · exact hd.nodup
  · intro target' n hn
    obtain ⟨old, hold, htarget'⟩ := hd.owned target' n hn
    exact ⟨old, RuntimeHistory.getElem?_send hold t send, htarget'⟩
  · intro t' target' msg' hlookup
    obtain ⟨rfl, rfl, rfl⟩ | ⟨hne, hlookup⟩ := hcall t' target' msg' hlookup
    · rw [hself]
      exact ⟨send, hlast, htarget, rfl⟩
    · rw [hother t' hne]
      obtain ⟨old, hold, hrest⟩ := hd.sending t' target' msg' hlookup
      exact ⟨old, RuntimeHistory.getElem?_send hold t send, hrest⟩
  · intro t' target' msg' hlookup hin
    have hlt := hd.lt_of_mem hin
    obtain ⟨rfl, rfl, rfl⟩ | ⟨hne, hlookup⟩ := hcall t' target' msg' hlookup
    · rw [hself] at hlt
      exact absurd hlt (lt_irrefl _)
    · rw [hother t' hne] at hin
      exact hd.unpushed t' target' msg' hlookup hin
  -- Two sends with one number: the new number is larger than every old one.
  · intro t₁ t₂ target₁ target₂ msg₁ msg₂ h₁ h₂ heq
    obtain ⟨rfl, -, -⟩ | ⟨hne₁, hold₁⟩ := hcall t₁ target₁ msg₁ h₁
    · obtain ⟨rfl, -, -⟩ | ⟨hne₂, hold₂⟩ := hcall t₂ target₂ msg₂ h₂
      · rfl
      · rw [hself, hother t₂ hne₂] at heq
        exact absurd (hless t₂ target₂ msg₂ hold₂) (heq ▸ lt_irrefl _)
    · obtain ⟨rfl, -, -⟩ | ⟨hne₂, hold₂⟩ := hcall t₂ target₂ msg₂ h₂
      · rw [hself, hother t₁ hne₁] at heq
        exact absurd (hless t₁ target₁ msg₁ hold₁) (heq ▸ lt_irrefl _)
      · rw [hother t₁ hne₁, hother t₂ hne₂] at heq
        exact hd.distinct t₁ t₂ target₁ target₂ msg₁ msg₂ hold₁ hold₂ heq
  · intro n sent hsent
    rcases Nat.lt_or_ge n h.sends.length with hlt | hge
    · have hold : h.sends[n]? = some sent := (List.getElem?_append_left hlt).symm.trans hsent
      obtain ⟨target', htarget', hplace⟩ := hd.accounted n sent hold
      refine ⟨target', htarget', hplace.imp_right ?_⟩
      rintro ⟨t', msg', hlookup, hn⟩
      have hne : t' ≠ t := UnorderedMap.ne_of_lookup hlookup hidle
      refine ⟨t', msg', ?_, ?_⟩
      · rw [Runtime.lookup_enter, if_neg hne]
        exact hlookup
      · rw [hother t' hne]
        exact hn
    · -- the new number is with the call that has just taken it
      have hn : n = h.sends.length := by
        have hlen := (List.getElem?_eq_some_iff.mp hsent).1
        have hmore : (h.send t send).sends.length = h.sends.length + 1 := List.length_append ..
        omega
      subst hn
      obtain rfl : send = sent := Option.some.inj (hlast.symm.trans hsent)
      refine ⟨target, htarget, Or.inr ⟨t, send.msg, ?_, hself⟩⟩
      rw [Runtime.lookup_enter, if_pos rfl]

/-- A push hands the number over from the call to the actor. -/
theorem push (hd : Delivered s h) {t : ThreadId} {target : ℕ} {msg : ActorMessage}
    (hcall : s.calls.lookup t = some (.sending target msg))
    (hcalls : ∀ t', s'.calls.lookup t' =
      if t' = t then some (.enqueuing target) else s.calls.lookup t') :
    Delivered s' (h.push t target) := by
  have hall : ∀ other, ((h.push t target).instances other).all =
      if other = target then (h.instances target).all ++ [h.sendOf t]
      else (h.instances other).all := by
    intro other
    simp only [RuntimeHistory.push, Function.update_apply]
    split
    · simp [InstanceHistory.all, InstanceHistory.push]
    · rfl
  have hmem : ∀ other n, n ∈ ((h.push t target).instances other).all ↔
      n ∈ (h.instances other).all ∨ other = target ∧ n = h.sendOf t := by
    intro other n
    rw [hall]
    by_cases hother : other = target
    · simp [hother]
    · simp [hother]
  have hsending : ∀ t' target' msg', s'.calls.lookup t' = some (.sending target' msg') →
      t' ≠ t ∧ s.calls.lookup t' = some (.sending target' msg') := by
    intro t' target' msg' hlookup
    rw [hcalls] at hlookup
    split at hlookup
    · cases hlookup
    · next hne => exact ⟨hne, hlookup⟩
  constructor
  · intro other
    rw [hall]
    split
    · refine List.Nodup.append (hd.nodup target) (List.nodup_singleton _) ?_
      exact List.disjoint_singleton.mpr (hd.unpushed t target msg hcall)
    · exact hd.nodup other
  · intro other n hn
    rcases (hmem other n).mp hn with hn | ⟨rfl, rfl⟩
    · exact hd.owned other n hn
    · obtain ⟨send, hsend, htarget, -⟩ := hd.sending t other msg hcall
      exact ⟨send, hsend, htarget⟩
  · intro t' target' msg' hlookup
    exact hd.sending t' target' msg' (hsending t' target' msg' hlookup).2
  -- The number that has been pushed belongs to no other send in progress.
  · intro t' target' msg' hlookup hin
    obtain ⟨hne, hlookup⟩ := hsending t' target' msg' hlookup
    rcases (hmem target' _).mp hin with hin | ⟨-, heq⟩
    · exact hd.unpushed t' target' msg' hlookup hin
    · exact hne (hd.distinct t' t target' target msg' msg hlookup hcall heq)
  · intro t₁ t₂ target₁ target₂ msg₁ msg₂ h₁ h₂
    exact hd.distinct t₁ t₂ target₁ target₂ msg₁ msg₂ (hsending t₁ target₁ msg₁ h₁).2
      (hsending t₂ target₂ msg₂ h₂).2
  · intro n send hsend
    obtain ⟨target', htarget', hplace⟩ := hd.accounted n send hsend
    refine ⟨target', htarget', ?_⟩
    rw [hmem]
    rcases hplace with hin | ⟨t', msg', hlookup, hn⟩
    · exact Or.inl (Or.inl hin)
    -- The send of this thread is now in the mailbox; the others are where they were.
    · by_cases ht : t' = t
      · subst ht
        rw [hcall] at hlookup
        cases hlookup
        exact Or.inl (Or.inr ⟨rfl, hn.symm⟩)
      · refine Or.inr ⟨t', msg', ?_, hn⟩
        rw [hcalls, if_neg ht]
        exact hlookup

end Delivered

/-- A strand that runs its tasks leaves the mutex alone. -/
theorem Actor.mutex_of_strand {a a' : Actor} {action : ActorAction}
    (hstrand : action.OfStrand = true)
    (hstep : a.step action = some a') : a'.mutex = a.mutex := by
  cases action with
  | startTask index =>
    obtain ⟨_, -, -, rfl⟩ := Actor.startTask_eq hstep
    rfl
  | swapMailbox =>
    obtain ⟨_, -, -, rfl⟩ := Actor.swapMailbox_eq hstep
    rfl
  | handleCall =>
    obtain ⟨_, _, _, -, rfl⟩ := Actor.handleCall_eq hstep
    rfl
  | handleReturn =>
    obtain ⟨_, rfl, -, -⟩ := Actor.strandStep_eq (Or.inl hstep)
    rfl
  | batchDone =>
    obtain ⟨_, rfl, -, -⟩ := Actor.strandStep_eq (Or.inr (Or.inl hstep))
    rfl
  | tickReturn =>
    obtain ⟨_, rfl, -, -⟩ := Actor.strandStep_eq (Or.inr (Or.inr hstep))
    rfl
  | _ => cases hstrand

namespace Queues

variable {s s' : Runtime} {h h' : RuntimeHistory}

/-- Steps of no actor. -/
theorem frame (hq : Queues s h) (hinstances : s'.instances = s.instances)
    (hnumbers : h'.instances = h.instances)
    (hmsg : ∀ n msg, h.msgOf n = some msg → h'.msgOf n = some msg)
    (hcalls : ∀ t target, s.calls.lookup t = some (.enqueuing target) →
      s'.calls.lookup t = some (.enqueuing target)) : Queues s' h' := by
  constructor
  · intro target
    rw [hinstances, hnumbers]
    exact (hq.carries target).mono hmsg
  · intro target
    rw [hinstances]
    exact hq.covered target
  · intro target caller phase hmutex
    rw [hinstances] at hmutex
    obtain ⟨t, ht, hcall⟩ := hq.mutex target caller phase hmutex
    exact ⟨t, ht, hcalls t target hcall⟩

/-- A step of one actor. -/
theorem setActor (hq : Queues s h) {target : ℕ} {a : Actor} (action : ActorAction)
    (hstep : (s.instances target).step action = some a)
    (hinstances : ∀ other, s'.instances other = if other = target then a else s.instances other)
    (hnumbers : ∀ other, other ≠ target → h'.instances other = h.instances other)
    (hmsg : h'.msgOf = h.msgOf) (hcarries : Carries h.msgOf a (h'.instances target))
    (hmutex : ∀ caller phase, a.mutex = some (caller, phase) →
      ∃ t, caller = .thread t ∧ s'.calls.lookup t = some (.enqueuing target))
    (hcalls : ∀ t other, other ≠ target → s.calls.lookup t = some (.enqueuing other) →
      s'.calls.lookup t = some (.enqueuing other)) : Queues s' h' := by
  constructor
  · intro other
    rw [hinstances, hmsg]
    by_cases hother : other = target
    · rw [if_pos hother, hother]
      exact hcarries
    · rw [if_neg hother, hnumbers other hother]
      exact hq.carries other
  · intro other
    rw [hinstances]
    -- The other actors and their callers are as they were.
    split
    · exact (hq.covered target).step hstep
    · exact hq.covered other
  · intro other caller phase
    rw [hinstances]
    split
    · next hother =>
      rw [hother]
      exact hmutex caller phase
    · next hother =>
      intro hold
      obtain ⟨t, ht, hcall⟩ := hq.mutex other caller phase hold
      exact ⟨t, ht, hcalls t other hother hcall⟩

/-- Every step keeps the queues. -/
theorem step {actorId : ℕ → UInt64} {action : RuntimeAction} (hq : Queues s h) (hd : Delivered s h)
    (hstep : s.step actorId action = some s') : Queues s' (h.record s action) := by
  cases action with
  | spawn target =>
    cases hstep
    exact hq.frame rfl rfl (fun _ _ hmsg => hmsg) fun _ _ hcall => hcall
  | kill id =>
    cases hstep
    exact hq.frame rfl rfl (fun _ _ hmsg => hmsg) fun _ _ hcall => hcall
  | sendLookup t fromId toId payload =>
    obtain ⟨hidle, ⟨hnone, rfl⟩ | ⟨target, hfound, rfl⟩⟩ := Runtime.sendLookup_eq hstep
    · simp only [RuntimeHistory.record, hnone]
      exact hq
    · simp only [RuntimeHistory.record, hfound, Option.isSome_some, if_true]
      refine hq.frame rfl rfl ?_ fun t' other hcall => ?_
      · intro n msg hmsg
        obtain ⟨send, hsend, rfl⟩ := Option.map_eq_some_iff.mp hmsg
        exact congrArg (Option.map (·.msg)) (RuntimeHistory.getElem?_send hsend t _)
      · exact Runtime.lookup_enter_of_ne (by simp [hidle]) hcall
  -- The only step that puts a message into a queue: it takes its number along.
  | enqueuePush t =>
    obtain ⟨target, msg, a, hcall, hpush, rfl⟩ := Runtime.enqueuePush_eq hstep
    obtain ⟨send, hsend, -, rfl⟩ := hd.sending t target msg hcall
    simp only [RuntimeHistory.record, hcall]
    refine hq.setActor (.enqueuePush (.thread t) send.msg) hpush
      (fun other => Runtime.instances_setActor ..) (fun other hother => ?_) rfl ?_ ?_ ?_
    · exact Function.update_of_ne hother ..
    · have hnumber : h.msgOf (h.sendOf t) = some send.msg := by
        rw [RuntimeHistory.msgOf, hsend]
        rfl
      have hself : (h.push t target).instances target = (h.instances target).push (h.sendOf t) :=
        Function.update_self ..
      rw [hself]
      exact (hq.carries target).push hnumber hpush
    · intro caller phase hmutex
      obtain ⟨-, rfl⟩ := Actor.enqueuePush_eq hpush
      cases hmutex
      exact ⟨t, rfl, by rw [Runtime.lookup_enter, if_pos rfl]⟩
    · intro t' other _ hother
      have hnot : s.calls.lookup t ≠ some (.enqueuing other) := by simp [hcall]
      exact Runtime.lookup_enter_of_ne hnot hother
  | enqueuePost t =>
    obtain ⟨target, a, -, hpost, rfl⟩ := Runtime.enqueuePost_eq hstep
    refine hq.setActor .enqueuePost hpost (fun other => Runtime.instances_setActor ..)
      (fun _ _ => rfl) rfl ?_ ?_ fun _ _ _ hcall => hcall
    · obtain ⟨_, _, -, rfl⟩ := Actor.enqueuePost_eq hpost
      exact (hq.carries target).of_eq rfl rfl
    · intro caller phase hmutex
      obtain ⟨caller', wasEmpty, hold, rfl⟩ := Actor.enqueuePost_eq hpost
      cases hmutex
      exact hq.mutex target caller _ hold
  | enqueueUnlock t =>
    obtain ⟨target, a, hcall, hunlock, rfl⟩ := Runtime.enqueueUnlock_eq hstep
    obtain ⟨caller, -, rfl⟩ := Actor.enqueueUnlock_eq hunlock
    refine hq.setActor .enqueueUnlock hunlock
      (fun other => Runtime.instances_setActor ..) (fun _ _ => rfl) rfl
      ((hq.carries target).of_eq rfl rfl) nofun ?_
    intro t' other hne hother
    have hnot : s.calls.lookup t ≠ some (.enqueuing other) := by simp [hcall, Ne.symm hne]
    exact Runtime.lookup_leave_of_ne hnot hother
  | tickSnapshot t intervalMs order =>
    obtain ⟨hidle, -, rfl⟩ := Runtime.tickSnapshot_eq hstep
    refine hq.frame rfl rfl (fun _ _ hmsg => hmsg) fun t' other hcall => ?_
    exact Runtime.lookup_enter_of_ne (by simp [hidle]) hcall
  | tickSchedule t =>
    obtain ⟨intervalMs, target, rest, a, hcall, htick, rfl⟩ := Runtime.tickSchedule_eq hstep
    have hother : ∀ t' other, s.calls.lookup t' = some (.enqueuing other) →
        (((s.setActor target a).enter t (.ticking intervalMs rest)).calls.lookup t') =
          some (.enqueuing other) := by
      intro t' other hcall'
      have hnot : s.calls.lookup t ≠ some (.enqueuing other) := by simp [hcall]
      exact Runtime.lookup_enter_of_ne hnot hcall'
    simp only [RuntimeHistory.record, hcall]
    refine hq.setActor _ htick (fun other => Runtime.instances_setActor ..) (fun _ _ => rfl) rfl
      ?_ ?_ fun t' other _ => hother t' other
    · cases htick
      exact (hq.carries target).of_eq rfl rfl
    · intro caller phase hmutex
      cases htick
      obtain ⟨t', ht', hcall'⟩ := hq.mutex target caller phase hmutex
      exact ⟨t', ht', hother t' target hcall'⟩
  | tickReturn t =>
    obtain ⟨intervalMs, hcall, rfl⟩ := Runtime.tickReturn_eq hstep
    refine hq.frame rfl rfl (fun _ _ hmsg => hmsg) fun t' other hother => ?_
    have hnot : s.calls.lookup t ≠ some (.enqueuing other) := by simp [hcall]
    exact Runtime.lookup_leave_of_ne hnot hother
  -- A strand moves the numbers with the messages and leaves the mutex to whoever has it.
  | strand target action =>
    obtain ⟨a, hstrand, hact, rfl⟩ := Runtime.strandStep_eq hstep
    refine hq.setActor _ hact (fun other => Runtime.instances_setActor ..)
      (fun other hother => Function.update_of_ne hother ..) rfl ?_ ?_ fun _ _ _ hcall => hcall
    · have hself : (h.record s (.strand target action)).instances target =
          (h.instances target).record (s.instances target) action := Function.update_self ..
      rw [hself]
      exact ((hq.carries target).strandStep hstrand hact).1
    · intro caller phase hmutex
      rw [Actor.mutex_of_strand hstrand hact] at hmutex
      exact hq.mutex target caller phase hmutex

end Queues

/-- Every step keeps the account of the messages. -/
theorem Delivered.step {s s' : Runtime} {h : RuntimeHistory} {actorId : ℕ → UInt64}
    {action : RuntimeAction} (hd : Delivered s h) (hq : Queues s h)
    (hstep : s.step actorId action = some s') : Delivered s' (h.record s action) := by
  cases action with
  | spawn target =>
    cases hstep
    exact hd.frame (fun _ => rfl) rfl rfl fun _ _ _ => Iff.rfl
  | kill id =>
    cases hstep
    exact hd.frame (fun _ => rfl) rfl rfl fun _ _ _ => Iff.rfl
  | sendLookup t fromId toId payload =>
    obtain ⟨hidle, ⟨hnone, rfl⟩ | ⟨target, hfound, rfl⟩⟩ := Runtime.sendLookup_eq hstep
    · simp only [RuntimeHistory.record, hnone]
      exact hd
    · simp only [RuntimeHistory.record, hfound, Option.isSome_some, if_true]
      exact hd.send ⟨toId, s.actors, ⟨fromId, payload⟩⟩ hidle hfound
  -- The number goes from the call to the mailbox.
  | enqueuePush t =>
    obtain ⟨target, msg, a, hcall, -, rfl⟩ := Runtime.enqueuePush_eq hstep
    simp only [RuntimeHistory.record, hcall]
    exact hd.push hcall fun t' => Runtime.lookup_enter ..
  | enqueuePost t =>
    obtain ⟨target, a, -, -, rfl⟩ := Runtime.enqueuePost_eq hstep
    exact hd.frame (fun _ => rfl) rfl rfl fun _ _ _ => Iff.rfl
  -- The thread was not sending any more, so the sends in progress are the same.
  | enqueueUnlock t =>
    obtain ⟨target, a, hcall, -, rfl⟩ := Runtime.enqueueUnlock_eq hstep
    refine hd.frame (fun _ => rfl) rfl rfl
      (sending_iff (fun t' => Runtime.lookup_leave _ t t') ?_ nofun)
    exact fun _ _ hother => by simp [hcall] at hother
  | tickSnapshot t intervalMs order =>
    obtain ⟨hidle, -, rfl⟩ := Runtime.tickSnapshot_eq hstep
    refine hd.frame (fun _ => rfl) rfl rfl
      (sending_iff (fun t' => Runtime.lookup_enter _ t t' _) ?_ nofun)
    exact fun _ _ hother => by simp [hidle] at hother
  | tickSchedule t =>
    obtain ⟨intervalMs, target, rest, a, hcall, -, rfl⟩ := Runtime.tickSchedule_eq hstep
    simp only [RuntimeHistory.record, hcall]
    refine hd.frame (fun _ => rfl) rfl rfl
      (sending_iff (fun t' => Runtime.lookup_enter _ t t' _) ?_ nofun)
    exact fun _ _ hother => by simp [hcall] at hother
  | tickReturn t =>
    obtain ⟨intervalMs, hcall, rfl⟩ := Runtime.tickReturn_eq hstep
    refine hd.frame (fun _ => rfl) rfl rfl
      (sending_iff (fun t' => Runtime.lookup_leave _ t t') ?_ nofun)
    exact fun _ _ hother => by simp [hcall] at hother
  -- What a strand does permutes nothing: the numbers of its actor stay the same list.
  | strand target action =>
    obtain ⟨a, hstrand, hact, rfl⟩ := Runtime.strandStep_eq hstep
    refine hd.frame (fun other => ?_) rfl rfl fun _ _ _ => Iff.rfl
    simp only [RuntimeHistory.record, Function.update_apply]
    split
    · next hother =>
      rw [hother]
      exact ((hq.carries target).strandStep hstrand hact).2
    · rfl

/-! ## Killed actors -/

/-- The actors that a call may still reach. -/
def RuntimeCall.targets : RuntimeCall → List ℕ
  | .sending target _ => [target]
  | .enqueuing _ => []
  | .ticking _ snapshot => snapshot

/-- The registry has every actor under its own id and none that is killed, and no call reaches one
that had been killed when the call made its lookup. -/
structure Spared (actorId : ℕ → UInt64) (s : Runtime) (h : RuntimeHistory) : Prop where
  registered : ∀ id target, s.actors.lookup id = some target →
    actorId target = id ∧ target ∉ h.killed
  ahead : ∀ t call, s.calls.lookup t = some call →
    ∀ target ∈ call.targets, target ∉ h.killedBefore t
  reached : ∀ target killed, (target, killed) ∈ h.reached → target ∉ killed

namespace Spared

variable {actorId : ℕ → UInt64} {s s' : Runtime} {h h' : RuntimeHistory} {t : ThreadId}

/-- Steps that leave the registry and what has been killed alone. -/
theorem frame (hs : Spared actorId s h) (hactors : s'.actors = s.actors)
    (hkilled : h'.killed = h.killed)
    (hahead : ∀ t call, s'.calls.lookup t = some call →
      ∀ target ∈ call.targets, target ∉ h'.killedBefore t)
    (hreached : ∀ target killed, (target, killed) ∈ h'.reached →
      (target, killed) ∈ h.reached ∨ target ∉ killed) : Spared actorId s' h' := by
  refine ⟨?_, hahead, ?_⟩
  · intro id target hlookup
    rw [hactors] at hlookup
    rw [hkilled]
    exact hs.registered id target hlookup
  · intro target killed hmem
    rcases hreached target killed hmem with hold | hnew
    · exact hs.reached target killed hold
    · exact hnew

/-- The thread `t` goes on to a call that may reach no more actors than before. -/
theorem goOn (hs : Spared actorId s h) {call : Option RuntimeCall}
    (hactors : s'.actors = s.actors)
    (hcalls : ∀ t', s'.calls.lookup t' = if t' = t then call else s.calls.lookup t')
    (hkilled : h'.killed = h.killed) (hbefore : h'.killedBefore = h.killedBefore)
    (htargets : ∀ new, call = some new → ∀ target ∈ new.targets, target ∉ h.killedBefore t)
    (hreached : ∀ target killed, (target, killed) ∈ h'.reached →
      (target, killed) ∈ h.reached ∨ target ∉ killed) : Spared actorId s' h' := by
  refine hs.frame hactors hkilled ?_ hreached
  intro t' new hcall
  rw [hcalls] at hcall
  rw [hbefore]
  by_cases ht : t' = t
  · rw [if_pos ht] at hcall
    rw [ht]
    exact htargets new hcall
  · rw [if_neg ht] at hcall
    exact hs.ahead t' new hcall

/-- A call makes its lookup and may then reach actors of the registry. -/
theorem look (hs : Spared actorId s h) (call : RuntimeCall)
    (htargets : ∀ target ∈ call.targets, ∃ id, s.actors.lookup id = some target)
    (hkilled : h'.killed = h.killed) (hreached : h'.reached = h.reached)
    (hbefore : h'.killedBefore = Function.update h.killedBefore t h.killed) :
    Spared actorId (s.enter t call) h' := by
  refine hs.frame rfl hkilled ?_ fun target killed hmem => Or.inl (hreached ▸ hmem)
  intro t' call' hcall target htarget
  rw [Runtime.lookup_enter] at hcall
  rw [hbefore]
  by_cases ht : t' = t
  · rw [if_pos ht] at hcall
    cases hcall
    obtain ⟨id, hlookup⟩ := htargets target htarget
    rw [ht, Function.update_self]
    exact (hs.registered id target hlookup).2
  · rw [if_neg ht] at hcall
    rw [Function.update_of_ne ht]
    exact hs.ahead t' call' hcall target htarget

/-- A call reaches an actor that it may reach. -/
theorem mem_reach (hs : Spared actorId s h) {call : RuntimeCall} {target : ℕ}
    (hcall : s.calls.lookup t = some call) (htarget : target ∈ call.targets) (other : ℕ)
    (killed : List ℕ) (hmem : (other, killed) ∈ (h.reach t target).reached) :
    (other, killed) ∈ h.reached ∨ other ∉ killed := by
  rcases List.mem_append.mp hmem with hold | hnew
  · exact Or.inl hold
  · cases List.mem_singleton.mp hnew
    exact Or.inr (hs.ahead t call hcall target htarget)

theorem step {action : RuntimeAction} (hs : Spared actorId s h)
    (hstep : s.step actorId action = some s') : Spared actorId s' (h.record s action) := by
  have hold : ∀ target killed, (target, killed) ∈ h.reached →
      (target, killed) ∈ h.reached ∨ target ∉ killed := fun _ _ hmem => Or.inl hmem
  cases action with
  | spawn target =>
    cases hstep
    refine ⟨?_, hs.ahead, hs.reached⟩
    intro id other hlookup
    rw [UnorderedMap.lookup_insert] at hlookup
    simp only [RuntimeHistory.record, RuntimeHistory.spawn, List.mem_filter]
    split at hlookup
    · next hid =>
      cases hlookup
      exact ⟨hid.symm, fun hmem => by simp at hmem⟩
    · obtain ⟨hid, hkilled⟩ := hs.registered id other hlookup
      exact ⟨hid, fun hmem => hkilled hmem.1⟩
  | kill id =>
    cases hstep
    refine ⟨?_, hs.ahead, hs.reached⟩
    intro id' other hlookup
    rw [UnorderedMap.lookup_erase] at hlookup
    split at hlookup
    · cases hlookup
    · next hne =>
      obtain ⟨hid, hkilled⟩ := hs.registered id' other hlookup
      refine ⟨hid, fun hmem => ?_⟩
      -- the actor killed is registered under `id`, and so is no other
      rcases List.mem_append.mp hmem with hnew | hmem
      · have hother := hs.registered id other (Option.mem_toList.mp hnew)
        exact hne (hid.symm.trans hother.1)
      · exact hkilled hmem
  | sendLookup t fromId toId payload =>
    obtain ⟨-, ⟨hnone, rfl⟩ | ⟨target, hfound, rfl⟩⟩ := Runtime.sendLookup_eq hstep
    · simp only [RuntimeHistory.record, hnone]
      exact hs
    · simp only [RuntimeHistory.record, hfound, Option.isSome_some, if_true]
      refine hs.look _ ?_ rfl rfl rfl
      intro other hother
      obtain rfl := List.mem_singleton.mp hother
      exact ⟨toId, hfound⟩
  | enqueuePush t =>
    obtain ⟨target, msg, a, hcall, -, rfl⟩ := Runtime.enqueuePush_eq hstep
    simp only [RuntimeHistory.record, hcall]
    refine hs.goOn rfl (fun t' => Runtime.lookup_enter ..) rfl rfl ?_ ?_
    · intro new hnew
      cases hnew
      exact nofun
    · exact hs.mem_reach hcall (List.mem_singleton_self _)
  | enqueuePost t =>
    obtain ⟨target, a, -, -, rfl⟩ := Runtime.enqueuePost_eq hstep
    exact hs.frame rfl rfl hs.ahead hold
  | enqueueUnlock t =>
    obtain ⟨target, a, -, -, rfl⟩ := Runtime.enqueueUnlock_eq hstep
    exact hs.goOn rfl (fun t' => Runtime.lookup_leave ..) rfl rfl nofun hold
  | tickSnapshot t intervalMs order =>
    obtain ⟨-, horder, rfl⟩ := Runtime.tickSnapshot_eq hstep
    refine hs.look _ ?_ rfl rfl rfl
    intro target htarget
    have hmem : target ∈ s.actors.entries.map (·.2) := by
      rw [← horder]
      exact htarget
    obtain ⟨⟨id, target'⟩, hentry, rfl⟩ := Multiset.mem_map.mp hmem
    exact ⟨id, Finmap.mem_lookup_iff.mpr hentry⟩
  | tickSchedule t =>
    obtain ⟨intervalMs, target, rest, a, hcall, -, rfl⟩ := Runtime.tickSchedule_eq hstep
    simp only [RuntimeHistory.record, hcall]
    refine hs.goOn rfl (fun t' => Runtime.lookup_enter ..) rfl rfl ?_ ?_
    · intro new hnew other hother
      cases hnew
      exact hs.ahead t _ hcall other (List.mem_cons_of_mem _ hother)
    · exact hs.mem_reach hcall List.mem_cons_self
  | tickReturn t =>
    obtain ⟨intervalMs, -, rfl⟩ := Runtime.tickReturn_eq hstep
    exact hs.goOn rfl (fun t' => Runtime.lookup_leave ..) rfl rfl nofun hold
  | strand target action =>
    obtain ⟨a, -, -, rfl⟩ := Runtime.strandStep_eq hstep
    exact hs.frame rfl rfl hs.ahead hold

end Spared

/-! ## Exactly one actor, exactly once -/

section

variable {actorId : ℕ → UInt64} {p : Runtime × RuntimeHistory}

theorem runtime_invariant (h : (runtimeSystem actorId).Reachable p) :
    Queues p.1 p.2 ∧ Delivered p.1 p.2 ∧ Spared actorId p.1 p.2 := by
  refine h.invariant_withHistory
    (I := fun s h => Queues s h ∧ Delivered s h ∧ Spared actorId s h) ?_ ?_
  · rintro s rfl
    refine ⟨⟨fun _ => ⟨rfl, rfl, rfl⟩, fun _ => Or.inl rfl, nofun⟩, ?_, ⟨nofun, nofun, nofun⟩⟩
    exact ⟨fun _ => List.nodup_nil, nofun, nofun, nofun, nofun, nofun⟩
  · rintro s h action s' ⟨hq, hd, hs⟩ - hstep
    exact ⟨hq.step hd hstep, hd.step hq hstep, hs.step hstep⟩

/-- An actor at rest in a runtime without calls has handled every number it has got. -/
theorem handled_of_quiescent (hq : Queues p.1 p.2) (hcalls : p.1.calls = ∅) {target : ℕ}
    (hposted : (p.1.instances target).posted = []) (hidle : (p.1.instances target).strand = .idle) :
    (p.2.instances target).all = (p.2.instances target).handled := by
  have hmailbox : (p.1.instances target).mailbox = [] := by
    rcases hq.covered target with hempty | (hne | ⟨task, htask⟩) | ⟨caller, hmutex⟩
    · exact hempty
    · exact absurd hposted hne
    · rw [hidle] at htask
      cases htask
    · obtain ⟨t, -, hcall⟩ := hq.mutex target caller _ hmutex
      rw [hcalls] at hcall
      cases hcall
  have hbatch : (p.1.instances target).batchRest = [] := by simp [Actor.batchRest, hidle]
  rw [InstanceHistory.all, Carries.eq_nil (hq.carries target).mailbox hmailbox,
    Carries.eq_nil (hq.carries target).batch hbatch, List.append_nil, List.append_nil]

end

/-- In every reachable state of a runtime whose actors have fixed ids: an actor has handled messages
only of sends that found it registered under their `to_id`, as sent and each once; when no call is in
progress and no strand has a task, every send that found an actor has been handled by it; a send that
finds none changes nothing; and no send or tick has reached an actor that had been killed, and not
spawned again, when the call made its lookup. -/
theorem messages_delivered (actorId : ℕ → UInt64) {p : Runtime × RuntimeHistory}
    (h : (runtimeSystem actorId).Reachable p) :
    (∀ target, ∀ n ∈ (p.2.instances target).handled,
      ∃ send, p.2.sends[n]? = some send ∧ send.registered.lookup send.toId = some target) ∧
    (∀ target, (p.2.instances target).handledMessages.map some =
      (p.2.instances target).handled.map p.2.msgOf) ∧
    (∀ target, (p.2.instances target).handled.Nodup) ∧
    (p.1.calls = ∅ →
      (∀ target, (p.1.instances target).posted = [] ∧ (p.1.instances target).strand = .idle) →
        ∀ (n : ℕ) send, p.2.sends[n]? = some send →
          ∃ target, send.registered.lookup send.toId = some target ∧
            n ∈ (p.2.instances target).handled) ∧
    (∀ t fromId toId payload p', p.1.actors.lookup toId = none →
      (runtimeSystem actorId).step p (.sendLookup t fromId toId payload) = some p' → p' = p) ∧
    ∀ target killed, (target, killed) ∈ p.2.reached → target ∉ killed := by
  obtain ⟨hq, hd, hs⟩ := runtime_invariant h
  have hsub : ∀ target, (p.2.instances target).handled.Sublist (p.2.instances target).all := by
    intro target
    rw [InstanceHistory.all, List.append_assoc]
    exact List.sublist_append_left _ _
  refine ⟨?_, fun target => (hq.carries target).handled,
    fun target => (hd.nodup target).sublist (hsub target), ?_, ?_, hs.reached⟩
  · intro target n hn
    exact hd.owned target n ((hsub target).subset hn)
  -- No call is left that could hold the number, so its actor has it, and a quiet actor has handled
  -- all.
  · intro hcalls hrest n send hsend
    obtain ⟨target, htarget, hin | ⟨t, msg, hcall, -⟩⟩ := hd.accounted n send hsend
    · refine ⟨target, htarget, ?_⟩
      rwa [handled_of_quiescent hq hcalls (hrest target).1 (hrest target).2] at hin
    · rw [hcalls] at hcall
      cases hcall
  · rintro t fromId toId payload ⟨s', h'⟩ hnone hstep
    obtain ⟨hplain, hrecord⟩ := TransitionSystem.withHistory_step.mp hstep
    obtain ⟨-, ⟨-, hsame⟩ | ⟨target, hfound, -⟩⟩ := Runtime.sendLookup_eq hplain
    · dsimp only at hsame hrecord
      rw [hsame, hrecord, RuntimeHistory.record, hnone]
      rfl
    · rw [hnone] at hfound
      cases hfound

/-- Thread 0 finds actor 0 under id 7; then the actor is killed and actor 1 takes its id. -/
def replacedBeforeEnqueue : List RuntimeAction :=
  [.spawn 0, .sendLookup 0 1 7 [9], .kill 7, .spawn 1, .enqueuePush 0, .enqueuePost 0,
    .enqueueUnlock 0, .strand 0 (.startTask 0), .strand 0 .swapMailbox, .strand 0 .handleCall,
    .strand 0 .handleReturn, .strand 0 .batchDone]

/-- The run leaves nothing to do, and actor 1 registered. -/
theorem replacedBeforeEnqueue_quiescent :
    ∃ p, (runtimeSystem fun _ => 7).run (.start, .start) replacedBeforeEnqueue = some p ∧
      p.1.calls = ∅ ∧ p.1.actors.lookup 7 = some 1 ∧
      (∀ target, (p.1.instances target).posted = [] ∧ (p.1.instances target).strand = .idle) ∧
      ∃ send, p.2.sends[0]? = some send ∧ send.registered.lookup send.toId = some 0 := by
  refine ⟨_, rfl, by decide, by decide, fun target => ?_, ⟨_, rfl, by decide⟩⟩
  cases target with
  | zero => exact ⟨rfl, rfl⟩
  | succ target => exact ⟨rfl, rfl⟩

/-- `messages_delivered` at the end of that run: actor 0 has handled the message. -/
theorem replaced_actor_handles :
    ∃ p, (runtimeSystem fun _ => 7).run (.start, .start) replacedBeforeEnqueue = some p ∧
      p.1.actors.lookup 7 = some 1 ∧ 0 ∈ (p.2.instances 0).handled := by
  obtain ⟨p, hrun, hcalls, hactor, hrest, send, hsend, hfound⟩ := replacedBeforeEnqueue_quiescent
  have hstart : (runtimeSystem fun _ => 7).Init (.start, .start) := ⟨rfl, rfl⟩
  have hcontract := messages_delivered (fun _ => 7) (.of_run (.init hstart) _ hrun)
  obtain ⟨target, htarget, hin⟩ := hcontract.2.2.2.1 hcalls hrest 0 send hsend
  rw [hfound] at htarget
  cases htarget
  exact ⟨p, hrun, hactor, hin⟩

end WasmHot
