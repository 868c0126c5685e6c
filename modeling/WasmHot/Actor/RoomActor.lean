import WasmHot.Actor.ConfinedGuests
import WasmHot.Actor.TickOrder

/-!
# RoomActor

A `RoomActor` passes every message and every tick on to its module "room": `HandleMessage` invokes it
with the payload and `Tick` with the interval. The rooms run on their own strands, so the accesses of
their guests to the one storage interleave, while other threads send messages and schedule ticks.

A room's strand finishes an invocation before it begins the next one, so what a room does is a list
of jobs: its messages and its ticks, in the order in which they were enqueued and scheduled
(`room_jobs_in_order`). If the rooms are bound to different objects and their guests keep to them, no
room notices the others: after its jobs its plugins and its object are as if it had done them alone,
one after the other (`room_is_sequential`). Here no object is created, destroyed or migrated.
-/

namespace WasmHot

/-- The eight bytes that `memcpy` reads out of a `uint64_t`, least significant byte first. -/
def storeU64 (n : UInt64) : List UInt8 :=
  [n.toUInt8, (n >>> 8).toUInt8, (n >>> 16).toUInt8, (n >>> 24).toUInt8, (n >>> 32).toUInt8,
    (n >>> 40).toUInt8, (n >>> 48).toUInt8, (n >>> 56).toUInt8]

/-- What a room is called for. -/
inductive RoomJob
  | message (msg : ActorMessage)
  | tick (intervalMs : UInt64)
  deriving DecidableEq

namespace RoomJob

/-- The action that `HandleMessage` or `Tick` invokes the module with. -/
def action : RoomJob → String
  | .message _ => "handle_message"
  | .tick _ => "tick"

/-- The input. The sender of a message is not passed on. -/
def input : RoomJob → List UInt8
  | .message msg => msg.payload
  | .tick intervalMs => storeU64 intervalMs

def message? : RoomJob → Option ActorMessage
  | .message msg => some msg
  | .tick _ => none

def tick? : RoomJob → Option UInt64
  | .message _ => none
  | .tick intervalMs => some intervalMs

end RoomJob

/-- The job that a step of the strand begins: the next message of the batch, or the tick of a task
whose batch is done. -/
def Actor.begins (a : Actor) : ActorAction → Option RoomJob
  | .handleCall => a.batchRest.head?.map .message
  | .batchDone => a.tickAfterBatch.map .tick
  | _ => none

/-- `HandleMessage` or `Tick` returns. -/
def ActorAction.isReturn : ActorAction → Bool
  | .handleReturn => true
  | .tickReturn => true
  | _ => false

/-- The strand itself calls `EnqueueMessage`. The code of a room does not. -/
def ActorAction.fromStrand : ActorAction → Bool
  | .enqueuePush .strand _ => true
  | _ => false

/-- The rooms: the mailbox and the strand of each, and its invocations on the storage. -/
structure RoomWorld where
  mailboxes : ℕ → Actor
  invoking : InvokingWorld

/-- A step of a room's mailbox or strand, or the next access of its guest. -/
inductive RoomAction
  | mailbox (room : ℕ) (action : ActorAction)
  | access (room : ℕ) (reads : List ComponentKey) (writes : List ComponentWrite)

section

variable (cityHash64 : String → UInt64) (registry : ObjectRegistry)

namespace RoomWorld

/-- The invocation of a job begins. -/
def beginJob (w : RoomWorld) (room : ℕ) (job : RoomJob) : Option RoomWorld :=
  (w.invoking.step cityHash64 registry
    ⟨room, (w.invoking.actors room).begun, .enter "room" job.action job.input⟩).map
      fun invoking => { w with invoking }

/-- A step of a room's mailbox or strand. `HandleMessage` and `Tick` return when the invocation has
ended. -/
def mailboxStep (w : RoomWorld) (room : ℕ) (action : ActorAction) : Option RoomWorld :=
  if action.fromStrand ∨ action.isReturn ∧ (w.invoking.actors room).running.isSome then none
  else
    ((w.mailboxes room).step action).bind fun a =>
      let w' := { w with mailboxes := Function.update w.mailboxes room a }
      match (w.mailboxes room).begins action with
      | none => some w'
      | some job => w'.beginJob cityHash64 registry room job

/-- The step of an action, where it is enabled. -/
def step (w : RoomWorld) : RoomAction → Option RoomWorld
  | .mailbox room action => w.mailboxStep cityHash64 registry room action
  | .access room reads writes =>
      (w.invoking.step cityHash64 registry
        ⟨room, (w.invoking.actors room).begun - 1, .access reads writes⟩).map
          fun invoking => { w with invoking }

end RoomWorld

/-- All interleavings of any number of rooms, with any plugins and any storage at the start. -/
def rooms : TransitionSystem RoomWorld RoomAction where
  Init w := (∀ room, w.mailboxes room = .fresh) ∧ w.invoking.Idle
  step := RoomWorld.step cityHash64 registry

/-- The jobs that a room has begun, with the history of its mailbox. -/
structure RoomHistory where
  ticks : TickHistory
  jobs : List RoomJob

/-- The rooms as they were at the start, and the history of each. -/
structure RoomsRecord where
  start : InvokingWorld
  history : ℕ → RoomHistory

/-- Extend the history by one step. -/
def RoomsRecord.record (h : RoomsRecord) (w : RoomWorld) : RoomAction → RoomsRecord
  | .mailbox room action =>
      let next : RoomHistory :=
        ⟨(h.history room).ticks.record (w.mailboxes room) action,
          (h.history room).jobs ++ ((w.mailboxes room).begins action).toList⟩
      { h with history := Function.update h.history room next }
  | .access _ _ _ => h

/-- The interleavings of the rooms with their history. -/
def recordedRooms : TransitionSystem (RoomWorld × RoomsRecord) RoomAction :=
  (rooms cityHash64 registry).withHistory
    (fun w => ⟨w.invoking, fun _ => ⟨⟨⟨[], []⟩, [], [], []⟩, []⟩⟩) RoomsRecord.record

/-- One job of a room on its own. -/
def RoomJob.work (p : ActorWithObject × ComponentStorage) (job : RoomJob) :
    ActorWithObject × ComponentStorage :=
  let invoked := p.1.invokeModule cityHash64 registry "room" job.action job.input ⟨.null, 0⟩ p.2
  (invoked.actor, invoked.storage)

/-- The jobs that a room has begun, done one after the other on the storage of the start. -/
def RoomsRecord.alone (h : RoomsRecord) (room : ℕ) : ActorWithObject × ComponentStorage :=
  (h.history room).jobs.foldl (RoomJob.work cityHash64 registry)
    ((h.start.actors room).actor, h.start.storage)

/-- The strands run their tasks in posting order. -/
def RoomAction.InPostOrder : RoomAction → Prop
  | .mailbox _ action => action.InPostOrder
  | .access _ _ _ => True

instance (action : RoomAction) : Decidable action.InPostOrder := by
  cases action <;> unfold RoomAction.InPostOrder <;> infer_instance

end

/-! ## What each step does -/

section

variable {cityHash64 : String → UInt64} {registry : ObjectRegistry} {w w' : RoomWorld} {room : ℕ}

theorem RoomWorld.mailboxStep_eq {action : ActorAction}
    (h : w.mailboxStep cityHash64 registry room action = some w') :
    ∃ a, (w.mailboxes room).step action = some a ∧
      w'.mailboxes = Function.update w.mailboxes room a ∧
      ((w.mailboxes room).begins action = none ∧ w'.invoking = w.invoking ∨
        ∃ job, (w.mailboxes room).begins action = some job ∧
          w.invoking.step cityHash64 registry
            ⟨room, (w.invoking.actors room).begun, .enter "room" job.action job.input⟩ =
              some w'.invoking) := by
  simp only [mailboxStep, Option.ite_none_left_eq_some] at h
  obtain ⟨-, h⟩ := h
  obtain ⟨a, ha, h⟩ := Option.bind_eq_some_iff.mp h
  refine ⟨a, ha, ?_⟩
  split at h
  · next hbegins =>
    cases h
    exact ⟨rfl, Or.inl ⟨hbegins, rfl⟩⟩
  · next job hbegins =>
    obtain ⟨invoking, hinvoking, rfl⟩ := Option.map_eq_some_iff.mp h
    exact ⟨rfl, Or.inr ⟨job, hbegins, hinvoking⟩⟩

/-! ## The jobs of a room -/

/-- A step that begins a job adds it to the messages handled or to the ticks called, and no other step
adds to either. -/
theorem TickHistory.record_begins (h : TickHistory) (a : Actor) (action : ActorAction) :
    (h.record a action).messages.handled =
        h.messages.handled ++ (a.begins action).toList.filterMap RoomJob.message? ∧
      (h.record a action).ticked =
        h.ticked ++ (a.begins action).toList.filterMap RoomJob.tick? := by
  cases action with
  | handleCall =>
    simp only [TickHistory.record, MailboxHistory.record, Actor.begins]
    cases a.batchRest.head? with
    | none => exact ⟨rfl, (List.append_nil _).symm⟩
    | some msg => exact ⟨rfl, (List.append_nil _).symm⟩
  | batchDone =>
    simp only [TickHistory.record, MailboxHistory.record, Actor.begins]
    cases a.tickAfterBatch with
    | none => exact ⟨(List.append_nil _).symm, rfl⟩
    | some intervalMs => exact ⟨(List.append_nil _).symm, rfl⟩
  | _ => exact ⟨(List.append_nil _).symm, (List.append_nil _).symm⟩

/-- Each room on its own is an actor, and its jobs are what its strand has handled and ticked. -/
structure RoomTrace (a : Actor) (h : RoomHistory) : Prop where
  actor : tickSystem.ReachWhere (fun _ action => action.InPostOrder) (a, h.ticks)
  messages : h.jobs.filterMap RoomJob.message? = h.ticks.messages.handled
  ticks : h.jobs.filterMap RoomJob.tick? = h.ticks.ticked

theorem RoomTrace.step {a a' : Actor} {h : RoomHistory} {action : ActorAction}
    (htrace : RoomTrace a h) (horder : action.InPostOrder) (hstep : a.step action = some a') :
    RoomTrace a' ⟨h.ticks.record a action, h.jobs ++ (a.begins action).toList⟩ := by
  obtain ⟨hmessages, hticks⟩ := h.ticks.record_begins a action
  refine ⟨.step htrace.actor horder (TransitionSystem.withHistory_step.mpr ⟨hstep, rfl⟩), ?_, ?_⟩
  · rw [List.filterMap_append, htrace.messages, hmessages]
  · rw [List.filterMap_append, htrace.ticks, hticks]

theorem roomTrace_of_reach {p : RoomWorld × RoomsRecord}
    (h : (recordedRooms cityHash64 registry).ReachWhere (fun _ action => action.InPostOrder) p)
    (room : ℕ) : RoomTrace (p.1.mailboxes room) (p.2.history room) := by
  refine h.invariant_withHistory
    (I := fun w h => RoomTrace (w.mailboxes room) (h.history room)) ?_ ?_
  · rintro w ⟨hfresh, -⟩
    rw [hfresh room]
    exact ⟨.init ⟨rfl, rfl⟩, rfl, rfl⟩
  · intro w h action w' htrace horder hstep
    cases action with
    | access room' reads writes =>
      obtain ⟨invoking, -, rfl⟩ := Option.map_eq_some_iff.mp hstep
      exact htrace
    | mailbox room' action =>
      obtain ⟨a, ha, hmailboxes, -⟩ := RoomWorld.mailboxStep_eq hstep
      rw [hmailboxes]
      by_cases hroom : room = room'
      · subst hroom
        simp only [RoomsRecord.record, Function.update_self]
        exact htrace.step horder ha
      · simp only [RoomsRecord.record, Function.update_of_ne hroom]
        exact htrace

/-- With tasks run in posting order a room does its messages and its ticks each in order and each
once: what it has begun, what its strand has taken and what is left are the messages enqueued and the
ticks scheduled. When its strand has nothing left to do, it has done them all. -/
theorem room_jobs_in_order {p : RoomWorld × RoomsRecord}
    (h : (recordedRooms cityHash64 registry).ReachWhere (fun _ action => action.InPostOrder) p)
    (room : ℕ) :
    ((p.2.history room).jobs.filterMap RoomJob.message? ++ (p.1.mailboxes room).batchRest ++
        (p.1.mailboxes room).mailbox = (p.2.history room).ticks.messages.enqueued ∧
      (p.2.history room).jobs.filterMap RoomJob.tick? ++ (p.1.mailboxes room).ticksAhead =
        (p.2.history room).ticks.scheduled) ∧
    ((p.1.mailboxes room).mutex = none → (p.1.mailboxes room).posted = [] →
      (p.1.mailboxes room).strand = .idle →
        (p.2.history room).jobs.filterMap RoomJob.message? =
            (p.2.history room).ticks.messages.enqueued ∧
          (p.2.history room).jobs.filterMap RoomJob.tick? =
            (p.2.history room).ticks.scheduled) := by
  have htrace := roomTrace_of_reach h room
  have hinv := tickInv_of_reach htrace.actor
  have hmessages := hinv.conserved
  have hticks := hinv.ticks
  rw [Conserved, ← htrace.messages] at hmessages
  rw [← htrace.ticks] at hticks
  refine ⟨⟨hmessages, hticks⟩, fun hfree hposted hidle => ?_⟩
  have hplain : actorSystem.Reachable (p.1.mailboxes room) :=
    TransitionSystem.Reachable.fst_withHistory htrace.actor.reachable
  -- A mailbox that is not empty has a wake-up posted or running, or an enqueue that will post one.
  have hempty : (p.1.mailboxes room).mailbox = [] := by
    rcases Actor.covered_of_reachable hplain with hempty | (hpending | ⟨task, htask⟩) | ⟨_, hpost⟩
    · exact hempty
    · exact absurd hposted hpending
    · rw [hidle] at htask
      cases htask
    · rw [hfree] at hpost
      cases hpost
  simp only [Actor.batchRest, hidle, hempty, List.append_nil] at hmessages
  simp only [Actor.ticksAhead, Actor.currentTick, hidle, hposted] at hticks
  exact ⟨hmessages, by simpa using hticks⟩

/-! ## Rooms that do not meet -/

/-- No registered object has two rooms, the registry keeps every object under its own id, and the
guests of each room keep to its object. -/
structure RoomsApart (registry : ObjectRegistry) (w : InvokingWorld) : Prop where
  keyed : ∀ id header, registry.objects.lookup id = some header → header.objectId = id
  distinct : ∀ room room', (registry.get (w.actors room).actor.objectId).isSome →
    (w.actors room').actor.objectId = (w.actors room).actor.objectId → room' = room
  confined : ∀ room, (w.actors room).actor.Confined

/-- The room is where its jobs would have brought it alone, or its running invocation leads there. -/
structure OnTrack (registry : ObjectRegistry) (st : InvokingActor) (s : ComponentStorage)
    (objectId : UInt64) (alone : ActorWithObject × ComponentStorage) : Prop where
  object : st.actor.objectId = objectId
  confined : st.actor.Confined
  running : ∀ r ∈ st.running, r.Confined objectId
  registered : st.running ≠ none → (registry.get objectId).isSome
  arrived : st.running = none → st.actor = alone.1 ∧ s.SameObject objectId alone.2
  ahead : ∀ r ∈ st.running, (r.outcome st s).1.actor = alone.1 ∧
    (r.outcome st s).2.SameObject objectId alone.2

namespace OnTrack

variable {st : InvokingActor} {s s' : ComponentStorage} {objectId : UInt64}
  {alone : ActorWithObject × ComponentStorage}

/-- What the other rooms write is not seen. -/
theorem others (h : OnTrack registry st s objectId alone) (hsame : s'.SameObject objectId s) :
    OnTrack registry st s' objectId alone := by
  refine ⟨h.object, h.confined, h.running, h.registered, fun hnone => ?_, fun r hr => ?_⟩
  · obtain ⟨hactor, hstorage⟩ := h.arrived hnone
    exact ⟨hactor, hsame.trans hstorage⟩
  · obtain ⟨hactor, hstorage⟩ := h.ahead r hr
    obtain ⟨hst, hseen⟩ := (h.running r hr).outcome_congr st hsame
    exact ⟨hst ▸ hactor, hseen.trans hstorage⟩

/-- The next job begins. Whether its guest gets to run is up to the room's own plugin. -/
theorem begin (h : OnTrack registry st s objectId alone) (hnone : st.running = none)
    (hkeyed : ∀ header, registry.objects.lookup objectId = some header →
      header.objectId = objectId) (job : RoomJob) :
    OnTrack registry (st.enter cityHash64 registry "room" job.action job.input) s objectId
      (job.work cityHash64 registry alone) := by
  obtain ⟨hactor, hstorage⟩ := h.arrived hnone
  obtain ⟨actor, storage⟩ := alone
  dsimp only at hactor hstorage
  subst hactor
  obtain rfl := h.object
  have hrunning : ∀ r ∈ (st.enter cityHash64 registry "room" job.action job.input).running,
      r.Confined st.actor.objectId :=
    fun r hr => InvokingActor.confined_of_enter h.confined hkeyed hr
  -- The call enters the guest, or is over at once; alone it would do the same.
  refine ⟨rfl, h.confined, hrunning, fun hsome => ?_, fun hnone' => ?_, fun r hr => ?_⟩
  · obtain ⟨r, hr⟩ := Option.ne_none_iff_exists'.mp hsome
    obtain ⟨plugin, obj, vm, guest, -, hobj, -⟩ := InvokingActor.enter_running_iff.mp hr
    rw [hobj]
    rfl
  · have hnot : ∀ plugin obj, (st.actor.plugins.lookup "room").join = some plugin →
        registry.get st.actor.objectId = some obj →
          plugin.entered cityHash64 job.action job.input = none := by
      intro plugin obj hplugin hobj
      by_contra hsome
      obtain ⟨⟨vm, guest⟩, hguest⟩ := Option.ne_none_iff_exists'.mp hsome
      have henters := InvokingActor.enter_running_iff.mpr
        ⟨plugin, obj, vm, guest, hplugin, hobj, hguest, rfl⟩
      rw [hnone'] at henters
      cases henters
    obtain ⟨hactor, hkept⟩ :=
      ActorWithObject.invokeModule_of_not_entered hnot ⟨.null, 0⟩ storage
    rw [RoomJob.work, hactor, hkept]
    exact ⟨rfl, hstorage⟩
  · obtain ⟨plugin, obj, vm, guest, hplugin, hobj, hguest, heq⟩ :=
      InvokingActor.enter_running_iff.mp hr
    obtain ⟨hactor, hkept⟩ := ActorWithObject.invokeModule_of_entered hplugin hobj hguest
      ⟨.null, 0⟩ (st.enter cityHash64 registry "room" job.action job.input) rfl storage
    rw [← heq] at hactor hkept
    -- Confined to its object, the guest sees in the shared storage what it would see alone.
    obtain ⟨hst, hseen⟩ := (hrunning r hr).outcome_congr
      (st.enter cityHash64 registry "room" job.action job.input) hstorage
    rw [RoomJob.work, hactor, hkept, hst]
    exact ⟨rfl, hseen⟩

/-- The guest takes its next step. -/
theorem advance (h : OnTrack registry st s objectId alone) {r : RunningInvoke}
    (hr : st.running = some r) :
    OnTrack registry (r.advance st s).1 (r.advance st s).2 objectId alone := by
  obtain ⟨hactor, hstorage⟩ := h.ahead r hr
  obtain ⟨hconfined, hobject, hrunning⟩ := (h.running r hr).advance h.confined h.object s
  have hregistered := h.registered (by simp [hr])
  refine ⟨hobject, hconfined, hrunning, fun _ => hregistered, fun hnone => ?_, fun r' hr' => ?_⟩
  · rcases r.advance_cases st s with hend | ⟨r', hnext, -⟩
    · rw [hend]
      exact ⟨hactor, hstorage⟩
    · rw [hnext] at hnone
      cases hnone
  · rcases r.advance_cases st s with hend | ⟨r'', hnext, houtcome⟩
    · rw [hend] at hr'
      cases hr'
    · rw [hnext] at hr' ⊢
      cases hr'
      rw [houtcome]
      exact ⟨hactor, hstorage⟩

end OnTrack

/-- Every room is on its track. -/
def AllOnTrack (cityHash64 : String → UInt64) (registry : ObjectRegistry) (w : InvokingWorld)
    (h : RoomsRecord) : Prop :=
  ∀ room, OnTrack registry (w.actors room) w.storage (h.start.actors room).actor.objectId
    (h.alone cityHash64 registry room)

theorem AllOnTrack.access {w w' : InvokingWorld} {h : RoomsRecord}
    (htrack : AllOnTrack cityHash64 registry w h) (hapart : RoomsApart registry h.start)
    {number : ℕ} {reads : List ComponentKey} {writes : List ComponentWrite}
    (hstep : w.step cityHash64 registry ⟨room, number, .access reads writes⟩ = some w') :
    AllOnTrack cityHash64 registry w' h := by
  obtain ⟨⟨st, s⟩, hlocal, rfl⟩ := Option.map_eq_some_iff.mp hstep
  obtain ⟨_, _, _, hevent, -⟩ | ⟨r, -, hrunning, -, hadvance⟩ := InvokingActor.step_cases hlocal
  · cases hevent
  obtain ⟨hst, hs⟩ := Prod.ext_iff.mp hadvance
  dsimp only at hst hs hrunning
  intro other
  by_cases hother : other = room
  · subst hother
    have hnext := (htrack other).advance hrunning
    rw [hst, hs] at hnext
    simpa only [Function.update_self] using hnext
  · simp only [Function.update_of_ne hother]
    refine (htrack other).others ?_
    have hwrites : s = w.storage.writeAll r.accesses.2 := by
      rw [← hs, r.advance_eq _ (s := w.storage) (t := w.storage) fun _ _ => rfl]
    rw [hwrites]
    refine ComponentStorage.sameObject_writeAll (fun u hu heq => hother ?_) w.storage
    have hown := ((htrack room).running r hrunning).accesses_own.2 u hu
    have hregistered := (htrack room).registered (by simp [hrunning])
    exact hapart.distinct room other hregistered (heq.symm.trans hown)

theorem AllOnTrack.begin {w w' : InvokingWorld} {h : RoomsRecord}
    (htrack : AllOnTrack cityHash64 registry w h) (hapart : RoomsApart registry h.start)
    {number : ℕ} {job : RoomJob} {ticks : TickHistory}
    (hstep : w.step cityHash64 registry ⟨room, number, .enter "room" job.action job.input⟩ =
      some w') :
    AllOnTrack cityHash64 registry w'
      ⟨h.start, Function.update h.history room ⟨ticks, (h.history room).jobs ++ [job]⟩⟩ := by
  obtain ⟨⟨st, s⟩, hlocal, rfl⟩ := Option.map_eq_some_iff.mp hstep
  obtain ⟨_, _, _, hevent, hnone, -, rfl, rfl⟩ | ⟨r, hevent, -⟩ := InvokingActor.step_cases hlocal
  · cases hevent
    intro other
    by_cases hother : other = room
    · subst hother
      have hnext : OnTrack _ _ _ _ (job.work cityHash64 registry _) :=
        (htrack other).begin hnone (hapart.keyed _) job
      simpa [RoomsRecord.alone] using hnext
    · have hkept := htrack other
      simpa only [RoomsRecord.alone, Function.update_of_ne hother] using hkept
  · cases hevent

theorem allOnTrack_of_reachable {p : RoomWorld × RoomsRecord}
    (h : (recordedRooms cityHash64 registry).Reachable p)
    (hapart : RoomsApart registry p.2.start) :
    AllOnTrack cityHash64 registry p.1.invoking p.2 := by
  revert hapart
  refine h.invariant_withHistory (I := fun w h => RoomsApart registry h.start →
    AllOnTrack cityHash64 registry w.invoking h) ?_ ?_
  -- At the start no room runs a guest, and none has begun a job.
  · rintro w ⟨-, hidle⟩ hapart room
    have hnone := hidle room
    refine ⟨rfl, hapart.confined room, fun r hr => ?_, fun hsome => absurd hnone hsome,
      fun _ => ⟨rfl, .refl _ _⟩, fun r hr => ?_⟩
    · rw [hnone] at hr
      cases hr
    · rw [hnone] at hr
      cases hr
  · intro w h action w' ih _ hstep
    cases action with
    -- A call of a guest is no step of a mailbox.
    | access room reads writes =>
      obtain ⟨invoking, hinvoking, rfl⟩ := Option.map_eq_some_iff.mp hstep
      exact fun hapart => (ih hapart).access hapart hinvoking
    | mailbox room action =>
      intro hapart
      obtain ⟨a, -, -, ⟨hbegins, hinvoking⟩ | ⟨job, hbegins, hinvoking⟩⟩ :=
        RoomWorld.mailboxStep_eq hstep
      · -- No job begins, so the jobs of every room are as before.
        intro other
        have hkept := ih hapart other
        rw [hinvoking]
        by_cases hother : other = room
        · subst hother
          simpa [RoomsRecord.alone, RoomsRecord.record, hbegins] using hkept
        · simpa only [RoomsRecord.alone, RoomsRecord.record, Function.update_of_ne hother]
            using hkept
      · have hnext : AllOnTrack cityHash64 registry w'.invoking ⟨h.start, Function.update h.history
            room ⟨(h.history room).ticks.record (w.mailboxes room) action, _⟩⟩ :=
          (ih hapart).begin hapart hinvoking
        simpa only [RoomsRecord.record, hbegins, Option.toList_some] using hnext

/-- Rooms that are apart do not notice each other. Whatever order the messages, the ticks and the
accesses of all rooms come in, a room between two jobs has the plugins, with their memory, and the
components of its object that it would have if it had done its jobs alone, one after the other. -/
theorem room_is_sequential {p : RoomWorld × RoomsRecord}
    (h : (recordedRooms cityHash64 registry).Reachable p)
    (hapart : RoomsApart registry p.2.start) (room : ℕ)
    (hrest : (p.1.invoking.actors room).running = none) :
    (p.1.invoking.actors room).actor = (p.2.alone cityHash64 registry room).1 ∧
      ∀ type, p.1.invoking.storage.read (p.2.start.actors room).actor.objectId type =
        (p.2.alone cityHash64 registry room).2.read
          (p.2.start.actors room).actor.objectId type :=
  (allOnTrack_of_reachable h hapart room).arrived hrest

end

/-! ## Two rooms that raise a component

Rooms 0 and 1 are bound to objects 5 and 6, and no other object is registered. Their module asks for
the object it is executed for, raises the byte in its component 7 and returns without an output.
-/

/-- Read component 7 of the current object, raise its byte by one and write it back. -/
def raiseOwn (memory : GuestMemory) : Guest :=
  .host memory .getCurrentObjectId fun out memory =>
    match out with
    | .i32 _ => .trap memory
    | .i64 id =>
        .host memory (.getComponent id.toUInt64 7 0 1) fun _ memory =>
          .host (memory.map (List.modifyHead (· + 1))) (.setComponent id.toUInt64 7 0 1)
            fun _ memory => .ret memory 0

/-- An initialized plugin of that module. -/
def raisingPlugin (memory : List UInt8) : WasmEdgePlugin :=
  ⟨true, some (some ⟨some memory, true, fun _ => raiseOwn⟩)⟩

/-- The object of a room. -/
def roomObject : ℕ → UInt64
  | 0 => 5
  | 1 => 6
  | _ => 0

/-- A room with that plugin. -/
def raisingRoom (memory : List UInt8) (room : ℕ) : ActorWithObject :=
  ⟨roomObject room, (∅ : UnorderedMap String (Option WasmEdgePlugin)).insert "room"
    (some (raisingPlugin memory))⟩

/-- Objects 5 and 6 are registered. -/
def registryOfTwo : ObjectRegistry := registryOfFive.create ⟨1, 0, 6⟩

/-- The rooms before their first job, with a zero in component 7 of both objects. -/
def raisingRooms (memory : List UInt8) : InvokingWorld :=
  ⟨(ComponentStorage.empty.write 5 7 [0]).write 6 7 [0],
    fun room => ⟨raisingRoom memory room, 0, none⟩⟩

theorem raiseOwn_keepsTo (objectId : UInt64) (memory : GuestMemory) :
    (raiseOwn memory).KeepsTo objectId := by
  refine ⟨trivial, fun out memory hout => ?_⟩
  obtain rfl : out = .i64 objectId.toInt64 := hout
  exact ⟨by simp [HostCall.KeepsTo], fun _ _ _ => ⟨by simp [HostCall.KeepsTo], fun _ _ _ => trivial⟩⟩

theorem raisingRooms_apart (memory : List UInt8) :
    RoomsApart registryOfTwo (raisingRooms memory) := by
  refine ⟨fun id header hheader => ?_, fun room room' hregistered heq => ?_,
    fun room name plugin vm hplugin hvm params memory' => ?_⟩
  · simp only [registryOfTwo, registryOfFive, ObjectRegistry.create,
      UnorderedMap.lookup_insert] at hheader
    split at hheader
    · cases hheader
      simp_all
    · split at hheader
      · cases hheader
        simp_all
      · cases hheader
  · change (registryOfTwo.get (roomObject room)).isSome at hregistered
    change roomObject room' = roomObject room at heq
    rcases room with _ | _ | room
    · rcases room' with _ | _ | room'
      · rfl
      · exact absurd heq (by decide)
      · exact absurd heq (show (0 : UInt64) ≠ 5 by decide)
    · rcases room' with _ | _ | room'
      · exact absurd heq (by decide)
      · rfl
      · exact absurd heq (show (0 : UInt64) ≠ 6 by decide)
    · exact absurd hregistered (show ¬ (registryOfTwo.get 0).isSome by decide)
  · simp only [raisingRooms, raisingRoom, UnorderedMap.lookup_insert] at hplugin
    split at hplugin
    · cases hplugin
      cases hvm
      exact raiseOwn_keepsTo _ memory'
    · cases hplugin

/-- The rooms with empty mailboxes. -/
def raisingStart (memory : List UInt8) : RoomWorld × RoomsRecord :=
  (⟨fun _ => .fresh, raisingRooms memory⟩,
    ⟨raisingRooms memory, fun _ => ⟨⟨⟨[], []⟩, [], [], []⟩, []⟩⟩)

/-- A message comes in for each room, and for room 0 a tick. The guests of the two messages take turns,
and then room 0 begins its tick. -/
def bothRaise : List RoomAction :=
  [.mailbox 0 (.enqueuePush (.thread 0) ping), .mailbox 0 .enqueuePost, .mailbox 0 .enqueueUnlock,
    .mailbox 0 (.scheduleTick 16), .mailbox 1 (.enqueuePush (.thread 0) echo),
    .mailbox 1 .enqueuePost, .mailbox 1 .enqueueUnlock,
    .mailbox 0 (.startTask 0), .mailbox 0 .swapMailbox, .mailbox 0 .handleCall,
    .mailbox 1 (.startTask 0), .mailbox 1 .swapMailbox, .mailbox 1 .handleCall,
    .access 0 [] [], .access 1 [] [], .access 0 [(5, 7)] [], .access 1 [(6, 7)] [],
    .access 0 [] [⟨5, 7, [1]⟩], .access 1 [] [⟨6, 7, [1]⟩], .access 0 [] [], .access 1 [] [],
    .mailbox 0 .handleReturn, .mailbox 0 .batchDone, .mailbox 0 (.startTask 0),
    .mailbox 0 .swapMailbox, .mailbox 0 .batchDone]

theorem bothRaise_run (rest : List UInt8) :
    ∃ p, (recordedRooms (fun _ => 0) registryOfTwo).runWhere
        (fun _ action => action.InPostOrder) (raisingStart (0 :: rest)) bothRaise = some p ∧
      (p.2.history 0).jobs = [.message ping, .tick 16] ∧ (p.2.history 1).jobs = [.message echo] ∧
      (p.1.invoking.actors 1).running = none ∧ p.1.invoking.storage.read 6 7 = some [1] ∧
      p.2.start = raisingRooms (0 :: rest) :=
  ⟨_, rfl, rfl, rfl, rfl, rfl, rfl⟩

/-- `room_jobs_in_order` of room 0 there. -/
theorem room_jobs_in_order_bothRaise :
    ∃ p, (recordedRooms (fun _ => 0) registryOfTwo).runWhere (fun _ action => action.InPostOrder)
        (raisingStart (List.replicate 65536 0)) bothRaise = some p ∧
      (p.2.history 0).jobs.filterMap RoomJob.message? ++ (p.1.mailboxes 0).batchRest ++
        (p.1.mailboxes 0).mailbox = (p.2.history 0).ticks.messages.enqueued ∧
      (p.2.history 0).jobs = [.message ping, .tick 16] := by
  rw [List.replicate_succ]
  obtain ⟨p, hrun, hjobs, -⟩ := bothRaise_run (List.replicate 65535 0)
  have hstart : (recordedRooms (fun _ => 0) registryOfTwo).Init
      (raisingStart (0 :: List.replicate 65535 0)) := ⟨⟨fun _ => rfl, fun _ => rfl⟩, rfl⟩
  exact ⟨p, hrun, (room_jobs_in_order (.of_runWhere (.init hstart) bothRaise hrun) 0).1.1, hjobs⟩

/-- `room_is_sequential` of room 1 there: its guest has raised the byte once. -/
theorem room_is_sequential_bothRaise :
    ∃ p, (recordedRooms (fun _ => 0) registryOfTwo).runWhere (fun _ action => action.InPostOrder)
        (raisingStart (List.replicate 65536 0)) bothRaise = some p ∧
      (p.1.invoking.actors 1).actor = (p.2.alone (fun _ => 0) registryOfTwo 1).1 ∧
      (p.2.history 1).jobs = [.message echo] ∧ p.1.invoking.storage.read 6 7 = some [1] := by
  rw [List.replicate_succ]
  obtain ⟨p, hrun, -, hjobs, hrest, hread, hrooms⟩ := bothRaise_run (List.replicate 65535 0)
  have hstart : (recordedRooms (fun _ => 0) registryOfTwo).Init
      (raisingStart (0 :: List.replicate 65535 0)) := ⟨⟨fun _ => rfl, fun _ => rfl⟩, rfl⟩
  have hreach : (recordedRooms (fun _ => 0) registryOfTwo).Reachable p :=
    (TransitionSystem.ReachWhere.of_runWhere (.init hstart) bothRaise hrun).reachable
  have hapart : RoomsApart registryOfTwo p.2.start := hrooms ▸ raisingRooms_apart _
  exact ⟨p, hrun, (room_is_sequential hreach hapart 1 hrest).1, hjobs, hread⟩

end WasmHot
