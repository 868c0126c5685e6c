import WasmHot.Concurrent.StorageEntries
import WasmHot.Lib.Linearizability

/-!
# The calls of ComponentStorage are linearizable

`WasmHot.Concurrent.StorageEntries` has the critical sections of the calls. Here threads make whole
calls through them, and the calls that have returned are kept with their results. `PlainMap.perform`
is what the storage is for: a map from an object id and a component type to bytes.

Almost every call can be ordered where it leaves its last critical section. The exception is a first
`Write` whose entry a `RemoveAll` has erased before the assignment: it assigns to a copy that no
other call can reach, and returns long after readers have seen the object without components. It is
ordered right before that `RemoveAll`, which is in the past when the `Write` returns, so its place
depends on what the other threads have done in between.
-/

namespace WasmHot

/-- A call of `ComponentStorage` with its arguments. -/
inductive StorageOp
  | read (objectId : UInt64) (type : ComponentType)
  | write (objectId : UInt64) (type : ComponentType) (data : ComponentData)
  /-- The `Write` that takes a schema and compares `total_size` with the bytes. -/
  | writeChecked (objectId : UInt64) (type : ComponentType) (totalSize : UInt32)
      (data : ComponentData)
  | remove (objectId : UInt64) (type : ComponentType)
  | removeAll (objectId : UInt64)
  deriving DecidableEq

/-- What the caller gets. -/
inductive StorageResult
  /-- The argument of the callback of `Read`. -/
  | component (data : Option ComponentData)
  /-- The return of a call without a result. -/
  | done
  | flag (value : Bool)
  deriving DecidableEq

/-- A plain map from object id and component type to bytes. -/
abbrev PlainMap := UInt64 → ComponentType → Option ComponentData

namespace PlainMap

/-- The map without bytes. -/
def empty : PlainMap := fun _ _ => none

/-- The map with one component replaced. -/
def set (m : PlainMap) (objectId : UInt64) (type : ComponentType) (data : Option ComponentData) :
    PlainMap :=
  fun id type' => if id = objectId ∧ type' = type then data else m id type'

/-- The map without the components of one object. -/
def clear (m : PlainMap) (objectId : UInt64) : PlainMap :=
  fun id type => if id = objectId then none else m id type

/-- The calls, on a plain map. -/
def perform : SequentialSpec StorageOp StorageResult PlainMap
  | .read objectId type, m => (.component (m objectId type), m)
  | .write objectId type data, m => (.done, m.set objectId type (some data))
  | .writeChecked objectId type totalSize data, m =>
      if data.length = totalSize.toNat then (.flag true, m.set objectId type (some data))
      else (.flag false, m)
  | .remove objectId type, m => (.flag (m objectId type).isSome, m.set objectId type none)
  | .removeAll objectId, m => (.done, m.clear objectId)

end PlainMap

namespace StorageOp

/-- The access the call makes to the component of an entry, if it gets that far. -/
def storageCall : StorageOp → Option StorageCall
  | .read objectId type => some ⟨objectId, type, .read⟩
  | .write objectId type data => some ⟨objectId, type, .assign data⟩
  | .writeChecked objectId type totalSize data =>
      if data.length = totalSize.toNat then some ⟨objectId, type, .assign data⟩ else none
  | .remove objectId type => some ⟨objectId, type, .erase⟩
  | .removeAll _ => none

/-- What a call returns that has accessed these components. -/
def resultOn (components : ObjectComponents) : StorageOp → StorageResult
  | .read _ type => .component (components.lookup type)
  | .write _ _ _ => .done
  | .writeChecked _ _ _ _ => .flag true
  | .remove _ type => .flag (components.lookup type).isSome
  | .removeAll _ => .done

/-- What a call returns that is over without an access: no entry, or bytes of a wrong size. -/
def earlyResult : StorageOp → StorageResult
  | .read _ _ => .component none
  | .write _ _ _ => .done
  | .writeChecked _ _ _ _ => .flag false
  | .remove _ _ => .flag false
  | .removeAll _ => .done

/-- The first critical section of a call. A `Write` of a wrong size has none. -/
def enter (op : StorageOp) (t : ThreadId) (s : StorageEntries) : Option StorageEntries :=
  match op with
  | .removeAll objectId => s.removeAll objectId
  | _ =>
      match op.storageCall with
      | some call => s.lookupEntry t call
      | none => some s

end StorageOp

/-- A call that has begun, and the time of its first step. -/
structure RunningCall where
  op : StorageOp
  invoked : ℕ
  deriving DecidableEq

/-- The storage with the threads that call it. `clock` counts the steps, and `completed` has the
calls in the order of their returns. -/
structure StorageClients where
  entries : StorageEntries
  running : UnorderedMap ThreadId RunningCall
  clock : ℕ
  completed : List (CompletedCall StorageOp StorageResult)
  deriving DecidableEq

/-- One critical section of a call. -/
inductive ClientAction
  /-- The thread makes a call and goes through its first critical section. -/
  | call (t : ThreadId) (op : StorageOp)
  | insertEntry (t : ThreadId)
  | accessEntry (t : ThreadId)

namespace StorageClients

/-- The storage before the first call. -/
def start : StorageClients := ⟨.empty, ∅, 0, []⟩

/-- The call returns in this step. -/
def finish (s : StorageClients) (op : StorageOp) (invoked : ℕ) (result : StorageResult) :
    StorageClients :=
  { s with
    clock := s.clock + 1
    completed := s.completed ++ [⟨op, result, invoked, s.clock⟩] }

/-- A call begins. It is over at once if it leaves the thread outside of the storage. -/
def call (s : StorageClients) (t : ThreadId) (op : StorageOp) : Option StorageClients :=
  if s.running.lookup t = none then
    (op.enter t s.entries).map fun entries =>
      if entries.phases.lookup t = none then
        { s with entries }.finish op s.clock op.earlyResult
      else
        { s with
          entries
          running := s.running.insert t ⟨op, s.clock⟩
          clock := s.clock + 1 }
  else none

/-- A first `Write` inserts its entry. -/
def insertEntry (s : StorageClients) (t : ThreadId) : Option StorageClients :=
  (s.entries.insertEntry t).map fun entries => { s with entries, clock := s.clock + 1 }

/-- A call accesses its entry and returns. -/
def accessEntry (s : StorageClients) (t : ThreadId) : Option StorageClients :=
  match s.running.lookup t, (s.entries.phases.lookup t).bind StoragePhase.target with
  | some running, some (_, entry) =>
      (s.entries.accessEntry t).map fun entries =>
        { s with entries, running := s.running.erase t }.finish running.op running.invoked
          (running.op.resultOn ((s.entries.components.lookup entry).getD ∅))
  | _, _ => none

/-- The step of an action, where it is enabled. -/
def step (s : StorageClients) : ClientAction → Option StorageClients
  | .call t op => s.call t op
  | .insertEntry t => s.insertEntry t
  | .accessEntry t => s.accessEntry t

end StorageClients

/-- All interleavings of the critical sections of any calls by any threads. -/
def storageClients : TransitionSystem StorageClients ClientAction where
  Init s := s = .start
  step := StorageClients.step

/-! ## The plain map -/

namespace PlainMap

variable {m : PlainMap} {objectId : UInt64} {type : ComponentType} {op : StorageOp}
  {call : StorageCall}

theorem set_self {data : Option ComponentData} (h : m objectId type = data) :
    m.set objectId type data = m := by
  funext id type'
  unfold set
  split_ifs with hat
  · rw [hat.1, hat.2, h]
  · rfl

theorem clear_set (m : PlainMap) (objectId : UInt64) (type : ComponentType)
    (data : Option ComponentData) :
    (m.set objectId type data).clear objectId = m.clear objectId := by
  funext id type'
  unfold clear set
  split_ifs with hid hat
  · rfl
  · exact absurd hat.1 hid
  · rfl

/-- A call that accesses what the map has under its key returns and leaves what the map does. -/
theorem perform_access {components : ObjectComponents} (hcall : op.storageCall = some call)
    (hfound : components.lookup call.type = m call.objectId call.type) :
    perform op m = (op.resultOn components,
      m.set call.objectId call.type (call.outcome (m call.objectId call.type))) := by
  cases op with
  | read objectId type =>
    cases hcall
    rw [StorageOp.resultOn, hfound]
    exact congrArg (Prod.mk _) (set_self rfl).symm
  | write objectId type data =>
    cases hcall
    rfl
  | writeChecked objectId type totalSize data =>
    simp only [StorageOp.storageCall, Option.ite_none_right_eq_some] at hcall
    obtain ⟨hsize, hcall⟩ := hcall
    cases hcall
    rw [perform, if_pos hsize]
    rfl
  | remove objectId type =>
    cases hcall
    rw [StorageOp.resultOn, hfound]
    rfl
  | removeAll objectId => cases hcall

/-- A `Read` or `Remove` of a component that the map does not have. -/
theorem perform_absent (hcall : op.storageCall = some call)
    (haccess : ∀ data, call.access ≠ .assign data) (habsent : m call.objectId call.type = none) :
    perform op m = (op.earlyResult, m) := by
  cases op with
  | read objectId type =>
    cases hcall
    rw [perform, habsent]
    rfl
  | write objectId type data =>
    cases hcall
    exact absurd rfl (haccess data)
  | writeChecked objectId type totalSize data =>
    simp only [StorageOp.storageCall, Option.ite_none_right_eq_some] at hcall
    obtain ⟨-, hcall⟩ := hcall
    cases hcall
    exact absurd rfl (haccess data)
  | remove objectId type =>
    cases hcall
    rw [perform, habsent, set_self habsent]
    rfl
  | removeAll objectId => cases hcall

/-- A `Write` is absorbed by a `RemoveAll` of its object, and its result depends on nothing. -/
theorem absorbed_removeAll {main : CompletedCall StorageOp StorageResult} {data : ComponentData}
    (components : ObjectComponents) (invoked returned : ℕ) (hcall : op.storageCall = some call)
    (haccess : call.access = .assign data) (hmain : main.op = .removeAll call.objectId) :
    SequentialSpec.Absorbed perform ⟨op, op.resultOn components, invoked, returned⟩ main := by
  intro m
  rw [hmain]
  cases op with
  | read objectId type =>
    cases hcall
    cases haccess
  | write objectId type data =>
    cases hcall
    exact ⟨rfl, congrArg (Prod.mk _) (clear_set m objectId type _)⟩
  | writeChecked objectId type totalSize data =>
    simp only [StorageOp.storageCall, Option.ite_none_right_eq_some] at hcall
    obtain ⟨hsize, hcall⟩ := hcall
    cases hcall
    dsimp only
    rw [perform, if_pos hsize]
    exact ⟨rfl, congrArg (Prod.mk _) (clear_set m objectId type _)⟩
  | remove objectId type =>
    cases hcall
    cases haccess
  | removeAll objectId => cases hcall

end PlainMap

/-- The first critical section is that of `RemoveAll` or the lookup of an access; without either the
size check has failed. -/
theorem StorageOp.enter_eq {op : StorageOp} {t : ThreadId} {s s' : StorageEntries}
    (h : op.enter t s = some s') :
    (∃ objectId, op = .removeAll objectId ∧ s.removeAll objectId = some s') ∨
      (∃ call, op.storageCall = some call ∧ s.lookupEntry t call = some s') ∨
      (s' = s ∧ ∀ m, PlainMap.perform op m = (op.earlyResult, m)) := by
  cases op with
  | read objectId type => exact Or.inr (Or.inl ⟨_, rfl, h⟩)
  | write objectId type data => exact Or.inr (Or.inl ⟨_, rfl, h⟩)
  | writeChecked objectId type totalSize data =>
    by_cases hsize : data.length = totalSize.toNat
    · simp only [enter, storageCall, if_pos hsize] at h ⊢
      exact Or.inr (Or.inl ⟨_, rfl, h⟩)
    · simp only [enter, storageCall, if_neg hsize, Option.some.injEq] at h
      refine Or.inr (Or.inr ⟨h.symm, fun m => ?_⟩)
      rw [PlainMap.perform, if_neg hsize]
      rfl
  | remove objectId type => exact Or.inr (Or.inl ⟨_, rfl, h⟩)
  | removeAll objectId => exact Or.inl ⟨objectId, rfl, h⟩

/-! ## Where the running calls stand -/

/-- The calls in the order in which they take effect. -/
abbrev StorageBlocks := List (CallBlock StorageOp StorageResult)

namespace StoragePhase

variable {s s' : StorageEntries} {blocks blocks' : StorageBlocks} {r : RunningCall}
  {phase : StoragePhase}

/-- What is known of a thread in this phase, running `r`. The entry that a first `Write` will assign
to is stored, or it is gone for good and the `RemoveAll` that erased it took effect while the
`Write` was running. -/
def Tracks (s : StorageEntries) (blocks : StorageBlocks) (r : RunningCall) : StoragePhase → Prop
  | .located call entry =>
      r.op.storageCall = some call ∧ s.store.lookup call.objectId = some entry
  | .missed call => r.op.storageCall = some call ∧ ∃ data, call.access = .assign data
  | .inserted call entry =>
      (r.op.storageCall = some call ∧ ∃ data, call.access = .assign data) ∧
        (s.store.lookup call.objectId = some entry ∨
          (entry < s.fresh ∧ s.components.lookup entry = none ∧
            ∃ b ∈ blocks, b.main.op = .removeAll call.objectId ∧ r.invoked ≤ b.time))

/-- What is known of a thread stays true as long as no stored entry goes away and no erased entry
comes back. -/
theorem Tracks.mono (h : phase.Tracks s blocks r)
    (hstore : ∀ id entry, s.store.lookup id = some entry → s'.store.lookup id = some entry)
    (hfresh : s.fresh ≤ s'.fresh)
    (hgone : ∀ entry < s.fresh, s.components.lookup entry = none →
      s'.components.lookup entry = none)
    (hblocks : CallBlock.Extend blocks blocks') : phase.Tracks s' blocks' r := by
  cases phase with
  | located call entry => exact ⟨h.1, hstore _ _ h.2⟩
  | missed call => exact h
  | inserted call entry =>
    obtain ⟨hcall, hstored | ⟨hold, herased, b, hb, hmain, htime⟩⟩ := h
    · exact ⟨hcall, Or.inl (hstore _ _ hstored)⟩
    · obtain ⟨b', hb', htime', hmain'⟩ := hblocks b hb
      refine ⟨hcall, Or.inr ⟨Nat.lt_of_lt_of_le hold hfresh, hgone entry hold herased, b', hb', ?_⟩⟩
      rw [htime', hmain']
      exact ⟨hmain, htime⟩

/-- What is known of a thread that is about to access an entry. -/
theorem Tracks.target {call : StorageCall} {entry : EntryId} (h : phase.Tracks s blocks r)
    (htarget : phase.target = some (call, entry)) :
    r.op.storageCall = some call ∧
      (s.store.lookup call.objectId = some entry ∨
        ((∃ data, call.access = .assign data) ∧ s.components.lookup entry = none ∧
          ∃ b ∈ blocks, b.main.op = .removeAll call.objectId ∧ r.invoked ≤ b.time)) := by
  cases phase with
  | located call entry =>
    cases htarget
    exact ⟨h.1, Or.inl h.2⟩
  | missed call => cases htarget
  | inserted call entry =>
    cases htarget
    obtain ⟨⟨hcall, hassign⟩, hstored | ⟨-, herased, hblock⟩⟩ := h
    · exact ⟨hcall, Or.inl hstored⟩
    · exact ⟨hcall, Or.inr ⟨hassign, herased, hblock⟩⟩

/-- A first `Write` whose entry a `RemoveAll` erases is recorded with the block of the
`RemoveAll`. -/
theorem Tracks.removeAll {objectId : UInt64} {t : ThreadId} {b : CallBlock StorageOp StorageResult}
    (h : phase.Tracks s blocks r) (hwf : s.WellFormed) (hstep : s.removeAll objectId = some s')
    (hphase : s.phases.lookup t = some phase) (hmain : b.main.op = .removeAll objectId)
    (htime : r.invoked ≤ b.time) : phase.Tracks s' (blocks ++ [b]) r := by
  obtain ⟨hfree, ⟨-, rfl⟩ | ⟨gone, hgone, rfl⟩⟩ := StorageEntries.removeAll_eq hstep
  · exact h.mono (fun _ _ h => h) le_rfl (fun _ _ h => h) (CallBlock.Extend.append _ _)
  cases phase with
  | located call entry =>
    -- The map lock is not shared.
    have hunshared := hfree t (UnorderedMap.mem_keys_of_lookup hphase)
    rw [hphase] at hunshared
    exact absurd rfl hunshared
  | missed call => exact h
  | inserted call entry =>
    obtain ⟨hcall, hentry⟩ := h
    refine ⟨hcall, ?_⟩
    rcases hentry with hstored | ⟨hold, herased, b', hb', hb'main⟩
    · by_cases hid : call.objectId = objectId
      · have hsame : entry = gone := by
          rw [hid, hgone] at hstored
          exact (Option.some.inj hstored).symm
        subst hsame
        have hb := List.mem_append_right blocks (List.mem_singleton_self b)
        refine Or.inr ⟨hwf.older _ _ hgone, ?_, b, hb, hid ▸ hmain, htime⟩
        exact (UnorderedMap.lookup_erase _ _ _).trans (if_pos rfl)
      · exact Or.inl ((UnorderedMap.lookup_erase _ _ _).trans ((if_neg hid).trans hstored))
    · refine Or.inr ⟨hold, ?_, b', List.mem_append_left _ hb', hb'main⟩
      refine (UnorderedMap.lookup_erase _ _ _).trans ?_
      rw [herased, ite_self]

end StoragePhase

namespace StorageClients

variable {s s' : StorageClients} {blocks blocks' : StorageBlocks} {t : ThreadId} {op : StorageOp}
  {entries : StorageEntries}

/-- Every thread inside the storage runs a call that began before now. -/
def Threads (s : StorageClients) (blocks : StorageBlocks) : Prop :=
  ∀ t phase, s.entries.phases.lookup t = some phase →
    ∃ r, s.running.lookup t = some r ∧ r.invoked < s.clock ∧ phase.Tracks s.entries blocks r

/-- The blocks explain the calls that have returned, and are ready for those that are running. -/
structure Accounted (s : StorageClients) (blocks : StorageBlocks) : Prop where
  wellFormed : s.entries.WellFormed
  threads : s.Threads blocks
  explains : Explains PlainMap.perform PlainMap.empty blocks s.entries.shows s.clock s.completed

/-- A step moves one thread and leaves what is known of the others true. -/
theorem Threads.frame (h : s.Threads blocks) (hclock : s.clock ≤ s'.clock)
    (hother : ∀ u, u ≠ t → s'.entries.phases.lookup u = s.entries.phases.lookup u ∧
      s'.running.lookup u = s.running.lookup u)
    (hat : ∀ phase, s'.entries.phases.lookup t = some phase →
      ∃ r, s'.running.lookup t = some r ∧ r.invoked < s'.clock ∧ phase.Tracks s'.entries blocks' r)
    (hkeep : ∀ u phase r, s.entries.phases.lookup u = some phase → r.invoked < s.clock →
      phase.Tracks s.entries blocks r → phase.Tracks s'.entries blocks' r) :
    s'.Threads blocks' := by
  intro u phase hphase
  by_cases hu : u = t
  · subst hu
    exact hat phase hphase
  · obtain ⟨hphases, hrunning⟩ := hother u hu
    rw [hphases] at hphase
    obtain ⟨r, hr, hinvoked, htracks⟩ := h u phase hphase
    exact ⟨r, hrunning.trans hr, Nat.lt_of_lt_of_le hinvoked hclock,
      hkeep u phase r hphase hinvoked htracks⟩

/-- A thread that runs no call is not inside the storage. -/
theorem Threads.idle (h : s.Threads blocks) (hidle : s.running.lookup t = none) :
    s.entries.phases.lookup t = none := by
  cases hphase : s.entries.phases.lookup t with
  | none => rfl
  | some phase =>
    obtain ⟨r, hr, -⟩ := h t phase hphase
    rw [hidle] at hr
    cases hr

/-! ## One step -/

/-- A call that is over in its first critical section takes effect there. -/
theorem Accounted.finish_early (h : s.Accounted blocks) (hidle : s.running.lookup t = none)
    (hphases : entries.phases = s.entries.phases) (hwf : entries.WellFormed)
    (hspec : PlainMap.perform op s.entries.shows = (op.earlyResult, entries.shows))
    (hkeep : ∀ u phase r (b : CallBlock StorageOp StorageResult), b.main.op = op →
      b.time = s.clock → s.entries.phases.lookup u = some phase → r.invoked < s.clock →
      phase.Tracks s.entries blocks r → phase.Tracks entries (blocks ++ [b]) r) :
    ∃ blocks', ({ s with entries }.finish op s.clock op.earlyResult).Accounted blocks' := by
  have hcommit := h.explains.commit (c := ⟨op, op.earlyResult, s.clock, s.clock⟩) le_rfl le_rfl hspec
  refine ⟨_, hwf, ?_, hcommit⟩
  refine h.threads.frame (t := t) (Nat.le_succ _) (fun u _ => ⟨congrArg _ hphases, rfl⟩) ?_ ?_
  · intro phase hphase
    have hnone : entries.phases.lookup t = none := by
      rw [hphases]
      exact h.threads.idle hidle
    exact absurd (hphase.symm.trans hnone) nofun
  · intro u phase r hphase hinvoked htracks
    exact hkeep u phase r _ rfl rfl hphase hinvoked htracks

/-- A call goes on after its first critical section. -/
theorem Accounted.go_on {phase : StoragePhase} (h : s.Accounted blocks)
    (htracks : phase.Tracks s.entries blocks ⟨op, s.clock⟩) :
    StorageClients.Accounted
      { s with
        entries := s.entries.enter t phase
        running := s.running.insert t ⟨op, s.clock⟩
        clock := s.clock + 1 } blocks := by
  refine ⟨⟨h.wellFormed.live, h.wellFormed.older, h.wellFormed.distinct⟩, ?_,
    h.explains.wait (Nat.le_succ _)⟩
  refine h.threads.frame (t := t) (Nat.le_succ _) (fun u hu => ⟨?_, ?_⟩) ?_
    fun _ _ _ _ _ htracks => htracks
  · exact (StorageEntries.lookup_enter s.entries t u phase).trans (if_neg hu)
  · exact (UnorderedMap.lookup_insert _ _ _ _).trans (if_neg hu)
  · intro phase' hphase
    rw [StorageEntries.lookup_enter, if_pos rfl] at hphase
    cases hphase
    exact ⟨⟨op, s.clock⟩, (UnorderedMap.lookup_insert _ _ _ _).trans (if_pos rfl),
      Nat.lt_succ_self _, htracks⟩

theorem Accounted.call (h : s.Accounted blocks) (hstep : s.call t op = some s') :
    ∃ blocks', s'.Accounted blocks' := by
  simp only [StorageClients.call, Option.ite_none_right_eq_some, Option.map_eq_some_iff] at hstep
  obtain ⟨hidle, entries, henter, rfl⟩ := hstep
  have hphase := h.threads.idle hidle
  rcases StorageOp.enter_eq henter with
    ⟨objectId, rfl, hremove⟩ | ⟨call, hcall, hlookup⟩ | ⟨rfl, hspec⟩
  -- A `RemoveAll` is one step, and takes effect in it.
  · obtain ⟨hwf, hshows⟩ := h.wellFormed.removeAll hremove
    have hphases : entries.phases = s.entries.phases := by
      obtain ⟨-, ⟨-, rfl⟩ | ⟨entry, -, rfl⟩⟩ := StorageEntries.removeAll_eq hremove
      · rfl
      · rfl
    rw [if_pos (hphases ▸ hphase)]
    refine h.finish_early hidle hphases hwf ?_ ?_
    · exact congrArg (Prod.mk _) (funext fun id => funext fun type => (hshows id type).symm)
    · intro u phase r b hmain htime hu hinvoked htracks
      exact htracks.removeAll h.wellFormed hremove hu hmain (htime ▸ hinvoked.le)
  -- The entry is found, or is missing for a `Write`, which goes on, or for another call, which
  -- ends.
  · rcases StorageEntries.lookupEntry_eq hlookup with
      ⟨entry, hentry, rfl⟩ | ⟨data, haccess, rfl⟩ | ⟨hnone, haccess, rfl⟩
    · rw [if_neg (by rw [StorageEntries.lookup_enter, if_pos rfl]; nofun)]
      exact ⟨blocks, h.go_on ⟨hcall, hentry⟩⟩
    · rw [if_neg (by rw [StorageEntries.lookup_enter, if_pos rfl]; nofun)]
      exact ⟨blocks, h.go_on ⟨hcall, data, haccess⟩⟩
    · -- No entry: the object shows no component.
      rw [if_pos hphase]
      refine h.finish_early hidle rfl h.wellFormed ?_ ?_
      · refine PlainMap.perform_absent hcall haccess ?_
        rw [StorageEntries.shows, hnone, Option.bind_none]
      · intro u phase r b _ _ _ _ htracks
        exact htracks.mono (fun _ _ h => h) le_rfl (fun _ _ h => h) (CallBlock.Extend.append _ _)
  · rw [if_pos hphase]
    refine h.finish_early hidle rfl h.wellFormed (hspec _) ?_
    intro u phase r b _ _ _ _ htracks
    exact htracks.mono (fun _ _ h => h) le_rfl (fun _ _ h => h) (CallBlock.Extend.append _ _)

theorem Accounted.insertEntry (h : s.Accounted blocks) (hstep : s.insertEntry t = some s') :
    s'.Accounted blocks := by
  simp only [StorageClients.insertEntry, Option.map_eq_some_iff] at hstep
  obtain ⟨entries, hinsert, rfl⟩ := hstep
  obtain ⟨hwf, hshows⟩ := h.wellFormed.insertEntry hinsert
  refine ⟨hwf, ?_, hshows ▸ h.explains.wait (Nat.le_succ _)⟩
  obtain ⟨call, hmissed, hcases⟩ := StorageEntries.insertEntry_eq hinsert
  obtain ⟨r, hr, hinvoked, hcall⟩ := h.threads t _ hmissed
  have hat : ∀ {inner : StorageEntries} {entry : EntryId} {phase : StoragePhase},
      (inner.enter t (.inserted call entry)).phases.lookup t = some phase →
        phase = .inserted call entry := by
    intro inner entry phase hphase
    rw [StorageEntries.lookup_enter, if_pos rfl] at hphase
    exact (Option.some.inj hphase).symm
  -- Another `Write` may have been faster, and then its entry is taken.
  rcases hcases with ⟨entry, hentry, rfl⟩ | ⟨hnone, rfl⟩
  · refine h.threads.frame (t := t) (Nat.le_succ _)
      (fun u hu => ⟨(StorageEntries.lookup_enter _ _ _ _).trans (if_neg hu), rfl⟩) ?_
      fun _ _ _ _ _ htracks => htracks
    intro phase hphase
    rw [hat hphase]
    exact ⟨r, hr, Nat.lt_succ_of_lt hinvoked, hcall, Or.inl hentry⟩
  · refine h.threads.frame (t := t) (Nat.le_succ _)
      (fun u hu => ⟨(StorageEntries.lookup_enter _ _ _ _).trans (if_neg hu), rfl⟩) ?_ ?_
    · intro phase hphase
      rw [hat hphase]
      exact ⟨r, hr, Nat.lt_succ_of_lt hinvoked, hcall,
        Or.inl ((UnorderedMap.lookup_insert _ _ _ _).trans (if_pos rfl))⟩
    · intro u phase r' _ _ htracks
      -- A new entry takes none away, and is younger than any that was erased.
      refine htracks.mono (fun id entry hid => ?_) (Nat.le_succ _) (fun entry hold hgone => ?_)
        (CallBlock.Extend.refl _)
      · exact (UnorderedMap.lookup_insert _ _ _ _).trans
          ((if_neg (UnorderedMap.ne_of_lookup hid hnone)).trans hid)
      · exact (UnorderedMap.lookup_insert _ _ _ _).trans ((if_neg hold.ne).trans hgone)

/-- A thread returns from its access. -/
theorem Threads.return_access {r : RunningCall} {result : StorageResult}
    (h : s.Threads blocks) (hphases : entries.phases = s.entries.phases.erase t)
    (hstore : entries.store = s.entries.store) (hfresh : entries.fresh = s.entries.fresh)
    (hgone : ∀ entry, s.entries.components.lookup entry = none →
      entries.components.lookup entry = none)
    (hblocks : CallBlock.Extend blocks blocks') :
    ({ s with entries, running := s.running.erase t }.finish r.op r.invoked result).Threads
      blocks' := by
  refine h.frame (t := t) (Nat.le_succ _) (fun u hu => ⟨?_, ?_⟩) ?_ ?_
  · show entries.phases.lookup u = _
    rw [hphases, UnorderedMap.lookup_erase, if_neg hu]
  · exact (UnorderedMap.lookup_erase _ _ _).trans (if_neg hu)
  · intro phase hphase
    have hnone : entries.phases.lookup t = none := by
      rw [hphases, UnorderedMap.lookup_erase, if_pos rfl]
    exact absurd (hphase.symm.trans hnone) nofun
  · intro u phase r _ _ htracks
    exact htracks.mono (fun id entry hid => (congrArg _ hstore).trans hid) hfresh.ge
      (fun entry _ => hgone entry) hblocks

theorem Accounted.accessEntry (h : s.Accounted blocks) (hstep : s.accessEntry t = some s') :
    ∃ blocks', s'.Accounted blocks' := by
  unfold StorageClients.accessEntry at hstep
  split at hstep
  · next r call entry hr htarget =>
    obtain ⟨entries, haccess, rfl⟩ := Option.map_eq_some_iff.mp hstep
    obtain ⟨phase, hphase, hphaseTarget⟩ := Option.bind_eq_some_iff.mp htarget
    obtain ⟨r', hr', hinvoked, htracks⟩ := h.threads t phase hphase
    cases hr.symm.trans hr'
    obtain ⟨call', entry', htarget', haccess⟩ := StorageEntries.accessEntry_eq haccess
    cases htarget.symm.trans htarget'
    -- The entry is still in the table, or it was erased while the call had it in its hand.
    obtain ⟨hcall, hstored | ⟨⟨data, hassign⟩, herased, b, hb, hmain, htime⟩⟩ :=
      htracks.target hphaseTarget
    · rcases haccess with ⟨components, hfound, hentries⟩ | ⟨hfound, -⟩
      · -- The access goes to what the object shows, and takes effect now.
        have hshown : components.lookup call.type = s.entries.shows call.objectId call.type := by
          rw [StorageEntries.shows, hstored, Option.bind_some, hfound, Option.bind_some]
        obtain ⟨hwf, hshows⟩ := h.wellFormed.access hstored hfound hentries
        have hset : entries.shows = PlainMap.set s.entries.shows call.objectId call.type
            (call.outcome (s.entries.shows call.objectId call.type)) := by
          funext id type
          rw [hshows, PlainMap.set]
          split_ifs with hat
          · rw [hat.1, hat.2]
          · rfl
        rw [hfound, Option.getD_some]
        have hspec := PlainMap.perform_access hcall hshown
        rw [← hset] at hspec
        refine ⟨_, hwf, ?_, h.explains.commit (c := ⟨r.op, r.op.resultOn components, r.invoked,
          s.clock⟩) hinvoked.le le_rfl hspec⟩
        subst hentries
        refine h.threads.return_access rfl rfl rfl (fun e he => ?_) (CallBlock.Extend.append _ _)
        exact (UnorderedMap.lookup_insert _ _ _ _).trans
          ((if_neg (UnorderedMap.ne_of_lookup hfound he).symm).trans he)
      -- An entry in the table has components, so the access to nothing is excluded.
      · have hmem := h.wellFormed.live _ _ hstored
        rw [Finmap.lookup_eq_none] at hfound
        exact absurd hmem hfound
    · rcases haccess with ⟨components, hfound, -⟩ | ⟨-, hentries⟩
      · rw [herased] at hfound
        cases hfound
      · -- The copy is unreachable, and the call takes effect before the `RemoveAll` in the past.
        obtain ⟨blocks', hexplains, hblocks⟩ := h.explains.absorb hb htime
          ((h.explains.past b hb).le) (PlainMap.absorbed_removeAll
            ((s.entries.components.lookup entry).getD ∅) r.invoked s.clock hcall hassign hmain)
        subst hentries
        refine ⟨blocks', ⟨h.wellFormed.live, h.wellFormed.older, h.wellFormed.distinct⟩, ?_,
          hexplains.wait (Nat.le_succ _)⟩
        exact h.threads.return_access rfl rfl rfl (fun _ he => he) hblocks
  · cases hstep

theorem Accounted.step {a : ClientAction} (h : s.Accounted blocks) (hstep : s.step a = some s') :
    ∃ blocks', s'.Accounted blocks' := by
  cases a with
  | call t op => exact h.call hstep
  | insertEntry t => exact ⟨blocks, h.insertEntry hstep⟩
  | accessEntry t => exact h.accessEntry hstep

end StorageClients

/-- In every interleaving of the critical sections of any calls by any threads, the completed calls
have a sequential order that respects the order of non-overlapping calls and in which each of them
returns what the plain map gives. -/
theorem calls_linearizable {s : StorageClients} (h : storageClients.Reachable s) :
    ∃ order, SequentialSpec.Linearization PlainMap.perform PlainMap.empty s.completed order := by
  have hinv : ∃ blocks, s.Accounted blocks := by
    refine h.invariant (I := fun s => ∃ blocks, s.Accounted blocks) ?_
      fun s a s' ⟨blocks, hinv⟩ _ hstep => hinv.step hstep
    rintro s rfl
    exact ⟨[], ⟨fun _ _ => nofun, fun _ _ => nofun, fun _ _ _ => nofun⟩, fun _ _ => nofun,
      Explains.nil PlainMap.perform PlainMap.empty 0⟩
  obtain ⟨blocks, hinv⟩ := hinv
  exact ⟨_, hinv.explains.linearization⟩

/-- Thread 0 inserts an entry for its first `Write` to object 5. Before it assigns, thread 1 removes
the object and reads no component; after it has returned, thread 1 still reads none. -/
def lateAssignment : List ClientAction :=
  [.call 0 (.write 5 7 [1]), .insertEntry 0, .call 1 (.removeAll 5), .call 1 (.read 5 7),
    .accessEntry 0, .call 1 (.read 5 7)]

/-- `calls_linearizable` for `lateAssignment`. -/
theorem calls_linearizable_lateAssignment :
    ∃ s, storageClients.run .start lateAssignment = some s ∧
      s.completed = [⟨.removeAll 5, .done, 2, 2⟩, ⟨.read 5 7, .component none, 3, 3⟩,
        ⟨.write 5 7 [1], .done, 0, 4⟩, ⟨.read 5 7, .component none, 5, 5⟩] ∧
      ∃ order, SequentialSpec.Linearization PlainMap.perform PlainMap.empty s.completed order :=
  ⟨_, rfl, rfl, calls_linearizable (.of_run (.init rfl) lateAssignment rfl)⟩

end WasmHot
