import WasmHot.Core.MigrationProgram
import WasmHot.Lib.Independence
import Mathlib.Logic.Function.Basic

/-!
# Migrations of different objects

`ObjectRegistry::Migrate` holds the map lock only in shared mode, so two migrations of different
objects run at the same time. Here each of them is cut into steps: the copy of the header into the
view, the search for the function of the next pair, every storage access of a function, the search
or creation of an entry by `Write` apart from its assignment, and the header's way back.

A call sees its phase, its registry entry and its storage entry, and changes nothing else. So the
threads are independent, and `migrations_interleave` follows from the general theorem: whatever the
interleaving, two calls end with what they give one after the other, in either order.
-/

namespace WasmHot

/-- `store_` has an entry for the object afterwards, as before the assignment in `Write`. -/
def ComponentStorage.ensureEntry (s : ComponentStorage) (objectId : UInt64) : ComponentStorage :=
  match s.store.lookup objectId with
  | none => ⟨s.store.insert objectId ∅⟩
  | some _ => s

/-- The arguments of a call of `Migrate`. -/
structure MigrateTask where
  objectId : UInt64
  target : UInt32

/-- Where a call of `Migrate` is. -/
inductive MigratePhase
  /-- Before the view is built. -/
  | waiting
  /-- At the head of the loop. -/
  | looping (current : UInt32) (view : GameObject)
  /-- In the function for the pair that starts at `current`. -/
  | inFunc (current : UInt32) (view : GameObject) (body : MigrationProgram)
  /-- In a `Write` of that function, which has found its entry or created it. -/
  | assigning (current : UInt32) (view : GameObject) (type : ComponentType) (data : ComponentData)
      (body : MigrationProgram)
  | returned (ok : Bool)

/-- The view that the call works on. -/
def MigratePhase.view : MigratePhase → Option GameObject
  | .looping _ view => some view
  | .inFunc _ view _ => some view
  | .assigning _ view _ _ _ => some view
  | _ => none

/-- One call and the singletons. -/
structure MigrateCall where
  registry : ObjectRegistry
  storage : ComponentStorage
  phase : MigratePhase

namespace MigrateCall

/-- The start of `Migrate`, up to its loop. -/
def enter (task : MigrateTask) (c : MigrateCall) : MigrateCall :=
  match c.registry.get task.objectId with
  | none => { c with phase := .returned false }
  | some view => { c with phase := .looping view.header.schemaVersion view }

/-- The head of the loop: at the target the header is copied back, before it `MigrateStep` looks for
its function. -/
def loopHead (e : ProgramEngine) (task : MigrateTask) (c : MigrateCall) (current : UInt32)
    (view : GameObject) : MigrateCall :=
  if current = task.target then
    { c with
      registry := ⟨c.registry.objects.insert task.objectId view.header⟩
      phase := .returned true }
  else
    let next := nextVersion current task.target
    match e.program (MigrationEngine.makeKey current next) with
    | none => { c with phase := .returned false }
    | some func => { c with phase := .inFunc current view (func view current next) }

/-- The next call that the function makes, or its return. -/
def funcStep (task : MigrateTask) (c : MigrateCall) (current : UInt32) (view : GameObject) :
    MigrationProgram → MigrateCall
  | .ret ok schemaVersion objectType =>
      let next := nextVersion current task.target
      if ok then
        { c with phase := .looping next ((view.returned schemaVersion objectType).setVersion next) }
      else { c with phase := .returned false }
  | .read type next =>
      { c with phase := .inFunc current view (next (view.readComponent type c.storage)) }
  | .write type data next =>
      match view.storage with
      | .null => { c with phase := .inFunc current view next }
      | .singleton =>
          { c with
            storage := c.storage.ensureEntry view.header.objectId
            phase := .assigning current view type data next }
  | .remove type next =>
      { c with
        storage := (view.removeComponent type c.storage).2
        phase := .inFunc current view (next (view.removeComponent type c.storage).1) }

/-- The next step of the call. -/
def step (e : ProgramEngine) (task : MigrateTask) (c : MigrateCall) : Option MigrateCall :=
  match c.phase with
  | .waiting => some (c.enter task)
  | .looping current view => some (c.loopHead e task current view)
  | .inFunc current view body => some (c.funcStep task current view body)
  | .assigning current view type data body =>
      some { c with
        storage := c.storage.write view.header.objectId type data
        phase := .inFunc current view body }
  | .returned _ => none

end MigrateCall

/-- The singletons and a call of `Migrate` for each thread. -/
structure MigratingWorld (ι : Type*) where
  registry : ObjectRegistry
  storage : ComponentStorage
  phase : ι → MigratePhase

namespace MigratingWorld

variable {ι : Type*} [DecidableEq ι]

/-- No call has started. -/
def start (r : ObjectRegistry) (s : ComponentStorage) : MigratingWorld ι :=
  ⟨r, s, fun _ => .waiting⟩

/-- The call of a thread. -/
def call (w : MigratingWorld ι) (i : ι) : MigrateCall := ⟨w.registry, w.storage, w.phase i⟩

/-- The thread has gone on in its call. -/
def withCall (w : MigratingWorld ι) (i : ι) (c : MigrateCall) : MigratingWorld ι :=
  ⟨c.registry, c.storage, Function.update w.phase i c.phase⟩

/-- The next step of a thread. -/
def step (e : ProgramEngine) (tasks : ι → MigrateTask) (w : MigratingWorld ι) (i : ι) :
    Option (MigratingWorld ι) :=
  ((w.call i).step e (tasks i)).map (w.withCall i)

end MigratingWorld

/-- Calls of `Migrate` with these arguments, by one thread each. -/
def migrations {ι : Type*} [DecidableEq ι] (e : ProgramEngine) (tasks : ι → MigrateTask) :
    TransitionSystem (MigratingWorld ι) ι where
  Init w := ∃ r s, ObjectRegistry.Built e r ∧ w = .start r s
  step := MigratingWorld.step e tasks

/-! ## One call on its own -/

namespace ComponentStorage

/-- A `Read` looks at the entry of its object. -/
theorem read_congr {s t : ComponentStorage} {id : UInt64} (type : ComponentType)
    (h : s.store.lookup id = t.store.lookup id) : s.read id type = t.read id type := by
  unfold read
  rw [h]

/-- `Remove` returns whether a `Read` would have found the component. -/
theorem remove_fst (s : ComponentStorage) (id : UInt64) (type : ComponentType) :
    (s.remove id type).1 = (s.read id type).isSome := by
  unfold remove read
  cases s.store.lookup id <;> rfl

theorem lookup_write (s : ComponentStorage) (id id' : UInt64) (type : ComponentType)
    (data : ComponentData) :
    (s.write id type data).store.lookup id' =
      if id' = id then some (((s.store.lookup id).getD ∅).insert type data)
      else s.store.lookup id' :=
  UnorderedMap.lookup_insert _ _ _ _

theorem lookup_remove (s : ComponentStorage) (id id' : UInt64) (type : ComponentType) :
    (s.remove id type).2.store.lookup id' =
      if id' = id then (s.store.lookup id).map (Finmap.erase type) else s.store.lookup id' := by
  unfold remove
  cases hentry : s.store.lookup id with
  | none =>
    by_cases hid : id' = id
    · rw [if_pos hid, hid, hentry, Option.map_none]
    · rw [if_neg hid]
  | some components => exact UnorderedMap.lookup_insert _ _ _ _

theorem lookup_ensureEntry (s : ComponentStorage) (id id' : UInt64) :
    (s.ensureEntry id).store.lookup id' =
      if id' = id then some ((s.store.lookup id).getD ∅) else s.store.lookup id' := by
  unfold ensureEntry
  cases hentry : s.store.lookup id with
  | none => exact UnorderedMap.lookup_insert _ _ _ _
  | some components =>
    by_cases hid : id' = id
    · rw [if_pos hid, hid]
      exact hentry
    · rw [if_neg hid]

/-- `Write` finds or creates the entry and assigns. -/
theorem write_ensureEntry (s : ComponentStorage) (objectId : UInt64) (type : ComponentType)
    (data : ComponentData) :
    (s.ensureEntry objectId).write objectId type data = s.write objectId type data := by
  apply congrArg ComponentStorage.mk
  apply Finmap.ext_lookup
  intro id
  change Finmap.lookup id ((s.ensureEntry objectId).write objectId type data).store =
    Finmap.lookup id (s.write objectId type data).store
  rw [lookup_write, lookup_write, lookup_ensureEntry, lookup_ensureEntry]
  split <;> simp

end ComponentStorage

namespace MigrateCall

variable {e : ProgramEngine} {task : MigrateTask} {c c' d : MigrateCall}

/-- Any number of steps of a call. -/
def Runs (e : ProgramEngine) (task : MigrateTask) : MigrateCall → MigrateCall → Prop :=
  Relation.ReflTransGen fun c c' => c.step e task = some c'

/-- The calls a function makes run it to its return. -/
theorem runs_body (current : UInt32) (view : GameObject) (r : ObjectRegistry)
    (body : MigrationProgram) (s : ComponentStorage) :
    ∃ schemaVersion objectType,
      (body.run view s).obj = view.returned schemaVersion objectType ∧
      Runs e task ⟨r, s, .inFunc current view body⟩
        ⟨r, (body.run view s).storage,
          .inFunc current view (.ret (body.run view s).ok schemaVersion objectType)⟩ := by
  induction body generalizing s with
  | ret ok schemaVersion objectType => exact ⟨schemaVersion, objectType, rfl, .refl⟩
  | read type next ih =>
    obtain ⟨schemaVersion, objectType, hview, hruns⟩ := ih (view.readComponent type s) s
    exact ⟨schemaVersion, objectType, hview, .head rfl hruns⟩
  | write type data next ih =>
    obtain ⟨schemaVersion, objectType, hview, hruns⟩ := ih (view.writeComponent type data s)
    refine ⟨schemaVersion, objectType, hview, ?_⟩
    cases hptr : view.storage with
    | null =>
      have hstorage : view.writeComponent type data s = s := by
        simp only [GameObject.writeComponent, hptr]
      refine .head ?_ hruns
      simp only [step, funcStep, hptr, hstorage]
    | singleton =>
      have hstorage : view.writeComponent type data s =
          s.write view.header.objectId type data := by
        simp only [GameObject.writeComponent, hptr]
      -- A write is two steps, the insertion of the entry and the assignment to it.
      refine .head (b := ⟨r, s.ensureEntry view.header.objectId,
        .assigning current view type data next⟩) ?_ (.head ?_ hruns)
      · simp only [step, funcStep, hptr]
      · simp only [step, ComponentStorage.write_ensureEntry, hstorage]
  | remove type next ih =>
    obtain ⟨schemaVersion, objectType, hview, hruns⟩ :=
      ih (view.removeComponent type s).1 (view.removeComponent type s).2
    exact ⟨schemaVersion, objectType, hview, .head rfl hruns⟩

/-- A round of the loop is a step of the engine. -/
theorem runs_round (r : ObjectRegistry) {p : Progress} (hne : p.current ≠ task.target) :
    Runs e task ⟨r, p.storage, .looping p.current p.obj⟩
      ⟨r, (e.engine.stepOf task.target p).storage,
        if (e.engine.stepOf task.target p).ok then
          .looping (nextVersion p.current task.target)
            ((e.engine.stepOf task.target p).obj.setVersion (nextVersion p.current task.target))
        else .returned false⟩ := by
  rw [MigrationEngine.stepOf, e.migrateStep_eq]
  cases hfunc : e.program
      (MigrationEngine.makeKey p.current (nextVersion p.current task.target)) with
  | none =>
    refine .single ?_
    simp only [step, loopHead, if_neg hne, hfunc, Bool.false_eq_true, if_false]
  | some func =>
    obtain ⟨schemaVersion, objectType, hview, hruns⟩ := runs_body p.current p.obj r
      (func p.obj p.current (nextVersion p.current task.target)) p.storage
    refine .head ?_ (hruns.tail ?_)
    · simp only [step, loopHead, if_neg hne, hfunc]
    · dsimp only
      rw [hview, step]
      dsimp only [funcStep]
      split <;> rfl

/-- The loop of a call is the loop of the engine. -/
theorem runs_loop (r : ObjectRegistry) (p : Progress) :
    Runs e task ⟨r, p.storage, .looping p.current p.obj⟩
      ⟨if (e.engine.migrateLoop task.target p).ok then
          ⟨r.objects.insert task.objectId (e.engine.migrateLoop task.target p).obj.header⟩ else r,
        (e.engine.migrateLoop task.target p).storage,
        .returned (e.engine.migrateLoop task.target p).ok⟩ := by
  induction p using MigrationEngine.walk_induction e.engine task.target with
  | done p hcur =>
    rw [MigrationEngine.migrateLoop_of_eq hcur]
    refine .single ?_
    simp only [step, loopHead, hcur, if_true]
  | stuck p hstuck =>
    rw [MigrationEngine.migrateLoop_of_stuck hstuck]
    have hround := runs_round (e := e) r hstuck.1
    rw [hstuck.2] at hround ⊢
    exact hround
  | round p q hadv ih =>
    rw [MigrationEngine.migrateLoop_of_advances hadv]
    obtain ⟨hne, hok, rfl⟩ := hadv
    have hround := runs_round (e := e) r hne
    rw [hok] at hround
    exact hround.trans ih

/-- The call has returned with this outcome. -/
def ofMigrated (m : RegistryMigrated) : MigrateCall :=
  ⟨m.registry, m.storage, .returned m.ok⟩

/-- A call on its own does what `ObjectRegistry.migrate` says. -/
theorem runs_migrate (r : ObjectRegistry) (s : ComponentStorage) :
    Runs e task ⟨r, s, .waiting⟩
      (ofMigrated (r.migrate e.engine task.objectId task.target s)) := by
  cases hfound : r.objects.lookup task.objectId with
  | none =>
    rw [ObjectRegistry.migrate_of_none hfound]
    refine .single ?_
    simp only [step, enter, ObjectRegistry.get, hfound, Option.map_none]
    rfl
  | some header =>
    rw [ObjectRegistry.migrate_of_some hfound]
    refine .head ?_ (runs_loop r (MigrationEngine.start (viewOf header) s))
    simp only [step, enter, ObjectRegistry.get, hfound, Option.map_some]
    rfl

/-! ## What a call sees -/

/-- What a call sees of the world: its phase and the two entries of its object. -/
def own (objectId : UInt64) (c : MigrateCall) :
    MigratePhase × Option ObjectHeader × Option ObjectComponents :=
  (c.phase, c.registry.objects.lookup objectId, c.storage.store.lookup objectId)

/-- The call works on a view of its object, whose stored header names it. -/
structure OnTask (objectId : UInt64) (c : MigrateCall) : Prop where
  view : ∀ view, c.phase.view = some view → view.header.objectId = objectId
  header : ∀ header, c.registry.objects.lookup objectId = some header →
    header.objectId = objectId

/-- `OnTask` is about what the call sees. -/
theorem OnTask.of_own {objectId : UInt64} (h : c.OnTask objectId)
    (heq : c.own objectId = d.own objectId) : d.OnTask objectId := by
  simp only [own, Prod.mk.injEq] at heq
  obtain ⟨hphase, hheader, -⟩ := heq
  exact ⟨hphase ▸ h.view, hheader ▸ h.header⟩

/-- What a step does to the singletons and to the view: nothing, the header's way back at the end,
or a change of the storage entry of the view's object. -/
theorem step_effect (h : c.OnTask task.objectId) (hstep : c.step e task = some c') :
    (∀ view, c'.phase.view = some view → view.header.objectId = task.objectId) ∧
      (c'.registry = c.registry ∨ ∃ header, header.objectId = task.objectId ∧
        c'.registry = ⟨c.registry.objects.insert task.objectId header⟩) ∧
      ∀ id, id ≠ task.objectId → c'.storage.store.lookup id = c.storage.store.lookup id := by
  obtain ⟨r, s, phase⟩ := c
  cases phase with
  | waiting =>
    cases hstep
    cases hfound : r.objects.lookup task.objectId with
    | none =>
      rw [enter, ObjectRegistry.get, hfound]
      exact ⟨nofun, Or.inl rfl, fun _ _ => rfl⟩
    | some header =>
      rw [enter, ObjectRegistry.get, hfound]
      refine ⟨?_, Or.inl rfl, fun _ _ => rfl⟩
      -- The view is a copy of the stored header, and that is filed under its own id.
      rintro _ ⟨⟩
      exact h.header header hfound
  | looping current view =>
    cases hstep
    have hview := h.view view rfl
    simp only [loopHead]
    split
    -- The target is reached: the header of the view goes back into the registry.
    · exact ⟨nofun, Or.inr ⟨view.header, hview, rfl⟩, fun _ _ => rfl⟩
    · split
      · exact ⟨nofun, Or.inl rfl, fun _ _ => rfl⟩
      · exact ⟨h.view, Or.inl rfl, fun _ _ => rfl⟩
  | inFunc current view body =>
    cases hstep
    have hview := h.view view rfl
    cases body with
    | ret ok schemaVersion objectType =>
      cases ok with
      | true =>
        refine ⟨?_, Or.inl rfl, fun _ _ => rfl⟩
        rintro _ ⟨⟩
        exact hview
      | false => exact ⟨nofun, Or.inl rfl, fun _ _ => rfl⟩
    | read type next => exact ⟨h.view, Or.inl rfl, fun _ _ => rfl⟩
    | write type data next =>
      rw [funcStep]
      -- Without a storage in the view the function writes nothing.
      split
      · exact ⟨h.view, Or.inl rfl, fun _ _ => rfl⟩
      · refine ⟨h.view, Or.inl rfl, fun id hid => ?_⟩
        rw [ComponentStorage.lookup_ensureEntry, hview, if_neg hid]
    | remove type next =>
      refine ⟨h.view, Or.inl rfl, fun id hid => ?_⟩
      simp only [funcStep, GameObject.removeComponent]
      split
      · rfl
      · rw [ComponentStorage.lookup_remove, hview, if_neg hid]
  | assigning current view type data body =>
    cases hstep
    refine ⟨h.view, Or.inl rfl, fun id hid => ?_⟩
    rw [ComponentStorage.lookup_write, h.view view rfl, if_neg hid]
  | returned ok => cases hstep

/-- A call on its object stays on it. -/
theorem OnTask.step (h : c.OnTask task.objectId) (hstep : c.step e task = some c') :
    c'.OnTask task.objectId := by
  obtain ⟨hview, hregistry, -⟩ := step_effect h hstep
  refine ⟨hview, fun header hheader => ?_⟩
  rcases hregistry with heq | ⟨stored, hstored, heq⟩
  · exact h.header header (heq ▸ hheader)
  · rw [heq, UnorderedMap.lookup_insert, if_pos rfl] at hheader
    cases hheader
    exact hstored

/-- A call leaves the entries of all other objects alone. -/
theorem lookup_step_ne (h : c.OnTask task.objectId) (hstep : c.step e task = some c')
    {objectId : UInt64} (hne : objectId ≠ task.objectId) :
    c'.registry.objects.lookup objectId = c.registry.objects.lookup objectId ∧
      c'.storage.store.lookup objectId = c.storage.store.lookup objectId := by
  obtain ⟨-, hregistry, hstorage⟩ := step_effect h hstep
  refine ⟨?_, hstorage objectId hne⟩
  rcases hregistry with heq | ⟨stored, -, heq⟩
  · rw [heq]
  · rw [heq, UnorderedMap.lookup_insert, if_neg hne]

/-- Two calls that see the same do the same. -/
theorem step_own (h : c.OnTask task.objectId) (heq : c.own task.objectId = d.own task.objectId) :
    (c.step e task).map (own task.objectId) = (d.step e task).map (own task.objectId) := by
  obtain ⟨r, s, phase⟩ := c
  obtain ⟨r', s', phase'⟩ := d
  simp only [own, Prod.mk.injEq] at heq
  obtain ⟨rfl, hheader, hentry⟩ := heq
  cases phase with
  -- `Get` looks only at the header of the object.
  | waiting =>
    simp only [step, enter, ObjectRegistry.get, hheader, Option.map_some]
    cases r'.objects.lookup task.objectId <;> simp [own, hheader, hentry]
  | looping current view =>
    simp only [step, loopHead, Option.map_some]
    split
    · simp [own, hentry]
    · cases e.program (MigrationEngine.makeKey current (nextVersion current task.target)) <;>
        simp [own, hheader, hentry]
  | inFunc current view body =>
    have hview := h.view view rfl
    cases body with
    | ret ok schemaVersion objectType => cases ok <;> simp [step, funcStep, own, hheader, hentry]
    | read type next =>
      -- The view is of the task's object, whose entry is the same for both.
      have hread : view.readComponent type s = view.readComponent type s' := by
        unfold GameObject.readComponent
        rw [hview, ComponentStorage.read_congr type hentry]
      simp [step, funcStep, own, hheader, hentry, hread]
    | write type data next =>
      cases hptr : view.storage <;>
        simp [step, funcStep, hptr, own, hheader, hentry, hview,
          ComponentStorage.lookup_ensureEntry]
    | remove type next =>
      have hremoved : (view.removeComponent type s).1 = (view.removeComponent type s').1 := by
        unfold GameObject.removeComponent
        cases view.storage with
        | null => rfl
        | singleton =>
          dsimp only
          rw [hview, ComponentStorage.remove_fst, ComponentStorage.remove_fst,
            ComponentStorage.read_congr type hentry]
      simp only [step, funcStep, Option.map_some, own, hheader, hremoved]
      cases hptr : view.storage <;>
        simp [GameObject.removeComponent, hptr, hentry, ComponentStorage.lookup_remove, hview]
  -- The second half of a `Write`, into the same entry.
  | assigning current view type data body =>
    have hview := h.view view rfl
    simp [step, own, hheader, hentry, ComponentStorage.lookup_write, hview]
  | returned ok => rfl

theorem step_eq_none_iff : c.step e task = none ↔ ∃ ok, c.phase = .returned ok := by
  unfold step
  cases c.phase <;> simp

end MigrateCall

/-! ## Independent calls -/

namespace MigratingWorld

variable {ι : Type*} [DecidableEq ι] {e : ProgramEngine} {tasks : ι → MigrateTask}
  {w w' : MigratingWorld ι} {i j : ι} {c c' : MigrateCall}

/-- What the call of a thread sees. -/
def part (tasks : ι → MigrateTask) (i : ι) (w : MigratingWorld ι) :
    MigratePhase × Option ObjectHeader × Option ObjectComponents :=
  (w.call i).own (tasks i).objectId

/-- What no call sees: the entries of all other objects. -/
def rest (tasks : ι → MigrateTask) (w : MigratingWorld ι)
    (id : {id : UInt64 // ∀ i, id ≠ (tasks i).objectId}) :
    Option ObjectHeader × Option ObjectComponents :=
  (w.registry.objects.lookup id.1, w.storage.store.lookup id.1)

/-- Every call works on a view of its own object. -/
def OnTasks (tasks : ι → MigrateTask) (w : MigratingWorld ι) : Prop :=
  ∀ i, (w.call i).OnTask (tasks i).objectId

theorem step_eq (h : w.step e tasks i = some w') :
    ∃ c, (w.call i).step e (tasks i) = some c ∧ w' = w.withCall i c := by
  obtain ⟨c, hc, rfl⟩ := Option.map_eq_some_iff.mp h
  exact ⟨c, hc, rfl⟩

theorem call_withCall (w : MigratingWorld ι) (i : ι) (c : MigrateCall) :
    (w.withCall i c).call i = c := by
  simp [call, withCall]

theorem withCall_withCall (w : MigratingWorld ι) (i : ι) (c c' : MigrateCall) :
    (w.withCall i c).withCall i c' = w.withCall i c' := by
  simp [withCall]

/-- The step of one call is not seen by another one on another object. -/
theorem own_withCall_ne (h : w.OnTasks tasks) (hstep : (w.call i).step e (tasks i) = some c)
    (hji : j ≠ i) (hne : (tasks j).objectId ≠ (tasks i).objectId) :
    ((w.withCall i c).call j).own (tasks j).objectId = (w.call j).own (tasks j).objectId := by
  obtain ⟨hheader, hentry⟩ := MigrateCall.lookup_step_ne (h i) hstep hne
  have hphase : (w.withCall i c).phase j = w.phase j := Function.update_of_ne hji _ _
  exact Prod.ext hphase (Prod.ext hheader hentry)

/-- Calls on different objects are independent. -/
theorem independent (e : ProgramEngine)
    (hdistinct : ∀ i j, i ≠ j → (tasks i).objectId ≠ (tasks j).objectId) :
    (migrations e tasks).Independent (OnTasks tasks) (part tasks) (rest tasks) where
  keeps i w w' h hstep := by
    obtain ⟨c, hc, rfl⟩ := step_eq hstep
    intro j
    by_cases hji : j = i
    · subst hji
      rw [call_withCall]
      exact (h j).step hc
    · exact (h j).of_own (own_withCall_ne h hc hji (hdistinct j i hji)).symm
  -- What a call does to its own part is read off that part.
  own i w v hw hv hpart := by
    have hown := MigrateCall.step_own (e := e) (hw i) hpart
    change ((w.step e tasks i).map (part tasks i)) = (v.step e tasks i).map (part tasks i)
    unfold step
    rw [Option.map_map, Option.map_map]
    have hcall : ∀ u : MigratingWorld ι,
        part tasks i ∘ u.withCall i = MigrateCall.own (tasks i).objectId := by
      intro u
      funext c
      exact congrArg _ (call_withCall u i c)
    rw [hcall, hcall]
    exact hown
  others i j w w' h hstep hji := by
    obtain ⟨c, hc, rfl⟩ := step_eq hstep
    exact own_withCall_ne h hc hji (hdistinct j i hji)
  rest_kept i w w' h hstep := by
    obtain ⟨c, hc, rfl⟩ := step_eq hstep
    funext id
    obtain ⟨hheader, hentry⟩ := MigrateCall.lookup_step_ne (h i) hc (id.2 i)
    exact Prod.ext hheader hentry
  ext w v hparts hrest := by
    have hlookup : ∀ id, w.registry.objects.lookup id = v.registry.objects.lookup id ∧
        w.storage.store.lookup id = v.storage.store.lookup id := by
      intro id
      -- An id is the object of a task, or in the part that no task touches.
      by_cases hid : ∃ i, id = (tasks i).objectId
      · obtain ⟨i, rfl⟩ := hid
        have hpart := (Prod.ext_iff.mp (hparts i)).2
        exact ⟨congrArg Prod.fst hpart, congrArg Prod.snd hpart⟩
      · have hfar := congrFun hrest ⟨id, fun i heq => hid ⟨i, heq⟩⟩
        exact ⟨congrArg Prod.fst hfar, congrArg Prod.snd hfar⟩
    obtain ⟨⟨objects⟩, ⟨store⟩, phase⟩ := w
    obtain ⟨⟨objects'⟩, ⟨store'⟩, phase'⟩ := v
    have hobjects : objects = objects' := Finmap.ext_lookup fun id => (hlookup id).1
    have hstore : store = store' := Finmap.ext_lookup fun id => (hlookup id).2
    have hphase : phase = phase' := by
      funext i
      exact congrArg Prod.fst (hparts i)
    rw [hobjects, hstore, hphase]

/-- One thread runs its call while the others stand still. -/
theorem exists_run (h : MigrateCall.Runs e (tasks i) c c') (hc : w.call i = c) :
    ∃ schedule, (migrations e tasks).run w schedule = some (w.withCall i c') := by
  induction h using Relation.ReflTransGen.head_induction_on generalizing w with
  | refl =>
    refine ⟨[], congrArg some ?_⟩
    subst hc
    simp [call, withCall]
  | @head c c₁ hstep _ ih =>
    subst hc
    obtain ⟨schedule, hrun⟩ := ih (call_withCall w i c₁)
    rw [withCall_withCall] at hrun
    refine ⟨i :: schedule, ?_⟩
    have hfirst : (migrations e tasks).step w i = some (w.withCall i c₁) := by
      change ((w.call i).step e (tasks i)).map (w.withCall i) = _
      rw [hstep, Option.map_some]
    rw [TransitionSystem.run, hfirst]
    exact hrun

omit [DecidableEq ι] in
theorem onTasks_start {r : ObjectRegistry} (hr : r.Built e) (s : ComponentStorage) :
    (start r s : MigratingWorld ι).OnTasks tasks :=
  fun _ => ⟨nofun, fun _ hheader => hr.keyed hheader⟩

end MigratingWorld

/-! ## Two calls -/

/-- The threads of two calls. -/
inductive Migrator
  | first
  | second
  deriving DecidableEq

/-- What two calls of `Migrate` leave, and what they returned. -/
structure BothMigrated where
  first : Bool
  second : Bool
  registry : ObjectRegistry
  storage : ComponentStorage

/-- The same with the calls named the other way round. -/
def BothMigrated.swap (b : BothMigrated) : BothMigrated :=
  { b with first := b.second, second := b.first }

/-- `Migrate(x, m)` and then `Migrate(y, n)`. -/
def ObjectRegistry.migrateBoth (r : ObjectRegistry) (e : MigrationEngine) (x : UInt64) (m : UInt32)
    (y : UInt64) (n : UInt32) (s : ComponentStorage) : BothMigrated :=
  let afterFirst := r.migrate e x m s
  let afterSecond := afterFirst.registry.migrate e y n afterFirst.storage
  ⟨afterFirst.ok, afterSecond.ok, afterSecond.registry, afterSecond.storage⟩

/-- The arguments of the two calls. -/
def bothTasks (x : UInt64) (m : UInt32) (y : UInt64) (n : UInt32) : Migrator → MigrateTask
  | .first => ⟨x, m⟩
  | .second => ⟨y, n⟩

/-- What the two calls have left, once both have returned. -/
def MigratingWorld.ended (w : MigratingWorld Migrator) : Option BothMigrated :=
  match w.phase .first, w.phase .second with
  | .returned first, .returned second => some ⟨first, second, w.registry, w.storage⟩
  | _, _ => none

namespace MigratingWorld

variable {e : ProgramEngine} {r : ObjectRegistry} {x y : UInt64} {m n : UInt32}
  {s : ComponentStorage} {w : MigratingWorld Migrator}

theorem complete_of_ended {tasks : Migrator → MigrateTask} {result : BothMigrated}
    (h : w.ended = some result) : (migrations e tasks).Complete w := by
  unfold ended at h
  split at h
  · next first second hfirst hsecond =>
    intro i
    refine Option.map_eq_none_iff.mpr (MigrateCall.step_eq_none_iff.mpr ?_)
    cases i with
    | first => exact ⟨first, hfirst⟩
    | second => exact ⟨second, hsecond⟩
  · cases h

/-- One call after the other is one of the interleavings. -/
theorem exists_run_in_order (tasks : Migrator → MigrateTask) {i j : Migrator} (hji : j ≠ i)
    (r : ObjectRegistry) (s : ComponentStorage) {a b : RegistryMigrated}
    (ha : r.migrate e.engine (tasks i).objectId (tasks i).target s = a)
    (hb : a.registry.migrate e.engine (tasks j).objectId (tasks j).target a.storage = b) :
    ∃ schedule, (migrations e tasks).run (.start r s) schedule =
      some (((start r s).withCall i (.ofMigrated a)).withCall j (.ofMigrated b)) := by
  have hwaiting : ((start r s).withCall i (.ofMigrated a)).call j =
      ⟨a.registry, a.storage, .waiting⟩ := by
    simp [call, withCall, start, MigrateCall.ofMigrated, hji]
  obtain ⟨schedule, hrun⟩ := exists_run (w := start r s) (ha ▸ MigrateCall.runs_migrate r s) rfl
  obtain ⟨schedule', hrun'⟩ :=
    exists_run (hb ▸ MigrateCall.runs_migrate a.registry a.storage) hwaiting
  refine ⟨schedule ++ schedule', ?_⟩
  rw [TransitionSystem.run_append, hrun]
  exact hrun'

/-- Two migrations of different objects, interleaved in any way, end with the results, headers and
components of one call after the other, in either order; and whatever has been done of them, they
can still end. -/
theorem migrations_interleave (hr : r.Built e) (hxy : x ≠ y) (schedule : List Migrator)
    (hrun : (migrations e (bothTasks x m y n)).run (.start r s) schedule = some w) :
    (∀ result, w.ended = some result →
      result = r.migrateBoth e.engine x m y n s ∧
        result = (r.migrateBoth e.engine y n x m s).swap) ∧
      ∃ schedule' w', (migrations e (bothTasks x m y n)).run w schedule' = some w' ∧
        w'.ended = some (r.migrateBoth e.engine x m y n s) := by
  have hdistinct : ∀ i j : Migrator, i ≠ j →
      (bothTasks x m y n i).objectId ≠ (bothTasks x m y n j).objectId := by
    intro i j hij
    cases i <;> cases j
    · exact absurd rfl hij
    · exact hxy
    · exact hxy.symm
    · exact absurd rfl hij
  have hall : ∀ i, i ∈ [Migrator.first, Migrator.second] := by
    intro i
    cases i <;> simp
  have hindependent := independent e hdistinct
  have hstart : OnTasks (bothTasks x m y n) (start r s) := onTasks_start hr s
  have hsecond : Migrator.second ≠ .first := by decide
  -- The two serial runs, in either order. Both are complete, so every complete run ends like them.
  obtain ⟨schedule₁, hrun₁⟩ :=
    exists_run_in_order (e := e) (bothTasks x m y n) hsecond r s rfl rfl
  obtain ⟨schedule₂, hrun₂⟩ :=
    exists_run_in_order (e := e) (bothTasks x m y n) hsecond.symm r s rfl rfl
  constructor
  · intro result hended
    have hcomplete : (migrations e (bothTasks x m y n)).Complete w := complete_of_ended hended
    constructor
    · have heq := hindependent.eq_of_complete hall hstart hrun hcomplete hrun₁
        (complete_of_ended rfl)
      rw [← heq] at hended
      exact (Option.some.inj hended).symm
    · have heq := hindependent.eq_of_complete hall hstart hrun hcomplete hrun₂
        (complete_of_ended rfl)
      rw [← heq] at hended
      exact (Option.some.inj hended).symm
  · obtain ⟨schedule', hrun'⟩ :=
      hindependent.confluent hall hstart hrun₁ (complete_of_ended rfl) hrun
    exact ⟨schedule', _, hrun', rfl⟩

/-- Objects 5 and 6 at version 1. -/
def registryOfBoth : ObjectRegistry := registryOfFive.create ⟨1, 0, 6⟩

/-- A table whose only function, for the pair (1, 2), appends a byte to component 7. -/
def appendByte : ProgramEngine :=
  ProgramEngine.empty.register 1 2 fun _ _ _ =>
    .read 7 fun data => .write 7 (data.getD [] ++ [1]) (.ret true 1 0)

/-- Both objects are migrated to version 2 by turns. -/
def byTurns : List Migrator :=
  (List.replicate 7 [Migrator.first, .second]).flatten

/-- The two calls have ended, as one after the other. -/
theorem migrations_interleave_byTurns :
    ∃ w, (migrations appendByte (bothTasks 5 2 6 2)).run (.start registryOfBoth .empty) byTurns =
        some w ∧ w.ended.isSome ∧
      (∀ result, w.ended = some result →
        result = registryOfBoth.migrateBoth appendByte.engine 5 2 6 2 .empty ∧
          result = (registryOfBoth.migrateBoth appendByte.engine 6 2 5 2 .empty).swap) ∧
        ∃ schedule' w', (migrations appendByte (bothTasks 5 2 6 2)).run w schedule' = some w' ∧
          w'.ended = some (registryOfBoth.migrateBoth appendByte.engine 5 2 6 2 .empty) :=
  ⟨_, rfl, rfl, migrations_interleave (.create (.create .empty _) _) (by decide) byTurns rfl⟩

end MigratingWorld

end WasmHot
