import WasmHot.Lib.SharedPointers

/-!
# The life of a plugin

The calls on the manager, the constructors of actors and the tasks of their strands, each cut where a
plugin is entered or left and where a pointer to one moves. All pointers to plugins are places of one
`SharedPointers`. A plugin is destroyed by the thread that takes away the last pointer to it: in the
tables under the lock, in the constructor of an actor that had a plugin of the manager in its hands
while another thread replaced it, or where an actor is destroyed.

`Effect` says what each step does, and which other threads' variables it leaves alone.

`HotReloadAll` is a sequence of `HotReload`. What a task does besides `Execute` is left out, so a task
may execute any of its actor's plugins at any time.
-/

namespace WasmHot

/-- A variable or table entry that points to a plugin. -/
inductive PluginPlace
  /-- `modules_` -/
  | running (name : String)
  /-- `previous_modules_` -/
  | previous (name : String)
  /-- The plugin that a call of the thread makes: `plugin` in `Load` and `HotReload`, `cloned` in the
  constructor of an actor. -/
  | making (t : ThreadId)
  /-- `plugin` in the constructor of an actor and in `InvokeModule`. -/
  | copied (t : ThreadId)
  /-- `plugins_` of an actor. -/
  | ofActor (actor : ℕ) (name : String)
  deriving DecidableEq

/-- Where a thread is inside a call. -/
inductive LifetimeCall
  /-- `Load` or `HotReload`, in `Initialize`. -/
  | initializing (reload : Bool) (name : String)
  /-- `Load` or `HotReload`, before its lock. -/
  | initialized (reload : Bool) (name : String)
  /-- `Unload`, in `Shutdown`. -/
  | shuttingDown (name : String)
  /-- Under the lock of the manager, with the tables changed. -/
  | locked
  /-- The constructor of an actor, with the module names that are left. -/
  | constructing (actor : ℕ) (names : List String)
  /-- The constructor of an actor, in the `Initialize` of a clone. -/
  | cloning (actor : ℕ) (name : String) (names : List String)
  /-- `InvokeModule`, in `Execute`. -/
  | executing (actor : ℕ) (name : String)
  deriving DecidableEq

/-- An actor whose constructor runs in a thread, or has returned. -/
inductive ActorStage
  | building (t : ThreadId)
  | built
  deriving DecidableEq

/-- The plugins, the thread that holds `mutex_` of the manager exclusively, the calls in progress, the
thread that runs a task of an actor, the actors, and the plugins whose `Initialize` has returned true
and on which `Unload` has called `Shutdown`. -/
structure PluginLifetimes where
  plugins : SharedPointers PluginPlace
  mutex : Option ThreadId
  calls : UnorderedMap ThreadId LifetimeCall
  strands : UnorderedMap ℕ ThreadId
  actors : UnorderedMap ℕ ActorStage
  initialized : Finset ℕ
  shutDown : Finset ℕ
  deriving DecidableEq

/-- One step of a thread. -/
inductive LifetimeAction
  /-- `Load` or `HotReload`, up to the start of `Initialize`. -/
  | create (t : ThreadId) (reload : Bool) (name : String)
  | initializeReturned (t : ThreadId) (ok : Bool)
  /-- `Load` or `HotReload`, under its lock. -/
  | commit (t : ThreadId)
  | rollback (t : ThreadId) (name : String)
  | unload (t : ThreadId) (name : String)
  | shutdownReturned (t : ThreadId)
  | unlock (t : ThreadId)
  | construct (t : ThreadId) (actor : ℕ) (names : List String)
  /-- `Get` in the constructor of an actor, and `Clone` up to the start of `Initialize`. -/
  | get (t : ThreadId)
  | cloneReturned (t : ThreadId) (ok : Bool)
  | constructed (t : ThreadId)
  | taskBegin (t : ThreadId) (actor : ℕ)
  | execute (t : ThreadId) (actor : ℕ) (name : String)
  | executeReturned (t : ThreadId)
  | taskEnd (t : ThreadId) (actor : ℕ)
  /-- The thread lets go of the last pointer to an actor. A task of the actor holds one. -/
  | dropActor (t : ThreadId) (actor : ℕ)
  /-- The destructor of a plugin. -/
  | destroy (t : ThreadId) (n : ℕ)

/-- The place whose plugin the call is inside. -/
def LifetimeCall.inside (t : ThreadId) : LifetimeCall → Option PluginPlace
  | .initializing _ _ => some (.making t)
  | .cloning _ _ _ => some (.making t)
  | .shuttingDown name => some (.running name)
  | .executing _ _ => some (.copied t)
  | _ => none

namespace PluginLifetimes

variable {s s' : PluginLifetimes} {t t' : ThreadId} {n : ℕ}

/-- No plugin, no actor, no call. -/
def fresh : PluginLifetimes := ⟨.empty, none, ∅, ∅, ∅, ∅, ∅⟩

/-- The thread is at this place in its code, and has no destructor to run. -/
def At (s : PluginLifetimes) (t : ThreadId) (call : Option LifetimeCall) : Prop :=
  s.calls.lookup t = call ∧ s.plugins.Settled t

instance (s : PluginLifetimes) (t : ThreadId) (call : Option LifetimeCall) : Decidable (s.At t call) :=
  inferInstanceAs (Decidable (_ ∧ _))

/-- The thread goes on to another place in its code, with the plugins changed. -/
def goOn (s : PluginLifetimes) (t : ThreadId) (call : LifetimeCall)
    (plugins : SharedPointers PluginPlace) : PluginLifetimes :=
  { s with calls := s.calls.insert t call, plugins := plugins }

/-- The thread returns from its call, with the plugins changed. -/
def leave (s : PluginLifetimes) (t : ThreadId) (plugins : SharedPointers PluginPlace) :
    PluginLifetimes :=
  { s with calls := s.calls.erase t, plugins := plugins }

/-- The plugin at a place has been initialized. -/
def markInitialized (s : PluginLifetimes) (place : PluginPlace) : PluginLifetimes :=
  { s with initialized := s.initialized ∪ (s.plugins.at? place).toFinset }

def create (s : PluginLifetimes) (t : ThreadId) (reload : Bool) (name : String) :
    Option PluginLifetimes :=
  if s.At t none then some (s.goOn t (.initializing reload name) (s.plugins.make t (.making t)))
  else none

def initializeReturned (s : PluginLifetimes) (t : ThreadId) (ok : Bool) : Option PluginLifetimes :=
  match s.calls.lookup t with
  | some (.initializing reload name) =>
      if ok then some ((s.markInitialized (.making t)).goOn t (.initialized reload name) s.plugins)
      else some (s.leave t (s.plugins.reset t (.making t)))
  | _ => none

/-- `Load` replaces what is running under the name, and `HotReload` keeps it for a rollback. -/
def commit (s : PluginLifetimes) (t : ThreadId) : Option PluginLifetimes :=
  match s.calls.lookup t with
  | some (.initialized reload name) =>
      if s.mutex = none then
        let plugins := if reload then s.plugins.move t (.running name) (.previous name) else s.plugins
        some ({ s with mutex := some t }.goOn t .locked (plugins.move t (.making t) (.running name)))
      else none
  | _ => none

def rollback (s : PluginLifetimes) (t : ThreadId) (name : String) : Option PluginLifetimes :=
  if s.At t none ∧ s.mutex = none then
    some ({ s with mutex := some t }.goOn t .locked
      (s.plugins.move t (.previous name) (.running name)))
  else none

/-- `Unload` calls `Shutdown` while the plugin is still in the table. -/
def unload (s : PluginLifetimes) (t : ThreadId) (name : String) : Option PluginLifetimes :=
  if s.At t none ∧ s.mutex = none then
    match s.plugins.at? (.running name) with
    | none =>
        some ({ s with mutex := some t }.goOn t .locked (s.plugins.reset t (.previous name)))
    | some n =>
        some ({ s with mutex := some t, shutDown := insert n s.shutDown }.goOn t
          (.shuttingDown name) s.plugins)
  else none

def shutdownReturned (s : PluginLifetimes) (t : ThreadId) : Option PluginLifetimes :=
  match s.calls.lookup t with
  | some (.shuttingDown name) =>
      some (s.goOn t .locked
        ((s.plugins.reset t (.running name)).reset t (.previous name)))
  | _ => none

/-- The lock is kept while the destructors run. -/
def unlock (s : PluginLifetimes) (t : ThreadId) : Option PluginLifetimes :=
  if s.At t (some .locked) then some ({ s with mutex := none }.leave t s.plugins) else none

def construct (s : PluginLifetimes) (t : ThreadId) (actor : ℕ) (names : List String) :
    Option PluginLifetimes :=
  if s.At t none ∧ s.actors.lookup actor = none then
    some ({ s with actors := s.actors.insert actor (.building t) }.goOn t (.constructing actor names)
      s.plugins)
  else none

/-- A name that no plugin runs under is skipped. -/
def get (s : PluginLifetimes) (t : ThreadId) : Option PluginLifetimes :=
  match s.calls.lookup t with
  | some (.constructing actor (name :: names)) =>
      if s.plugins.Settled t ∧ s.mutex = none then
        match s.plugins.at? (.running name) with
        | none => some (s.goOn t (.constructing actor names) s.plugins)
        | some _ =>
            some (s.goOn t (.cloning actor name names)
              ((s.plugins.copy t (.running name) (.copied t)).make t (.making t)))
      else none
  | _ => none

/-- A clone that could not be initialized is thrown away. The plugin it is a clone of is let go of in
both cases. -/
def cloneReturned (s : PluginLifetimes) (t : ThreadId) (ok : Bool) : Option PluginLifetimes :=
  match s.calls.lookup t with
  | some (.cloning actor name names) =>
      if ok then
        some ((s.markInitialized (.making t)).goOn t (.constructing actor names)
          ((s.plugins.move t (.making t) (.ofActor actor name)).reset t (.copied t)))
      else
        some (s.goOn t (.constructing actor names)
          ((s.plugins.reset t (.making t)).reset t (.copied t)))
  | _ => none

def constructed (s : PluginLifetimes) (t : ThreadId) : Option PluginLifetimes :=
  match s.calls.lookup t with
  | some (.constructing actor []) =>
      if s.plugins.Settled t then
        some ({ s with actors := s.actors.insert actor .built }.leave t s.plugins)
      else none
  | _ => none

/-- The tasks of a strand do not overlap. -/
def taskBegin (s : PluginLifetimes) (t : ThreadId) (actor : ℕ) : Option PluginLifetimes :=
  if s.At t none ∧ s.actors.lookup actor = some .built ∧ s.strands.lookup actor = none then
    some { s with strands := s.strands.insert actor t }
  else none

def execute (s : PluginLifetimes) (t : ThreadId) (actor : ℕ) (name : String) :
    Option PluginLifetimes :=
  if s.At t none ∧ s.strands.lookup actor = some t then
    match s.plugins.at? (.ofActor actor name) with
    | none => some s
    | some _ =>
        some (s.goOn t (.executing actor name)
          (s.plugins.copy t (.ofActor actor name) (.copied t)))
  else none

def executeReturned (s : PluginLifetimes) (t : ThreadId) : Option PluginLifetimes :=
  match s.calls.lookup t with
  | some (.executing _ _) => some (s.leave t (s.plugins.reset t (.copied t)))
  | _ => none

def taskEnd (s : PluginLifetimes) (t : ThreadId) (actor : ℕ) : Option PluginLifetimes :=
  if s.At t none ∧ s.strands.lookup actor = some t then
    some { s with strands := s.strands.erase actor }
  else none

end PluginLifetimes

/-- The place is in `plugins_` of the actor. -/
def PluginPlace.IsOf (actor : ℕ) : PluginPlace → Prop
  | .ofActor actor' _ => actor' = actor
  | _ => False

instance (actor : ℕ) : DecidablePred (PluginPlace.IsOf actor)
  | .ofActor actor' _ => inferInstanceAs (Decidable (actor' = actor))
  | .running _ | .previous _ | .making _ | .copied _ => inferInstanceAs (Decidable False)

namespace PluginLifetimes

variable {s s' : PluginLifetimes} {t t' : ThreadId} {n : ℕ}

def dropActor (s : PluginLifetimes) (t : ThreadId) (actor : ℕ) : Option PluginLifetimes :=
  if s.At t none ∧ s.actors.lookup actor = some .built ∧ s.strands.lookup actor = none then
    some { s with
      actors := s.actors.erase actor
      plugins := s.plugins.resetAll t (PluginPlace.IsOf actor) }
  else none

def destroy (s : PluginLifetimes) (t : ThreadId) (n : ℕ) : Option PluginLifetimes :=
  (s.plugins.destroy t n).map fun plugins => { s with plugins := plugins }

/-- The step of an action, where it is enabled. -/
def step (s : PluginLifetimes) : LifetimeAction → Option PluginLifetimes
  | .create t reload name => s.create t reload name
  | .initializeReturned t ok => s.initializeReturned t ok
  | .commit t => s.commit t
  | .rollback t name => s.rollback t name
  | .unload t name => s.unload t name
  | .shutdownReturned t => s.shutdownReturned t
  | .unlock t => s.unlock t
  | .construct t actor names => s.construct t actor names
  | .get t => s.get t
  | .cloneReturned t ok => s.cloneReturned t ok
  | .constructed t => s.constructed t
  | .taskBegin t actor => s.taskBegin t actor
  | .execute t actor name => s.execute t actor name
  | .executeReturned t => s.executeReturned t
  | .taskEnd t actor => s.taskEnd t actor
  | .dropActor t actor => s.dropActor t actor
  | .destroy t n => s.destroy t n

end PluginLifetimes

/-- All interleavings of the calls and the tasks, from an empty manager. -/
def pluginLifetimes : TransitionSystem PluginLifetimes LifetimeAction where
  Init s := s = .fresh
  step := PluginLifetimes.step

namespace LifetimeCall

/-- The call makes a plugin that is in no table yet. -/
def makes : LifetimeCall → Bool
  | .initializing _ _ | .initialized _ _ | .cloning _ _ _ => true
  | _ => false

/-- The call holds a plugin of the manager while it makes a clone of it. -/
def clones : LifetimeCall → Bool
  | .cloning _ _ _ => true
  | _ => false

/-- The call has a pointer to a plugin that is in a table as well. -/
def copies : LifetimeCall → Bool
  | .cloning _ _ _ | .executing _ _ => true
  | _ => false

/-- The call is the constructor of the actor. -/
def constructs (actor : ℕ) : LifetimeCall → Bool
  | .constructing actor' _ | .cloning actor' _ _ => actor' = actor
  | _ => false

end LifetimeCall

/-- What a plugin is there for. -/
inductive PluginRole
  /-- It belongs to the call of the thread that makes it. -/
  | made (t : ThreadId)
  /-- It is, or was, in the tables of the manager. -/
  | managed
  /-- It is the clone for a module of an actor. -/
  | cloned (actor : ℕ) (name : String)
  deriving DecidableEq

namespace PluginLifetimes

variable {s s' : PluginLifetimes} {t t' u : ThreadId} {n : ℕ}

section

variable (place : PluginPlace)

theorem mem_initialized_markInitialized :
    n ∈ (s.markInitialized place).initialized ↔
      n ∈ s.initialized ∨ s.plugins.at? place = some n := by
  simp [markInitialized]

@[simp]
theorem calls_markInitialized : (s.markInitialized place).calls = s.calls := rfl

@[simp]
theorem actors_markInitialized : (s.markInitialized place).actors = s.actors := rfl

@[simp]
theorem mutex_markInitialized : (s.markInitialized place).mutex = s.mutex := rfl

end

@[simp]
theorem calls_goOn (call : LifetimeCall) (plugins : SharedPointers PluginPlace) :
    (s.goOn t call plugins).calls.lookup u = if u = t then some call else s.calls.lookup u :=
  UnorderedMap.lookup_insert _ _ _ _

/-- The place that the thread went on to. -/
theorem eq_of_goOn {call call' : LifetimeCall} {plugins : SharedPointers PluginPlace}
    (h : (s.goOn t call' plugins).calls.lookup t = some call) : call = call' := by
  rw [calls_goOn, if_pos rfl] at h
  exact (Option.some.inj h).symm

@[simp]
theorem calls_leave (plugins : SharedPointers PluginPlace) :
    (s.leave t plugins).calls.lookup u = if u = t then none else s.calls.lookup u :=
  UnorderedMap.lookup_erase _ _ _

/-! ## What a step does -/

/-- What a step does, by the place in the code that it is taken from. -/
inductive Effect (s : PluginLifetimes) (t : ThreadId) : PluginLifetimes → Prop
  | same : Effect s t s
  | created (reload : Bool) (name : String) (hcall : s.calls.lookup t = none) :
      Effect s t (s.goOn t (.initializing reload name) (s.plugins.make t (.making t)))
  | initialized {reload : Bool} {name : String}
      (hcall : s.calls.lookup t = some (.initializing reload name)) :
      Effect s t ((s.markInitialized (.making t)).goOn t (.initialized reload name) s.plugins)
  | initializeFailed {reload : Bool} {name : String}
      (hcall : s.calls.lookup t = some (.initializing reload name)) :
      Effect s t (s.leave t (s.plugins.reset t (.making t)))
  | loaded {name : String}
      (hcall : s.calls.lookup t = some (.initialized false name)) (hmutex : s.mutex = none) :
      Effect s t ({ s with mutex := some t }.goOn t .locked
        (s.plugins.move t (.making t) (.running name)))
  | reloaded {name : String}
      (hcall : s.calls.lookup t = some (.initialized true name)) (hmutex : s.mutex = none) :
      Effect s t ({ s with mutex := some t }.goOn t .locked
        ((s.plugins.move t (.running name) (.previous name)).move t (.making t) (.running name)))
  | rolledBack (name : String) (hcall : s.calls.lookup t = none)
      (hmutex : s.mutex = none) :
      Effect s t ({ s with mutex := some t }.goOn t .locked
        (s.plugins.move t (.previous name) (.running name)))
  | nothingToUnload {name : String} (hcall : s.calls.lookup t = none)
      (hmutex : s.mutex = none) :
      Effect s t ({ s with mutex := some t }.goOn t .locked (s.plugins.reset t (.previous name)))
  | shuttingDown {name : String} {n : ℕ} (hcall : s.calls.lookup t = none)
      (hmutex : s.mutex = none) (hrunning : s.plugins.at? (.running name) = some n) :
      Effect s t ({ s with mutex := some t, shutDown := insert n s.shutDown }.goOn t
        (.shuttingDown name) s.plugins)
  | unloaded {name : String}
      (hcall : s.calls.lookup t = some (.shuttingDown name)) :
      Effect s t (s.goOn t .locked ((s.plugins.reset t (.running name)).reset t (.previous name)))
  | unlocked (hcall : s.calls.lookup t = some .locked) :
      Effect s t ({ s with mutex := none }.leave t s.plugins)
  | constructing {actor : ℕ} (names : List String)
      (hcall : s.calls.lookup t = none) (hactor : s.actors.lookup actor = none) :
      Effect s t ({ s with actors := s.actors.insert actor (.building t) }.goOn t
        (.constructing actor names) s.plugins)
  | skipped {actor : ℕ} {name : String} {names : List String}
      (hcall : s.calls.lookup t = some (.constructing actor (name :: names))) :
      Effect s t (s.goOn t (.constructing actor names) s.plugins)
  | cloning {actor : ℕ} {name : String} {names : List String} {n : ℕ}
      (hcall : s.calls.lookup t = some (.constructing actor (name :: names)))
      (hrunning : s.plugins.at? (.running name) = some n) :
      Effect s t (s.goOn t (.cloning actor name names)
        ((s.plugins.copy t (.running name) (.copied t)).make t (.making t)))
  | cloned {actor : ℕ} {name : String} {names : List String}
      (hcall : s.calls.lookup t = some (.cloning actor name names)) :
      Effect s t ((s.markInitialized (.making t)).goOn t (.constructing actor names)
        ((s.plugins.move t (.making t) (.ofActor actor name)).reset t (.copied t)))
  | cloneFailed {actor : ℕ} {name : String} {names : List String}
      (hcall : s.calls.lookup t = some (.cloning actor name names)) :
      Effect s t (s.goOn t (.constructing actor names)
        ((s.plugins.reset t (.making t)).reset t (.copied t)))
  | constructed {actor : ℕ} (hcall : s.calls.lookup t = some (.constructing actor [])) :
      Effect s t ({ s with actors := s.actors.insert actor .built }.leave t s.plugins)
  | taskBegun {actor : ℕ} (hcall : s.calls.lookup t = none)
      (hbuilt : s.actors.lookup actor = some .built) (hfree : s.strands.lookup actor = none) :
      Effect s t { s with strands := s.strands.insert actor t }
  | executing {actor : ℕ} {name : String} {n : ℕ} (hcall : s.calls.lookup t = none)
      (hstrand : s.strands.lookup actor = some t)
      (hplugin : s.plugins.at? (.ofActor actor name) = some n) :
      Effect s t (s.goOn t (.executing actor name)
        (s.plugins.copy t (.ofActor actor name) (.copied t)))
  | executed {actor : ℕ} {name : String}
      (hcall : s.calls.lookup t = some (.executing actor name)) :
      Effect s t (s.leave t (s.plugins.reset t (.copied t)))
  | taskEnded {actor : ℕ} (hcall : s.calls.lookup t = none)
      (hstrand : s.strands.lookup actor = some t) :
      Effect s t { s with strands := s.strands.erase actor }
  | dropped {actor : ℕ} (hcall : s.calls.lookup t = none)
      (hbuilt : s.actors.lookup actor = some .built)
      (hfree : s.strands.lookup actor = none) :
      Effect s t { s with
        actors := s.actors.erase actor
        plugins := s.plugins.resetAll t (PluginPlace.IsOf actor) }
  | destroyed {n : ℕ} {plugins : SharedPointers PluginPlace}
      (hdestroy : s.plugins.destroy t n = some plugins) : Effect s t { s with plugins := plugins }

theorem effect_of_step {a : LifetimeAction} (hstep : s.step a = some s') : ∃ t, s.Effect t s' := by
  -- Each guard of the code becomes a hypothesis of the effect, and each of its branches an effect.
  cases a with
  | create t reload name =>
    simp only [step, create, Option.ite_none_right_eq_some, Option.some.injEq] at hstep
    obtain ⟨⟨hcall, -⟩, rfl⟩ := hstep
    exact ⟨_, .created reload name hcall⟩
  | initializeReturned t ok =>
    simp only [step, initializeReturned] at hstep
    split at hstep
    · next hcall =>
      cases ok <;> cases hstep
      · exact ⟨_, .initializeFailed hcall⟩
      · exact ⟨_, .initialized hcall⟩
    · cases hstep
  | commit t =>
    simp only [step, commit] at hstep
    split at hstep
    · next reload name hcall =>
      simp only [Option.ite_none_right_eq_some, Option.some.injEq] at hstep
      obtain ⟨hmutex, rfl⟩ := hstep
      cases reload with
      | false => exact ⟨_, .loaded hcall hmutex⟩
      | true => exact ⟨_, .reloaded hcall hmutex⟩
    · cases hstep
  | rollback t name =>
    simp only [step, rollback, Option.ite_none_right_eq_some, Option.some.injEq] at hstep
    obtain ⟨⟨⟨hcall, -⟩, hmutex⟩, rfl⟩ := hstep
    exact ⟨_, .rolledBack name hcall hmutex⟩
  | unload t name =>
    simp only [step, unload, Option.ite_none_right_eq_some] at hstep
    obtain ⟨⟨⟨hcall, -⟩, hmutex⟩, hstep⟩ := hstep
    split at hstep
    · cases hstep
      exact ⟨_, .nothingToUnload hcall hmutex⟩
    · next n hrunning =>
      cases hstep
      exact ⟨_, .shuttingDown hcall hmutex hrunning⟩
  | shutdownReturned t =>
    simp only [step, shutdownReturned] at hstep
    split at hstep
    · next hcall =>
      cases hstep
      exact ⟨_, .unloaded hcall⟩
    · cases hstep
  | unlock t =>
    simp only [step, unlock, Option.ite_none_right_eq_some, Option.some.injEq] at hstep
    obtain ⟨⟨hcall, -⟩, rfl⟩ := hstep
    exact ⟨_, .unlocked hcall⟩
  | construct t actor names =>
    simp only [step, construct, Option.ite_none_right_eq_some, Option.some.injEq] at hstep
    obtain ⟨⟨⟨hcall, -⟩, hactor⟩, rfl⟩ := hstep
    exact ⟨_, .constructing names hcall hactor⟩
  | get t =>
    simp only [step, get] at hstep
    split at hstep
    · next hcall =>
      rw [Option.ite_none_right_eq_some] at hstep
      obtain ⟨-, hstep⟩ := hstep
      split at hstep
      · cases hstep
        exact ⟨_, .skipped hcall⟩
      · next n hrunning =>
        cases hstep
        exact ⟨_, .cloning hcall hrunning⟩
    · cases hstep
  | cloneReturned t ok =>
    simp only [step, cloneReturned] at hstep
    split at hstep
    · next hcall =>
      cases ok <;> cases hstep
      · exact ⟨_, .cloneFailed hcall⟩
      · exact ⟨_, .cloned hcall⟩
    · cases hstep
  | constructed t =>
    simp only [step, constructed] at hstep
    split at hstep
    · next hcall =>
      simp only [Option.ite_none_right_eq_some, Option.some.injEq] at hstep
      obtain ⟨-, rfl⟩ := hstep
      exact ⟨_, .constructed hcall⟩
    · cases hstep
  | taskBegin t actor =>
    simp only [step, taskBegin, Option.ite_none_right_eq_some, Option.some.injEq] at hstep
    obtain ⟨⟨⟨hcall, -⟩, hbuilt, hfree⟩, rfl⟩ := hstep
    exact ⟨_, .taskBegun hcall hbuilt hfree⟩
  | execute t actor name =>
    simp only [step, execute, Option.ite_none_right_eq_some] at hstep
    obtain ⟨⟨⟨hcall, -⟩, hstrand⟩, hstep⟩ := hstep
    split at hstep
    · cases hstep
      exact ⟨t, .same⟩
    · next n hplugin =>
      cases hstep
      exact ⟨_, .executing hcall hstrand hplugin⟩
  | executeReturned t =>
    simp only [step, executeReturned] at hstep
    split at hstep
    · next hcall =>
      cases hstep
      exact ⟨_, .executed hcall⟩
    · cases hstep
  | taskEnd t actor =>
    simp only [step, taskEnd, Option.ite_none_right_eq_some, Option.some.injEq] at hstep
    obtain ⟨⟨⟨hcall, -⟩, hstrand⟩, rfl⟩ := hstep
    exact ⟨_, .taskEnded hcall hstrand⟩
  | dropActor t actor =>
    simp only [step, dropActor, Option.ite_none_right_eq_some, Option.some.injEq] at hstep
    obtain ⟨⟨⟨hcall, -⟩, hbuilt, hfree⟩, rfl⟩ := hstep
    exact ⟨t, .dropped hcall hbuilt hfree⟩
  | destroy t n =>
    obtain ⟨plugins, hdestroy, rfl⟩ := Option.map_eq_some_iff.mp hstep
    exact ⟨t, .destroyed hdestroy⟩

/-! ## What a step leaves to the other threads -/

namespace Effect

/-- The other threads stay where they are. -/
theorem calls_of_ne (h : s.Effect t s') (hu : u ≠ t) : s'.calls.lookup u = s.calls.lookup u := by
  cases h <;> simp [hu]

/-- Their variables stay as they are. -/
theorem at?_of_ne (h : s.Effect t s') (hu : u ≠ t) :
    s'.plugins.at? (.making u) = s.plugins.at? (.making u) ∧
      s'.plugins.at? (.copied u) = s.plugins.at? (.copied u) := by
  cases h with
  | destroyed hdestroy =>
    exact ⟨SharedPointers.at?_destroy hdestroy _, SharedPointers.at?_destroy hdestroy _⟩
  | _ =>
    simp [goOn, leave, SharedPointers.at?_make, SharedPointers.at?_move, SharedPointers.at?_copy,
      SharedPointers.at?_reset, SharedPointers.at?_resetAll, PluginPlace.IsOf, hu]

theorem initialized_mono (h : s.Effect t s') (hn : n ∈ s.initialized) : n ∈ s'.initialized := by
  cases h with
  | initialized hcall => exact (mem_initialized_markInitialized _).mpr (Or.inl hn)
  | cloned hcall => exact (mem_initialized_markInitialized _).mpr (Or.inl hn)
  | _ => exact hn

end Effect

end PluginLifetimes

end WasmHot
