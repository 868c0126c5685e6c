import WasmHot.Concurrent.ModuleTables

/-!
# Module files, plugins and their clones

A plugin reads its module file once, in `Initialize`, and runs that code from then on. `Clone` does
not copy the plugin: it makes a new one with the same path and version, and initializes that, so it
reads the file again. The manager keeps replaced plugins for a rollback while the file under the same
path goes on changing.

The runs here contain changes of the files, the calls on the manager, and the construction of actors,
each of which takes a clone of the running plugin for every module it names. `clone_copies_iff` says
after which changes of the files a clone is still a copy.

The type of file contents is a parameter, and so is which contents `Initialize` can accept. Whether it
does accept such a file is up to the run, since it also depends on the VM.
-/

namespace WasmHot

/-- What an initialized plugin carries: `path_`, `schema_version_`, and the code its VM has loaded. -/
structure LoadedPlugin (κ : Type*) where
  path : String
  schemaVersion : UInt32
  code : κ
  deriving DecidableEq

/-- The module files by path. -/
abbrev ModuleFiles (κ : Type*) := UnorderedMap String κ

/-- `plugins_` of an actor. -/
abbrev ActorPlugins (κ : Type*) := UnorderedMap String (LoadedPlugin κ)

/-- The files, the manager with the calls on it, what each plugin of the manager has loaded, by the
number of the plugin, and the plugins of each actor. -/
structure PluginWorld (κ : Type*) where
  files : ModuleFiles κ
  threads : ModuleThreads
  loaded : UnorderedMap ℕ (LoadedPlugin κ)
  actors : UnorderedMap ℕ (ActorPlugins κ)

/-- One event. -/
inductive PluginAction (κ : Type*)
  | writeFile (path : String) (code : κ)
  | removeFile (path : String)
  /-- A step of a call on the manager. -/
  | manage (step : ModuleAction)
  /-- The constructor of an actor, with the modules it names and whether the clone of each can be
  initialized. -/
  | construct (actor : ℕ) (names : List (String × Bool))
  | invoke (actor : ℕ) (name : String)

section

variable {κ : Type*}

/-- `Initialize`, where it accepts the file. -/
def initializePlugin (files : ModuleFiles κ) (path : String) (schemaVersion : UInt32) :
    Option (LoadedPlugin κ) :=
  (files.lookup path).map fun code => ⟨path, schemaVersion, code⟩

/-- `Clone`. The code of the plugin that is cloned is not used. -/
def LoadedPlugin.clone (p : LoadedPlugin κ) (files : ModuleFiles κ) (accepted : Bool) :
    Option (LoadedPlugin κ) :=
  if accepted then initializePlugin files p.path p.schemaVersion else none

/-- The config of the plugin that a step initializes. -/
def initializing (s : ModuleThreads) : ModuleAction → Option ModuleConfig
  | .loadCreate _ config .initialized => some config
  | .reloadCreate _ config .initialized => some config
  | .refreshCreate t .initialized =>
      match s.calls.lookup t with
      | some (.refreshing (config :: _)) => some config
      | _ => none
  | _ => none

namespace PluginWorld

/-- Some files, no plugin, no actor. -/
def fresh (files : ModuleFiles κ) : PluginWorld κ := ⟨files, .empty, ∅, ∅⟩

/-- What the plugin that runs under a name has loaded. -/
def running (w : PluginWorld κ) (name : String) : Option (LoadedPlugin κ) :=
  (w.threads.manager.get name).bind fun plugin => w.loaded.lookup plugin.serial

/-- One round of the loop in the constructor of `ActorWithObject`. -/
def takeClone (w : PluginWorld κ) (plugins : ActorPlugins κ) (name : String) (accepted : Bool) :
    ActorPlugins κ :=
  match w.running name with
  | none => plugins
  | some original =>
      match original.clone w.files accepted with
      | none => plugins
      | some cloned => plugins.insert name cloned

/-- `plugins_` as the constructor of `ActorWithObject` leaves it. -/
def takeClones (w : PluginWorld κ) (names : List (String × Bool)) : ActorPlugins κ :=
  names.foldl (fun plugins entry => w.takeClone plugins entry.1 entry.2) ∅

/-- A step on the manager. A plugin that it initializes loads the file under its path. -/
def manage (w : PluginWorld κ) (a : ModuleAction) : Option (PluginWorld κ) :=
  match w.threads.step a with
  | none => none
  | some threads =>
      match initializing w.threads a with
      | none => some { w with threads := threads }
      | some config =>
          (initializePlugin w.files config.path config.schemaVersion).map fun p =>
            { w with
              threads := threads
              loaded := w.loaded.insert w.threads.manager.created p }

/-- The step of an action, where it is enabled. An invocation changes none of this. -/
def step (w : PluginWorld κ) : PluginAction κ → Option (PluginWorld κ)
  | .writeFile path code => some { w with files := w.files.insert path code }
  | .removeFile path => some { w with files := w.files.erase path }
  | .manage a => w.manage a
  | .construct actor names =>
      if w.actors.lookup actor = none then
        some { w with actors := w.actors.insert actor (w.takeClones names) }
      else none
  | .invoke _ _ => some w

end PluginWorld

/-- Runs from any files. -/
def pluginWorld (κ : Type*) : TransitionSystem (PluginWorld κ) (PluginAction κ) where
  Init w := ∃ files, w = .fresh files
  step := PluginWorld.step

namespace PluginWorld

variable {w w' : PluginWorld κ} {a : PluginAction κ}

/-- What a step on the manager does to the files and to what plugins have loaded. -/
theorem manage_eq {a : ModuleAction} (hstep : w.manage a = some w') :
    w.threads.step a = some w'.threads ∧ w'.files = w.files ∧ w'.actors = w.actors ∧
      ((initializing w.threads a = none ∧ w'.loaded = w.loaded) ∨
        ∃ config p, initializing w.threads a = some config ∧
          initializePlugin w.files config.path config.schemaVersion = some p ∧
          w'.loaded = w.loaded.insert w.threads.manager.created p) := by
  unfold manage at hstep
  cases hthreads : w.threads.step a with
  | none => simp [hthreads] at hstep
  | some threads =>
    rw [hthreads] at hstep
    cases hinit : initializing w.threads a with
    | none =>
      simp only [hinit] at hstep
      cases hstep
      exact ⟨rfl, rfl, rfl, Or.inl ⟨rfl, rfl⟩⟩
    | some config =>
      simp only [hinit] at hstep
      obtain ⟨p, hp, rfl⟩ := Option.map_eq_some_iff.mp hstep
      exact ⟨rfl, rfl, rfl, Or.inr ⟨config, p, rfl, hp, rfl⟩⟩

/-! ## Changes of a file -/

/-- What the last change of a file in a run left there: nothing if it was not changed, no file if it
was removed, or its content. -/
def lastChange (path : String) : List (PluginAction κ) → Option (Option κ)
  | [] => none
  | .writeFile path' code :: acts =>
      (lastChange path acts).or (if path' = path then some (some code) else none)
  | .removeFile path' :: acts =>
      (lastChange path acts).or (if path' = path then some none else none)
  | _ :: acts => lastChange path acts

/-- A file is as its last change left it. -/
theorem files_run (path : String) {acts : List (PluginAction κ)}
    (hrun : (pluginWorld κ).run w acts = some w') :
    w'.files.lookup path = (lastChange path acts).getD (w.files.lookup path) := by
  induction acts generalizing w with
  | nil =>
    cases hrun
    rfl
  | cons a acts ih =>
    obtain ⟨w₁, hstep, hrest⟩ := Option.bind_eq_some_iff.mp hrun
    rw [ih hrest]
    cases a with
    | writeFile path' code =>
      cases hstep
      simp only [lastChange, UnorderedMap.lookup_insert]
      -- A later change decides; without one this write does.
      cases lastChange path acts with
      | some content => rfl
      | none =>
        by_cases hpath : path = path'
        · simp [hpath]
        · simp [hpath, Ne.symm hpath]
    | removeFile path' =>
      cases hstep
      simp only [lastChange, UnorderedMap.lookup_erase]
      cases lastChange path acts with
      | some content => rfl
      | none =>
        by_cases hpath : path = path'
        · simp [hpath]
        · simp [hpath, Ne.symm hpath]
    -- The manager and the actors read files and change none.
    | manage a =>
      rw [(manage_eq hstep).2.1]
      rfl
    | construct actor names =>
      simp only [pluginWorld, step, Option.ite_none_right_eq_some, Option.some.injEq] at hstep
      obtain ⟨-, rfl⟩ := hstep
      rfl
    | invoke actor name =>
      cases hstep
      rfl

/-! ## When a clone is a copy -/

/-- What becomes of an `Initialize` is possible if it takes no content that `accepts` rules out. -/
def Possible (files : ModuleFiles κ) (accepts : κ → Bool) (path : String) (accepted : Bool) : Prop :=
  accepted = true → ∀ code, files.lookup path = some code → accepts code = true

/-- Take any plugin whose `Initialize` succeeds, any later history and any contents that `Initialize`
can accept. A clone of the plugin is a copy of it, in code, path and version, exactly when the last
change of the file under its path in that history, if there was one, removed the file, wrote a content
that is not accepted or put the same code back. -/
theorem clone_copies_iff {w₀ w₁ : PluginWorld κ} {path : String} {schemaVersion : UInt32}
    {p : LoadedPlugin κ} {history : List (PluginAction κ)} (accepts : κ → Bool)
    (hinit : initializePlugin w₀.files path schemaVersion = some p)
    (hhistory : (pluginWorld κ).run w₀ history = some w₁) :
    (∀ accepted cloned, Possible w₁.files accepts p.path accepted →
        p.clone w₁.files accepted = some cloned → cloned = p) ↔
      ∀ code, lastChange p.path history = some (some code) → accepts code = true →
        code = p.code := by
  have hfile : w₀.files.lookup p.path = some p.code := by
    obtain ⟨code, hcode, rfl⟩ := Option.map_eq_some_iff.mp hinit
    exact hcode
  have hfiles := files_run p.path hhistory
  rw [hfile] at hfiles
  simp only [LoadedPlugin.clone, initializePlugin]
  constructor
  · intro hcopies code hchange haccepts
    rw [hchange] at hfiles
    -- The code that was written is accepted, so a `Clone` that succeeds is possible.
    have hpossible : Possible w₁.files accepts p.path true := by
      intro _ code' hcode'
      cases hfiles.symm.trans hcode'
      exact haccepts
    have hclone := hcopies true ⟨p.path, p.schemaVersion, code⟩ hpossible (by simp [hfiles])
    rw [← hclone]
  · intro hchanges accepted cloned hpossible hcloned
    rw [Option.ite_none_right_eq_some] at hcloned
    obtain ⟨haccepted, hcloned⟩ := hcloned
    obtain ⟨code, hcode, rfl⟩ := Option.map_eq_some_iff.mp hcloned
    -- The clone has the code under the path, which `Initialize` has accepted.
    have haccepts := hpossible haccepted code hcode
    rw [hfiles] at hcode
    cases hchange : lastChange p.path history with
    | none =>
      rw [hchange] at hcode
      cases hcode
      rfl
    | some content =>
      rw [hchange] at hcode
      cases hcode
      rw [hchanges code hchange haccepts]

/-- What an actor gets for a module that it names once is a clone of the plugin that is running. -/
theorem takeClones_single (w : PluginWorld κ) (name : String) (accepted : Bool) :
    (w.takeClones [(name, accepted)]).lookup name =
      (w.running name).bind fun original => original.clone w.files accepted := by
  simp only [takeClones, List.foldl_cons, List.foldl_nil, takeClone]
  cases w.running name with
  | none => exact Finmap.lookup_empty _
  | some original =>
    simp only [Option.bind_some]
    cases original.clone w.files accepted with
    | none => exact Finmap.lookup_empty _
    | some cloned => exact Finmap.lookup_insert _

/-! ## A rollback after the file has changed -/

/-- The file of the module is overwritten between `Load` and `HotReload`, and the reload is rolled
back. Then an actor is made. -/
def rollbackThenConstruct : List (PluginAction ℕ) :=
  [.writeFile "room.wasm" 1,
    .manage (.loadCreate 0 ⟨"room", "room.wasm", 1⟩ .initialized), .manage (.loadCommit 0),
    .writeFile "room.wasm" 2,
    .manage (.reloadCreate 0 ⟨"room", "room.wasm", 1⟩ .initialized), .manage (.reloadCommit 0),
    .manage (.rollback "room"), .construct 0 [("room", true)]]

/-- The plugin that is running again has loaded code 1, and the clone in the actor has code 2. -/
theorem restored_plugin_not_copied :
    ∃ w : PluginWorld ℕ, (pluginWorld ℕ).Reachable w ∧
      w.running "room" = some ⟨"room.wasm", 1, 1⟩ ∧
      (w.actors.lookup 0).bind (·.lookup "room") = some ⟨"room.wasm", 1, 2⟩ :=
  ⟨_, .of_run (.init ⟨∅, rfl⟩) rollbackThenConstruct rfl, by decide, by decide⟩

/-- The file of a module, before anything has happened. -/
def roomFile : PluginWorld ℕ := .fresh ((∅ : ModuleFiles ℕ).insert "room.wasm" 1)

/-- A plugin of the module, whose file is overwritten. -/
theorem clone_copies_iff_overwritten :
    ∃ w, (pluginWorld ℕ).run roomFile [.writeFile "room.wasm" 2] = some w ∧
      ((∀ accepted cloned, Possible w.files (fun _ => true) "room.wasm" accepted →
          (⟨"room.wasm", 1, 1⟩ : LoadedPlugin ℕ).clone w.files accepted = some cloned →
            cloned = ⟨"room.wasm", 1, 1⟩) ↔
        ∀ code, lastChange "room.wasm" [.writeFile "room.wasm" 2] = some (some code) →
          true = true → code = 1) := by
  have hinit : initializePlugin roomFile.files "room.wasm" 1 = some ⟨"room.wasm", 1, 1⟩ := rfl
  exact ⟨_, rfl, clone_copies_iff (fun _ => true) hinit rfl⟩

end PluginWorld

end

end WasmHot
