import WasmHot.Actor.PluginClones

/-!
# Which code an actor runs after a hot reload

`InvokeModule` runs the clone that the actor took when it was constructed. `HotReload` and `Rollback`
replace the plugin in the manager's table and nothing else, so an actor that is older than the change
goes on with the code it has. `HotReload` reads the file under the path of its config again, which
may be the code that the clones have already; `current_iff_keepsCurrent` says that exactly the
changes of this kind, with actors that are constructed from unchanged files, keep all actors at the
current code.
-/

namespace WasmHot

section

variable {κ : Type*}

namespace PluginWorld

/-- The code that `InvokeModule(name, ...)` of an actor executes: that of the plugin it finds in
`plugins_`. -/
def invokedCode (w : PluginWorld κ) (actor : ℕ) (name : String) : Option κ :=
  ((w.actors.lookup actor).bind (·.lookup name)).map (·.code)

/-- The code that a plugin of the manager has loaded. -/
def codeOf (w : PluginWorld κ) (plugin : Plugin) : Option κ :=
  (w.loaded.lookup plugin.serial).map (·.code)

/-- The code of the plugin that `Get(name)` returns. -/
def currentCode (w : PluginWorld κ) (name : String) : Option κ :=
  (w.threads.manager.get name).bind w.codeOf

/-- The names that a step hot reloads or rolls back successfully. -/
def noteUpdate (updated : Finset String) (w : PluginWorld κ) : PluginAction κ → Finset String
  | .manage (.reloadCommit t) =>
      match w.threads.calls.lookup t with
      | some (.reloading config _ _) => insert config.name updated
      | _ => updated
  | .manage (.rollback name) =>
      if (w.threads.manager.previousModules.lookup name).isSome then insert name updated
      else updated
  | _ => updated

/-- Each invocation that starts now, of a module that was hot reloaded or rolled back before,
executes the code of the plugin that `Get` returns. -/
def Current (w : PluginWorld κ) (updated : Finset String) : Prop :=
  ∀ actor name code, w.invokedCode actor name = some code → name ∈ updated →
    w.currentCode name = some code

/-- All actors with a plugin for the module have this code. -/
def HeldAs (w : PluginWorld κ) (name : String) (code : Option κ) : Prop :=
  ∀ actor held, w.invokedCode actor name = some held → code = some held

/-- A plugin that a step puts in place of the running one has the code that the actors with a plugin
for the module have, and an actor is constructed while the files of the modules it names hold the
code that is running. A module that was not hot reloaded or rolled back yet may be loaded, and
cloned, with any code; one that was is not unloaded while actors have a plugin for it. -/
def KeepsCurrent (p : PluginWorld κ × Finset String) : PluginAction κ → Prop
  | .manage (.loadCommit t) => ∀ config plugin,
      p.1.threads.calls.lookup t = some (.loading config plugin) → config.name ∈ p.2 →
        p.1.HeldAs config.name (p.1.codeOf plugin)
  | .manage (.reloadCommit t) => ∀ config plugin rest,
      p.1.threads.calls.lookup t = some (.reloading config plugin rest) →
        p.1.HeldAs config.name (p.1.codeOf plugin)
  | .manage (.rollback name) => ∀ plugin,
      p.1.threads.manager.previousModules.lookup name = some (some plugin) →
        p.1.HeldAs name (p.1.codeOf plugin)
  | .manage (.unload name) => name ∈ p.2 → p.1.HeldAs name none
  | .construct _ names => ∀ name original code, (name, true) ∈ names → name ∈ p.2 →
      p.1.running name = some original → p.1.files.lookup original.path = some code →
        original.code = code
  | _ => True

end PluginWorld

/-- Runs with the modules that were hot reloaded or rolled back so far. -/
def updatedWorld (κ : Type*) :
    TransitionSystem (PluginWorld κ × Finset String) (PluginAction κ) :=
  (pluginWorld κ).withHistory (fun _ => ∅) PluginWorld.noteUpdate

/-! ## The running plugin after a step -/

namespace ModuleManager

theorem get_install (m : ModuleManager) (config : ModuleConfig) (ptr : PluginPtr) (name : String) :
    (m.install config ptr).get name = if name = config.name then ptr else m.get name := by
  have hrecord := congrArg ModuleRecord.running (recordOf_install m config ptr name)
  refine hrecord.trans ?_
  split <;> rfl

theorem get_retire_ne {m : ModuleManager} {name name' : String} (h : name' ≠ name) :
    (m.retire name).get name' = m.get name' :=
  congrArg ModuleRecord.running (recordOf_retire_ne h)

end ModuleManager

/-- The step changes the tables. -/
def ModuleAction.Commits : ModuleAction → Prop
  | .loadCommit _ => True
  | .reloadCommit _ => True
  | .rollback _ => True
  | .unload _ => True
  | _ => False

namespace ModuleThreads

variable {s s' : ModuleThreads} {t : ThreadId}

theorem loadCommit_eq (h : s.loadCommit t = some s') :
    ∃ config plugin, s.calls.lookup t = some (.loading config plugin) ∧
      s'.manager = s.manager.install config (some plugin) := by
  unfold loadCommit at h
  split at h
  · next config plugin hcall =>
    cases h
    exact ⟨config, plugin, hcall, rfl⟩
  · cases h

theorem reloadCommit_eq (h : s.reloadCommit t = some s') :
    ∃ config plugin rest, s.calls.lookup t = some (.reloading config plugin rest) ∧
      s'.manager = (s.manager.retire config.name).install config (some plugin) := by
  unfold reloadCommit at h
  split at h
  · next config plugin rest hcall =>
    refine ⟨config, plugin, rest, hcall, ?_⟩
    cases rest with
    | none =>
      cases h
      rfl
    | some rest =>
      cases h
      rfl
  · cases h

theorem get_construct (s : ModuleThreads) (config : ModuleConfig) (creation : Creation)
    (name : String) :
    (s.construct config creation).2.manager.get name = s.manager.get name := by
  rcases construct_eq s config creation with heq | heq | heq <;> rw [heq] <;> rfl

/-- Outside the commits no running plugin changes. -/
theorem get_of_not_commits {a : ModuleAction} (hstep : s.step a = some s') (ha : ¬ a.Commits)
    (name : String) : s'.manager.get name = s.manager.get name := by
  cases a with
  | loadCreate t config creation =>
    rw [manager_loadCreate hstep]
    exact get_construct s config creation name
  | reloadCreate t config creation =>
    rw [manager_reloadCreate hstep]
    exact get_construct s config creation name
  | refreshCreate t creation =>
    obtain ⟨config, -, -, hmanager⟩ := manager_refreshCreate hstep
    rw [hmanager]
    exact get_construct s config creation name
  | snapshot t order =>
    simp only [step, snapshot, Option.ite_none_right_eq_some, Option.some.injEq] at hstep
    obtain ⟨-, rfl⟩ := hstep
    rfl
  | refreshReturn t =>
    simp only [step, refreshReturn] at hstep
    split at hstep
    · cases hstep
      rfl
    · cases hstep
  | loadCommit t => exact absurd trivial ha
  | reloadCommit t => exact absurd trivial ha
  | rollback name' => exact absurd trivial ha
  | unload name' => exact absurd trivial ha

end ModuleThreads

namespace PluginWorld

variable {w w' : PluginWorld κ} {updated : Finset String}

theorem currentCode_eq_running (w : PluginWorld κ) (name : String) :
    w.currentCode name = (w.running name).map (·.code) := by
  unfold currentCode running
  cases w.threads.manager.get name <;> rfl

/-! ## Constructed actors -/

/-- The clone of the running plugin that can be made from the files. -/
def freshClone (w : PluginWorld κ) (name : String) : Option (LoadedPlugin κ) :=
  (w.running name).bind fun original => original.clone w.files true

theorem lookup_takeClone (w : PluginWorld κ) (plugins : ActorPlugins κ) (name name' : String)
    (accepted : Bool) :
    (w.takeClone plugins name' accepted).lookup name =
      (if name = name' ∧ accepted then w.freshClone name else none).or (plugins.lookup name) := by
  unfold takeClone freshClone
  by_cases hentry : name = name' ∧ accepted
  · obtain ⟨rfl, haccepted⟩ := hentry
    obtain rfl : accepted = true := haccepted
    cases hrunning : w.running name with
    | none => simp
    | some original => cases hclone : original.clone w.files true <;> simp [hclone]
  · cases hrunning : w.running name' with
    | none => simp [hentry]
    | some original =>
      cases hclone : original.clone w.files accepted with
      | none => simp [hclone, hentry]
      | some cloned =>
        have haccepted : accepted = true := by
          unfold LoadedPlugin.clone at hclone
          exact (Option.ite_none_right_eq_some.mp hclone).1
        have hname : name ≠ name' := fun heq => hentry ⟨heq, haccepted⟩
        simp [hclone, hname]

/-- The constructor has a plugin for a module if one of its entries could be cloned. -/
theorem lookup_takeClones (w : PluginWorld κ) (names : List (String × Bool)) (name : String) :
    (w.takeClones names).lookup name =
      if (name, true) ∈ names then w.freshClone name else none := by
  have hloop : ∀ plugins : ActorPlugins κ,
      (names.foldl (fun plugins entry => w.takeClone plugins entry.1 entry.2) plugins).lookup name =
        (if (name, true) ∈ names then w.freshClone name else none).or (plugins.lookup name) := by
    induction names with
    | nil =>
      intro plugins
      simp
    | cons entry names ih =>
      intro plugins
      obtain ⟨name', accepted⟩ := entry
      rw [List.foldl_cons, ih, lookup_takeClone]
      have hentry : (name, true) = (name', accepted) ↔ name = name' ∧ accepted = true := by
        rw [Prod.mk.injEq, eq_comm (a := true)]
      simp only [List.mem_cons, hentry]
      by_cases hhead : name = name' ∧ accepted = true
      · rw [if_pos hhead, if_pos (Or.inl hhead)]
        split
        · cases w.freshClone name <;> rfl
        · rfl
      · simp only [hhead, false_or, if_false, Option.none_or]
  rw [takeClones, hloop, Finmap.lookup_empty, Option.or_none]

/-! ## What one step does to the codes -/

/-- A step that changes the running plugin of one name at most: the actors stay current exactly when
those with a plugin for the name have the new code, if that name counts. -/
theorem Current.change_iff {updated' : Finset String} (h : w.Current updated) (name : String)
    (hinvoked : ∀ actor name', w'.invokedCode actor name' = w.invokedCode actor name')
    (hothers : ∀ name', name' ≠ name → w'.currentCode name' = w.currentCode name')
    (hupdated : ∀ name', name' ≠ name → (name' ∈ updated' ↔ name' ∈ updated)) :
    w'.Current updated' ↔ (name ∈ updated' → w.HeldAs name (w'.currentCode name)) := by
  constructor
  · intro hcurrent hname actor code hheld
    exact hcurrent actor name code (by rw [hinvoked, hheld]) hname
  · intro hheld actor name' code hcode hname'
    rw [hinvoked] at hcode
    by_cases hname : name' = name
    · subst hname
      exact hheld hname' actor code hcode
    · rw [hothers name' hname]
      exact h actor name' code hcode ((hupdated name' hname).mp hname')

/-- A step that changes neither the running code nor what the actors have. -/
theorem Current.same_iff (h : w.Current updated)
    (hinvoked : ∀ actor name, w'.invokedCode actor name = w.invokedCode actor name)
    (hcurrent : ∀ name, w'.currentCode name = w.currentCode name) : w'.Current updated ↔ True := by
  refine iff_of_true (fun actor name code hcode hname => ?_) trivial
  rw [hinvoked] at hcode
  rw [hcurrent]
  exact h actor name code hcode hname

theorem invokedCode_of_actors (h : w'.actors = w.actors) (actor : ℕ) (name : String) :
    w'.invokedCode actor name = w.invokedCode actor name := by
  rw [invokedCode, invokedCode, h]

/-- A plugin at some place has a number that was given out. -/
theorem codeOf_placed {a : ModuleAction} (hsound : w.threads.Sound) (hstep : w.manage a = some w')
    {place : Place} {plugin : Plugin} (hplaced : w.threads.placed place = some (some plugin)) :
    w'.codeOf plugin = w.codeOf plugin := by
  obtain ⟨_, hplugin, hinit, -⟩ := hsound.alive _ _ hplaced
  cases hplugin
  have hlt := hsound.numbered _ (Or.inl hinit)
  obtain ⟨-, -, -, hsame | ⟨config, p, -, -, hloaded⟩⟩ := manage_eq hstep
  · rw [codeOf, codeOf, hsame.2]
  · rw [codeOf, codeOf, hloaded, UnorderedMap.lookup_insert, if_neg (by omega)]

/-- Where the table has the same plugin before and after a step on the manager, the same code is
running. -/
theorem currentCode_of_get {a : ModuleAction} (hsound : w.threads.Sound)
    (hstep : w.manage a = some w') {name : String}
    (hget : w'.threads.manager.get name = w.threads.manager.get name) :
    w'.currentCode name = w.currentCode name := by
  unfold currentCode
  rw [hget]
  cases hplugin : w.threads.manager.get name with
  | none => rfl
  | some plugin =>
    have hplaced : w.threads.placed (.running name) = some (some plugin) :=
      Option.join_eq_some_iff.mp hplugin
    exact codeOf_placed hsound hstep hplaced

/-- Where the table has a plugin after a step that had a place before it, its code is running. -/
theorem currentCode_of_placed {a : ModuleAction} (hsound : w.threads.Sound)
    (hstep : w.manage a = some w') {name : String} {place : Place} {plugin : Plugin}
    (hget : w'.threads.manager.get name = some plugin)
    (hplaced : w.threads.placed place = some (some plugin)) :
    w'.currentCode name = w.codeOf plugin := by
  rw [currentCode, hget, Option.bind_some, codeOf_placed hsound hstep hplaced]

/-! ## One step -/

/-- A `Load` under its lock. -/
theorem Current.loadCommit_iff {t : ThreadId} (h : w.Current updated) (hsound : w.threads.Sound)
    (hstep : w.manage (.loadCommit t) = some w') :
    w'.Current (noteUpdate updated w (.manage (.loadCommit t))) ↔
      KeepsCurrent (w, updated) (.manage (.loadCommit t)) := by
  obtain ⟨hthreads, -, hactors, -⟩ := manage_eq hstep
  obtain ⟨config, plugin, hcall, hmanager⟩ := ModuleThreads.loadCommit_eq hthreads
  have hget := ModuleManager.get_install w.threads.manager config (some plugin)
  rw [← hmanager] at hget
  have hplaced : w.threads.placed (.held t) = some (some plugin) := by
    rw [ModuleThreads.placed_held, hcall]
    rfl
  have hnew := currentCode_of_placed hsound hstep (by rw [hget, if_pos rfl]) hplaced
  refine (h.change_iff config.name (invokedCode_of_actors hactors)
    (fun name hname => currentCode_of_get hsound hstep (by rw [hget, if_neg hname]))
    (fun name _ => Iff.rfl)).trans ?_
  rw [hnew]
  constructor
  · intro hheld config' plugin' hcall'
    cases hcall.symm.trans hcall'
    exact hheld
  · exact fun hheld => hheld config plugin hcall

/-- A `HotReload` under its lock. -/
theorem Current.reloadCommit_iff {t : ThreadId} (h : w.Current updated) (hsound : w.threads.Sound)
    (hstep : w.manage (.reloadCommit t) = some w') :
    w'.Current (noteUpdate updated w (.manage (.reloadCommit t))) ↔
      KeepsCurrent (w, updated) (.manage (.reloadCommit t)) := by
  obtain ⟨hthreads, -, hactors, -⟩ := manage_eq hstep
  obtain ⟨config, plugin, rest, hcall, hmanager⟩ := ModuleThreads.reloadCommit_eq hthreads
  have hget := ModuleManager.get_install (w.threads.manager.retire config.name) config (some plugin)
  rw [← hmanager] at hget
  have hplaced : w.threads.placed (.held t) = some (some plugin) := by
    rw [ModuleThreads.placed_held, hcall]
    rfl
  have hnew := currentCode_of_placed hsound hstep (by rw [hget, if_pos rfl]) hplaced
  have hnoted : noteUpdate updated w (.manage (.reloadCommit t)) = insert config.name updated := by
    simp only [noteUpdate, hcall]
  rw [hnoted, h.change_iff config.name (invokedCode_of_actors hactors)
    (fun name hname => currentCode_of_get hsound hstep
      (by rw [hget, if_neg hname, ModuleManager.get_retire_ne hname]))
    (fun name hname => by simp [hname]), hnew]
  constructor
  · intro hheld config' plugin' rest' hcall'
    cases hcall.symm.trans hcall'
    exact hheld (Finset.mem_insert_self _ _)
  · exact fun hheld _ => hheld config plugin rest hcall

/-- A `Rollback`. -/
theorem Current.rollback_iff {name : String} (h : w.Current updated) (hsound : w.threads.Sound)
    (hstep : w.manage (.rollback name) = some w') :
    w'.Current (noteUpdate updated w (.manage (.rollback name))) ↔
      KeepsCurrent (w, updated) (.manage (.rollback name)) := by
  obtain ⟨hthreads, -, hactors, -⟩ := manage_eq hstep
  have hmanager : w'.threads.manager = w.threads.manager.rollback name := by
    rw [← Option.some.inj hthreads]
  have hget := fun name' => congrArg (Option.join ∘ ModuleManager.Slot.running)
    (ModuleManager.slot_rollback w.threads.manager name name')
  cases hprevious : w.threads.manager.previousModules.lookup name with
  -- There is nothing to go back to: no table changes and no update is noted.
  | none =>
    have hsame : w.threads.manager.rollback name = w.threads.manager := by
      simp [ModuleManager.rollback, hprevious]
    have hnoted : noteUpdate updated w (.manage (.rollback name)) = updated := by
      simp [noteUpdate, hprevious]
    rw [hnoted, h.same_iff (invokedCode_of_actors hactors) fun name' =>
      currentCode_of_get hsound hstep (by rw [hmanager, hsame])]
    exact iff_of_true trivial fun plugin hplugin => by rw [hprevious] at hplugin; cases hplugin
  | some ptr =>
    obtain ⟨plugin, rfl, -⟩ := hsound.alive (.previous name) ptr hprevious
    -- The previous plugin runs again, and no other name is touched.
    have hback : w'.threads.manager.get name = some plugin := by
      have hslot := hget name
      rw [if_pos rfl] at hslot
      rw [hmanager]
      refine hslot.trans ?_
      simp [ModuleManager.slot, hprevious]
    have hothers : ∀ name', name' ≠ name →
        w'.threads.manager.get name' = w.threads.manager.get name' := by
      intro name' hname
      have hslot := hget name'
      rw [if_neg hname] at hslot
      rw [hmanager]
      exact hslot
    have hplaced : w.threads.placed (.previous name) = some (some plugin) := hprevious
    have hnew := currentCode_of_placed hsound hstep hback hplaced
    have hnoted : noteUpdate updated w (.manage (.rollback name)) = insert name updated := by
      simp [noteUpdate, hprevious]
    rw [hnoted, h.change_iff name (invokedCode_of_actors hactors)
      (fun name' hname => currentCode_of_get hsound hstep (hothers name' hname))
      (fun name' hname => by simp [hname]), hnew]
    -- Whoever holds a clone of the name holds one of the plugin that is back, or is out of date.
    constructor
    · intro hheld plugin' hplugin'
      cases hprevious.symm.trans hplugin'
      exact hheld (Finset.mem_insert_self _ _)
    · exact fun hheld _ => hheld plugin hprevious

/-- An `Unload`. -/
theorem Current.unload_iff {name : String} (h : w.Current updated) (hsound : w.threads.Sound)
    (hstep : w.manage (.unload name) = some w') :
    w'.Current (noteUpdate updated w (.manage (.unload name))) ↔
      KeepsCurrent (w, updated) (.manage (.unload name)) := by
  obtain ⟨hthreads, -, hactors, -⟩ := manage_eq hstep
  have hmanager : w'.threads.manager = w.threads.manager.unload name := by
    rw [← Option.some.inj hthreads]
  have hget : ∀ name', w'.threads.manager.get name' =
      if name' = name then none else w.threads.manager.get name' := by
    intro name'
    have hrecord := congrArg ModuleRecord.running
      (ModuleManager.recordOf_unload w.threads.manager name name')
    rw [hmanager]
    refine hrecord.trans ?_
    split <;> rfl
  have hnew : w'.currentCode name = none := by
    rw [currentCode, hget, if_pos rfl, Option.bind_none]
  refine (h.change_iff name (invokedCode_of_actors hactors)
    (fun name' hname => currentCode_of_get hsound hstep (by rw [hget, if_neg hname]))
    (fun name' _ => Iff.rfl)).trans ?_
  rw [hnew]
  rfl

/-- The code in the clone that can be made is that of the file under the plugin's path. -/
theorem freshClone_code {name : String} {original : LoadedPlugin κ}
    (h : w.running name = some original) :
    (w.freshClone name).map (·.code) = w.files.lookup original.path := by
  simp only [freshClone, h, Option.bind_some, LoadedPlugin.clone, initializePlugin, if_true]
  cases w.files.lookup original.path <;> rfl

/-- The construction of an actor. -/
theorem Current.construct_iff {actor : ℕ} {names : List (String × Bool)} (h : w.Current updated)
    (hstep : w.step (.construct actor names) = some w') :
    w'.Current updated ↔ KeepsCurrent (w, updated) (.construct actor names) := by
  simp only [step, Option.ite_none_right_eq_some, Option.some.injEq] at hstep
  obtain ⟨hnew, rfl⟩ := hstep
  -- The new actor has the clones it took, and the other actors keep theirs.
  have hinvoked : ∀ actor' name,
      invokedCode { w with actors := w.actors.insert actor (w.takeClones names) } actor' name =
        if actor' = actor then
          if (name, true) ∈ names then (w.freshClone name).map (·.code) else none
        else w.invokedCode actor' name := by
    intro actor' name
    simp only [invokedCode, UnorderedMap.lookup_insert]
    split
    · rw [Option.bind_some, lookup_takeClones]
      split <;> rfl
    · rfl
  constructor
  · intro hcurrent name original code hmem hname hrunning hfile
    have hcode := hcurrent actor name code
      (by rw [hinvoked, if_pos rfl, if_pos hmem, freshClone_code hrunning, hfile]) hname
    change w.currentCode name = some code at hcode
    rw [currentCode_eq_running, hrunning] at hcode
    exact Option.some.inj hcode
  · intro hkeeps actor' name code hcode hname
    show w.currentCode name = some code
    rw [hinvoked] at hcode
    split at hcode
    · rw [Option.ite_none_right_eq_some] at hcode
      obtain ⟨hmem, hcode⟩ := hcode
      cases hrunning : w.running name with
      | none => simp [freshClone, hrunning] at hcode
      | some original =>
        rw [freshClone_code hrunning] at hcode
        rw [currentCode_eq_running, hrunning, Option.map_some,
          hkeeps name original code hmem hname hrunning hcode]
    · exact h actor' name code hcode hname

/-- One step keeps all actors current exactly when it meets the condition. -/
theorem Current.step_iff {a : PluginAction κ} (h : w.Current updated) (hsound : w.threads.Sound)
    (hstep : w.step a = some w') :
    w'.Current (noteUpdate updated w a) ↔ KeepsCurrent (w, updated) a := by
  cases a with
  | writeFile path code =>
    cases hstep
    exact iff_of_true h trivial
  | removeFile path =>
    cases hstep
    exact iff_of_true h trivial
  | invoke actor name =>
    cases hstep
    exact iff_of_true h trivial
  | construct actor names => exact h.construct_iff hstep
  | manage a =>
    -- Before its commit a call changes neither the running plugins nor the clones.
    have hquiet : ¬ a.Commits → noteUpdate updated w (.manage a) = updated →
        (w'.Current (noteUpdate updated w (.manage a)) ↔ True) := by
      intro ha hnoted
      obtain ⟨hthreads, -, hactors, -⟩ := manage_eq hstep
      rw [hnoted]
      exact h.same_iff (invokedCode_of_actors hactors) fun name =>
        currentCode_of_get hsound hstep (ModuleThreads.get_of_not_commits hthreads ha name)
    cases a with
    | loadCommit t => exact h.loadCommit_iff hsound hstep
    | reloadCommit t => exact h.reloadCommit_iff hsound hstep
    | rollback name => exact h.rollback_iff hsound hstep
    | unload name => exact h.unload_iff hsound hstep
    | loadCreate t config creation => exact hquiet id rfl
    | reloadCreate t config creation => exact hquiet id rfl
    | snapshot t order => exact hquiet id rfl
    | refreshCreate t creation => exact hquiet id rfl
    | refreshReturn t => exact hquiet id rfl

/-- The plugins of the manager stay in order. -/
theorem sound_step {a : PluginAction κ} (h : w.threads.Sound) (hstep : w.step a = some w') :
    w'.threads.Sound := by
  cases a with
  | writeFile path code =>
    cases hstep
    exact h
  | removeFile path =>
    cases hstep
    exact h
  | invoke actor name =>
    cases hstep
    exact h
  | construct actor names =>
    simp only [step, Option.ite_none_right_eq_some, Option.some.injEq] at hstep
    obtain ⟨-, rfl⟩ := hstep
    exact h
  | manage a => exact h.effect (ModuleThreads.effect_of_step (manage_eq hstep).1)

/-- In a run of calls, file changes and constructions, from any files, every invocation that starts
after a successful `HotReload` or `Rollback` of its module executes the code of the plugin that `Get`
returns, in every state of the run, exactly when each step of the run meets the condition. -/
theorem current_iff_keepsCurrent (files : ModuleFiles κ) (acts : List (PluginAction κ)) :
    (updatedWorld κ).AlwaysOn (fun p => p.1.Current p.2) (.fresh files, ∅) acts ↔
      (updatedWorld κ).EachStep KeepsCurrent (.fresh files, ∅) acts := by
  refine TransitionSystem.alwaysOn_iff_eachStep_of_inv
    (J := fun p : PluginWorld κ × Finset String => p.1.threads.Sound) ?_ ?_
    ModuleThreads.sound_empty ?_ acts
  · rintro ⟨w, updated⟩ a ⟨w', updated'⟩ hsound hstep
    exact sound_step hsound (TransitionSystem.withHistory_step.mp hstep).1
  · rintro ⟨w, updated⟩ a ⟨w', updated'⟩ hsound hcurrent hstep
    obtain ⟨hplain, rfl⟩ := TransitionSystem.withHistory_step.mp hstep
    exact hcurrent.step_iff hsound hplain
  · intro actor name code hcode
    simp [invokedCode, fresh] at hcode

/-! ## An actor that outlives its code -/

/-- An actor is constructed, and then its module is hot reloaded from another file. -/
def reloadUnderActor : List (PluginAction ℕ) :=
  [.writeFile "room_v1.wasm" 1, .writeFile "room_v2.wasm" 2,
    .manage (.loadCreate 0 ⟨"room", "room_v1.wasm", 1⟩ .initialized), .manage (.loadCommit 0),
    .construct 0 [("room", true)],
    .manage (.reloadCreate 0 ⟨"room", "room_v2.wasm", 2⟩ .initialized), .manage (.reloadCommit 0)]

/-- The actor still runs the code that was replaced. -/
theorem actor_keeps_replaced_code :
    ∃ p, (updatedWorld ℕ).run (.fresh ∅, ∅) reloadUnderActor = some p ∧ "room" ∈ p.2 ∧
      p.1.invokedCode 0 "room" = some 1 ∧ p.1.currentCode "room" = some 2 :=
  ⟨_, rfl, by decide, by decide, by decide⟩

end PluginWorld

end

end WasmHot
