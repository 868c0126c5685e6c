import WasmHot.Concurrent.HotReloadAll
import WasmHot.Core.RollbackHistory

/-!
# The module tables under concurrent calls

`Load`, `HotReload` and each round of `HotReloadAll` create and initialize a plugin before they take
the lock, and commit it afterwards; until then the plugin belongs to the call. Any number of threads
are at any of these places while others roll back and unload.

A plugin is therefore in one of three kinds of place: running, kept for a rollback, or held by a
call. Every step moves plugins between places or takes them away, except for the creation of a new
one, so no instance is ever in two places (`Sound.of_moves`), and from this the consistency of the
four maps follows (`tables_consistent`).

`shutDown` lists the instances on which `Shutdown` was called. A destructor shuts its instance down
as well, but it runs only when no `shared_ptr` is left, and every place is one.
-/

namespace WasmHot

/-- Where a thread is inside a call that creates plugins. -/
inductive ModuleCall
  /-- `Load`, with its plugin initialized and not committed. -/
  | loading (config : ModuleConfig) (plugin : Plugin)
  /-- `HotReload`, likewise; with the configs that are left if `HotReloadAll` called it. -/
  | reloading (config : ModuleConfig) (plugin : Plugin) (rest : Option (List ModuleConfig))
  /-- `HotReloadAll` between two of its reloads. -/
  | refreshing (rest : List ModuleConfig)
  deriving DecidableEq

/-- The manager with the calls in progress. `initialized` belongs to the plugins: the instances whose
`Initialize` returned true. -/
structure ModuleThreads where
  manager : ModuleManager
  initialized : List ℕ
  calls : UnorderedMap ThreadId ModuleCall
  deriving DecidableEq

/-- One step of a thread. -/
inductive ModuleAction
  /-- `Load` up to its lock. -/
  | loadCreate (t : ThreadId) (config : ModuleConfig) (creation : Creation)
  | loadCommit (t : ThreadId)
  /-- `HotReload` up to its lock. -/
  | reloadCreate (t : ThreadId) (config : ModuleConfig) (creation : Creation)
  | reloadCommit (t : ThreadId)
  /-- The copy of `configs_` in `HotReloadAll`, in the order of the hash map. -/
  | snapshot (t : ThreadId) (order : List ModuleConfig)
  /-- The next `HotReload` of `HotReloadAll` up to its lock. -/
  | refreshCreate (t : ThreadId) (creation : Creation)
  | refreshReturn (t : ThreadId)
  | rollback (name : String)
  | unload (name : String)

/-- The plugin a call holds. -/
def ModuleCall.plugin : ModuleCall → Option Plugin
  | .loading _ plugin => some plugin
  | .reloading _ plugin _ => some plugin
  | .refreshing _ => none

namespace ModuleThreads

/-- No module, no call. -/
def empty : ModuleThreads := ⟨.empty, [], ∅⟩

/-- The thread enters a call, or goes on to another place in it. -/
def enter (s : ModuleThreads) (t : ThreadId) (call : ModuleCall) : ModuleThreads :=
  { s with calls := s.calls.insert t call }

/-- The thread returns from its call. -/
def leave (s : ModuleThreads) (t : ThreadId) : ModuleThreads :=
  { s with calls := s.calls.erase t }

/-- `factory_->Create` and `Initialize`: the plugin, if both succeed. -/
def construct (s : ModuleThreads) (config : ModuleConfig) :
    Creation → Option Plugin × ModuleThreads
  | .createFailed => (none, s)
  | .initializeFailed => (none, { s with manager := (s.manager.make config).2 })
  | .initialized =>
      let (plugin, manager) := s.manager.make config
      (some plugin, { s with manager, initialized := s.initialized ++ [plugin.serial] })

/-- `Load` up to its lock. -/
def loadCreate (s : ModuleThreads) (t : ThreadId) (config : ModuleConfig) (creation : Creation) :
    Option ModuleThreads :=
  if s.calls.lookup t = none then
    match s.construct config creation with
    | (none, s) => some s
    | (some plugin, s) => some (s.enter t (.loading config plugin))
  else none

/-- `Load` under its lock. -/
def loadCommit (s : ModuleThreads) (t : ThreadId) : Option ModuleThreads :=
  match s.calls.lookup t with
  | some (.loading config plugin) =>
      some ({ s with manager := s.manager.install config (some plugin) }.leave t)
  | _ => none

/-- `HotReload` up to its lock. -/
def reloadCreate (s : ModuleThreads) (t : ThreadId) (config : ModuleConfig) (creation : Creation) :
    Option ModuleThreads :=
  if s.calls.lookup t = none then
    match s.construct config creation with
    | (none, s) => some s
    | (some plugin, s) => some (s.enter t (.reloading config plugin none))
  else none

/-- `HotReload` under its lock. -/
def reloadCommit (s : ModuleThreads) (t : ThreadId) : Option ModuleThreads :=
  match s.calls.lookup t with
  | some (.reloading config plugin rest) =>
      let s := { s with
        manager := (s.manager.retire config.name).install config (some plugin) }
      match rest with
      | none => some (s.leave t)
      | some rest => some (s.enter t (.refreshing rest))
  | _ => none

/-- The snapshot of `HotReloadAll`. -/
def snapshot (s : ModuleThreads) (t : ThreadId) (order : List ModuleConfig) :
    Option ModuleThreads :=
  if s.calls.lookup t = none ∧
      (order : Multiset ModuleConfig) = s.manager.configs.entries.map (·.2) then
    some (s.enter t (.refreshing order))
  else none

/-- The next reload of `HotReloadAll` up to its lock. One that fails is logged and skipped. -/
def refreshCreate (s : ModuleThreads) (t : ThreadId) (creation : Creation) :
    Option ModuleThreads :=
  match s.calls.lookup t with
  | some (.refreshing (config :: rest)) =>
      match s.construct config creation with
      | (none, s) => some (s.enter t (.refreshing rest))
      | (some plugin, s) => some (s.enter t (.reloading config plugin (some rest)))
  | _ => none

/-- The return of `HotReloadAll`. -/
def refreshReturn (s : ModuleThreads) (t : ThreadId) : Option ModuleThreads :=
  match s.calls.lookup t with
  | some (.refreshing []) => some (s.leave t)
  | _ => none

/-- The step of an action, where it is enabled. -/
def step (s : ModuleThreads) : ModuleAction → Option ModuleThreads
  | .loadCreate t config creation => s.loadCreate t config creation
  | .loadCommit t => s.loadCommit t
  | .reloadCreate t config creation => s.reloadCreate t config creation
  | .reloadCommit t => s.reloadCommit t
  | .snapshot t order => s.snapshot t order
  | .refreshCreate t creation => s.refreshCreate t creation
  | .refreshReturn t => s.refreshReturn t
  | .rollback name => some { s with manager := s.manager.rollback name }
  | .unload name => some { s with manager := s.manager.unload name }

end ModuleThreads

/-- All interleavings of the calls, from the empty manager. -/
def moduleThreads : TransitionSystem ModuleThreads ModuleAction where
  Init s := s = .empty
  step := ModuleThreads.step

/-! ## Where plugins are -/

/-- A place that can hold a plugin. -/
inductive Place
  | running (name : String)
  | previous (name : String)
  | held (t : ThreadId)
  deriving DecidableEq

namespace ModuleManager

theorem created_retire (m : ModuleManager) (name : String) :
    (m.retire name).created = m.created := by
  unfold retire
  split <;> rfl

theorem shutDown_retire (m : ModuleManager) (name : String) :
    (m.retire name).shutDown = m.shutDown := by
  unfold retire
  split <;> rfl

theorem shutDown_rollback (m : ModuleManager) (name : String) :
    (m.rollback name).shutDown = m.shutDown := by
  unfold rollback
  cases m.previousModules.lookup name with
  | none => rfl
  | some ptr =>
    dsimp only
    cases m.configs.lookup name <;> rfl

end ModuleManager

namespace ModuleThreads

/-- The pointer at a place, if the place is there. -/
def placed (s : ModuleThreads) : Place → Option PluginPtr
  | .running name => s.manager.modules.lookup name
  | .previous name => s.manager.previousModules.lookup name
  | .held t => ((s.calls.lookup t).bind ModuleCall.plugin).map some

/-- Every pointer is to a plugin that was initialized and not shut down, and no plugin is in two
places. -/
structure Sound (s : ModuleThreads) : Prop where
  alive : ∀ place ptr, s.placed place = some ptr →
    ∃ plugin, ptr = some plugin ∧ plugin.serial ∈ s.initialized ∧
      plugin.serial ∉ s.manager.shutDown
  once : ∀ place place' plugin plugin', s.placed place = some (some plugin) →
    s.placed place' = some (some plugin') → plugin.serial = plugin'.serial → place = place'
  numbered : ∀ n, n ∈ s.initialized ∨ n ∈ s.manager.shutDown → n < s.manager.created

variable {s s' : ModuleThreads}

theorem sound_empty : Sound .empty := by
  have hnone : ∀ place, empty.placed place = none := by
    intro place
    cases place <;> rfl
  refine ⟨fun place ptr h => ?_, fun place _ plugin _ h => ?_, fun n h => ?_⟩
  · rw [hnone] at h
    cases h
  · rw [hnone] at h
    cases h
  · simp [empty, ModuleManager.empty] at h

/-- A step that makes no plugin: each plugin left has come from some place, no two from the same
one, and those shut down are not left anywhere. -/
theorem Sound.of_moves (h : s.Sound) (source : Place → Place)
    (hmoved : ∀ place ptr, s'.placed place = some ptr → s.placed (source place) = some ptr)
    (hinj : ∀ place place' ptr ptr', s'.placed place = some ptr → s'.placed place' = some ptr' →
      source place = source place' → place = place')
    (hinitialized : s'.initialized = s.initialized)
    (hcreated : s.manager.created ≤ s'.manager.created)
    (hshut : ∀ n ∈ s'.manager.shutDown, n ∉ s.manager.shutDown →
      ∃ place plugin, s.placed place = some (some plugin) ∧ plugin.serial = n ∧
        ∀ place', (s'.placed place').isSome → source place' ≠ place) : s'.Sound where
  alive place ptr hplaced := by
    obtain ⟨plugin, rfl, hinit, hlive⟩ := h.alive _ _ (hmoved place ptr hplaced)
    refine ⟨plugin, rfl, hinitialized ▸ hinit, fun hdown => ?_⟩
    obtain ⟨place', plugin', hplaced', hserial, haway⟩ := hshut _ hdown hlive
    have hsame := h.once _ _ _ _ (hmoved place _ hplaced) hplaced' hserial.symm
    exact haway place (by rw [hplaced]; rfl) hsame
  once place place' plugin plugin' hplaced hplaced' hserial :=
    hinj place place' _ _ hplaced hplaced'
      (h.once _ _ _ _ (hmoved _ _ hplaced) (hmoved _ _ hplaced') hserial)
  numbered n hn := by
    refine lt_of_lt_of_le ?_ hcreated
    rw [hinitialized] at hn
    rcases hn with hn | hn
    · exact h.numbered n (Or.inl hn)
    · by_cases hold : n ∈ s.manager.shutDown
      · exact h.numbered n (Or.inr hold)
      · obtain ⟨place, plugin, hplaced, rfl, -⟩ := hshut n hn hold
        obtain ⟨_, hplugin, hinit, -⟩ := h.alive _ _ hplaced
        cases hplugin
        exact h.numbered _ (Or.inl hinit)

/-- The creation of a plugin that a call of thread `t` then holds. -/
theorem Sound.of_created (h : s.Sound) (t : ThreadId) (plugin : Plugin)
    (hserial : plugin.serial = s.manager.created)
    (hheld : s'.placed (.held t) = some (some plugin))
    (hrest : ∀ place, place ≠ .held t → s'.placed place = s.placed place)
    (hinitialized : s'.initialized = s.initialized ++ [plugin.serial])
    (hcreated : s'.manager.created = s.manager.created + 1)
    (hshut : s'.manager.shutDown = s.manager.shutDown) : s'.Sound where
  alive place ptr hplaced := by
    rw [hinitialized, hshut]
    by_cases hplace : place = .held t
    · rw [hplace, hheld] at hplaced
      cases hplaced
      refine ⟨plugin, rfl, by simp, fun hdown => ?_⟩
      have hlt := h.numbered _ (Or.inr hdown)
      omega
    · rw [hrest place hplace] at hplaced
      obtain ⟨plugin', rfl, hinit, hlive⟩ := h.alive _ _ hplaced
      exact ⟨plugin', rfl, List.mem_append_left _ hinit, hlive⟩
  once := by
    -- The number of the new plugin is larger than all numbers placed before.
    have hnew : ∀ place plugin', place ≠ .held t → s'.placed place = some (some plugin') →
        plugin'.serial ≠ plugin.serial := by
      intro place plugin' hplace hplaced
      rw [hrest place hplace] at hplaced
      obtain ⟨_, hplugin, hinit, -⟩ := h.alive _ _ hplaced
      cases hplugin
      have hlt := h.numbered _ (Or.inl hinit)
      omega
    intro place place' plugin₁ plugin₂ hplaced hplaced' hsame
    by_cases hplace : place = .held t
    · by_cases hplace' : place' = .held t
      · rw [hplace, hplace']
      · rw [hplace, hheld] at hplaced
        cases hplaced
        exact absurd hsame.symm (hnew place' _ hplace' hplaced')
    · by_cases hplace' : place' = .held t
      · rw [hplace', hheld] at hplaced'
        cases hplaced'
        exact absurd hsame (hnew place _ hplace hplaced)
      · rw [hrest place hplace] at hplaced
        rw [hrest place' hplace'] at hplaced'
        exact h.once _ _ _ _ hplaced hplaced' hsame
  numbered n hn := by
    rw [hinitialized, hshut] at hn
    rw [hcreated]
    rcases hn with hn | hn
    · rcases List.mem_append.mp hn with hn | hn
      · have hlt := h.numbered n (Or.inl hn)
        omega
      · rw [List.mem_singleton.mp hn, hserial]
        omega
    · have hlt := h.numbered n (Or.inr hn)
      omega

/-! ## What each step moves -/

section

variable {t : ThreadId} {config : ModuleConfig} {plugin : Plugin} {creation : Creation}

@[simp]
theorem placed_held (s : ModuleThreads) (t : ThreadId) :
    s.placed (.held t) = ((s.calls.lookup t).bind ModuleCall.plugin).map some := rfl

/-- Where the plugins of a call in progress are: in the call, and nowhere in the tables. -/
theorem placed_enter (s : ModuleThreads) (t : ThreadId) (call : ModuleCall) (place : Place) :
    (s.enter t call).placed place =
      if place = .held t then call.plugin.map some else s.placed place := by
  cases place with
  | running name => rfl
  | previous name => rfl
  | held t' =>
    simp only [placed_held, enter, UnorderedMap.lookup_insert, Place.held.injEq]
    split <;> rfl

theorem placed_leave (s : ModuleThreads) (t : ThreadId) (place : Place) :
    (s.leave t).placed place = if place = .held t then none else s.placed place := by
  cases place with
  | running name => rfl
  | previous name => rfl
  | held t' =>
    simp only [placed_held, leave, UnorderedMap.lookup_erase, Place.held.injEq]
    split <;> rfl

/-- The three outcomes of `Create` and `Initialize`. -/
theorem construct_eq (s : ModuleThreads) (config : ModuleConfig) (creation : Creation) :
    s.construct config creation = (none, s) ∨
      s.construct config creation = (none, { s with manager := (s.manager.make config).2 }) ∨
      s.construct config creation = (some (s.manager.make config).1,
        { s with
          manager := (s.manager.make config).2
          initialized := s.initialized ++ [s.manager.created] }) := by
  cases creation with
  | createFailed => exact Or.inl rfl
  | initializeFailed => exact Or.inr (Or.inl rfl)
  | initialized => exact Or.inr (Or.inr rfl)

/-- What a step does. -/
inductive Effect (s : ModuleThreads) : ModuleThreads → Prop
  /-- `Load` or `HotReload` got no plugin and has returned. -/
  | failed {config : ModuleConfig} {creation : Creation} {s₁ : ModuleThreads}
      (hnone : s.construct config creation = (none, s₁)) : Effect s s₁
  /-- `HotReloadAll` got none for its next config. -/
  | skipped {t : ThreadId} {rest : List ModuleConfig} {config : ModuleConfig} {creation : Creation}
      {s₁ : ModuleThreads} (hnone : s.construct config creation = (none, s₁)) :
      Effect s (s₁.enter t (.refreshing rest))
  /-- A call has got a plugin and holds it. -/
  | constructed {t : ThreadId} {call : ModuleCall} {config : ModuleConfig} {creation : Creation}
      {plugin : Plugin} {s₁ : ModuleThreads}
      (hsome : s.construct config creation = (some plugin, s₁))
      (hcall : call.plugin = some plugin) : Effect s (s₁.enter t call)
  | loaded {t : ThreadId} {config : ModuleConfig} {plugin : Plugin}
      (hcall : s.calls.lookup t = some (.loading config plugin)) :
      Effect s ({ s with manager := s.manager.install config (some plugin) }.leave t)
  | reloaded {t : ThreadId} {config : ModuleConfig} {plugin : Plugin}
      (hcall : s.calls.lookup t = some (.reloading config plugin none)) :
      Effect s ({ s with
        manager := (s.manager.retire config.name).install config (some plugin) }.leave t)
  | reloadedNext {t : ThreadId} {config : ModuleConfig} {plugin : Plugin}
      {rest : List ModuleConfig}
      (hcall : s.calls.lookup t = some (.reloading config plugin (some rest))) :
      Effect s ({ s with
        manager := (s.manager.retire config.name).install config (some plugin) }.enter t
          (.refreshing rest))
  | copied (t : ThreadId) (order : List ModuleConfig) : Effect s (s.enter t (.refreshing order))
  | returned (t : ThreadId) : Effect s (s.leave t)
  | rolledBack (name : String) : Effect s { s with manager := s.manager.rollback name }
  | unloaded (name : String) : Effect s { s with manager := s.manager.unload name }

/-- `Load` up to its lock does to the manager what the creation of its plugin does. -/
theorem manager_loadCreate {t : ThreadId} {config : ModuleConfig} {creation : Creation}
    (hstep : s.step (.loadCreate t config creation) = some s') :
    s'.manager = (s.construct config creation).2.manager := by
  simp only [step, loadCreate, Option.ite_none_right_eq_some] at hstep
  obtain ⟨-, hstep⟩ := hstep
  split at hstep
  · next hnone =>
    cases hstep
    rw [hnone]
  · next hsome =>
    cases hstep
    rw [hsome]
    rfl

/-- So does `HotReload`. -/
theorem manager_reloadCreate {t : ThreadId} {config : ModuleConfig} {creation : Creation}
    (hstep : s.step (.reloadCreate t config creation) = some s') :
    s'.manager = (s.construct config creation).2.manager := by
  simp only [step, reloadCreate, Option.ite_none_right_eq_some] at hstep
  obtain ⟨-, hstep⟩ := hstep
  split at hstep
  · next hnone =>
    cases hstep
    rw [hnone]
  · next hsome =>
    cases hstep
    rw [hsome]
    rfl

/-- So does `HotReloadAll` for its next config. -/
theorem manager_refreshCreate {t : ThreadId} {creation : Creation}
    (hstep : s.step (.refreshCreate t creation) = some s') :
    ∃ config rest, s.calls.lookup t = some (.refreshing (config :: rest)) ∧
      s'.manager = (s.construct config creation).2.manager := by
  simp only [step, refreshCreate] at hstep
  split at hstep
  · next config rest hcall =>
    refine ⟨config, rest, hcall, ?_⟩
    split at hstep
    · next hnone =>
      cases hstep
      rw [hnone]
      rfl
    · next hsome =>
      cases hstep
      rw [hsome]
      rfl
  · cases hstep

/-- Every step has one of these effects. -/
theorem effect_of_step {a : ModuleAction} (hstep : s.step a = some s') : s.Effect s' := by
  cases a with
  -- The plugin is made without the lock, and a failed creation leaves the tables alone.
  | loadCreate t config creation =>
    simp only [step, loadCreate, Option.ite_none_right_eq_some] at hstep
    obtain ⟨-, hstep⟩ := hstep
    split at hstep
    · next hnone =>
      cases hstep
      exact .failed hnone
    · next hsome =>
      cases hstep
      exact .constructed hsome rfl
  | loadCommit t =>
    simp only [step, loadCommit] at hstep
    split at hstep
    · next hcall =>
      cases hstep
      exact .loaded hcall
    · cases hstep
  | reloadCreate t config creation =>
    simp only [step, reloadCreate, Option.ite_none_right_eq_some] at hstep
    obtain ⟨-, hstep⟩ := hstep
    split at hstep
    · next hnone =>
      cases hstep
      exact .failed hnone
    · next hsome =>
      cases hstep
      exact .constructed hsome rfl
  -- A `HotReload` of its own ends here, one of a `HotReloadAll` goes on with the next name.
  | reloadCommit t =>
    simp only [step, reloadCommit] at hstep
    split at hstep
    · next config plugin rest hcall =>
      cases rest with
      | none =>
        cases hstep
        exact .reloaded hcall
      | some rest =>
        cases hstep
        exact .reloadedNext hcall
    · cases hstep
  | snapshot t order =>
    simp only [step, snapshot, Option.ite_none_right_eq_some, Option.some.injEq] at hstep
    obtain ⟨-, rfl⟩ := hstep
    exact .copied t order
  -- A module that cannot be made is skipped, and the loop goes on.
  | refreshCreate t creation =>
    simp only [step, refreshCreate] at hstep
    split at hstep
    · split at hstep
      · next hnone =>
        cases hstep
        exact .skipped hnone
      · next hsome =>
        cases hstep
        exact .constructed hsome rfl
    · cases hstep
  | refreshReturn t =>
    simp only [step, refreshReturn] at hstep
    split at hstep
    · cases hstep
      exact .returned t
    · cases hstep
  | rollback name =>
    cases hstep
    exact .rolledBack name
  | unload name =>
    cases hstep
    exact .unloaded name

/-! ### Plugins in order -/

/-- A step that leaves the tables and the plugins of all calls alone. -/
theorem Sound.of_same (h : s.Sound) (hplaced : ∀ place ptr, s'.placed place = some ptr →
    s.placed place = some ptr) (hinitialized : s'.initialized = s.initialized)
    (hcreated : s.manager.created ≤ s'.manager.created)
    (hshut : s'.manager.shutDown = s.manager.shutDown) : s'.Sound :=
  h.of_moves id hplaced (fun _ _ _ _ _ _ heq => heq) hinitialized hcreated
    fun _ hn hold => absurd (hshut ▸ hn) hold

/-- A call that could not get a plugin goes on without one. -/
theorem Sound.construct_none {s₁ : ModuleThreads} (h : s.Sound)
    (hnone : s.construct config creation = (none, s₁)) : s₁.Sound := by
  rcases construct_eq s config creation with heq | heq | heq
  · rw [heq] at hnone
    cases hnone
    exact h
  · rw [heq] at hnone
    cases hnone
    refine h.of_same ?_ rfl (Nat.le_succ _) rfl
    intro place ptr hplaced
    cases place <;> exact hplaced
  · rw [heq] at hnone
    cases hnone

/-- A call that has got one holds it. -/
theorem Sound.construct_some {s₁ : ModuleThreads} {call : ModuleCall} (h : s.Sound)
    (hsome : s.construct config creation = (some plugin, s₁)) (hcall : call.plugin = some plugin) :
    (s₁.enter t call).Sound := by
  rcases construct_eq s config creation with heq | heq | heq
  · rw [heq] at hsome
    cases hsome
  · rw [heq] at hsome
    cases hsome
  · rw [heq] at hsome
    cases hsome
    refine h.of_created t ⟨s.manager.created, config⟩ rfl ?_ ?_ rfl rfl rfl
    · rw [placed_enter, if_pos rfl, hcall]
      rfl
    · intro place hplace
      rw [placed_enter, if_neg hplace]
      cases place <;> rfl

/-- A call that holds no plugin is left or gone on with. -/
theorem Sound.enter_refreshing {rest : List ModuleConfig} (h : s.Sound) :
    (s.enter t (.refreshing rest)).Sound := by
  refine h.of_same (fun place ptr hplaced => ?_) rfl le_rfl rfl
  rw [placed_enter] at hplaced
  split at hplaced
  · cases hplaced
  · exact hplaced

theorem Sound.leave (h : s.Sound) : (s.leave t).Sound := by
  refine h.of_same (fun place ptr hplaced => ?_) rfl le_rfl rfl
  rw [placed_leave] at hplaced
  split at hplaced
  · cases hplaced
  · exact hplaced

/-! ### Commits -/

theorem placed_install (s : ModuleThreads) (config : ModuleConfig) (ptr : PluginPtr)
    (place : Place) : placed { s with manager := s.manager.install config ptr } place =
      if place = .running config.name then some ptr else s.placed place := by
  cases place with
  | running name =>
    simp only [placed, ModuleManager.install, UnorderedMap.lookup_insert, Place.running.injEq]
  | previous name => rfl
  | held t => rfl

/-- What `HotReload` leaves under its lock: the new plugin is running, and the one that was running
is kept in the place of the one kept before. -/
theorem placed_replace (s : ModuleThreads) (config : ModuleConfig) (ptr : PluginPtr)
    (place : Place) :
    placed { s with manager := (s.manager.retire config.name).install config ptr } place =
      if place = .running config.name then some ptr
      else if place = .previous config.name then
        (s.placed (.running config.name)).or (s.placed (.previous config.name))
      else s.placed place := by
  rw [show placed { s with manager := (s.manager.retire config.name).install config ptr } place =
    _ from placed_install { s with manager := s.manager.retire config.name } config ptr place]
  by_cases hrunning : place = .running config.name
  · rw [if_pos hrunning, if_pos hrunning]
  · rw [if_neg hrunning, if_neg hrunning]
    simp only [placed, ModuleManager.retire]
    cases hplugin : s.manager.modules.lookup config.name with
    | none =>
      cases place with
      | running name => simp
      | previous name =>
        by_cases hname : name = config.name
        · subst hname
          simp
        · simp [hname]
      | held t => simp
    | some old =>
      cases place with
      | running name =>
        have hname : name ≠ config.name := fun heq => hrunning (by rw [heq])
        simp [hname]
      | previous name => simp [UnorderedMap.lookup_insert]
      | held t => simp

theorem placed_rollback (s : ModuleThreads) (name : String) (place : Place) :
    placed { s with manager := s.manager.rollback name } place =
      if place = .running name then (s.placed (.previous name)).or (s.placed (.running name))
      else if place = .previous name then none
      else s.placed place := by
  have hslot := fun name' => ModuleManager.slot_rollback s.manager name name'
  cases place with
  | running name' =>
    have hrunning := congrArg ModuleManager.Slot.running (hslot name')
    simp only [Place.running.injEq, reduceCtorEq, if_false]
    refine hrunning.trans ?_
    split <;> rfl
  | previous name' =>
    have hprevious := congrArg ModuleManager.Slot.previous (hslot name')
    simp only [Place.previous.injEq, reduceCtorEq, if_false]
    refine hprevious.trans ?_
    split <;> rfl
  | held t => rfl

theorem placed_unload (s : ModuleThreads) (name : String) (place : Place) :
    placed { s with manager := s.manager.unload name } place =
      if place = .running name ∨ place = .previous name then none else s.placed place := by
  cases place with
  | running name' => simp [placed, ModuleManager.unload, UnorderedMap.lookup_erase]
  | previous name' => simp [placed, ModuleManager.unload, UnorderedMap.lookup_erase]
  | held t => rfl

/-- `Load` moves its plugin from the call into the table. -/
theorem Sound.install (h : s.Sound) (hheld : s.placed (.held t) = some (some plugin)) :
    ModuleThreads.Sound
      ({ s with manager := s.manager.install config (some plugin) }.leave t) := by
  have hplaced := fun place => placed_leave
    { s with manager := s.manager.install config (some plugin) } t place
  simp only [placed_install] at hplaced
  refine h.of_moves (Function.update id (.running config.name) (.held t)) ?_ ?_ rfl le_rfl
    fun n hn hold => absurd hn hold
  · intro place ptr hptr
    rw [hplaced] at hptr
    grind
  · intro place place' ptr ptr' hptr hptr'
    rw [hplaced] at hptr hptr'
    grind

/-- `HotReload` moves its plugin from the call into the table, and the one that was running aside. -/
theorem Sound.replace (h : s.Sound) (hheld : s.placed (.held t) = some (some plugin))
    (hmanager : s'.manager = (s.manager.retire config.name).install config (some plugin))
    (hinitialized : s'.initialized = s.initialized)
    (hcalls : ∀ place ptr, s'.placed place = some ptr → place ≠ .held t ∧
      placed { s with manager := s'.manager } place = some ptr) : s'.Sound := by
  simp only [hmanager, placed_replace] at hcalls
  have hcreated : s.manager.created ≤ s'.manager.created := by
    rw [hmanager]
    exact (ModuleManager.created_retire s.manager config.name).ge
  have hshut : s'.manager.shutDown = s.manager.shutDown := by
    rw [hmanager]
    exact ModuleManager.shutDown_retire s.manager config.name
  cases hrunning : s.placed (.running config.name) with
  | none =>
    -- One plugin moves: from the call to the running ones.
    refine h.of_moves (Function.update id (.running config.name) (.held t)) ?_ ?_ hinitialized
      hcreated fun n hn hold => absurd (hshut ▸ hn) hold
    · intro place ptr hptr
      have hptr := hcalls place ptr hptr
      grind
    · intro place place' ptr ptr' hptr hptr'
      have hptr := hcalls place ptr hptr
      have hptr' := hcalls place' ptr' hptr'
      grind
  -- Two move: the running one aside, and the one of the call into its place.
  | some old =>
    refine h.of_moves (Function.update
      (Function.update id (.running config.name) (.held t)) (.previous config.name)
      (.running config.name)) ?_ ?_ hinitialized hcreated fun n hn hold => absurd (hshut ▸ hn) hold
    · intro place ptr hptr
      have hptr := hcalls place ptr hptr
      grind
    · intro place place' ptr ptr' hptr hptr'
      have hptr := hcalls place ptr hptr
      have hptr' := hcalls place' ptr' hptr'
      grind

/-- `Rollback` moves the plugin it finds back. -/
theorem Sound.rollback (h : s.Sound) (name : String) :
    Sound { s with manager := s.manager.rollback name } := by
  have hcreated := (ModuleManager.created_rollback s.manager name).ge
  have hshut := ModuleManager.shutDown_rollback s.manager name
  cases hprevious : s.placed (.previous name) with
  | none =>
    refine h.of_same (fun place ptr hptr => ?_) rfl hcreated hshut
    rw [placed_rollback] at hptr
    grind
  | some old =>
    refine h.of_moves (Function.update id (.running name) (.previous name)) ?_ ?_ rfl hcreated
      fun n hn hold => absurd (hshut ▸ hn) hold
    · intro place ptr hptr
      rw [placed_rollback] at hptr
      grind
    · intro place place' ptr ptr' hptr hptr'
      rw [placed_rollback] at hptr hptr'
      grind

/-- `Unload` shuts the running plugin down and leaves it nowhere. -/
theorem Sound.unload (h : s.Sound) (name : String) :
    Sound { s with manager := s.manager.unload name } := by
  have hplaced := placed_unload s name
  refine h.of_moves id ?_ (fun _ _ _ _ _ _ heq => heq) rfl le_rfl ?_
  · intro place ptr hptr
    rw [hplaced] at hptr
    grind
  · intro n hn hold
    have hn' := (List.mem_append.mp hn).resolve_left hold
    obtain ⟨plugin, hget, rfl⟩ := Option.map_eq_some_iff.mp (Option.mem_toList.mp hn')
    refine ⟨.running name, plugin, Option.join_eq_some_iff.mp hget, rfl, fun place hsome heq => ?_⟩
    have hplace : place = .running name := heq
    rw [hplaced, if_pos (Or.inl hplace)] at hsome
    cases hsome

/-- Every step keeps the plugins in order. -/
theorem Sound.effect (h : s.Sound) (heffect : s.Effect s') : s'.Sound := by
  cases heffect with
  | failed hnone => exact h.construct_none hnone
  | skipped hnone => exact (h.construct_none hnone).enter_refreshing
  | constructed hsome hcall => exact h.construct_some hsome hcall
  | loaded hcall => exact h.install (by rw [placed_held, hcall]; rfl)
  | reloaded hcall =>
    refine h.replace (by rw [placed_held, hcall]; rfl) rfl rfl fun place ptr hptr => ?_
    rw [placed_leave, Option.ite_none_left_eq_some] at hptr
    exact hptr
  | reloadedNext hcall =>
    refine h.replace (by rw [placed_held, hcall]; rfl) rfl rfl fun place ptr hptr => ?_
    rw [placed_enter] at hptr
    split at hptr
    · cases hptr
    · next hplace => exact ⟨hplace, hptr⟩
  | copied t order => exact h.enter_refreshing
  | returned t => exact h.leave
  | rolledBack name => exact h.rollback name
  | unloaded name => exact h.unload name

end

end ModuleThreads

/-! ## The names in the tables -/

namespace ModuleManager

/-- The four maps agree on the names, and each config is recorded under its own. -/
structure NamesAgree (m : ModuleManager) : Prop extends m.Consistent where
  versionConfigured : ∀ name, name ∈ m.schemaVersions → name ∈ m.configs

variable {m : ModuleManager}

theorem namesAgree_empty : NamesAgree .empty :=
  ⟨consistent_empty, fun _ h => absurd h Finmap.notMem_empty⟩

theorem NamesAgree.make (h : m.NamesAgree) (config : ModuleConfig) : (m.make config).2.NamesAgree :=
  ⟨⟨h.configured, h.undoable, h.named, h.versioned⟩, h.versionConfigured⟩

theorem NamesAgree.retire (h : m.NamesAgree) (name : String) : (m.retire name).NamesAgree := by
  refine ⟨h.toConsistent.retire name, ?_⟩
  unfold ModuleManager.retire
  cases m.modules.lookup name with
  | none => exact h.versionConfigured
  | some plugin => exact h.versionConfigured

theorem NamesAgree.install (h : m.NamesAgree) (config : ModuleConfig) (ptr : PluginPtr) :
    (m.install config ptr).NamesAgree := by
  refine ⟨h.toConsistent.install config ptr, fun name hname => ?_⟩
  simp only [ModuleManager.install, Finmap.mem_insert] at hname ⊢
  exact hname.imp_right (h.versionConfigured name)

theorem NamesAgree.rollback (h : m.NamesAgree) (name : String) : (m.rollback name).NamesAgree := by
  refine ⟨h.toConsistent.rollback name, ?_⟩
  unfold ModuleManager.rollback
  cases m.previousModules.lookup name with
  | none => exact h.versionConfigured
  | some plugin =>
    dsimp only
    cases hconfig : m.configs.lookup name with
    | none => exact h.versionConfigured
    | some config =>
      intro name' hname
      rcases Finmap.mem_insert.mp hname with rfl | hname
      · exact Finmap.mem_of_lookup_eq_some hconfig
      · exact h.versionConfigured name' hname

theorem NamesAgree.unload (h : m.NamesAgree) (name : String) : (m.unload name).NamesAgree := by
  refine ⟨h.toConsistent.unload name, fun name' hname => ?_⟩
  simp only [ModuleManager.unload, Finmap.mem_erase] at hname ⊢
  exact ⟨hname.1, h.versionConfigured name' hname.2⟩

end ModuleManager

namespace ModuleThreads

variable {s s' : ModuleThreads}

theorem construct_names {config : ModuleConfig} {creation : Creation} {plugin : Option Plugin}
    (h : s.manager.NamesAgree) (hmade : s.construct config creation = (plugin, s')) :
    s'.manager.NamesAgree := by
  rcases construct_eq s config creation with heq | heq | heq
  · rw [heq] at hmade
    cases hmade
    exact h
  · rw [heq] at hmade
    cases hmade
    exact h.make config
  · rw [heq] at hmade
    cases hmade
    exact h.make config

/-- Every step keeps the names in agreement. -/
theorem names_effect (h : s.manager.NamesAgree) (heffect : s.Effect s') :
    s'.manager.NamesAgree := by
  cases heffect with
  | failed hnone => exact construct_names h hnone
  | skipped hnone =>
    have hnames := construct_names h hnone
    exact hnames
  | constructed hsome _ =>
    have hnames := construct_names h hsome
    exact hnames
  | loaded _ => exact h.install _ _
  | reloaded _ => exact (h.retire _).install _ _
  | reloadedNext _ => exact (h.retire _).install _ _
  | copied _ _ => exact h
  | returned _ => exact h
  | rolledBack name => exact h.rollback name
  | unloaded name => exact h.unload name

/-- What holds of the tables in every state. -/
structure TablesConsistent (s : ModuleThreads) : Prop where
  configs : ∀ name, name ∈ s.manager.configs ↔ name ∈ s.manager.modules
  schemaVersions : ∀ name, name ∈ s.manager.schemaVersions ↔ name ∈ s.manager.modules
  previousModules : ∀ name, name ∈ s.manager.previousModules → name ∈ s.manager.modules
  /-- Every stored pointer is to a plugin that was initialized and has not been shut down. -/
  running : ∀ name ptr, s.manager.modules.lookup name = some ptr →
    ∃ plugin, ptr = some plugin ∧ plugin.serial ∈ s.initialized ∧
      plugin.serial ∉ s.manager.shutDown
  previous : ∀ name ptr, s.manager.previousModules.lookup name = some ptr →
    ∃ plugin, ptr = some plugin ∧ plugin.serial ∈ s.initialized ∧
      plugin.serial ∉ s.manager.shutDown
  /-- No instance is stored twice in one of the two maps, or in both. -/
  runningOnce : ∀ name name' plugin plugin', s.manager.modules.lookup name = some (some plugin) →
    s.manager.modules.lookup name' = some (some plugin') → plugin.serial = plugin'.serial →
      name = name'
  previousOnce : ∀ name name' plugin plugin',
    s.manager.previousModules.lookup name = some (some plugin) →
      s.manager.previousModules.lookup name' = some (some plugin') →
        plugin.serial = plugin'.serial → name = name'
  apart : ∀ name name' plugin plugin', s.manager.modules.lookup name = some (some plugin) →
    s.manager.previousModules.lookup name' = some (some plugin') → plugin.serial ≠ plugin'.serial

/-- What every run keeps. -/
theorem sound_of_reachable (h : moduleThreads.Reachable s) :
    s.Sound ∧ s.manager.NamesAgree := by
  refine h.invariant (I := fun s => s.Sound ∧ s.manager.NamesAgree) ?_ ?_
  · rintro s rfl
    exact ⟨sound_empty, ModuleManager.namesAgree_empty⟩
  · rintro s a s' ⟨hsound, hnames⟩ - hstep
    have heffect := effect_of_step hstep
    exact ⟨hsound.effect heffect, names_effect hnames heffect⟩

/-- In every state that interleaved calls reach, the module tables are consistent. -/
theorem tables_consistent (h : moduleThreads.Reachable s) : s.TablesConsistent := by
  obtain ⟨hsound, hnames⟩ := sound_of_reachable h
  have hconfigs := fun name => (hnames.configured name).symm
  have hversioned : ∀ name, name ∈ s.manager.configs → name ∈ s.manager.schemaVersions := by
    intro name hname
    obtain ⟨config, hconfig⟩ := Finmap.mem_iff.mp hname
    exact Finmap.mem_of_lookup_eq_some (hnames.versioned name config hconfig)
  constructor
  · exact hconfigs
  · exact fun name => Iff.trans ⟨hnames.versionConfigured name, hversioned name⟩ (hconfigs name)
  · exact fun name hname => (hconfigs name).mp (hnames.undoable name hname)
  · exact fun name ptr hptr => hsound.alive (.running name) ptr hptr
  · exact fun name ptr hptr => hsound.alive (.previous name) ptr hptr
  · intro name name' plugin plugin' hplugin hplugin' hserial
    exact Place.running.inj
      (hsound.once (.running name) (.running name') _ _ hplugin hplugin' hserial)
  · intro name name' plugin plugin' hplugin hplugin' hserial
    exact Place.previous.inj
      (hsound.once (.previous name) (.previous name') _ _ hplugin hplugin' hserial)
  · intro name name' plugin plugin' hplugin hplugin' hserial
    cases hsound.once (.running name) (.previous name') _ _ hplugin hplugin' hserial

/-! ## A reload, a rollback and an unload at once -/

/-- Two threads hold plugins for one module at the same time; both commit, then one of the plugins
is rolled back and the module is unloaded while `HotReloadAll` holds another plugin for it. -/
def overlappingReloads : List ModuleAction :=
  [.loadCreate 0 ⟨"room", "room.wasm", 1⟩ .initialized,
    .reloadCreate 1 ⟨"room", "room_v2.wasm", 2⟩ .initialized, .loadCommit 0, .reloadCommit 1,
    .snapshot 0 [⟨"room", "room_v2.wasm", 2⟩], .refreshCreate 0 .initialized, .rollback "room",
    .unload "room", .reloadCommit 0]

/-- The tables after that. -/
theorem tables_consistent_overlappingReloads :
    ∃ s, moduleThreads.run .empty overlappingReloads = some s ∧ s.TablesConsistent :=
  ⟨_, rfl, tables_consistent (.of_run (.init rfl) overlappingReloads rfl)⟩

end ModuleThreads

end WasmHot
