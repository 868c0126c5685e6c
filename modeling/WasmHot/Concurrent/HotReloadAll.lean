import WasmHot.Core.ModuleManager

/-!
# HotReloadAll among other calls

`HotReloadAll` copies `configs_` under the lock and then calls `HotReload` for each copy, which
takes the lock again to commit. Between the copy and a commit other threads load, reload, roll back
and unload, and the commit does not look at what they left: it installs the copied config.

A commit of `HotReloadAll` only refreshes when the config under its name is the copied one
(`commits_refresh_iff`); otherwise it revives an unloaded module or puts an older config back
(`unload_undone`).
-/

namespace WasmHot

/-- A manager and one call of `HotReloadAll`: the snapshot entries it has still to reload, if the
snapshot has been taken. -/
structure Refreshing where
  manager : ModuleManager
  pending : Option (List ModuleConfig)
  deriving DecidableEq

/-- The steps of `HotReloadAll`, and the calls of other threads. -/
inductive RefreshAction
  /-- The copy of `configs_`, in the order of the hash map. -/
  | snapshot (order : List ModuleConfig)
  /-- `HotReload` of the next entry. -/
  | commit (creation : Creation)
  | other (call : ModuleOp)

/-- The action is a step of `HotReloadAll`. -/
def RefreshAction.Own : RefreshAction → Prop
  | .other _ => False
  | _ => True

namespace Refreshing

/-- One step. A `HotReloadAll` of another thread is its calls of `HotReload`. -/
def step (s : Refreshing) : RefreshAction → Option Refreshing
  | .snapshot order =>
      if s.pending = none ∧ (order : Multiset ModuleConfig) = s.manager.configs.entries.map (·.2)
      then some { s with pending := some order }
      else none
  | .commit creation =>
      match s.pending with
      | some (config :: rest) =>
          some { manager := (s.manager.hotReload config creation).2, pending := some rest }
      | _ => none
  | .other (.load config creation) =>
      some { s with manager := (s.manager.load config creation).2 }
  | .other (.hotReload config creation) =>
      some { s with manager := (s.manager.hotReload config creation).2 }
  | .other (.rollback name) => some { s with manager := s.manager.rollback name }
  | .other (.unload name) => some { s with manager := s.manager.unload name }
  | .other (.hotReloadAll _) => none

/-- The state before a step and the manager after it, if the step belongs to `HotReloadAll`. -/
def record (own : List (ModuleManager × ModuleManager)) (s : Refreshing) :
    RefreshAction → List (ModuleManager × ModuleManager)
  | .other _ => own
  | a => own ++ ((s.step a).map fun s' => (s.manager, s'.manager)).toList

end Refreshing

/-- One `HotReloadAll` and any other calls, from the empty manager, with the steps that
`HotReloadAll` has made so far. -/
def refreshSystem :
    TransitionSystem (Refreshing × List (ModuleManager × ModuleManager)) RefreshAction :=
  TransitionSystem.withHistory
    { Init := fun s => s = ⟨.empty, none⟩
      step := Refreshing.step }
    (fun _ => []) Refreshing.record

namespace ModuleManager

/-! ## What is recorded under a name -/

/-- A step that loads no module, unloads none and leaves the path and the schema version of each. -/
structure Refreshes (before after : ModuleManager) : Prop where
  loaded : ∀ name, name ∈ after.modules ↔ name ∈ before.modules
  path : ∀ name, (after.configs.lookup name).map (·.path) =
    (before.configs.lookup name).map (·.path)
  version : ∀ name, (after.configs.lookup name).map (·.schemaVersion) =
    (before.configs.lookup name).map (·.schemaVersion)
  loadedVersion : ∀ name, after.schemaVersions.lookup name = before.schemaVersions.lookup name

/-- The maps agree on the names: a module that is loaded, or could be rolled back, has a config, and
that config gives its name and its schema version. -/
structure Consistent (m : ModuleManager) : Prop where
  configured : ∀ name, name ∈ m.modules ↔ name ∈ m.configs
  undoable : ∀ name, name ∈ m.previousModules → name ∈ m.configs
  named : ∀ name config, m.configs.lookup name = some config → config.name = name
  versioned : ∀ name config, m.configs.lookup name = some config →
    m.schemaVersions.lookup name = some config.schemaVersion

variable {m : ModuleManager}

theorem Refreshes.refl (m : ModuleManager) : Refreshes m m :=
  ⟨fun _ => Iff.rfl, fun _ => rfl, fun _ => rfl, fun _ => rfl⟩

theorem consistent_empty : Consistent .empty := by
  refine ⟨fun name => Iff.rfl, fun name h => ?_, fun name config h => ?_, fun name config h => ?_⟩
  · exact absurd h Finmap.notMem_empty
  · simp [empty] at h
  · simp [empty] at h

/-- Installing a plugin under its config keeps the maps in agreement. -/
theorem Consistent.install (h : m.Consistent) (config : ModuleConfig) (plugin : PluginPtr) :
    (m.install config plugin).Consistent where
  configured name := by simp [ModuleManager.install, h.configured name]
  undoable name hprev := by
    simp only [ModuleManager.install, Finmap.mem_insert]
    exact Or.inr (h.undoable name hprev)
  named name config' hconfig := by
    simp only [ModuleManager.install, UnorderedMap.lookup_insert] at hconfig
    split at hconfig
    · next hname =>
      cases hconfig
      exact hname.symm
    · exact h.named name config' hconfig
  versioned name config' hconfig := by
    simp only [ModuleManager.install, UnorderedMap.lookup_insert] at hconfig ⊢
    split at hconfig
    · next hname =>
      cases hconfig
      rw [if_pos hname]
    · next hname =>
      rw [if_neg hname]
      exact h.versioned name config' hconfig

theorem Consistent.retire (h : m.Consistent) (name : String) : (m.retire name).Consistent := by
  unfold ModuleManager.retire
  cases hplugin : m.modules.lookup name with
  | none => exact h
  | some plugin =>
    have hmem : name ∈ m.modules := Finmap.mem_of_lookup_eq_some hplugin
    refine ⟨fun name' => ?_, fun name' hprev => ?_, h.named, h.versioned⟩
    · rw [Finmap.mem_insert, ← h.configured]
      exact or_iff_right_of_imp fun hname => hname ▸ hmem
    · rcases Finmap.mem_insert.mp hprev with rfl | hprev
      · exact (h.configured _).mp hmem
      · exact h.undoable name' hprev

theorem Consistent.load (h : m.Consistent) (config : ModuleConfig) (creation : Creation) :
    (m.load config creation).2.Consistent := by
  have hmake : (m.make config).2.Consistent := ⟨h.configured, h.undoable, h.named, h.versioned⟩
  cases creation with
  | createFailed => exact h
  | initializeFailed => exact hmake
  | initialized => exact hmake.install config _

theorem Consistent.hotReload (h : m.Consistent) (config : ModuleConfig) (creation : Creation) :
    (m.hotReload config creation).2.Consistent := by
  have hmake : (m.make config).2.Consistent := ⟨h.configured, h.undoable, h.named, h.versioned⟩
  cases creation with
  | createFailed => exact h
  | initializeFailed => exact hmake
  | initialized => exact (hmake.retire config.name).install config _

/-- `Rollback` brings back a module that has a config and reads the version from it. -/
theorem Consistent.rollback (h : m.Consistent) (name : String) : (m.rollback name).Consistent := by
  unfold ModuleManager.rollback
  cases hprev : m.previousModules.lookup name with
  | none => exact h
  | some plugin =>
    have hmem : name ∈ m.configs := h.undoable name (Finmap.mem_of_lookup_eq_some hprev)
    obtain ⟨config, hconfig⟩ := Finmap.mem_iff.mp hmem
    simp only [hconfig]
    refine ⟨fun name' => ?_, fun name' hprev' => ?_, h.named, fun name' config' hconfig' => ?_⟩
    · rw [Finmap.mem_insert, h.configured]
      exact or_iff_right_of_imp fun hname => hname ▸ hmem
    · exact h.undoable name' ((Finmap.mem_erase.mp hprev').2)
    · rw [UnorderedMap.lookup_insert]
      split
      · next hname =>
        subst hname
        rw [hconfig] at hconfig'
        cases hconfig'
        rfl
      · exact h.versioned name' config' hconfig'

theorem Consistent.unload (h : m.Consistent) (name : String) : (m.unload name).Consistent where
  configured name' := by
    simp only [ModuleManager.unload, Finmap.mem_erase, h.configured]
  undoable name' hprev := by
    simp only [ModuleManager.unload, Finmap.mem_erase] at hprev ⊢
    exact ⟨hprev.1, h.undoable name' hprev.2⟩
  named name' config hconfig := by
    simp only [ModuleManager.unload, UnorderedMap.lookup_erase] at hconfig
    split at hconfig
    · cases hconfig
    · exact h.named name' config hconfig
  versioned name' config hconfig := by
    simp only [ModuleManager.unload, UnorderedMap.lookup_erase] at hconfig ⊢
    split at hconfig
    · cases hconfig
    · next hname =>
      rw [if_neg hname]
      exact h.versioned name' config hconfig

/-- A successful `HotReload` leaves its config and version under its name and everything else as it
was. -/
theorem hotReload_maps (m : ModuleManager) (config : ModuleConfig) :
    let m' := (m.hotReload config .initialized).2
    (∀ name, name ∈ m'.modules ↔ name = config.name ∨ name ∈ m.modules) ∧
      m'.configs = m.configs.insert config.name config ∧
      m'.schemaVersions = m.schemaVersions.insert config.name config.schemaVersion := by
  have hconfigs : ((m.make config).2.retire config.name).configs = m.configs := by
    unfold ModuleManager.retire
    cases (m.make config).2.modules.lookup config.name <;> rfl
  have hversions : ((m.make config).2.retire config.name).schemaVersions = m.schemaVersions := by
    unfold ModuleManager.retire
    cases (m.make config).2.modules.lookup config.name <;> rfl
  have hmodules : ∀ name, name = config.name ∨ name ∈ ((m.make config).2.retire config.name).modules ↔
      name = config.name ∨ name ∈ m.modules := by
    intro name
    unfold ModuleManager.retire
    cases (m.make config).2.modules.lookup config.name with
    | none => exact Iff.rfl
    | some plugin => simp [make]
  refine ⟨fun name => ?_, ?_, ?_⟩
  · rw [← hmodules]
    exact Finmap.mem_insert
  · exact congrArg (Finmap.insert config.name config) hconfigs
  · exact congrArg (Finmap.insert config.name config.schemaVersion) hversions

/-- A successful `HotReload` only refreshes exactly when its config is the one recorded. -/
theorem Consistent.refreshes_iff (h : m.Consistent) (config : ModuleConfig) :
    Refreshes m (m.hotReload config .initialized).2 ↔
      m.configs.lookup config.name = some config := by
  obtain ⟨hmodules, hconfigs, hversions⟩ := hotReload_maps m config
  constructor
  · intro hrefreshes
    have hloaded : config.name ∈ m.modules :=
      (hrefreshes.loaded config.name).mp ((hmodules _).mpr (Or.inl rfl))
    obtain ⟨config', hconfig'⟩ := Finmap.mem_iff.mp ((h.configured _).mp hloaded)
    have hpath := hrefreshes.path config.name
    have hversion := hrefreshes.version config.name
    rw [hconfigs, Finmap.lookup_insert, hconfig'] at hpath hversion
    -- Path and version are unchanged, and the name is the key of the recorded config.
    have hname := h.named _ config' hconfig'
    rw [hconfig']
    cases config
    cases config'
    cases hpath
    cases hversion
    cases hname
    rfl
  · intro hconfig
    have hinsert : m.configs.insert config.name config = m.configs :=
      UnorderedMap.insert_of_lookup hconfig
    have hloaded : config.name ∈ m.modules :=
      (h.configured _).mpr (Finmap.mem_of_lookup_eq_some hconfig)
    refine ⟨fun name => ?_, fun name => ?_, fun name => ?_, fun name => ?_⟩
    · rw [hmodules]
      exact or_iff_right_of_imp fun hname => hname ▸ hloaded
    · rw [hconfigs, hinsert]
    · rw [hconfigs, hinsert]
    · rw [hversions, UnorderedMap.lookup_insert]
      split
      · next hname => rw [hname, h.versioned _ config hconfig]
      · rfl

end ModuleManager

namespace Refreshing

/-- A reload of `HotReloadAll` that succeeds finds the copied config under its name. -/
def CommitsCurrent (s : Refreshing) : RefreshAction → Prop
  | .commit .initialized => ∀ config rest, s.pending = some (config :: rest) →
      s.manager.configs.lookup config.name = some config
  | _ => True

/-- Every step keeps the maps of the manager in agreement. -/
theorem consistent_step {s s' : Refreshing} {a : RefreshAction} (h : s.manager.Consistent)
    (hstep : s.step a = some s') : s'.manager.Consistent := by
  cases a with
  | snapshot order =>
    simp only [step, Option.ite_none_right_eq_some, Option.some.injEq] at hstep
    obtain ⟨-, rfl⟩ := hstep
    exact h
  | commit creation =>
    simp only [step] at hstep
    split at hstep
    · cases hstep
      exact h.hotReload _ creation
    · cases hstep
  | other call =>
    cases call with
    | load config creation =>
      cases hstep
      exact h.load config creation
    | hotReload config creation =>
      cases hstep
      exact h.hotReload config creation
    | hotReloadAll order => cases hstep
    | rollback name =>
      cases hstep
      exact h.rollback name
    | unload name =>
      cases hstep
      exact h.unload name

/-- A step of `HotReloadAll` only refreshes exactly when it does not commit an outdated config. -/
theorem refreshes_step_iff {s s' : Refreshing} {a : RefreshAction} (h : s.manager.Consistent)
    (hstep : s.step a = some s') :
    (a.Own → ModuleManager.Refreshes s.manager s'.manager) ↔ s.CommitsCurrent a := by
  cases a with
  | other call => exact iff_of_true nofun trivial
  | snapshot order =>
    simp only [step, Option.ite_none_right_eq_some, Option.some.injEq] at hstep
    obtain ⟨-, rfl⟩ := hstep
    exact iff_of_true (fun _ => .refl _) trivial
  | commit creation =>
    simp only [step] at hstep
    split at hstep
    · next config rest hpending =>
      cases hstep
      -- a reload that fails changes nothing that is recorded
      cases creation with
      | createFailed => exact iff_of_true (fun _ => .refl _) trivial
      | initializeFailed =>
        refine iff_of_true (fun _ => ?_) trivial
        exact ⟨fun _ => Iff.rfl, fun _ => rfl, fun _ => rfl, fun _ => rfl⟩
      | initialized =>
        simp only [CommitsCurrent, hpending, RefreshAction.Own, true_imp_iff, h.refreshes_iff]
        constructor
        · intro hcurrent config' rest' hentry
          cases hentry
          exact hcurrent
        · intro hcurrent
          exact hcurrent config rest rfl
    · cases hstep

/-- A property of the steps of `HotReloadAll` so far, after one more step. -/
theorem forall_record_iff {own : List (ModuleManager × ModuleManager)} {s s' : Refreshing}
    {a : RefreshAction} {P : ModuleManager → ModuleManager → Prop} (hown : ∀ p ∈ own, P p.1 p.2)
    (hstep : s.step a = some s') :
    (∀ p ∈ record own s a, P p.1 p.2) ↔ (a.Own → P s.manager s'.manager) := by
  have happend : (∀ p ∈ own ++ [(s.manager, s'.manager)], P p.1 p.2) ↔ P s.manager s'.manager := by
    rw [List.forall_mem_append, List.forall_mem_singleton]
    exact and_iff_right hown
  cases a with
  | other call => exact iff_of_true hown nofun
  | snapshot order =>
    simp only [record, hstep, Option.map_some, Option.toList_some, happend, RefreshAction.Own,
      true_imp_iff]
  | commit creation =>
    simp only [record, hstep, Option.map_some, Option.toList_some, happend, RefreshAction.Own,
      true_imp_iff]

/-- Left alone, the commits of `HotReloadAll` are its loop. -/
theorem run_commits (m : ModuleManager) (order : List (ModuleConfig × Creation)) :
    TransitionSystem.run { Init := fun _ => True, step := Refreshing.step }
        ⟨m, some (order.map Prod.fst)⟩ (order.map fun entry => .commit entry.2) =
      some ⟨(m.hotReloadAll order).2, some []⟩ := by
  induction order generalizing m with
  | nil => rfl
  | cons entry rest ih => exact ih (m.hotReload entry.1 entry.2).2

end Refreshing

/-- In a run with one `HotReloadAll` all its steps only refresh exactly when each of its reloads
that succeeds finds the config it copied under the name. -/
theorem commits_refresh_iff (run : List RefreshAction) :
    refreshSystem.AlwaysOn (fun p => ∀ own ∈ p.2, ModuleManager.Refreshes own.1 own.2)
        (⟨.empty, none⟩, []) run ↔
      refreshSystem.EachStep (fun p a => p.1.CommitsCurrent a) (⟨.empty, none⟩, []) run := by
  refine TransitionSystem.alwaysOn_iff_eachStep_of_inv
    (J := fun p : Refreshing × List (ModuleManager × ModuleManager) => p.1.manager.Consistent)
    ?_ ?_ ModuleManager.consistent_empty nofun run
  · rintro ⟨s, own⟩ a ⟨s', own'⟩ hcons hstep
    exact Refreshing.consistent_step hcons (TransitionSystem.withHistory_step.mp hstep).1
  · rintro ⟨s, own⟩ a ⟨s', own'⟩ hcons hown hstep
    obtain ⟨hplain, rfl⟩ := TransitionSystem.withHistory_step.mp hstep
    rw [← Refreshing.refreshes_step_iff hcons hplain]
    exact Refreshing.forall_record_iff hown hplain

/-! ## A decision that is overridden -/

/-- Two modules are loaded and copied. Then one is unloaded and the other gets a new version, and
`HotReloadAll` goes on. -/
def decideDuringReload : List RefreshAction :=
  [.other (.load ⟨"room", "room.wasm", 1⟩ .initialized),
    .other (.load ⟨"chat", "chat_v1.wasm", 1⟩ .initialized),
    .snapshot [⟨"room", "room.wasm", 1⟩, ⟨"chat", "chat_v1.wasm", 1⟩],
    .other (.unload "room"),
    .other (.hotReload ⟨"chat", "chat_v2.wasm", 2⟩ .initialized),
    .commit .initialized, .commit .initialized]

/-- The unloaded module is loaded again and the old version of the other is back. -/
theorem unload_undone :
    ∃ p, refreshSystem.run (⟨.empty, none⟩, []) decideDuringReload = some p ∧
      (¬ ∀ own ∈ p.2, ModuleManager.Refreshes own.1 own.2) ∧
      p.1.manager.get "room" = some ⟨3, ⟨"room", "room.wasm", 1⟩⟩ ∧
      p.1.manager.configs.lookup "chat" = some ⟨"chat", "chat_v1.wasm", 1⟩ := by
  refine ⟨_, rfl, fun hown => ?_, by decide, by decide⟩
  have hversion := (hown _ (.tail _ (.tail _ (.head _)))).loadedVersion "chat"
  revert hversion
  decide

end WasmHot
