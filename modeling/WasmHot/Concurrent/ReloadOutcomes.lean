import WasmHot.Concurrent.ModuleTables

/-!
# What one HotReloadAll does

`HotReloadAll` goes through a snapshot of `configs_`, whose order is that of a hash map, and reloads
each module; a reload that fails is skipped. Left alone it treats every module on its own:
`hotReloadAll_independent` says for each name what is running and what is kept for a rollback
afterwards, in terms of the state before and of that module's own outcome.
-/

namespace WasmHot

namespace ModuleManager

/-- What a list of reloads makes of the manager: `m'` is `m` with each module of the list reloaded on
its own. -/
structure ReloadsEach (m m' : ModuleManager) (order : List (ModuleConfig × Creation)) : Prop where
  loaded : ∀ name, name ∈ m'.modules ↔ name ∈ m.modules
  configs : m'.configs = m.configs
  schemaVersions : m'.schemaVersions = m.schemaVersions
  /-- A module whose reload fails keeps its running and its previous plugin. -/
  failed : ∀ entry ∈ order, entry.2 ≠ .initialized →
    m'.slot entry.1.name = m.slot entry.1.name
  /-- A module whose reload succeeds runs a new plugin, made from its config, and keeps the one that
  was running. -/
  reloaded : ∀ entry ∈ order, entry.2 = .initialized → ∃ plugin : Plugin,
    m'.slot entry.1.name = ⟨some (some plugin), (m.slot entry.1.name).running⟩ ∧
      plugin.config = entry.1 ∧ m.created ≤ plugin.serial
  others : ∀ name, (∀ entry ∈ order, entry.1.name ≠ name) → m'.slot name = m.slot name

variable {m : ModuleManager}

/-- The configs are recorded under their names, and no two have the same. -/
structure Recorded (m : ModuleManager) (order : List (ModuleConfig × Creation)) : Prop where
  found : ∀ entry ∈ order, m.configs.lookup entry.1.name = some entry.1
  distinct : (order.map fun entry => entry.1.name).Nodup

/-- A snapshot has each recorded config once. -/
theorem IsSnapshot.recorded {order : List (ModuleConfig × Creation)} (h : m.Consistent)
    (hsnapshot : m.IsSnapshot order) : m.Recorded order := by
  have hentry : ∀ entry ∈ m.configs.entries, entry.2.name = entry.1 := fun entry hmem =>
    h.named _ _ (Finmap.lookup_eq_some_iff.mpr hmem)
  constructor
  · intro entry hmem
    have hconfig : entry.1 ∈ (order.map Prod.fst : Multiset ModuleConfig) :=
      Multiset.mem_coe.mpr (List.mem_map_of_mem hmem)
    rw [hsnapshot] at hconfig
    obtain ⟨found, hfound, hsame⟩ := Multiset.mem_map.mp hconfig
    rw [← hsame, hentry found hfound]
    exact Finmap.lookup_eq_some_iff.mpr hfound
  · have hnames : ((order.map fun entry => entry.1.name : List String) : Multiset String) =
        m.configs.entries.keys := by
      have hmap := congrArg (Multiset.map ModuleConfig.name) hsnapshot
      rw [Multiset.map_coe, List.map_map, Multiset.map_map] at hmap
      refine hmap.trans ?_
      exact Multiset.map_congr rfl hentry
    rw [← Multiset.coe_nodup, hnames, Multiset.nodup_keys]
    exact m.configs.nodupKeys

/-- A snapshot has an entry for each loaded module and for nothing else. -/
theorem IsSnapshot.covers {order : List (ModuleConfig × Creation)} (h : m.Consistent)
    (hsnapshot : m.IsSnapshot order) (name : String) :
    name ∈ m.modules ↔ ∃ entry ∈ order, entry.1.name = name := by
  rw [h.configured]
  constructor
  · intro hname
    obtain ⟨config, hconfig⟩ := Finmap.mem_iff.mp hname
    have hmem : config ∈ m.configs.entries.map (·.2) :=
      Multiset.mem_map.mpr ⟨⟨name, config⟩, Finmap.lookup_eq_some_iff.mp hconfig, rfl⟩
    rw [← hsnapshot, Multiset.mem_coe] at hmem
    obtain ⟨entry, hentry, hsame⟩ := List.mem_map.mp hmem
    exact ⟨entry, hentry, hsame ▸ h.named name config hconfig⟩
  · rintro ⟨entry, hentry, rfl⟩
    exact Finmap.mem_of_lookup_eq_some ((hsnapshot.recorded h).found entry hentry)

/-- What one `HotReload` of a loaded module with its recorded config does to the plugins. -/
theorem slot_hotReload_loaded (m : ModuleManager) (config : ModuleConfig) (creation : Creation)
    (name : String) (hloaded : config.name ∈ m.modules) :
    (m.hotReload config creation).2.slot name =
      if name = config.name ∧ creation = .initialized then
        ⟨some (some ⟨m.created, config⟩), (m.slot config.name).running⟩
      else m.slot name := by
  cases creation with
  | createFailed =>
    rw [if_neg (by simp)]
    rfl
  | initializeFailed =>
    rw [if_neg (by simp)]
    rfl
  | initialized =>
    obtain ⟨ptr, hptr⟩ := Finmap.mem_iff.mp hloaded
    rw [slot_hotReload]
    by_cases hname : name = config.name
    · simp [hname, slot, hptr]
    · simp [hname]

theorem created_le_hotReload (m : ModuleManager) (config : ModuleConfig) (creation : Creation) :
    m.created ≤ (m.hotReload config creation).2.created := by
  cases creation with
  | createFailed => exact le_rfl
  | initializeFailed => exact Nat.le_succ _
  | initialized =>
    rw [created_hotReload]
    exact Nat.le_succ _

/-- And to the other tables: nothing. -/
theorem hotReload_recorded (h : m.Consistent) {config : ModuleConfig}
    (hconfig : m.configs.lookup config.name = some config) (creation : Creation) :
    (∀ name, name ∈ (m.hotReload config creation).2.modules ↔ name ∈ m.modules) ∧
      (m.hotReload config creation).2.configs = m.configs ∧
      (m.hotReload config creation).2.schemaVersions = m.schemaVersions := by
  cases creation with
  | createFailed => exact ⟨fun _ => Iff.rfl, rfl, rfl⟩
  | initializeFailed => exact ⟨fun _ => Iff.rfl, rfl, rfl⟩
  | initialized =>
    obtain ⟨hmodules, hconfigs, hversions⟩ := hotReload_maps m config
    have hloaded : config.name ∈ m.modules :=
      (h.configured _).mpr (Finmap.mem_of_lookup_eq_some hconfig)
    refine ⟨fun name => ?_, ?_, ?_⟩
    · rw [hmodules]
      exact or_iff_right_of_imp fun hname => hname ▸ hloaded
    · rw [hconfigs, UnorderedMap.insert_of_lookup hconfig]
    · rw [hversions, UnorderedMap.insert_of_lookup (h.versioned _ _ hconfig)]

/-- The loop of `HotReloadAll` treats each module on its own. -/
theorem reloadsEach_hotReloadAll {order : List (ModuleConfig × Creation)} (h : m.Consistent)
    (hrecorded : m.Recorded order) : ReloadsEach m (m.hotReloadAll order).2 order := by
  induction order generalizing m with
  | nil =>
    exact ⟨fun _ => Iff.rfl, rfl, rfl, fun _ hmem => absurd hmem List.not_mem_nil,
      fun _ hmem => absurd hmem List.not_mem_nil, fun _ _ => rfl⟩
  | cons entry rest ih =>
    obtain ⟨config, creation⟩ := entry
    obtain ⟨hfound, hdistinct⟩ := hrecorded
    obtain ⟨hfresh, hdistinct⟩ := List.nodup_cons.mp hdistinct
    have hconfig := hfound _ List.mem_cons_self
    have hloaded : config.name ∈ m.modules :=
      (h.configured _).mpr (Finmap.mem_of_lookup_eq_some hconfig)
    obtain ⟨hmodules, hconfigs, hversions⟩ := hotReload_recorded h hconfig creation
    have hslot := fun name => slot_hotReload_loaded m config creation name hloaded
    have hrest := ih (h.hotReload config creation)
      ⟨fun entry hmem => by rw [hconfigs]; exact hfound entry (List.mem_cons_of_mem _ hmem),
        hdistinct⟩
    -- the rest of the list does not come back to the first name
    have haway : ∀ entry ∈ rest, entry.1.name ≠ config.name := fun entry hmem heq =>
      hfresh (List.mem_map.mpr ⟨entry, hmem, heq⟩)
    have hfirst := hrest.others config.name haway
    rw [hslot] at hfirst
    refine ⟨fun name => (hrest.loaded name).trans (hmodules name), hrest.configs.trans hconfigs,
      hrest.schemaVersions.trans hversions, ?_, ?_, ?_⟩
    · intro entry hmem hfails
      rcases List.mem_cons.mp hmem with rfl | hmem
      · rw [if_neg fun hyes => hfails hyes.2] at hfirst
        exact hfirst
      · refine (hrest.failed entry hmem hfails).trans ?_
        rw [hslot, if_neg fun hyes => haway entry hmem hyes.1]
    · intro entry hmem hok
      rcases List.mem_cons.mp hmem with rfl | hmem
      · rw [if_pos ⟨rfl, hok⟩] at hfirst
        exact ⟨⟨m.created, config⟩, hfirst, rfl, le_rfl⟩
      · obtain ⟨plugin, hplugin, hmade, hnew⟩ := hrest.reloaded entry hmem hok
        refine ⟨plugin, hplugin.trans ?_, hmade, (created_le_hotReload m config creation).trans hnew⟩
        rw [hslot, if_neg fun hyes => haway entry hmem hyes.1]
    · intro name hname
      refine (hrest.others name fun entry hmem => hname entry (List.mem_cons_of_mem _ hmem)).trans ?_
      rw [hslot, if_neg fun hyes => hname _ List.mem_cons_self hyes.1.symm]

/-- Its result says whether every reload succeeded. -/
theorem hotReloadAll_ok_iff (m : ModuleManager) (order : List (ModuleConfig × Creation)) :
    (m.hotReloadAll order).1 = true ↔ ∀ entry ∈ order, entry.2 = .initialized := by
  induction order generalizing m with
  | nil => exact iff_of_true rfl fun _ hmem => absurd hmem List.not_mem_nil
  | cons entry rest ih =>
    obtain ⟨config, creation⟩ := entry
    have hfirst : (m.hotReload config creation).1 = true ↔ creation = .initialized := by
      cases creation <;> simp [hotReload]
    rw [List.forall_mem_cons, ← ih (m.hotReload config creation).2, ← hfirst]
    exact Bool.and_eq_true_iff

end ModuleManager

/-- From any state that the calls of any number of threads reach, a `HotReloadAll` that runs alone,
in any order of its snapshot and with any outcome of each reload, reloads each loaded module on its
own, and returns true exactly when every reload succeeded. -/
theorem hotReloadAll_independent {s : ModuleThreads} (h : moduleThreads.Reachable s)
    {order : List (ModuleConfig × Creation)} (hsnapshot : s.manager.IsSnapshot order) :
    (∀ name, name ∈ s.manager.modules ↔ ∃ entry ∈ order, entry.1.name = name) ∧
      ModuleManager.ReloadsEach s.manager (s.manager.hotReloadAll order).2 order ∧
      ((s.manager.hotReloadAll order).1 = true ↔ ∀ entry ∈ order, entry.2 = .initialized) := by
  have hconsistent := (ModuleThreads.sound_of_reachable h).2.toConsistent
  exact ⟨hsnapshot.covers hconsistent,
    ModuleManager.reloadsEach_hotReloadAll hconsistent (hsnapshot.recorded hconsistent),
    ModuleManager.hotReloadAll_ok_iff _ _⟩

/-! ## One failure among two reloads -/

/-- Two modules are loaded. -/
def loadTwo : List ModuleAction :=
  [.loadCreate 0 ⟨"room", "room.wasm", 1⟩ .initialized, .loadCommit 0,
    .loadCreate 0 ⟨"chat", "chat.wasm", 1⟩ .initialized, .loadCommit 0]

/-- The reload of one of them fails. -/
def reloadTwo : List (ModuleConfig × Creation) :=
  [(⟨"chat", "chat.wasm", 1⟩, .initializeFailed), (⟨"room", "room.wasm", 1⟩, .initialized)]

/-- The other one is reloaded all the same. -/
theorem hotReloadAll_independent_reloadTwo :
    ∃ s, moduleThreads.run .empty loadTwo = some s ∧
      (∀ name, name ∈ s.manager.modules ↔ ∃ entry ∈ reloadTwo, entry.1.name = name) ∧
      ModuleManager.ReloadsEach s.manager (s.manager.hotReloadAll reloadTwo).2 reloadTwo ∧
      ((s.manager.hotReloadAll reloadTwo).1 = true ↔
        ∀ entry ∈ reloadTwo, entry.2 = .initialized) :=
  ⟨_, rfl, hotReloadAll_independent (.of_run (.init rfl) loadTwo rfl) (by decide)⟩

end WasmHot
