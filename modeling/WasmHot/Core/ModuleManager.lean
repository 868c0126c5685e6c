import WasmHot.Lib.UnorderedMap
import WasmHot.Lib.Transition

/-!
# ModuleManager

The manager keeps the running plugin, the plugin it replaced, the config and the schema version of a
module in four maps that are updated separately. Every commit happens under the exclusive lock, so
each operation is one step; creating and initializing the new plugin happens before it and can fail.

`Described` is what the maps are for: the recorded config and version are those of the running
plugin. `described_iff_rollbackKeepsConfig` says which operation sequences keep it. `Rollback` takes
the version from the config map, which the `HotReload` it undoes has overwritten.
-/

namespace WasmHot

/-- `ModuleConfig`. -/
structure ModuleConfig where
  name : String
  path : String
  schemaVersion : UInt32
  deriving DecidableEq

/-- A plugin instance. `serial` tells instances apart, and `config` is the one whose path and
version were given to `factory_->Create`. -/
structure Plugin where
  serial : ℕ
  config : ModuleConfig
  deriving DecidableEq

/-- A `std::shared_ptr<IPlugin>`, which a move leaves null. -/
abbrev PluginPtr := Option Plugin

/-- What comes of `factory_->Create` and the `Initialize` after it. -/
inductive Creation
  | createFailed
  | initializeFailed
  | initialized
  deriving DecidableEq

/-- `ModuleManager`. The last two fields belong to the plugins: how many instances the factory has
made, and which of them were shut down. -/
structure ModuleManager where
  modules : UnorderedMap String PluginPtr
  previousModules : UnorderedMap String PluginPtr
  configs : UnorderedMap String ModuleConfig
  schemaVersions : UnorderedMap String UInt32
  created : ℕ
  shutDown : List ℕ
  deriving DecidableEq

namespace ModuleManager

/-- The manager before the first call. -/
def empty : ModuleManager := ⟨∅, ∅, ∅, ∅, 0, []⟩

/-- `Get`. -/
def get (m : ModuleManager) (name : String) : PluginPtr :=
  (m.modules.lookup name).join

/-- `GetLoadedSchemaVersion`. -/
def getLoadedSchemaVersion (m : ModuleManager) (name : String) : UInt32 :=
  (m.schemaVersions.lookup name).getD 0

/-- The three assignments that end `Load` and `HotReload`. -/
def install (m : ModuleManager) (config : ModuleConfig) (plugin : PluginPtr) : ModuleManager :=
  { m with
    modules := m.modules.insert config.name plugin
    configs := m.configs.insert config.name config
    schemaVersions := m.schemaVersions.insert config.name config.schemaVersion }

/-- `previous_modules_[config.name] = std::move(it->second)`, if the module is loaded. -/
def retire (m : ModuleManager) (name : String) : ModuleManager :=
  match m.modules.lookup name with
  | none => m
  | some plugin =>
      -- The slot stays null until the new plugin is assigned to it.
      { m with
        previousModules := m.previousModules.insert name plugin
        modules := m.modules.insert name none }

/-- The factory makes one more instance. -/
def make (m : ModuleManager) (config : ModuleConfig) : Plugin × ModuleManager :=
  (⟨m.created, config⟩, { m with created := m.created + 1 })

/-- `Load`. -/
def load (m : ModuleManager) (config : ModuleConfig) : Creation → Bool × ModuleManager
  | .createFailed => (false, m)
  | .initializeFailed => (false, (m.make config).2)
  | .initialized =>
      let (plugin, m) := m.make config
      (true, m.install config plugin)

/-- `HotReload`. -/
def hotReload (m : ModuleManager) (config : ModuleConfig) : Creation → Bool × ModuleManager
  | .createFailed => (false, m)
  | .initializeFailed => (false, (m.make config).2)
  | .initialized =>
      let (plugin, m) := m.make config
      (true, (m.retire config.name).install config plugin)

/-- The loop of `HotReloadAll` over its snapshot of `configs_`. -/
def hotReloadAll (m : ModuleManager) : List (ModuleConfig × Creation) → Bool × ModuleManager
  | [] => (true, m)
  | (config, creation) :: rest =>
      let (ok, m) := m.hotReload config creation
      let (allOk, m) := m.hotReloadAll rest
      (ok && allOk, m)

/-- `Rollback`. -/
def rollback (m : ModuleManager) (name : String) : ModuleManager :=
  match m.previousModules.lookup name with
  | none => m
  | some plugin =>
      let m := { m with
        modules := m.modules.insert name plugin
        previousModules := m.previousModules.erase name }
      -- `configs_` is read as it is; no table keeps the config of a previous plugin.
      match m.configs.lookup name with
      | none => m
      | some config =>
          { m with schemaVersions := m.schemaVersions.insert name config.schemaVersion }

/-- `Unload`. -/
def unload (m : ModuleManager) (name : String) : ModuleManager :=
  { m with
    modules := m.modules.erase name
    previousModules := m.previousModules.erase name
    configs := m.configs.erase name
    schemaVersions := m.schemaVersions.erase name
    shutDown := m.shutDown ++ ((m.get name).map (·.serial)).toList }

/-- The configs of a `HotReloadAll` are those of `configs_`, in any order. -/
def IsSnapshot (m : ModuleManager) (order : List (ModuleConfig × Creation)) : Prop :=
  (order.map Prod.fst : Multiset ModuleConfig) = m.configs.entries.map (·.2)

instance (m : ModuleManager) (order : List (ModuleConfig × Creation)) :
    Decidable (m.IsSnapshot order) :=
  inferInstanceAs (Decidable (_ = _))

end ModuleManager

/-- An operation on the manager, with what comes of the plugins it creates. -/
inductive ModuleOp
  | load (config : ModuleConfig) (creation : Creation)
  | hotReload (config : ModuleConfig) (creation : Creation)
  | hotReloadAll (order : List (ModuleConfig × Creation))
  | rollback (name : String)
  | unload (name : String)

/-- Sequential runs of the manager. -/
def moduleSystem : TransitionSystem ModuleManager ModuleOp where
  Init m := m = .empty
  step m
    | .load config creation => some (m.load config creation).2
    | .hotReload config creation => some (m.hotReload config creation).2
    | .hotReloadAll order => if m.IsSnapshot order then some (m.hotReloadAll order).2 else none
    | .rollback name => some (m.rollback name)
    | .unload name => some (m.unload name)

/-! ## What the maps record under one name -/

/-- The running plugin of a name with the config and the schema version recorded for it. -/
structure ModuleRecord where
  running : PluginPtr
  config : Option ModuleConfig
  version : UInt32
  deriving DecidableEq

/-- The record describes its plugin: config and version are those the plugin was created from. -/
def ModuleRecord.Describes (record : ModuleRecord) : Prop :=
  ∀ plugin, record.running = some plugin →
    record.version = plugin.config.schemaVersion ∧ record.config = some plugin.config

namespace ModuleManager

/-- What `Get`, `configs_` and `GetLoadedSchemaVersion` show under a name. -/
def recordOf (m : ModuleManager) (name : String) : ModuleRecord :=
  ⟨m.get name, m.configs.lookup name, m.getLoadedSchemaVersion name⟩

theorem recordOf_install (m : ModuleManager) (config : ModuleConfig) (plugin : PluginPtr)
    (name : String) :
    (m.install config plugin).recordOf name =
      if name = config.name then ⟨plugin, some config, config.schemaVersion⟩
      else m.recordOf name := by
  by_cases hname : name = config.name
  · subst hname
    simp [recordOf, install, get, getLoadedSchemaVersion]
  · simp [recordOf, install, get, getLoadedSchemaVersion, hname]

theorem recordOf_retire_ne {m : ModuleManager} {name name' : String} (h : name' ≠ name) :
    (m.retire name).recordOf name' = m.recordOf name' := by
  unfold retire
  cases m.modules.lookup name with
  | none => rfl
  | some plugin => simp [recordOf, get, getLoadedSchemaVersion, h]

theorem recordOf_unload (m : ModuleManager) (name name' : String) :
    (m.unload name).recordOf name' =
      if name' = name then ⟨none, none, 0⟩ else m.recordOf name' := by
  by_cases hname : name' = name
  · subst hname
    simp [recordOf, unload, get, getLoadedSchemaVersion]
  · simp [recordOf, unload, get, getLoadedSchemaVersion, hname]

theorem recordOf_rollback_ne {m : ModuleManager} {name name' : String} (h : name' ≠ name) :
    (m.rollback name).recordOf name' = m.recordOf name' := by
  unfold rollback
  cases m.previousModules.lookup name with
  | none => rfl
  | some plugin =>
    dsimp only
    cases m.configs.lookup name with
    | none => simp [recordOf, get, getLoadedSchemaVersion, h]
    | some config => simp [recordOf, get, getLoadedSchemaVersion, h]

/-- `Rollback` puts the previous plugin back under the config that is there. -/
theorem recordOf_rollback_self {m : ModuleManager} {name : String} {plugin : PluginPtr}
    (h : m.previousModules.lookup name = some plugin) :
    (m.rollback name).recordOf name =
      ⟨plugin, m.configs.lookup name,
        ((m.configs.lookup name).map (·.schemaVersion)).getD (m.getLoadedSchemaVersion name)⟩ := by
  unfold rollback
  rw [h]
  dsimp only
  cases hconfig : m.configs.lookup name with
  | none => simp [recordOf, get, getLoadedSchemaVersion, hconfig]
  | some config => simp [recordOf, get, getLoadedSchemaVersion, hconfig]

/-! ## When the record describes the running plugin -/

/-- Under every name with a running plugin, the recorded version and config are its own. -/
def Described (m : ModuleManager) : Prop :=
  ∀ name, (m.recordOf name).Describes

/-- A `Rollback` that puts a plugin back finds the config that plugin was created from. -/
def RollbackKeepsConfig (m : ModuleManager) : ModuleOp → Prop
  | .rollback name => ∀ plugin, m.previousModules.lookup name = some (some plugin) →
      m.configs.lookup name = some plugin.config
  | _ => True

variable {m : ModuleManager}

theorem described_empty : Described .empty := by
  intro name plugin hrunning
  simp [recordOf, get, empty] at hrunning

/-- Installing a plugin under its own config describes it. -/
theorem Described.install {config : ModuleConfig} {plugin : Plugin} {m' : ModuleManager}
    (h : m.Described) (hplugin : plugin.config = config)
    (hothers : ∀ name, name ≠ config.name → m'.recordOf name = m.recordOf name) :
    (m'.install config (some plugin)).Described := by
  intro name
  rw [recordOf_install]
  split
  · rintro p hp
    cases hp
    rw [hplugin]
    exact ⟨rfl, rfl⟩
  · next hname =>
    rw [hothers name hname]
    exact h name

theorem Described.load {config : ModuleConfig} (h : m.Described) (creation : Creation) :
    (m.load config creation).2.Described := by
  cases creation with
  | createFailed => exact h
  | initializeFailed => exact h
  | initialized => exact h.install rfl fun _ _ => rfl

theorem Described.hotReload {config : ModuleConfig} (h : m.Described) (creation : Creation) :
    (m.hotReload config creation).2.Described := by
  cases creation with
  | createFailed => exact h
  | initializeFailed => exact h
  | initialized =>
    exact h.install rfl fun name hname => recordOf_retire_ne (m := (m.make config).2) hname

theorem Described.hotReloadAll (h : m.Described) (order : List (ModuleConfig × Creation)) :
    (m.hotReloadAll order).2.Described := by
  induction order generalizing m with
  | nil => exact h
  | cons entry rest ih => exact ih (h.hotReload entry.2)

theorem Described.unload (h : m.Described) (name : String) : (m.unload name).Described := by
  intro name'
  rw [recordOf_unload]
  split
  · rintro p hp
    cases hp
  · exact h name'

/-- A `Rollback` keeps the record exactly when it finds the config of the plugin it puts back. -/
theorem Described.rollback_iff (h : m.Described) (name : String) :
    (m.rollback name).Described ↔ m.RollbackKeepsConfig (.rollback name) := by
  cases hprev : m.previousModules.lookup name with
  | none =>
    have hsame : m.rollback name = m := by simp [ModuleManager.rollback, hprev]
    rw [hsame]
    exact iff_of_true h fun plugin hfound => by simp [hprev] at hfound
  | some ptr =>
    have hself := recordOf_rollback_self hprev
    constructor
    · intro hafter plugin hfound
      obtain rfl : ptr = some plugin := Option.some.inj (hprev.symm.trans hfound)
      have hrecord := hafter name plugin (by rw [hself])
      rw [hself] at hrecord
      exact hrecord.2
    · intro hconfig name'
      by_cases hname : name' = name
      · subst hname
        rw [hself]
        rintro plugin rfl
        have hfound := hconfig plugin hprev
        simp [hfound]
      · rw [recordOf_rollback_ne hname]
        exact h name'

/-- One operation keeps the record of a described manager exactly when it is not a `Rollback` that
finds another config. -/
theorem Described.step_iff {op : ModuleOp} {m' : ModuleManager} (h : m.Described)
    (hstep : moduleSystem.step m op = some m') : m'.Described ↔ m.RollbackKeepsConfig op := by
  cases op with
  | load config creation =>
    cases hstep
    exact iff_of_true (h.load creation) trivial
  | hotReload config creation =>
    cases hstep
    exact iff_of_true (h.hotReload creation) trivial
  | hotReloadAll order =>
    simp only [moduleSystem, Option.ite_none_right_eq_some, Option.some.injEq] at hstep
    obtain ⟨-, rfl⟩ := hstep
    exact iff_of_true (h.hotReloadAll order) trivial
  | rollback name =>
    cases hstep
    exact h.rollback_iff name
  | unload name =>
    cases hstep
    exact iff_of_true (h.unload name) trivial

/-- In a run of the manager the record describes the running plugin under every name in every state
exactly when each `Rollback` that puts a plugin back finds the config that plugin was created
from. -/
theorem described_iff_rollbackKeepsConfig (ops : List ModuleOp) :
    moduleSystem.AlwaysOn Described .empty ops ↔
      moduleSystem.EachStep RollbackKeepsConfig .empty ops :=
  TransitionSystem.alwaysOn_iff_eachStep (fun _ _ _ h hstep => h.step_iff hstep) described_empty ops

/-- Loading version 1 of a module, reloading it with version 2 and rolling back leaves the plugin of
version 1 running with version 2 and its config recorded. -/
theorem rollback_keeps_overwritten_config :
    ∃ m, moduleSystem.run .empty
        [.load ⟨"room", "room_v1.wasm", 1⟩ .initialized,
          .hotReload ⟨"room", "room_v2.wasm", 2⟩ .initialized, .rollback "room"] = some m ∧
      m.get "room" = some ⟨0, ⟨"room", "room_v1.wasm", 1⟩⟩ ∧
      m.getLoadedSchemaVersion "room" = 2 ∧
      m.configs.lookup "room" = some ⟨"room", "room_v2.wasm", 2⟩ :=
  ⟨_, rfl, by decide, by decide, by decide⟩

end ModuleManager

end WasmHot
