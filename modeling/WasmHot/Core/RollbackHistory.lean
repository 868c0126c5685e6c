import WasmHot.Core.ModuleManager
import Mathlib.Logic.Function.Basic

/-!
# What Rollback brings back

`Rollback` undoes one change: it moves the plugin in `previous_modules_` back and empties the entry.
`HotReload` fills the entry with the plugin it replaces. `Load` replaces a running plugin as well but
leaves the entry alone, so what a later `Rollback` finds there is older than the plugin that `Load`
replaced, or nothing.

The history keeps for every name the plugin that its last change replaced. `rollback_restores_iff`
says which runs have `Rollback` bring that plugin back.
-/

namespace WasmHot

namespace ModuleManager

/-! ## The plugins of one name -/

/-- The entries of `modules_` and `previous_modules_` under one name. -/
structure Slot where
  running : Option PluginPtr
  previous : Option PluginPtr
  deriving DecidableEq

/-- The plugins of a name. -/
def slot (m : ModuleManager) (name : String) : Slot :=
  ⟨m.modules.lookup name, m.previousModules.lookup name⟩

theorem get_eq_slot (m : ModuleManager) (name : String) : m.get name = (m.slot name).running.join :=
  rfl

variable (m : ModuleManager) (config : ModuleConfig) (name name' : String)

theorem slot_load : (m.load config .initialized).2.slot name =
    if name = config.name then
      ⟨some (some ⟨m.created, config⟩), (m.slot config.name).previous⟩
    else m.slot name := by
  by_cases hname : name = config.name
  · subst hname
    simp [slot, load, install, make]
  · simp [slot, load, install, make, hname]

theorem slot_hotReload : (m.hotReload config .initialized).2.slot name =
    if name = config.name then
      ⟨some (some ⟨m.created, config⟩),
        (m.slot config.name).running.or (m.slot config.name).previous⟩
    else m.slot name := by
  cases hplugin : m.modules.lookup config.name with
  | none =>
    by_cases hname : name = config.name
    · subst hname
      simp [slot, hotReload, install, retire, make, hplugin]
    · simp [slot, hotReload, install, retire, make, hplugin, hname]
  | some plugin =>
    by_cases hname : name = config.name
    · subst hname
      simp [slot, hotReload, install, retire, make, hplugin]
    · simp [slot, hotReload, install, retire, make, hplugin, hname]

/-- `Rollback` moves the previous plugin back, if there is an entry for it. -/
theorem slot_rollback : (m.rollback name).slot name' =
    if name' = name then
      ⟨(m.slot name).previous.or (m.slot name).running, none⟩
    else m.slot name' := by
  unfold rollback
  cases hprev : m.previousModules.lookup name with
  | none =>
    by_cases hname : name' = name
    · subst hname
      simp [slot, hprev]
    · simp [slot, hname]
  | some plugin =>
    by_cases hname : name' = name
    · subst hname
      cases hconfig : m.configs.lookup name' <;> simp [slot, hprev, hconfig]
    · cases hconfig : m.configs.lookup name <;> simp [slot, hname, hconfig]

theorem slot_unload : (m.unload name).slot name' =
    if name' = name then ⟨none, none⟩ else m.slot name' := by
  by_cases hname : name' = name
  · subst hname
    simp [slot, unload]
  · simp [slot, unload, hname]

/-- The plugin that `Get` returns after a `Rollback`. -/
def Slot.undone (s : Slot) : PluginPtr := (s.previous.or s.running).join

theorem get_rollback : (m.rollback name).get name = (m.slot name).undone := by
  rw [get_eq_slot, slot_rollback, if_pos rfl]
  rfl

end ModuleManager

/-! ## What was replaced -/

/-- For every name, the plugin that the last change of the name replaced, if that change was a
`Load` or `HotReload` that replaced one. -/
abbrev Replaced := String → Option Plugin

namespace Replaced

open ModuleManager

/-- A successful `Load` or `HotReload` replaces what is running. -/
def noteInstall (h : Replaced) (m : ModuleManager) (config : ModuleConfig) : Creation → Replaced
  | .initialized => Function.update h config.name (m.get config.name)
  | _ => h

/-- `HotReloadAll` is its `HotReload`s. -/
def noteAll (h : Replaced) (m : ModuleManager) : List (ModuleConfig × Creation) → Replaced
  | [] => h
  | (config, creation) :: rest =>
      (h.noteInstall m config creation).noteAll (m.hotReload config creation).2 rest

/-- The history after an operation. A `Rollback` that finds no entry changes nothing. -/
def record (h : Replaced) (m : ModuleManager) : ModuleOp → Replaced
  | .load config creation => h.noteInstall m config creation
  | .hotReload config creation => h.noteInstall m config creation
  | .hotReloadAll order => h.noteAll m order
  | .rollback name => if (m.slot name).previous.isSome then Function.update h name none else h
  | .unload name => Function.update h name none

end Replaced

/-- Runs of the manager with what was replaced under each name. -/
abbrev rollbackSystem : TransitionSystem (ModuleManager × Replaced) ModuleOp :=
  moduleSystem.withHistory (fun _ _ => none) Replaced.record

namespace ModuleManager

/-- Under every name `Rollback` brings back the plugin that the last change replaced, and where it
replaced none leaves what is running. -/
def RollbackRestores (m : ModuleManager) (h : Replaced) : Prop :=
  ∀ name, (m.rollback name).get name = (h name).or (m.get name)

/-- A `Load` that succeeds finds no plugin running under its name. -/
def LoadsFresh (m : ModuleManager) : ModuleOp → Prop
  | .load config .initialized => m.get config.name = none
  | _ => True

/-! ## Plugins are used once -/

/-- The plugins under a name are made one after the other: a plugin to go back to, and one that was
replaced, is older than the running one, and there is a running one. -/
structure Slot.Ordered (created : ℕ) (replaced : Option Plugin) (s : Slot) : Prop where
  running : ∀ ptr, s.running = some ptr → ∃ p, ptr = some p ∧ p.serial < created
  previous : ∀ ptr, s.previous = some ptr →
    ∃ p q, ptr = some p ∧ s.running = some (some q) ∧ p.serial < q.serial
  replaced : ∀ p, replaced = some p → ∃ q, s.running = some (some q) ∧ p.serial < q.serial

/-- The plugins of all names are ordered. -/
def Ordered (m : ModuleManager) (h : Replaced) : Prop :=
  ∀ name, (m.slot name).Ordered m.created (h name)

namespace Slot

/-- `Rollback` restores what was replaced under one name. -/
def Restores (replaced : Option Plugin) (s : Slot) : Prop :=
  s.undone = replaced.or s.running.join

variable {created : ℕ} {replaced : Option Plugin} {s : Slot}

theorem Ordered.mono (h : s.Ordered created replaced) {created' : ℕ} (hle : created ≤ created') :
    s.Ordered created' replaced := by
  refine ⟨fun ptr hptr => ?_, h.previous, h.replaced⟩
  obtain ⟨p, hp, hserial⟩ := h.running ptr hptr
  exact ⟨p, hp, hserial.trans_le hle⟩

/-- There is no plugin to go back to without a running one. -/
theorem Ordered.cases (h : s.Ordered created replaced) :
    s = ⟨none, none⟩ ∨ ∃ p, s.running = some (some p) ∧ p.serial < created ∧
      (s.previous = none ∨ ∃ q, s.previous = some (some q) ∧ q.serial < p.serial) := by
  obtain ⟨running, previous⟩ := s
  cases running with
  | none =>
    cases previous with
    | none => exact Or.inl rfl
    | some ptr =>
      obtain ⟨_, _, -, hnone, -⟩ := h.previous ptr rfl
      cases hnone
  | some ptr =>
    obtain ⟨p, rfl, hserial⟩ := h.running ptr rfl
    refine Or.inr ⟨p, rfl, hserial, ?_⟩
    cases previous with
    | none => exact Or.inl rfl
    | some ptr' =>
      obtain ⟨q, p', rfl, hrunning, holder⟩ := h.previous ptr' rfl
      cases hrunning
      exact Or.inr ⟨q, rfl, holder⟩

/-- A new plugin is younger than all others of its name. -/
theorem Ordered.install (h : s.Ordered created replaced) {p : Plugin} (hp : p.serial = created)
    {previous : Option PluginPtr}
    (hprevious : previous = s.previous ∨ previous = s.running.or s.previous) :
    Slot.Ordered (created + 1) s.running.join ⟨some (some p), previous⟩ := by
  have hnew : ∀ q : Plugin, q.serial < created → q.serial < p.serial := fun q hq => hp ▸ hq
  refine ⟨fun ptr hptr => ?_, fun ptr hptr => ?_, fun q hq => ?_⟩
  · cases hptr
    exact ⟨p, rfl, by omega⟩
  · dsimp only at hptr
    subst hptr
    rcases h.cases with rfl | ⟨q, hrunning, hserial, hnone | ⟨q', hsome, holder⟩⟩
    · simp at hprevious
    · rw [hrunning, hnone] at hprevious
      rcases hprevious with hprevious | hprevious
      · cases hprevious
      · cases hprevious
        exact ⟨q, p, rfl, rfl, hnew q hserial⟩
    · rw [hrunning, hsome] at hprevious
      rcases hprevious with hprevious | hprevious
      · cases hprevious
        exact ⟨q', p, rfl, rfl, hnew q' (holder.trans hserial)⟩
      · cases hprevious
        exact ⟨q, p, rfl, rfl, hnew q hserial⟩
  · rcases h.cases with rfl | ⟨q', hrunning, hserial, -⟩
    · cases hq
    · rw [hrunning] at hq
      cases hq
      exact ⟨p, rfl, hnew q hserial⟩

/-- `Load` leaves the entry of the replaced plugin's predecessor, so `Rollback` restores what `Load`
replaced only if it replaced nothing. -/
theorem Ordered.load_restores_iff (h : s.Ordered created replaced) {p : Plugin}
    (hp : p.serial = created) :
    Slot.Restores s.running.join ⟨some (some p), s.previous⟩ ↔ s.running.join = none := by
  rcases h.cases with rfl | ⟨q, hrunning, hserial, hnone | ⟨q', hsome, holder⟩⟩
  · exact iff_of_true rfl rfl
  · refine iff_of_false ?_ (by simp [hrunning])
    intro hrestores
    simp only [Restores, undone, hrunning, hnone, Option.none_or, Option.join_some, Option.some_or,
      Option.some.injEq] at hrestores
    subst hrestores
    omega
  · refine iff_of_false ?_ (by simp [hrunning])
    intro hrestores
    simp only [Restores, undone, hrunning, hsome, Option.join_some, Option.some_or,
      Option.some.injEq] at hrestores
    subst hrestores
    omega

/-- `HotReload` makes the plugin it replaces the one to go back to. -/
theorem Ordered.hotReload_restores (h : s.Ordered created replaced) (p : Plugin) :
    Slot.Restores s.running.join ⟨some (some p), s.running.or s.previous⟩ := by
  rcases h.cases with rfl | ⟨q, hrunning, -⟩
  · rfl
  · simp [Restores, undone, hrunning]

/-- After a `Rollback` there is nothing more to go back to. -/
theorem Ordered.rollback (h : s.Ordered created replaced) :
    Slot.Ordered created (if s.previous.isSome then none else replaced)
      ⟨s.previous.or s.running, none⟩ := by
  rcases h.cases with rfl | ⟨p, hrunning, hserial, hnone | ⟨q, hsome, holder⟩⟩
  · exact h
  · rw [hnone]
    exact ⟨h.running, nofun, h.replaced⟩
  · rw [hsome]
    refine ⟨fun ptr hptr => ?_, nofun, nofun⟩
    cases hptr
    exact ⟨q, rfl, holder.trans hserial⟩

theorem Ordered.rollback_restores (h : s.Ordered created replaced) (hrestores : s.Restores replaced) :
    Slot.Restores (if s.previous.isSome then none else replaced)
      ⟨s.previous.or s.running, none⟩ := by
  rcases h.cases with rfl | ⟨p, hrunning, hserial, hnone | ⟨q, hsome, holder⟩⟩
  · exact hrestores
  · rw [Restores, undone, hnone] at hrestores ⊢
    exact hrestores
  · rw [hsome]
    rfl

theorem ordered_unloaded (created : ℕ) : Slot.Ordered created none ⟨none, none⟩ :=
  ⟨nofun, nofun, nofun⟩

end Slot

/-! ## One operation -/

variable {m m' : ModuleManager} {h h' : Replaced}

/-- A property of the plugins of every name, after an operation on one name. -/
theorem forall_slot_iff {P : Option Plugin → Slot → Prop} {name : String} {r : Option Plugin}
    {s : Slot} (hslot : ∀ name', m'.slot name' = if name' = name then s else m.slot name')
    (hh : ∀ name', h' name' = if name' = name then r else h name')
    (hP : ∀ name', P (h name') (m.slot name')) :
    (∀ name', P (h' name') (m'.slot name')) ↔ P r s := by
  constructor
  · intro hP'
    have hself := hP' name
    rwa [hslot, hh, if_pos rfl, if_pos rfl] at hself
  · intro hself name'
    rw [hslot, hh]
    by_cases hname : name' = name
    · rw [if_pos hname, if_pos hname]
      exact hself
    · rw [if_neg hname, if_neg hname]
      exact hP name'

theorem rollbackRestores_iff : m.RollbackRestores h ↔ ∀ name, (m.slot name).Restores (h name) := by
  apply forall_congr'
  intro name
  rw [get_rollback]
  exact Iff.rfl

/-- What a successful `Load` or `HotReload` records. -/
theorem noteInstall_apply (h : Replaced) (m : ModuleManager) (config : ModuleConfig)
    (name : String) :
    h.noteInstall m config .initialized name =
      if name = config.name then (m.slot config.name).running.join else h name := by
  rw [Replaced.noteInstall, Function.update_apply]
  rfl

theorem created_hotReload (m : ModuleManager) (config : ModuleConfig) :
    (m.hotReload config .initialized).2.created = m.created + 1 := by
  simp only [hotReload, install, retire, make]
  cases m.modules.lookup config.name with
  | none => rfl
  | some plugin => rfl

/-- An instance that could not be initialized is made and dropped. -/
theorem Ordered.make (hord : m.Ordered h) (config : ModuleConfig) :
    (m.make config).2.Ordered h :=
  fun name => (hord name).mono (Nat.le_succ _)

theorem Ordered.load (hord : m.Ordered h) (config : ModuleConfig) (creation : Creation) :
    (m.load config creation).2.Ordered (h.noteInstall m config creation) := by
  cases creation with
  | createFailed => exact hord
  | initializeFailed => exact hord.make config
  | initialized =>
    refine (forall_slot_iff (P := fun r s => s.Ordered (m.created + 1) r) (slot_load m config)
      (noteInstall_apply h m config) fun name => (hord name).mono (Nat.le_succ _)).mpr ?_
    exact (hord config.name).install rfl (Or.inl rfl)

theorem Ordered.hotReload (hord : m.Ordered h) (config : ModuleConfig) (creation : Creation) :
    (m.hotReload config creation).2.Ordered (h.noteInstall m config creation) := by
  cases creation with
  | createFailed => exact hord
  | initializeFailed => exact hord.make config
  | initialized =>
    unfold Ordered
    rw [created_hotReload]
    refine (forall_slot_iff (P := fun r s => s.Ordered (m.created + 1) r) (slot_hotReload m config)
      (noteInstall_apply h m config) fun name => (hord name).mono (Nat.le_succ _)).mpr ?_
    exact (hord config.name).install rfl (Or.inr rfl)

theorem Ordered.hotReloadAll (hord : m.Ordered h) (order : List (ModuleConfig × Creation)) :
    (m.hotReloadAll order).2.Ordered (h.noteAll m order) := by
  induction order generalizing m h with
  | nil => exact hord
  | cons entry rest ih => exact ih (hord.hotReload entry.1 entry.2)

theorem created_rollback (m : ModuleManager) (name : String) :
    (m.rollback name).created = m.created := by
  unfold ModuleManager.rollback
  cases m.previousModules.lookup name with
  | none => rfl
  | some plugin => cases hconfig : m.configs.lookup name <;> simp [hconfig]

/-- What a `Rollback` records. -/
theorem record_rollback (h : Replaced) (m : ModuleManager) (name name' : String) :
    h.record m (.rollback name) name' =
      if name' = name then (if (m.slot name).previous.isSome then none else h name)
      else h name' := by
  simp only [Replaced.record]
  split
  · exact Function.update_apply ..
  · split
    · next hname => rw [hname]
    · rfl

/-- What an `Unload` records. -/
theorem record_unload (h : Replaced) (m : ModuleManager) (name name' : String) :
    h.record m (.unload name) name' = if name' = name then none else h name' :=
  Function.update_apply ..

theorem Ordered.step {op : ModuleOp} (hord : m.Ordered h) (hstep : moduleSystem.step m op = some m') :
    m'.Ordered (h.record m op) := by
  cases op with
  | load config creation =>
    cases hstep
    exact hord.load config creation
  | hotReload config creation =>
    cases hstep
    exact hord.hotReload config creation
  | hotReloadAll order =>
    simp only [moduleSystem, Option.ite_none_right_eq_some, Option.some.injEq] at hstep
    obtain ⟨-, rfl⟩ := hstep
    exact hord.hotReloadAll order
  | rollback name =>
    cases hstep
    unfold Ordered
    rw [created_rollback]
    exact (forall_slot_iff (slot_rollback m name) (record_rollback h m name) hord).mpr
      (hord name).rollback
  | unload name =>
    cases hstep
    exact (forall_slot_iff (slot_unload m name) (record_unload h m name) hord).mpr
      (Slot.ordered_unloaded _)

/-! ## When Rollback restores what was replaced -/

theorem RollbackRestores.make (hrest : m.RollbackRestores h) (config : ModuleConfig) :
    (m.make config).2.RollbackRestores h := by
  rw [rollbackRestores_iff] at hrest ⊢
  exact hrest

/-- A `Load` keeps the property exactly when it replaces nothing. -/
theorem RollbackRestores.load_iff (hrest : m.RollbackRestores h) (hord : m.Ordered h)
    (config : ModuleConfig) (creation : Creation) :
    (m.load config creation).2.RollbackRestores (h.noteInstall m config creation) ↔
      m.LoadsFresh (.load config creation) := by
  cases creation with
  | createFailed => exact iff_of_true hrest trivial
  | initializeFailed => exact iff_of_true (hrest.make config) trivial
  | initialized =>
    rw [rollbackRestores_iff] at hrest ⊢
    rw [forall_slot_iff (slot_load m config) (noteInstall_apply h m config) hrest]
    exact (hord config.name).load_restores_iff rfl

theorem RollbackRestores.hotReload (hrest : m.RollbackRestores h) (hord : m.Ordered h)
    (config : ModuleConfig) (creation : Creation) :
    (m.hotReload config creation).2.RollbackRestores (h.noteInstall m config creation) := by
  cases creation with
  | createFailed => exact hrest
  | initializeFailed => exact hrest.make config
  | initialized =>
    rw [rollbackRestores_iff] at hrest ⊢
    rw [forall_slot_iff (slot_hotReload m config) (noteInstall_apply h m config) hrest]
    exact (hord config.name).hotReload_restores _

theorem RollbackRestores.hotReloadAll (hrest : m.RollbackRestores h) (hord : m.Ordered h)
    (order : List (ModuleConfig × Creation)) :
    (m.hotReloadAll order).2.RollbackRestores (h.noteAll m order) := by
  induction order generalizing m h with
  | nil => exact hrest
  | cons entry rest ih =>
    exact ih (hrest.hotReload hord entry.1 entry.2) (hord.hotReload entry.1 entry.2)

/-- One operation keeps the property exactly when it is not a `Load` over a running plugin. -/
theorem RollbackRestores.step_iff {op : ModuleOp} (hrest : m.RollbackRestores h)
    (hord : m.Ordered h) (hstep : moduleSystem.step m op = some m') :
    m'.RollbackRestores (h.record m op) ↔ m.LoadsFresh op := by
  cases op with
  | load config creation =>
    cases hstep
    exact hrest.load_iff hord config creation
  | hotReload config creation =>
    cases hstep
    exact iff_of_true (hrest.hotReload hord config creation) trivial
  | hotReloadAll order =>
    simp only [moduleSystem, Option.ite_none_right_eq_some, Option.some.injEq] at hstep
    obtain ⟨-, rfl⟩ := hstep
    exact iff_of_true (hrest.hotReloadAll hord order) trivial
  | rollback name =>
    cases hstep
    refine iff_of_true ?_ trivial
    rw [rollbackRestores_iff] at hrest ⊢
    rw [forall_slot_iff (slot_rollback m name) (record_rollback h m name) hrest]
    exact (hord name).rollback_restores (hrest name)
  | unload name =>
    cases hstep
    refine iff_of_true ?_ trivial
    rw [rollbackRestores_iff] at hrest ⊢
    rw [forall_slot_iff (slot_unload m name) (record_unload h m name) hrest]
    rfl

theorem ordered_empty : Ordered .empty fun _ => none := by
  intro name
  exact Slot.ordered_unloaded 0

/-- In a run of the manager a `Rollback` would in every state bring back the plugin that the last
change of its name replaced, and change nothing where there is none, exactly when no `Load` of the
run succeeds under a name with a running plugin. -/
theorem rollback_restores_iff (ops : List ModuleOp) :
    rollbackSystem.AlwaysOn (fun p => p.1.RollbackRestores p.2) (.empty, fun _ => none) ops ↔
      rollbackSystem.EachStep (fun p op => p.1.LoadsFresh op) (.empty, fun _ => none) ops := by
  refine TransitionSystem.alwaysOn_iff_eachStep_of_inv
    (J := fun p : ModuleManager × Replaced => p.1.Ordered p.2) ?_ ?_ ordered_empty ?_ ops
  · rintro ⟨m, h⟩ op ⟨m', h'⟩ hord hstep
    obtain ⟨hplain, rfl⟩ := TransitionSystem.withHistory_step.mp hstep
    exact hord.step hplain
  · rintro ⟨m, h⟩ op ⟨m', h'⟩ hord hrest hstep
    obtain ⟨hplain, rfl⟩ := TransitionSystem.withHistory_step.mp hstep
    exact hrest.step_iff hord hplain
  · intro name
    rfl

/-- A `Load` over the plugin of another `Load`: the replaced plugin cannot be brought back. After a
`HotReload` between the two, `Rollback` brings back the plugin before it. -/
theorem load_forgets_replaced :
    (∃ p, rollbackSystem.run (.empty, fun _ => none)
        [.load ⟨"room", "room_v1.wasm", 1⟩ .initialized,
          .load ⟨"room", "room_v2.wasm", 2⟩ .initialized] = some p ∧
      p.2 "room" = some ⟨0, ⟨"room", "room_v1.wasm", 1⟩⟩ ∧
      (p.1.rollback "room").get "room" = some ⟨1, ⟨"room", "room_v2.wasm", 2⟩⟩) ∧
    ∃ p, rollbackSystem.run (.empty, fun _ => none)
        [.load ⟨"room", "room_v1.wasm", 1⟩ .initialized,
          .hotReload ⟨"room", "room_v2.wasm", 2⟩ .initialized,
          .load ⟨"room", "room_v3.wasm", 3⟩ .initialized] = some p ∧
      p.2 "room" = some ⟨1, ⟨"room", "room_v2.wasm", 2⟩⟩ ∧
      (p.1.rollback "room").get "room" = some ⟨0, ⟨"room", "room_v1.wasm", 1⟩⟩ :=
  ⟨⟨_, rfl, by decide, by decide⟩, ⟨_, rfl, by decide, by decide⟩⟩

end ModuleManager

end WasmHot
