import WasmHot.Concurrent.PluginRoles

/-!
# Which thread is inside which plugin

A plugin is not protected by a lock of its own, and its VM serves one thread at a time. That no two
threads get into it at once, and none after `Shutdown`, follows from who can reach it, which its role
says (`plugins_used_alone`). And each plugin is destroyed once, when nothing points to it any more
(`plugins_destroyed_once`).
-/

namespace WasmHot

namespace PluginLifetimes

variable {s s' : PluginLifetimes} {t t' u : ThreadId} {n : ℕ}

/-! ## Whole runs -/

/-- What holds of every reachable state. -/
structure Sound (s : PluginLifetimes) : Prop where
  counted : s.plugins.Counted
  disciplined : s.Disciplined
  placed : ∃ roles, s.Placed roles

theorem Effect.counted (h : s.plugins.Counted) (heffect : s.Effect t s') : s'.plugins.Counted := by
  cases heffect with
  | same => exact h
  | created reload name hcall => exact h.make _
  | initialized hcall => exact h
  | initializeFailed hcall => exact h.reset _
  | loaded hcall hmutex => exact h.move _ _
  | reloaded hcall hmutex => exact (h.move _ _).move _ _
  | rolledBack name hcall hmutex => exact h.move _ _
  | nothingToUnload hcall hmutex => exact h.reset _
  | shuttingDown hcall hmutex hrunning => exact h
  | unloaded hcall => exact (h.reset _).reset _
  | unlocked hcall => exact h
  | constructing names hcall hactor => exact h
  | skipped hcall => exact h
  | cloning hcall hrunning => exact (h.copy _ _).make _
  | cloned hcall => exact (h.move _ _).reset _
  | cloneFailed hcall => exact (h.reset _).reset _
  | constructed hcall => exact h
  | taskBegun hcall hbuilt hfree => exact h
  | executing hcall hstrand hplugin => exact h.copy _ _
  | executed hcall => exact h.reset _
  | taskEnded hcall hstrand => exact h
  | dropped hcall hbuilt hfree => exact h.resetAll _
  | destroyed hdestroy => exact h.destroy hdestroy

theorem sound_fresh : Sound .fresh where
  counted := .empty
  disciplined := by constructor <;> simp [fresh]
  placed :=
    ⟨fun _ => .managed, .empty, by simp [fresh], by simp [fresh, SharedPointers.empty]⟩

theorem Sound.effect (h : s.Sound) (heffect : s.Effect t s') : s'.Sound := by
  obtain ⟨roles, hplaced⟩ := h.placed
  exact ⟨heffect.counted h.counted, h.disciplined.effect heffect,
    hplaced.effect h.counted h.disciplined heffect⟩

theorem sound_of_reachable (h : pluginLifetimes.Reachable s) : s.Sound := by
  refine h.invariant ?_ fun s a s' hs _ hstep => ?_
  · rintro s rfl
    exact sound_fresh
  · obtain ⟨t, heffect⟩ := effect_of_step hstep
    exact hs.effect heffect

/-- The thread runs code of the plugin: in `Initialize`, `Execute` or `Shutdown`, or it has taken away
the last pointer to it and has not yet destroyed it. -/
def Uses (s : PluginLifetimes) (t : ThreadId) (n : ℕ) : Prop :=
  (t, n) ∈ s.plugins.dying ∨
    ∃ call place, s.calls.lookup t = some call ∧ call.inside t = some place ∧
      s.plugins.at? place = some n

/-- A thread is inside a plugin that it makes, inside one of the manager under the lock, or inside the
clone of an actor whose strand it runs. -/
theorem Sound.role_of_inside (h : s.Sound) {call : LifetimeCall} {place : PluginPlace}
    {role : PluginRole} (hcall : s.calls.lookup t = some call)
    (hinside : call.inside t = some place) (hpermits : s.Permits role place) :
    role = .made t ∨ (role = .managed ∧ s.mutex = some t) ∨
      ∃ actor name, role = .cloned actor name ∧ s.strands.lookup actor = some t := by
  cases call with
  | initializing reload name =>
    cases hinside
    exact Or.inl hpermits.role_making
  | cloning actor name names =>
    cases hinside
    exact Or.inl hpermits.role_making
  | shuttingDown name =>
    cases hinside
    exact Or.inr (Or.inl ⟨hpermits.role_running, (h.disciplined.holds t _ hcall).1⟩)
  | executing actor name =>
    cases hinside
    exact Or.inr (Or.inr ⟨actor, name, hpermits.role_executing hcall,
      (h.disciplined.holds t _ hcall).1⟩)
  | _ => cases hinside

/-- The plugin that a call is inside is there. -/
theorem Sound.plugin_of_inside (h : s.Sound) {call : LifetimeCall} {place : PluginPlace}
    (hcall : s.calls.lookup t = some call) (hinside : call.inside t = some place) :
    s.plugins.at? place ≠ none := by
  have hholds := h.disciplined.holds t call hcall
  cases call with
  | initializing reload name =>
    cases hinside
    exact hholds
  | cloning actor name names =>
    cases hinside
    exact hholds.2
  | shuttingDown name =>
    cases hinside
    exact hholds.2
  | executing actor name =>
    cases hinside
    exact hholds.2
  | _ => cases hinside

/-- Calls that are inside the same plugin are one call. -/
theorem Sound.inside_once (h : s.Sound) {call call' : LifetimeCall} {place place' : PluginPlace}
    (hcall : s.calls.lookup t = some call) (hcall' : s.calls.lookup t' = some call')
    (hinside : call.inside t = some place) (hinside' : call'.inside t' = some place')
    (hplace : s.plugins.at? place = some n) (hplace' : s.plugins.at? place' = some n) : t = t' := by
  obtain ⟨roles, hplaced⟩ := h.placed
  have hrole := h.role_of_inside hcall hinside (hplaced.permits place n hplace)
  have hrole' := h.role_of_inside hcall' hinside' (hplaced.permits place' n hplace')
  -- Two calls inside one plugin agree on its role, and a role has one thread: the one that makes
  -- the plugin, the one with the lock, or the one that runs the strand.
  rcases hrole with hrole | ⟨hrole, hmutex⟩ | ⟨actor, name, hrole, hstrand⟩
  · simp only [hrole, PluginRole.made.injEq, reduceCtorEq, false_and, exists_false,
      or_false] at hrole'
    exact hrole'
  · simp only [hrole, hmutex, reduceCtorEq, false_or, true_and, Option.some.injEq, false_and,
      exists_false, or_false] at hrole'
    exact hrole'
  · simp only [hrole, reduceCtorEq, false_and, false_or, PluginRole.cloned.injEq] at hrole'
    obtain ⟨actor', name', ⟨rfl, -⟩, hstrand'⟩ := hrole'
    rw [hstrand] at hstrand'
    exact Option.some.inj hstrand'

/-- However the calls on the manager, the constructors, the tasks and the destruction of actors
interleave, at most one thread runs code of a plugin at a time, a call that does has a plugin that is
neither destroyed nor about to be, and a plugin that is executed has been initialized and not shut
down. -/
theorem plugins_used_alone (h : pluginLifetimes.Reachable s) :
    (∀ t t' n, s.Uses t n → s.Uses t' n → t = t') ∧
    (∀ t call place, s.calls.lookup t = some call → call.inside t = some place →
      ∃ n, s.plugins.at? place = some n ∧ n ∉ s.plugins.destroyed ∧
        ∀ t', (t', n) ∉ s.plugins.dying) ∧
    ∀ t actor name n, s.calls.lookup t = some (.executing actor name) →
      s.plugins.at? (.copied t) = some n → n ∈ s.initialized ∧ n ∉ s.shutDown := by
  have hsound := sound_of_reachable h
  have hcounted := hsound.counted
  refine ⟨?_, ?_, ?_⟩
  -- A plugin that is about to be destroyed is in no place, so nobody is inside it.
  · rintro t t' n (hdying | ⟨call, place, hcall, hinside, hplace⟩)
      (hdying' | ⟨call', place', hcall', hinside', hplace'⟩)
    · exact hcounted.dying_once t t' n hdying hdying'
    · exact absurd hdying (hcounted.not_dying place' n hplace' t)
    · exact absurd hdying' (hcounted.not_dying place n hplace t')
    · exact hsound.inside_once hcall hcall' hinside hinside' hplace hplace'
  · intro t call place hcall hinside
    obtain ⟨n, hplace⟩ := Option.ne_none_iff_exists'.mp (hsound.plugin_of_inside hcall hinside)
    exact ⟨n, hplace, hcounted.not_destroyed place n hplace, hcounted.not_dying place n hplace⟩
  · intro t actor name n hcall hplace
    obtain ⟨roles, hplaced⟩ := hsound.placed
    have hrole : roles n = .cloned actor name :=
      (hplaced.permits _ n hplace).role_executing hcall
    refine ⟨hplaced.ready n (hcounted.lt_made n (Or.inl ⟨_, hplace⟩)) ?_, fun hdown => ?_⟩
    · simp [hrole]
    · simpa [hrole] using (hplaced.managed n hdown).2

/-- A plugin is destroyed once, when no place points to it. When no call is in progress and no
destructor is to run, the plugins that were made and not destroyed are in the tables of the manager
or in those of an actor that is there, and they are initialized. -/
theorem plugins_destroyed_once (h : pluginLifetimes.Reachable s) :
    s.plugins.destroyed.Nodup ∧
    (∀ n ∈ s.plugins.destroyed, ∀ place, s.plugins.at? place ≠ some n) ∧
    (s.calls = ∅ → s.plugins.dying = ∅ → ∀ n < s.plugins.made, n ∉ s.plugins.destroyed →
      n ∈ s.initialized ∧ ∃ name, s.plugins.at? (.running name) = some n ∨
        s.plugins.at? (.previous name) = some n ∨
        ∃ actor, s.actors.lookup actor = some .built ∧
          s.plugins.at? (.ofActor actor name) = some n) := by
  have hsound := sound_of_reachable h
  have hcounted := hsound.counted
  refine ⟨hcounted.destroyed_once, ?_, ?_⟩
  · exact fun n hdestroyed place hplace => hcounted.not_destroyed place n hplace hdestroyed
  · intro hcalls hdying n hmade hleft
    obtain ⟨place, hplace⟩ : ∃ place, s.plugins.at? place = some n := by
      simpa [hdying, hleft] using hcounted.accounted n hmade
    have hnocall : ∀ t, s.calls.lookup t = none := by
      intro t
      rw [hcalls]
      exact Finmap.lookup_empty t
    obtain ⟨roles, hplaced⟩ := hsound.placed
    have hpermits : s.Permits (roles n) place := hplaced.permits place n hplace
    have hready := hplaced.ready n hmade
    generalize roles n = role at hpermits hready
    -- Without calls a place is in a table: of the manager, or of an actor that is built.
    cases hpermits with
    | making hcall => simp [hnocall] at hcall
    | running name => exact ⟨hready (by simp), name, Or.inl hplace⟩
    | previous name => exact ⟨hready (by simp), name, Or.inr (Or.inl hplace)⟩
    | cloning hcall => simp [hnocall] at hcall
    | @ofActor actor name hactor =>
      obtain ⟨stage, hstage⟩ := Option.ne_none_iff_exists'.mp hactor
      cases stage with
      | building t =>
        have hbuilding := hsound.disciplined.building actor t hstage
        simp [hnocall] at hbuilding
      | built => exact ⟨hready (by simp), name, Or.inr (Or.inr ⟨actor, hstage, hplace⟩)⟩
    | executing hcall =>
      rw [hnocall] at hcall
      cases hcall

/-- An actor is constructed while its module is unloaded: the plugin of the manager is shut down in
one thread while it is cloned in the other, which is then the last to have a pointer to it. -/
def unloadedWhileCloned : List LifetimeAction :=
  [.create 0 false "room", .initializeReturned 0 true, .commit 0, .unlock 0,
    .construct 1 7 ["room"], .get 1, .unload 0 "room", .shutdownReturned 0, .unlock 0,
    .cloneReturned 1 true, .destroy 1 0, .constructed 1, .taskBegin 2 7, .execute 2 7 "room"]

theorem plugins_used_alone_unloadedWhileCloned :
    ∃ s, pluginLifetimes.run .fresh unloadedWhileCloned = some s ∧ s.plugins.destroyed = [0] ∧
      s.Uses 2 1 ∧ ∀ t, s.Uses t 1 → t = 2 := by
  obtain ⟨s, hrun, hdestroyed, hcall, hplace⟩ : ∃ s,
      pluginLifetimes.run .fresh unloadedWhileCloned = some s ∧ s.plugins.destroyed = [0] ∧
        s.calls.lookup 2 = some (.executing 7 "room") ∧ s.plugins.at? (.copied 2) = some 1 :=
    ⟨_, rfl, rfl, rfl, rfl⟩
  have halone := plugins_used_alone (.of_run (.init rfl) unloadedWhileCloned hrun)
  have huses : s.Uses 2 1 := Or.inr ⟨_, _, hcall, rfl, hplace⟩
  exact ⟨s, hrun, hdestroyed, huses, fun t ht => halone.1 t 2 1 ht huses⟩

/-- When the actor is gone as well, nothing is left. -/
theorem plugins_destroyed_once_unloadedWhileCloned :
    ∃ s, pluginLifetimes.run .fresh (unloadedWhileCloned ++
        [.executeReturned 2, .taskEnd 2 7, .dropActor 3 7, .destroy 3 1]) = some s ∧
      s.plugins.made = 2 ∧ s.plugins.destroyed = [0, 1] ∧ s.plugins.destroyed.Nodup := by
  obtain ⟨s, hrun, hmade, hdestroyed⟩ : ∃ s, pluginLifetimes.run .fresh (unloadedWhileCloned ++
        [.executeReturned 2, .taskEnd 2 7, .dropActor 3 7, .destroy 3 1]) = some s ∧
      s.plugins.made = 2 ∧ s.plugins.destroyed = [0, 1] := ⟨_, rfl, rfl, rfl⟩
  exact ⟨s, hrun, hmade, hdestroyed,
    (plugins_destroyed_once (.of_run (.init rfl) _ hrun)).1⟩

end PluginLifetimes

end WasmHot
