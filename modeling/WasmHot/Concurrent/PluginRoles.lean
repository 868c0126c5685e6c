import WasmHot.Concurrent.PluginDiscipline

/-!
# The roles of plugins

A plugin is one that a call is making, one of the manager, or the clone of a module in an actor. Its
role says in which variables and tables it may be, so no two threads come to it by different ways:

* until `Load`, `HotReload` or `Clone` has initialized a plugin, only the thread of the call knows it;
* the plugins in the tables of the manager are cloned, which does not enter their VM, and are shut
  down under the lock;
* the plugins of an actor are executed by the tasks of its strand, and are in no other table.

Every step keeps each plugin in the places of its role, with a new role for a plugin that is made or
put into a table (`Placed.effect`).
-/

namespace WasmHot

namespace PluginLifetimes

variable {s s' : PluginLifetimes} {t t' u : ThreadId} {n : ℕ}

/-! ## Which places share a plugin -/

/-- The places that may point to a plugin of this role. -/
inductive Permits (s : PluginLifetimes) : PluginRole → PluginPlace → Prop
  | making {t : ThreadId} (hcall : (s.calls.lookup t).any LifetimeCall.makes = true) :
      Permits s (.made t) (.making t)
  | running (name : String) : Permits s .managed (.running name)
  | previous (name : String) : Permits s .managed (.previous name)
  | cloning {t : ThreadId} (hcall : (s.calls.lookup t).any LifetimeCall.clones = true) :
      Permits s .managed (.copied t)
  | ofActor {actor : ℕ} {name : String} (hactor : s.actors.lookup actor ≠ none) :
      Permits s (.cloned actor name) (.ofActor actor name)
  | executing {t : ThreadId} {actor : ℕ} {name : String}
      (hcall : s.calls.lookup t = some (.executing actor name)) :
      Permits s (.cloned actor name) (.copied t)

variable {role : PluginRole} {roles : ℕ → PluginRole} {place : PluginPlace}

/-- What is allowed depends on the calls and the actors only. -/
theorem Permits.congr (h : s.Permits role place) (hcalls : s'.calls = s.calls)
    (hactors : s'.actors = s.actors) : s'.Permits role place := by
  cases h with
  | making hcall => exact .making (hcalls ▸ hcall)
  | running name => exact .running name
  | previous name => exact .previous name
  | cloning hcall => exact .cloning (hcalls ▸ hcall)
  | ofActor hactor => exact .ofActor (hactors ▸ hactor)
  | executing hcall => exact .executing (hcalls ▸ hcall)

/-- The places outside of thread `t` stay allowed when it goes on. -/
theorem Permits.of_ne (h : s.Permits role place) (heffect : s.Effect t s')
    (hactors : ∀ actor, s.actors.lookup actor ≠ none → s'.actors.lookup actor ≠ none)
    (hmaking : place = .making t → s'.Permits role place)
    (hcopied : place = .copied t → s'.Permits role place) : s'.Permits role place := by
  -- The places of other threads and the tables depend on nothing that thread `t` changes.
  cases h with
  | @making u hcall =>
    by_cases hu : u = t
    · exact hmaking (congrArg _ hu)
    · exact .making (heffect.calls_of_ne hu ▸ hcall)
  | running name => exact .running name
  | previous name => exact .previous name
  | @cloning u hcall =>
    by_cases hu : u = t
    · exact hcopied (congrArg _ hu)
    · exact .cloning (heffect.calls_of_ne hu ▸ hcall)
  | ofActor hactor => exact .ofActor (hactors _ hactor)
  | @executing u actor name hcall =>
    by_cases hu : u = t
    · exact hcopied (congrArg _ hu)
    · exact .executing ((heffect.calls_of_ne hu).trans hcall)

theorem Permits.makes (h : s.Permits role (.making t)) :
    (s.calls.lookup t).any LifetimeCall.makes = true := by
  cases h with
  | making hcall => exact hcall

theorem Permits.copies (h : s.Permits role (.copied t)) :
    (s.calls.lookup t).any LifetimeCall.copies = true := by
  cases h with
  | cloning hcall =>
    obtain ⟨call, hlookup, hclones⟩ := (Option.any_eq_true _ _).mp hcall
    rw [hlookup]
    cases call with
    | cloning actor name names => rfl
    | _ => cases hclones
  | executing hcall =>
    rw [hcall]
    rfl

theorem Permits.role_making (h : s.Permits role (.making t)) : role = .made t := by
  cases h
  rfl

theorem Permits.role_running {name : String} (h : s.Permits role (.running name)) :
    role = .managed := by
  cases h
  rfl

theorem Permits.role_previous {name : String} (h : s.Permits role (.previous name)) :
    role = .managed := by
  cases h
  rfl

theorem Permits.role_ofActor {actor : ℕ} {name : String}
    (h : s.Permits role (.ofActor actor name)) : role = .cloned actor name := by
  cases h
  rfl

theorem Permits.role_executing {actor : ℕ} {name : String} (h : s.Permits role (.copied t))
    (hcall : s.calls.lookup t = some (.executing actor name)) : role = .cloned actor name := by
  cases h with
  | cloning hclones =>
    rw [hcall] at hclones
    cases hclones
  | executing hcall' =>
    rw [hcall] at hcall'
    cases hcall'
    rfl

/-- A thread whose call has no pointer leaves all places allowed, whatever it goes on to. -/
theorem Permits.of_bare (h : s.Permits role place) (heffect : s.Effect t s')
    (hmakes : (s.calls.lookup t).any LifetimeCall.makes = false)
    (hcopies : (s.calls.lookup t).any LifetimeCall.copies = false)
    (hactors : ∀ actor, s.actors.lookup actor ≠ none → s'.actors.lookup actor ≠ none) :
    s'.Permits role place := by
  refine h.of_ne heffect hactors ?_ ?_
  · rintro rfl
    exact absurd h.makes (Bool.eq_false_iff.mp hmakes)
  · rintro rfl
    exact absurd h.copies (Bool.eq_false_iff.mp hcopies)

/-- Every plugin has a role that its places keep to. `Unload` has shut down plugins of the manager
only, and what got out of the call that made it is initialized. -/
structure Placed (s : PluginLifetimes) (roles : ℕ → PluginRole) : Prop where
  permits : s.plugins.Obeys fun n place => s.Permits (roles n) place
  managed : ∀ n ∈ s.shutDown, n < s.plugins.made ∧ roles n = .managed
  ready : ∀ n < s.plugins.made, (∀ t, roles n ≠ .made t) → n ∈ s.initialized

namespace Placed

/-- A step after which the roles are the same. -/
theorem same_roles (h : s.Placed roles) (hmade : s'.plugins.made = s.plugins.made)
    (hshut : s'.shutDown = s.shutDown) (hinit : s.initialized ⊆ s'.initialized)
    (hpermits : s'.plugins.Obeys fun n place => s'.Permits (roles n) place) : s'.Placed roles where
  permits := hpermits
  managed := by
    rw [hshut, hmade]
    exact h.managed
  ready := by
    rw [hmade]
    exact fun n hn hrole => hinit (h.ready n hn hrole)

/-- A step that makes a plugin, after it has changed other pointers. -/
theorem made {q : SharedPointers PluginPlace} (h : s.Placed roles)
    (hplugins : s'.plugins = q.make t (.making t)) (hmade : q.made = s.plugins.made)
    (hlt : ∀ place n, q.at? place = some n → n < s.plugins.made)
    (hpermits : q.Obeys fun n place => s'.Permits (roles n) place)
    (hcall : (s'.calls.lookup t).any LifetimeCall.makes = true)
    (hshut : s'.shutDown = s.shutDown) (hinit : s'.initialized = s.initialized) :
    s'.Placed (Function.update roles s.plugins.made (.made t)) where
  permits := by
    rw [hplugins]
    refine SharedPointers.Obeys.make (hpermits.mono fun place n hplace hp => ?_) ?_
    · rwa [Function.update_of_ne (hlt place n hplace).ne]
    · rw [hmade, Function.update_self]
      exact .making hcall
  managed n hn := by
    obtain ⟨hlt, hrole⟩ := h.managed n (hshut ▸ hn)
    rw [hplugins, SharedPointers.made_make, hmade]
    exact ⟨Nat.lt_succ_of_lt hlt, (Function.update_of_ne hlt.ne _ _).trans hrole⟩
  ready n hn hrole := by
    rw [hplugins, SharedPointers.made_make, hmade] at hn
    have hne : n ≠ s.plugins.made := by
      -- The new plugin is the one that thread `t` is making.
      rintro rfl
      exact hrole t (Function.update_self _ _ _)
    rw [Function.update_of_ne hne] at hrole
    rw [hinit]
    exact h.ready n ((Nat.lt_succ_iff_lt_or_eq.mp hn).resolve_right hne) hrole

/-- No other place points to the plugin that a call makes. -/
theorem ne_of_making (h : s.Placed roles) (hmaking : s.plugins.at? (.making t) = some n)
    {m : ℕ} (hplace : s.plugins.at? place = some m) (hne : place ≠ .making t) : m ≠ n := by
  rintro rfl
  have hpermits : s.Permits (roles m) place := h.permits place m hplace
  rw [(h.permits _ m hmaking).role_making] at hpermits
  cases hpermits
  exact hne rfl

/-- A step that puts the plugin that its call has made into a table. -/
theorem published (role : PluginRole) (h : s.Placed roles)
    (hmaking : s.plugins.at? (.making t) = some n) (hmade : s'.plugins.made = s.plugins.made)
    (hshut : s'.shutDown = s.shutDown) (hinit : s.initialized ⊆ s'.initialized)
    (hready : n ∈ s'.initialized)
    (hpermits : s'.plugins.Obeys fun m place => s'.Permits (Function.update roles n role m) place) :
    s'.Placed (Function.update roles n role) where
  permits := hpermits
  managed m hm := by
    obtain ⟨hlt, hrole⟩ := h.managed m (hshut ▸ hm)
    have hne : m ≠ n := by
      rintro rfl
      rw [(h.permits _ m hmaking).role_making] at hrole
      cases hrole
    rw [hmade, Function.update_of_ne hne]
    exact ⟨hlt, hrole⟩
  ready m hm hrole := by
    -- The plugin that is published has been initialized; the others are as they were.
    by_cases hne : m = n
    · exact hne ▸ hready
    · rw [Function.update_of_ne hne] at hrole
      exact hinit (h.ready m (hmade ▸ hm) hrole)

/-- A step of a thread whose call has no pointer, before it changes one. -/
theorem bare (h : s.Placed roles) (heffect : s.Effect t s')
    (hmakes : (s.calls.lookup t).any LifetimeCall.makes = false)
    (hcopies : (s.calls.lookup t).any LifetimeCall.copies = false)
    (hactors : ∀ actor, s.actors.lookup actor ≠ none → s'.actors.lookup actor ≠ none) :
    s.plugins.Obeys fun n place => s'.Permits (roles n) place :=
  h.permits.mono fun _ _ _ hpermits => hpermits.of_bare heffect hmakes hcopies hactors

/-- Such a step that changes no pointer. -/
theorem kept (h : s.Placed roles) (heffect : s.Effect t s') (hplugins : s'.plugins = s.plugins)
    (hshut : s'.shutDown = s.shutDown) (hinit : s'.initialized = s.initialized)
    (hmakes : (s.calls.lookup t).any LifetimeCall.makes = false)
    (hcopies : (s.calls.lookup t).any LifetimeCall.copies = false)
    (hactors : ∀ actor, s.actors.lookup actor ≠ none → s'.actors.lookup actor ≠ none) :
    s'.Placed roles := by
  refine h.same_roles (congrArg _ hplugins) hshut hinit.ge ?_
  rw [hplugins]
  exact h.bare heffect hmakes hcopies hactors

/-- The tables and the variables of the other threads, where thread `t` takes a step. -/
theorem elsewhere (h : s.Placed roles) (heffect : s.Effect t s')
    (hactors : ∀ actor, s.actors.lookup actor ≠ none → s'.actors.lookup actor ≠ none)
    {place : PluginPlace} (hplace : s.plugins.at? place = some n) (hmaking : place ≠ .making t)
    (hcopied : place ≠ .copied t) : s'.Permits (roles n) place :=
  (h.permits place n hplace).of_ne heffect hactors (fun heq => absurd heq hmaking)
    fun heq => absurd heq hcopied

/-- A call that makes a plugin outside of the constructor of an actor has no other pointer. -/
theorem ne_copied (h : s.Placed roles)
    (hcopies : (s.calls.lookup t).any LifetimeCall.copies = false) {place : PluginPlace}
    (hplace : s.plugins.at? place = some n) : place ≠ .copied t := by
  rintro rfl
  exact absurd (h.permits _ n hplace).copies (Bool.eq_false_iff.mp hcopies)

theorem created (h : s.Placed roles) (reload : Bool) (name : String)
    (hcounted : s.plugins.Counted) (hcall : s.calls.lookup t = none) :
    ∃ roles', (s.goOn t (.initializing reload name) (s.plugins.make t (.making t))).Placed
      roles' := by
  have heffect := Effect.created reload name hcall
  refine ⟨_, h.made rfl rfl (fun place n hplace => hcounted.lt_made n (Or.inl ⟨place, hplace⟩))
    (h.bare heffect (by simp [hcall]) (by simp [hcall]) fun _ ha => ha) ?_ rfl rfl⟩
  simp [LifetimeCall.makes]

theorem initialized {reload : Bool} {name : String} (h : s.Placed roles)
    (hcall : s.calls.lookup t = some (.initializing reload name)) :
    ((s.markInitialized (.making t)).goOn t (.initialized reload name) s.plugins).Placed roles := by
  have heffect := Effect.initialized hcall
  refine h.same_roles rfl rfl (fun n hn => heffect.initialized_mono hn) ?_
  refine h.permits.mono fun place n hplace hpermits => hpermits.of_ne heffect (fun _ ha => ha) ?_ ?_
  · rintro rfl
    rw [hpermits.role_making]
    exact .making (by simp [LifetimeCall.makes])
  · exact fun heq => absurd heq (h.ne_copied (by simp [hcall, LifetimeCall.copies]) hplace)

theorem initializeFailed {reload : Bool} {name : String} (h : s.Placed roles)
    (hcall : s.calls.lookup t = some (.initializing reload name)) :
    (s.leave t (s.plugins.reset t (.making t))).Placed roles := by
  have heffect := Effect.initializeFailed hcall
  refine h.same_roles rfl rfl (Finset.Subset.refl _) (SharedPointers.Obeys.reset ?_)
  exact fun place n hplace hne => h.elsewhere heffect (fun _ ha => ha) hplace hne
    (h.ne_copied (by simp [hcall, LifetimeCall.copies]) hplace)

theorem loaded {name : String} (h : s.Placed roles) (hd : s.Disciplined)
    (hcall : s.calls.lookup t = some (.initialized false name)) (hmutex : s.mutex = none) :
    ∃ roles', ({ s with mutex := some t }.goOn t .locked
      (s.plugins.move t (.making t) (.running name))).Placed roles' := by
  have heffect := Effect.loaded hcall hmutex
  obtain ⟨n, hmaking, hinit⟩ := hd.holds t _ hcall
  refine ⟨_, h.published .managed hmaking (SharedPointers.made_move _ _) rfl
    (Finset.Subset.refl _) hinit (SharedPointers.Obeys.move ?_ ?_)⟩
  · intro place m hplace hne
    rw [Function.update_of_ne (h.ne_of_making hmaking hplace hne)]
    exact h.elsewhere heffect (fun _ ha => ha) hplace hne
      (h.ne_copied (by simp [hcall, LifetimeCall.copies]) hplace)
  · intro m hm
    cases hmaking.symm.trans hm
    rw [Function.update_self]
    exact .running name

/-- What was running goes to the plugins kept for a rollback first. -/
theorem reloaded {name : String} (h : s.Placed roles) (hd : s.Disciplined)
    (hcall : s.calls.lookup t = some (.initialized true name)) (hmutex : s.mutex = none) :
    ∃ roles', ({ s with mutex := some t }.goOn t .locked
      ((s.plugins.move t (.running name) (.previous name)).move t (.making t)
        (.running name))).Placed roles' := by
  have heffect := Effect.reloaded hcall hmutex
  obtain ⟨n, hmaking, hinit⟩ := hd.holds t _ hcall
  have hmaking' : (s.plugins.move t (.running name) (.previous name)).at? (.making t) = some n := by
    simp [SharedPointers.at?_move, hmaking]
  refine ⟨_, h.published .managed hmaking (by simp [goOn]) rfl (Finset.Subset.refl _) hinit
    (SharedPointers.Obeys.move (SharedPointers.Obeys.move ?_ ?_) ?_)⟩
  · intro place m hplace _ hne
    rw [Function.update_of_ne (h.ne_of_making hmaking hplace hne)]
    exact h.elsewhere heffect (fun _ ha => ha) hplace hne
      (h.ne_copied (by simp [hcall, LifetimeCall.copies]) hplace)
  -- The plugin that was running is one of the manager and stays so.
  · intro m hrunning _
    rw [Function.update_of_ne (h.ne_of_making hmaking hrunning (by simp)),
      (h.permits _ m hrunning).role_running]
    exact .previous name
  · intro m hm
    cases hmaking'.symm.trans hm
    rw [Function.update_self]
    exact .running name

theorem shuttingDown {name : String} (h : s.Placed roles) (hcounted : s.plugins.Counted)
    (hcall : s.calls.lookup t = none) (hmutex : s.mutex = none)
    (hrunning : s.plugins.at? (.running name) = some n) :
    ({ s with mutex := some t, shutDown := insert n s.shutDown }.goOn t (.shuttingDown name)
      s.plugins).Placed roles where
  permits := h.bare (.shuttingDown hcall hmutex hrunning) (by simp [hcall]) (by simp [hcall])
    fun _ ha => ha
  managed m hm := by
    rcases Finset.mem_insert.mp hm with rfl | hm
    · exact ⟨hcounted.lt_made m (Or.inl ⟨_, hrunning⟩), (h.permits _ m hrunning).role_running⟩
    · exact h.managed m hm
  ready := h.ready

theorem cloning {actor : ℕ} {name : String} {names : List String} (h : s.Placed roles)
    (hcounted : s.plugins.Counted)
    (hcall : s.calls.lookup t = some (.constructing actor (name :: names)))
    (hrunning : s.plugins.at? (.running name) = some n) :
    ∃ roles', (s.goOn t (.cloning actor name names)
      ((s.plugins.copy t (.running name) (.copied t)).make t (.making t))).Placed roles' := by
  have heffect := Effect.cloning hcall hrunning
  refine ⟨_, h.made rfl (SharedPointers.made_copy _ _) ?_
    ((h.bare heffect (by simp [hcall, LifetimeCall.makes]) (by simp [hcall, LifetimeCall.copies])
      fun _ ha => ha).copy ?_) ?_ rfl rfl⟩
  · intro place m hplace
    have hlt := (hcounted.copy (t := t) _ _).lt_made m (Or.inl ⟨place, hplace⟩)
    rwa [SharedPointers.made_copy] at hlt
  · intro m hm
    rw [(h.permits _ m hm).role_running]
    exact .cloning (by simp [LifetimeCall.clones])
  · simp [LifetimeCall.makes]

theorem cloned {actor : ℕ} {name : String} {names : List String} (h : s.Placed roles)
    (hd : s.Disciplined) (hcall : s.calls.lookup t = some (.cloning actor name names)) :
    ∃ roles', ((s.markInitialized (.making t)).goOn t (.constructing actor names)
      ((s.plugins.move t (.making t) (.ofActor actor name)).reset t (.copied t))).Placed
        roles' := by
  have heffect := Effect.cloned hcall
  obtain ⟨hbuilding, hsome⟩ := hd.holds t _ hcall
  obtain ⟨n, hmaking⟩ := Option.ne_none_iff_exists'.mp hsome
  refine ⟨_, h.published (.cloned actor name) hmaking (by simp [goOn]) rfl
    (fun m hm => heffect.initialized_mono hm) ?_
    (SharedPointers.Obeys.reset (SharedPointers.Obeys.move ?_ ?_))⟩
  · exact (mem_initialized_markInitialized _).mpr (Or.inr hmaking)
  · intro place m hplace hne hcopied
    rw [Function.update_of_ne (h.ne_of_making hmaking hplace hne)]
    exact h.elsewhere heffect (fun _ ha => ha) hplace hne hcopied
  -- The clone gets the role of its place in the actor.
  · intro m hm _
    cases hmaking.symm.trans hm
    rw [Function.update_self]
    refine .ofActor ?_
    simp [goOn, hbuilding]

theorem cloneFailed {actor : ℕ} {name : String} {names : List String} (h : s.Placed roles)
    (hcall : s.calls.lookup t = some (.cloning actor name names)) :
    (s.goOn t (.constructing actor names)
      ((s.plugins.reset t (.making t)).reset t (.copied t))).Placed roles := by
  have heffect := Effect.cloneFailed hcall
  refine h.same_roles rfl rfl (Finset.Subset.refl _)
    (SharedPointers.Obeys.reset (SharedPointers.Obeys.reset ?_))
  exact fun place n hplace hmaking hcopied =>
    h.elsewhere heffect (fun _ ha => ha) hplace hmaking hcopied

theorem executing {actor : ℕ} {name : String} (h : s.Placed roles)
    (hcall : s.calls.lookup t = none) (hstrand : s.strands.lookup actor = some t)
    (hplugin : s.plugins.at? (.ofActor actor name) = some n) :
    (s.goOn t (.executing actor name)
      (s.plugins.copy t (.ofActor actor name) (.copied t))).Placed roles := by
  have heffect := Effect.executing hcall hstrand hplugin
  refine h.same_roles (SharedPointers.made_copy _ _) rfl (Finset.Subset.refl _)
    ((h.bare heffect (by simp [hcall]) (by simp [hcall]) fun _ ha => ha).copy fun m hm => ?_)
  rw [(h.permits _ m hm).role_ofActor]
  exact .executing (by simp)

theorem executed {actor : ℕ} {name : String} (h : s.Placed roles)
    (hcall : s.calls.lookup t = some (.executing actor name)) :
    (s.leave t (s.plugins.reset t (.copied t))).Placed roles := by
  have heffect := Effect.executed hcall
  refine h.same_roles rfl rfl (Finset.Subset.refl _) (SharedPointers.Obeys.reset ?_)
  refine fun place n hplace hcopied => h.elsewhere heffect (fun _ ha => ha) hplace ?_ hcopied
  rintro rfl
  simpa [hcall, LifetimeCall.makes] using (h.permits _ n hplace).makes

/-- Nobody executes a plugin of an actor that is dropped, so its plugins are in no variable. -/
theorem dropped {actor : ℕ} (h : s.Placed roles) :
    ({ s with
        actors := s.actors.erase actor
        plugins := s.plugins.resetAll t (PluginPlace.IsOf actor) } : PluginLifetimes).Placed
      roles := by
  refine h.same_roles rfl rfl (Finset.Subset.refl _) (SharedPointers.Obeys.resetAll ?_)
  refine h.permits.mono fun place n _ hpermits hother => ?_
  -- A place outside of the actor is permitted for the same reason as before.
  generalize roles n = role at hpermits ⊢
  cases hpermits with
  | making hcall => exact .making hcall
  | running name => exact .running name
  | previous name => exact .previous name
  | cloning hcall => exact .cloning hcall
  | @ofActor actor' name hactor =>
    refine .ofActor ?_
    rwa [UnorderedMap.lookup_erase, if_neg fun heq : actor' = actor => hother heq]
  | executing hcall => exact .executing hcall

/-- The roles go on with every step. -/
theorem effect (h : s.Placed roles) (hcounted : s.plugins.Counted) (hd : s.Disciplined)
    (heffect : s.Effect t s') : ∃ roles', s'.Placed roles' := by
  cases id heffect with
  | same => exact ⟨roles, h⟩
  | created reload name hcall => exact h.created reload name hcounted hcall
  | initialized hcall => exact ⟨roles, h.initialized hcall⟩
  | initializeFailed hcall => exact ⟨roles, h.initializeFailed hcall⟩
  | loaded hcall hmutex => exact h.loaded hd hcall hmutex
  | reloaded hcall hmutex => exact h.reloaded hd hcall hmutex
  -- `Rollback` moves a plugin between two tables of the manager.
  | rolledBack name hcall hmutex =>
    refine ⟨roles, h.same_roles (SharedPointers.made_move _ _) rfl (Finset.Subset.refl _)
      (SharedPointers.Obeys.move ?_ ?_)⟩
    · exact (h.bare heffect (by simp [hcall]) (by simp [hcall]) fun _ ha => ha).mono
        fun _ _ _ hpermits _ => hpermits
    · intro n hprevious
      rw [(h.permits _ n hprevious).role_previous]
      exact .running name
  | nothingToUnload hcall hmutex =>
    exact ⟨roles, h.same_roles rfl rfl (Finset.Subset.refl _) (SharedPointers.Obeys.reset
      ((h.bare heffect (by simp [hcall]) (by simp [hcall]) fun _ ha => ha).mono
        fun _ _ _ hpermits _ => hpermits))⟩
  | shuttingDown hcall hmutex hrunning =>
    exact ⟨roles, h.shuttingDown hcounted hcall hmutex hrunning⟩
  | unloaded hcall =>
    exact ⟨roles, h.same_roles rfl rfl (Finset.Subset.refl _) (SharedPointers.Obeys.reset
      (SharedPointers.Obeys.reset ((h.bare heffect (by simp [hcall, LifetimeCall.makes])
        (by simp [hcall, LifetimeCall.copies]) fun _ ha => ha).mono
          fun _ _ _ hpermits _ _ => hpermits)))⟩
  | unlocked hcall =>
    exact ⟨roles, h.kept heffect rfl rfl rfl (by simp [hcall, LifetimeCall.makes])
      (by simp [hcall, LifetimeCall.copies]) fun _ ha => ha⟩
  | constructing names hcall hactor =>
    exact ⟨roles, h.kept heffect rfl rfl rfl (by simp [hcall]) (by simp [hcall])
      fun _ ha => UnorderedMap.lookup_insert_ne_none ha⟩
  | skipped hcall =>
    exact ⟨roles, h.kept heffect rfl rfl rfl (by simp [hcall, LifetimeCall.makes])
      (by simp [hcall, LifetimeCall.copies]) fun _ ha => ha⟩
  | cloning hcall hrunning => exact h.cloning hcounted hcall hrunning
  | cloned hcall => exact h.cloned hd hcall
  | cloneFailed hcall => exact ⟨roles, h.cloneFailed hcall⟩
  | constructed hcall =>
    exact ⟨roles, h.kept heffect rfl rfl rfl (by simp [hcall, LifetimeCall.makes])
      (by simp [hcall, LifetimeCall.copies]) fun _ ha => UnorderedMap.lookup_insert_ne_none ha⟩
  -- A task takes and gives back its strand, on which no place depends.
  | taskBegun hcall hbuilt hfree =>
    exact ⟨roles, h.same_roles rfl rfl (Finset.Subset.refl _)
      (h.permits.mono fun _ _ _ hpermits => hpermits.congr rfl rfl)⟩
  | executing hcall hstrand hplugin => exact ⟨roles, h.executing hcall hstrand hplugin⟩
  | executed hcall => exact ⟨roles, h.executed hcall⟩
  | taskEnded hcall hstrand =>
    exact ⟨roles, h.same_roles rfl rfl (Finset.Subset.refl _)
      (h.permits.mono fun _ _ _ hpermits => hpermits.congr rfl rfl)⟩
  | dropped hcall hbuilt hfree => exact ⟨roles, h.dropped⟩
  | destroyed hdestroy =>
    refine ⟨roles, h.same_roles (SharedPointers.made_destroy hdestroy) rfl (Finset.Subset.refl _)
      (SharedPointers.Obeys.destroy (h.permits.mono ?_) hdestroy)⟩
    exact fun _ _ _ hpermits => hpermits.congr rfl rfl

end Placed

end PluginLifetimes

end WasmHot
