import WasmHot.Concurrent.PluginLifetimes

/-!
# What a thread relies on around a plugin

Where a thread of `PluginLifetimes` is in its code, it relies on the lock of the manager, on the
strand of an actor or on its being under construction, and on the plugin that it is inside being
there. A step of another thread takes none of this away (`Effect.holds_of_ne`), and its own step
gives it what the next place needs (`Effect.holds_self`), so every thread has it at all times
(`Disciplined.effect`).
-/

namespace WasmHot

namespace PluginLifetimes

variable {s s' : PluginLifetimes} {t t' u : ThreadId} {n : ℕ}

/-! ## What a thread relies on -/

/-- What holds at a place in the code: that the thread has the lock of the manager, the strand of the
actor or its constructor, and that the plugin that the call is inside is there. -/
def Holds (s : PluginLifetimes) (t : ThreadId) : LifetimeCall → Prop
  | .initializing _ _ => s.plugins.at? (.making t) ≠ none
  | .initialized _ _ => ∃ n, s.plugins.at? (.making t) = some n ∧ n ∈ s.initialized
  | .shuttingDown name => s.mutex = some t ∧ s.plugins.at? (.running name) ≠ none
  | .locked => s.mutex = some t
  | .constructing actor _ => s.actors.lookup actor = some (.building t)
  | .cloning actor _ _ =>
      s.actors.lookup actor = some (.building t) ∧ s.plugins.at? (.making t) ≠ none
  | .executing actor _ => s.strands.lookup actor = some t ∧ s.plugins.at? (.copied t) ≠ none

/-- Every thread has what it relies on, an actor that is not constructed has its constructor running,
and no strand is run before. -/
structure Disciplined (s : PluginLifetimes) : Prop where
  holds : ∀ t call, s.calls.lookup t = some call → s.Holds t call
  building : ∀ actor t, s.actors.lookup actor = some (.building t) →
    (s.calls.lookup t).any (LifetimeCall.constructs actor) = true
  built : ∀ actor t, s.strands.lookup actor = some t → s.actors.lookup actor = some .built

namespace Effect

/-- While another thread has the lock the tables of the manager stay as they are. -/
theorem mutex_of_ne (h : s.Effect t s') (hd : s.Disciplined) (hu : u ≠ t)
    (hmutex : s.mutex = some u) (name : String) :
    s'.mutex = some u ∧ s'.plugins.at? (.running name) = s.plugins.at? (.running name) := by
  have hother : s.mutex ≠ some t := by
    rw [hmutex]
    exact fun heq => hu (Option.some.inj heq)
  -- A step that takes the lock finds it taken, and one under the lock is not of this thread.
  cases h with
  | loaded hcall hfree => simp [hmutex] at hfree
  | reloaded hcall hfree => simp [hmutex] at hfree
  | rolledBack _ hcall hfree => simp [hmutex] at hfree
  | nothingToUnload hcall hfree => simp [hmutex] at hfree
  | shuttingDown hcall hfree hrunning => simp [hmutex] at hfree
  | unloaded hcall => exact absurd (hd.holds t _ hcall).1 hother
  | unlocked hcall => exact absurd (hd.holds t _ hcall) hother
  | destroyed hdestroy => exact ⟨hmutex, SharedPointers.at?_destroy hdestroy _⟩
  | _ =>
    simp [goOn, leave, SharedPointers.at?_make, SharedPointers.at?_move, SharedPointers.at?_copy,
      SharedPointers.at?_reset, SharedPointers.at?_resetAll, PluginPlace.IsOf, hmutex]

/-- An actor that another thread constructs stays under construction. -/
theorem building_of_ne (h : s.Effect t s') (hd : s.Disciplined) (hu : u ≠ t) {actor : ℕ}
    (hactor : s.actors.lookup actor = some (.building u)) :
    s'.actors.lookup actor = some (.building u) := by
  -- Only the constructor itself ends the construction, and it runs in thread `u`.
  cases h with
  | constructing names hcall hnone =>
    exact (UnorderedMap.lookup_insert _ _ _ _).trans
      ((if_neg (UnorderedMap.ne_of_lookup hactor hnone)).trans hactor)
  | constructed hcall =>
    refine (UnorderedMap.lookup_insert _ _ _ _).trans ((if_neg ?_).trans hactor)
    rintro rfl
    have hholds : s.actors.lookup actor = some (.building t) := hd.holds t _ hcall
    rw [hactor] at hholds
    cases hholds
    exact hu rfl
  | dropped hcall hbuilt hfree =>
    refine (UnorderedMap.lookup_erase _ _ _).trans ((if_neg ?_).trans hactor)
    rintro rfl
    rw [hactor] at hbuilt
    cases hbuilt
  | _ => exact hactor

/-- A strand that another thread runs stays with it. -/
theorem strand_of_ne (h : s.Effect t s') (hu : u ≠ t) {actor : ℕ}
    (hstrand : s.strands.lookup actor = some u) : s'.strands.lookup actor = some u := by
  cases h with
  | taskBegun hcall hbuilt hfree =>
    exact (UnorderedMap.lookup_insert _ _ _ _).trans
      ((if_neg (UnorderedMap.ne_of_lookup hstrand hfree)).trans hstrand)
  | taskEnded hcall hown =>
    refine (UnorderedMap.lookup_erase _ _ _).trans ((if_neg ?_).trans hstrand)
    rintro rfl
    rw [hstrand] at hown
    cases hown
    exact hu rfl
  | _ => exact hstrand

/-- So the other threads keep what they rely on. -/
theorem holds_of_ne (h : s.Effect t s') (hd : s.Disciplined) (hu : u ≠ t) {call : LifetimeCall}
    (hholds : s.Holds u call) : s'.Holds u call := by
  obtain ⟨hmaking, hcopied⟩ := h.at?_of_ne hu
  -- By place: a plugin that is being made is in a variable of the thread, the tables are under the
  -- lock, and an actor is under construction or its strand is taken.
  cases call with
  | initializing reload name =>
    rw [Holds, hmaking]
    exact hholds
  | initialized reload name =>
    obtain ⟨n, hn, hinit⟩ := hholds
    exact ⟨n, hmaking.trans hn, h.initialized_mono hinit⟩
  | shuttingDown name =>
    obtain ⟨hmutex, hrunning⟩ := h.mutex_of_ne hd hu hholds.1 name
    rw [Holds, hrunning]
    exact ⟨hmutex, hholds.2⟩
  | locked => exact (h.mutex_of_ne hd hu hholds "").1
  | constructing actor names => exact h.building_of_ne hd hu hholds
  | cloning actor name names =>
    rw [Holds, hmaking]
    exact ⟨h.building_of_ne hd hu hholds.1, hholds.2⟩
  | executing actor name =>
    rw [Holds, hcopied]
    exact ⟨h.strand_of_ne hu hholds.1, hholds.2⟩

/-- The thread that takes the step has what it relies on next. -/
theorem holds_self (h : s.Effect t s') (hd : s.Disciplined) {call : LifetimeCall}
    (hnext : s'.calls.lookup t = some call) : s'.Holds t call := by
  -- By step: the next place of the thread is read off the step, and what it needs off the guards.
  cases h with
  | same => exact hd.holds t call hnext
  | created reload name hcall =>
    obtain rfl := eq_of_goOn hnext
    simp [Holds, goOn, SharedPointers.at?_make]
  | initialized hcall =>
    obtain rfl := eq_of_goOn hnext
    obtain ⟨n, hn⟩ := Option.ne_none_iff_exists'.mp (hd.holds t _ hcall)
    exact ⟨n, hn, (mem_initialized_markInitialized _).mpr (Or.inr hn)⟩
  | loaded hcall hmutex =>
    obtain rfl := eq_of_goOn hnext
    rfl
  | reloaded hcall hmutex =>
    obtain rfl := eq_of_goOn hnext
    rfl
  | rolledBack name hcall hmutex =>
    obtain rfl := eq_of_goOn hnext
    rfl
  | nothingToUnload hcall hmutex =>
    obtain rfl := eq_of_goOn hnext
    rfl
  | shuttingDown hcall hmutex hrunning =>
    obtain rfl := eq_of_goOn hnext
    simp [Holds, goOn, hrunning]
  | unloaded hcall =>
    obtain rfl := eq_of_goOn hnext
    exact (hd.holds t _ hcall).1
  | constructing names hcall hactor =>
    obtain rfl := eq_of_goOn hnext
    exact (UnorderedMap.lookup_insert _ _ _ _).trans (if_pos rfl)
  | skipped hcall =>
    obtain rfl := eq_of_goOn hnext
    exact hd.holds t _ hcall
  | cloning hcall hrunning =>
    obtain rfl := eq_of_goOn hnext
    refine ⟨hd.holds t _ hcall, ?_⟩
    simp [goOn, SharedPointers.at?_make]
  | cloned hcall =>
    obtain rfl := eq_of_goOn hnext
    exact (hd.holds t _ hcall).1
  | cloneFailed hcall =>
    obtain rfl := eq_of_goOn hnext
    exact (hd.holds t _ hcall).1
  | executing hcall hstrand hplugin =>
    obtain rfl := eq_of_goOn hnext
    refine ⟨hstrand, ?_⟩
    simp [goOn, SharedPointers.at?_copy, hplugin]
  | destroyed hdestroy =>
    have hholds := hd.holds t call hnext
    cases call <;> simpa only [Holds, SharedPointers.at?_destroy hdestroy] using hholds
  -- A thread that is in no call before and after has nothing to rely on.
  | taskBegun hcall hbuilt hfree =>
    rw [hcall] at hnext
    cases hnext
  | taskEnded hcall hstrand =>
    rw [hcall] at hnext
    cases hnext
  | dropped hcall hbuilt hfree =>
    rw [hcall] at hnext
    cases hnext
  | _ => simp at hnext

/-- Where an actor comes from. -/
theorem building_back (h : s.Effect t s') {actor : ℕ}
    (hactor : s'.actors.lookup actor = some (.building u)) :
    s.actors.lookup actor = some (.building u) ∨
      u = t ∧ ∃ names, s'.calls.lookup t = some (.constructing actor names) := by
  cases h with
  | constructing names hcall hnone =>
    have hactor := (UnorderedMap.lookup_insert _ _ _ _).symm.trans hactor
    split at hactor
    · next heq =>
      cases hactor
      exact Or.inr ⟨rfl, names, by simp [heq]⟩
    · exact Or.inl hactor
  | constructed hcall =>
    have hactor := (UnorderedMap.lookup_insert _ _ _ _).symm.trans hactor
    split at hactor
    · cases hactor
    · exact Or.inl hactor
  | dropped hcall hbuilt hfree =>
    rw [UnorderedMap.lookup_erase, Option.ite_none_left_eq_some] at hactor
    exact Or.inl hactor.2
  | _ => exact Or.inl hactor

/-- A constructor goes on until the actor is constructed. -/
theorem constructs_self (h : s.Effect t s') {actor : ℕ}
    (hbefore : (s.calls.lookup t).any (LifetimeCall.constructs actor) = true) :
    (s'.calls.lookup t).any (LifetimeCall.constructs actor) = true ∨
      s'.actors.lookup actor = some .built := by
  cases h with
  | skipped hcall =>
    rw [hcall] at hbefore
    exact Or.inl (by simpa [LifetimeCall.constructs] using hbefore)
  | cloning hcall hrunning =>
    rw [hcall] at hbefore
    exact Or.inl (by simpa [LifetimeCall.constructs] using hbefore)
  | cloned hcall =>
    rw [hcall] at hbefore
    exact Or.inl (by simpa [LifetimeCall.constructs] using hbefore)
  | cloneFailed hcall =>
    rw [hcall] at hbefore
    exact Or.inl (by simpa [LifetimeCall.constructs] using hbefore)
  | constructed hcall =>
    rw [hcall] at hbefore
    have heq := of_decide_eq_true hbefore
    exact Or.inr ((UnorderedMap.lookup_insert _ _ _ _).trans (if_pos heq.symm))
  | same => exact Or.inl hbefore
  | destroyed hdestroy => exact Or.inl hbefore
  | _ => simp [*, LifetimeCall.constructs] at hbefore

end Effect

theorem Disciplined.effect (h : s.Disciplined) (heffect : s.Effect t s') : s'.Disciplined where
  -- The own step of a thread gives it what it relies on next, the steps of others leave it.
  holds u call hcall := by
    by_cases hu : u = t
    · subst hu
      exact heffect.holds_self h hcall
    · rw [heffect.calls_of_ne hu] at hcall
      exact heffect.holds_of_ne h hu (h.holds u call hcall)
  building actor u hactor := by
    rcases heffect.building_back hactor with hbefore | ⟨rfl, names, hcall⟩
    · have hbuilding := h.building actor u hbefore
      by_cases hu : u = t
      -- The constructor goes on, unless it has just ended and the actor is built.
      · subst hu
        exact (heffect.constructs_self hbuilding).resolve_right fun hbuilt => by
          rw [hactor] at hbuilt
          cases hbuilt
      · rwa [heffect.calls_of_ne hu]
    · simp [hcall, LifetimeCall.constructs]
  built actor u hstrand := by
    cases heffect with
    | constructing names hcall hactor =>
      have hbuilt := h.built actor u hstrand
      exact (UnorderedMap.lookup_insert _ _ _ _).trans
        ((if_neg (UnorderedMap.ne_of_lookup hbuilt hactor)).trans hbuilt)
    | constructed hcall =>
      refine (UnorderedMap.lookup_insert _ _ _ _).trans ?_
      split
      · rfl
      · exact h.built actor u hstrand
    | taskBegun hcall hbuilt hfree =>
      rw [UnorderedMap.lookup_insert] at hstrand
      split at hstrand
      · next heq => exact heq ▸ hbuilt
      · exact h.built actor u hstrand
    | taskEnded hcall hown =>
      rw [UnorderedMap.lookup_erase, Option.ite_none_left_eq_some] at hstrand
      exact h.built actor u hstrand.2
    | dropped hcall hbuilt hfree =>
      have hbuilt' := h.built actor u hstrand
      exact (UnorderedMap.lookup_erase _ _ _).trans
        ((if_neg (UnorderedMap.ne_of_lookup hstrand hfree)).trans hbuilt')
    | _ => exact h.built actor u hstrand

end PluginLifetimes

end WasmHot
