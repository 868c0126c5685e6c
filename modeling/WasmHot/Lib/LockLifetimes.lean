import WasmHot.Lib.LockGuards

/-!
# Locks that go away

A lock inside an entry of a map goes when its entry is erased. What a thread does that takes or gives
back a lock that has gone is up to a policy, which may let it wait for ever.

The lock of the map is the home of the locks of its entries. A thread that holds the home of a lock
is safe: the map stays as it is (`LockGuards`). A thread that has left the home, and is about to take
the lock of an entry or still holds it, depends on the others not to erase that entry, which is what
`Settled` asks of their steps. If all steps are settled, no thread comes upon a lock that has gone
(`Standing.not_lost`), so locks in the order of a rank do not deadlock
(`exists_mortalStep`).
-/

universe u

/-- Which locks there are, and the lock of the map that says so. The stray ones may be used without
it. -/
structure LockHomes {L σ : Type u} (g : LockGuards L σ) where
  there : L → σ → Bool
  home : L → Option L
  stray : L → Bool
  there_of_home_eq_none : ∀ {l : L} (s : σ), home l = none → there l s = true
  there_congr : ∀ {l h : L} {s s' : σ}, home l = some h → g.get h s' = g.get h s →
    there l s' = there l s
  live_home : ∀ {l h : L} (s : σ), home l = some h → g.Live h s

variable {L σ : Type u} [DecidableEq L] {g : LockGuards L σ}

namespace LockProgram

variable {α β : Type u}

/-- The lock that the program takes next, if it only gives locks back before. -/
def aim : LockProgram L σ α → Option L
  | .acquire l _ _ => some l
  | .release _ _ next => next.aim
  | _ => none

end LockProgram

/-- The locks that a thread is about to take or holds. -/
def LockThread.uses (thread : LockThread L σ) : List L :=
  thread.program.aim.toList ++ thread.held.map (·.1)

/-- The thread holds the home of the lock. -/
def LockThread.atHome (homes : LockHomes g) (thread : LockThread L σ) (l : L) : Bool :=
  thread.held.any fun h => homes.home l = some h.1

/-- The next step of the thread makes the lock go. -/
def LockThread.frees (homes : LockHomes g) (s : σ) (l : L) (thread : LockThread L σ) : Bool :=
  match thread.program with
  | .update f _ => homes.there l s && !homes.there l (f s)
  | _ => false

/-- The next step of the thread takes or gives back a lock that has gone. -/
def LockThread.lost (homes : LockHomes g) (s : σ) (thread : LockThread L σ) : Bool :=
  match thread.program with
  | .acquire l _ _ => !homes.there l s
  | .release l _ _ => !homes.there l s
  | _ => false

namespace LockWorld

def frees (homes : LockHomes g) (w : LockWorld L σ) (t : ThreadId) (l : L) : Bool :=
  ((w.threads.lookup t).map (LockThread.frees homes w.shared l)).getD false

def lost (homes : LockHomes g) (w : LockWorld L σ) (t : ThreadId) : Bool :=
  ((w.threads.lookup t).map (LockThread.lost homes w.shared)).getD false

/-- The stray locks that a thread uses without their homes. -/
def astray (homes : LockHomes g) (w : LockWorld L σ) (t : ThreadId) : List L :=
  match w.threads.lookup t with
  | some thread => thread.uses.filter fun l => homes.stray l && !thread.atHome homes l
  | none => []

/-- The step makes no lock go that another thread uses away from its home. -/
def Settled {κ : Type*} (homes : LockHomes g) (w : LockWorld L σ) : LockAction κ → Prop
  | .call _ _ => True
  | .advance t => ∀ t' ∈ w.threads.keys, t' ≠ t → ∀ l ∈ w.astray homes t', w.frees homes t l = false

instance {κ : Type*} (homes : LockHomes g) (w : LockWorld L σ) (a : LockAction κ) :
    Decidable (w.Settled homes a) :=
  match a with
  | .call _ _ => inferInstanceAs (Decidable True)
  | .advance t => inferInstanceAs (Decidable (∀ t' ∈ w.threads.keys, t' ≠ t → ∀ l ∈ _, _))

end LockWorld

/-- Threads that make calls, where locks go away. `hangs` is the policy: whether a thread that takes
or gives back a lock that has gone does not go on. -/
def mortalSystem {κ : Type*} (homes : LockHomes g) (body : κ → LockProgram L σ PUnit)
    (blocks hangs : LockWorld L σ → ThreadId → Bool) :
    TransitionSystem (LockWorld L σ) (LockAction κ) where
  Init w := w.threads = ∅
  step w a :=
    match a with
    | .call t c => w.step body blocks (.call t c)
    | .advance t => if w.lost homes t && hangs w t then none else w.advance blocks t

/-- With its home among the locks that are held, or stray. -/
def LockHomes.Anchored (homes : LockHomes g) (held : List (L × LockMode)) (l : L) : Prop :=
  ∀ h, homes.home l = some h → (∃ mode, (h, mode) ∈ held) ∨ homes.stray l = true

/-- Every lock that is held is anchored. -/
def LockHomes.Moored (homes : LockHomes g) (held : List (L × LockMode)) : Prop :=
  ∀ x ∈ held, homes.Anchored held x.1

namespace LockHomes

variable {homes : LockHomes g} {held held' : List (L × LockMode)} {l : L} {mode : LockMode}

omit [DecidableEq L] in
theorem Anchored.mono (h : homes.Anchored held l) (hsub : held ⊆ held') :
    homes.Anchored held' l := by
  intro home hhome
  rcases h home hhome with ⟨mode, hmem⟩ | hstray
  · exact Or.inl ⟨mode, hsub hmem⟩
  · exact Or.inr hstray

omit [DecidableEq L] in
theorem moored_nil (homes : LockHomes g) : homes.Moored [] :=
  fun _ h => absurd h List.not_mem_nil

omit [DecidableEq L] in
theorem Moored.cons (h : homes.Moored held) (hl : homes.Anchored held l) (mode : LockMode) :
    homes.Moored ((l, mode) :: held) := by
  intro x hx
  rcases List.mem_cons.mp hx with rfl | hmem
  · exact hl.mono (List.subset_cons_self _ _)
  · exact (h x hmem).mono (List.subset_cons_self _ _)

omit [DecidableEq L] in
/-- A lock without a home needs none. -/
theorem anchored_of_home_eq_none (held : List (L × LockMode)) (h : homes.home l = none) :
    homes.Anchored held l := by
  intro home hhome
  cases h.symm.trans hhome

omit [DecidableEq L] in
/-- Nor does a stray one. -/
theorem anchored_of_stray (held : List (L × LockMode)) (h : homes.stray l = true) :
    homes.Anchored held l :=
  fun _ _ => Or.inr h

end LockHomes

namespace LockProgram

variable {α β : Type u} {homes : LockHomes g} {held held' target : List (L × LockMode)} {l : L}
  {mode : LockMode} {s : σ} {Q : α → σ → Prop} {Q' : β → σ → Prop}

omit [DecidableEq L] in
/-- The lock that the program takes next is there, or it only gives locks back and ends with `Q`. -/
def AimsThere (homes : LockHomes g) (Q : α → σ → Prop) (s : σ) : LockProgram L σ α → Prop
  | .ret a => Q a s
  | .acquire l _ _ => homes.there l s = true
  | .release _ _ next => next.AimsThere homes Q s
  | _ => True

/-- Each lock that the program takes is there when it comes to it, and the program keeps those that
it holds. It ends with the locks of `target`, and with `Q` if it only gives locks back any more. -/
def Finds (homes : LockHomes g) (Q : α → σ → Prop) (target : List (L × LockMode)) :
    List (L × LockMode) → LockProgram L σ α → Prop
  | held, .ret _ => held = target
  | held, .acquire l mode next =>
      homes.Anchored held l ∧ (∀ s, next.AimsThere homes Q s) ∧
        next.Finds homes Q target ((l, mode) :: held)
  | held, .release l mode next =>
      (l, mode) ∈ held ∧ homes.Moored (held.erase (l, mode)) ∧
        next.Finds homes Q target (held.erase (l, mode))
  | held, .read next =>
      ∀ s, (next s).AimsThere homes Q s ∧ (next s).Finds homes Q target held
  | held, .update f next =>
      (∀ s, next.AimsThere homes Q (f s)) ∧
        (∀ x ∈ held, ∀ s, homes.there x.1 s = true → homes.there x.1 (f s) = true) ∧
          next.Finds homes Q target held

/-- Nothing is asked at the end. -/
abbrev Ends : α → σ → Prop := fun _ _ => True

/-- The program finds its locks from any state, and gives back what it takes. -/
def Sure (homes : LockHomes g) (held : List (L × LockMode)) (p : LockProgram L σ α) : Prop :=
  (∀ s, p.AimsThere homes Ends s) ∧ p.Finds homes Ends held held

omit [DecidableEq L] in
theorem AimsThere.bind {p : LockProgram L σ α} {f : α → LockProgram L σ β}
    (hp : p.AimsThere homes Q s) (hf : ∀ a, Q a s → (f a).AimsThere homes Q' s) :
    (p >>= f).AimsThere homes Q' s := by
  induction p with
  | ret a => exact hf a hp
  | acquire l mode next ih => exact hp
  | release l mode next ih => exact ih hp
  | read next ih => exact trivial
  | update h next ih => exact trivial

theorem Finds.bind {p : LockProgram L σ α} {f : α → LockProgram L σ β}
    (hp : p.Finds homes Q held' held) (haim : ∀ a s, Q a s → (f a).AimsThere homes Q' s)
    (hf : ∀ a, (f a).Finds homes Q' target held') : (p >>= f).Finds homes Q' target held := by
  induction p generalizing held with
  | ret a =>
    cases hp
    exact hf a
  | acquire l mode next ih =>
    obtain ⟨hl, hnext, hrest⟩ := hp
    exact ⟨hl, fun s => (hnext s).bind fun a => haim a s, ih hrest⟩
  | release l mode next ih =>
    obtain ⟨hmem, hmoored, hrest⟩ := hp
    exact ⟨hmem, hmoored, ih hrest⟩
  | read next ih => exact fun s => ⟨(hp s).1.bind fun a => haim a s, ih s (hp s).2⟩
  | update h next ih =>
    obtain ⟨hnext, hkeeps, hrest⟩ := hp
    exact ⟨fun s => (hnext s).bind fun a => haim a (h s), hkeeps, ih hrest⟩

theorem Sure.bind {p : LockProgram L σ α} {f : α → LockProgram L σ β} (hp : p.Sure homes held)
    (hf : ∀ a, (f a).Sure homes held) : (p >>= f).Sure homes held :=
  ⟨fun s => (hp.1 s).bind fun a _ => (hf a).1 s,
    hp.2.bind (fun a s _ => (hf a).1 s) fun a => (hf a).2⟩

theorem sure_pure (a : α) : (pure a : LockProgram L σ α).Sure homes held :=
  ⟨fun _ => trivial, rfl⟩

theorem sure_inspect (f : σ → α) : (inspect f : LockProgram L σ α).Sure homes held :=
  ⟨fun _ => trivial, fun _ => ⟨trivial, rfl⟩⟩

/-- What the program goes on with depends on what it has just seen. -/
theorem finds_look {f : σ → α} {p : α → LockProgram L σ β}
    (haim : ∀ s, (p (f s)).AimsThere homes Q' s)
    (hp : ∀ a, (p a).Finds homes Q' target held) :
    (inspect f >>= p).Finds homes Q' target held :=
  fun s => ⟨haim s, hp (f s)⟩

theorem sure_look {f : σ → α} {p : α → LockProgram L σ β}
    (haim : ∀ s, (p (f s)).AimsThere homes Ends s)
    (hp : ∀ a, (p a).Finds homes Ends held held) : (inspect f >>= p).Sure homes held :=
  ⟨fun _ => trivial, finds_look haim hp⟩

theorem sure_change {f : σ → σ}
    (hkeeps : ∀ x ∈ held, ∀ s, homes.there x.1 s = true → homes.there x.1 (f s) = true) :
    (change f : LockProgram L σ PUnit).Sure homes held :=
  ⟨fun _ => trivial, fun _ => trivial, hkeeps, rfl⟩

theorem finds_lock (hl : homes.Anchored held l) (mode : LockMode) :
    (lock l mode : LockProgram L σ PUnit).Finds homes Ends ((l, mode) :: held) held :=
  ⟨hl, fun _ => trivial, rfl⟩

theorem finds_unlock (l : L) (mode : LockMode) (h : homes.Moored held) :
    (unlock l mode : LockProgram L σ PUnit).Finds homes Ends held ((l, mode) :: held) := by
  refine ⟨List.mem_cons_self, ?_, ?_⟩
  · rwa [List.erase_cons_head]
  · exact List.erase_cons_head _ _

/-- A block under a lock. What holds at the end of its body still does when the lock is given back. -/
theorem finds_locked {body : LockProgram L σ α} (hl : homes.Anchored held l)
    (hmoored : homes.Moored held) (haim : ∀ s, body.AimsThere homes Q s)
    (hbody : body.Finds homes Q ((l, mode) :: held) ((l, mode) :: held)) :
    (locked l mode body).Finds homes Q held held := by
  refine (finds_lock hl mode).bind (fun _ s _ => (haim s).bind fun a hQ => hQ) fun _ => ?_
  refine hbody.bind (fun a s hQ => hQ) fun a => ⟨List.mem_cons_self, ?_, ?_⟩
  · rwa [List.erase_cons_head]
  · exact List.erase_cons_head _ _

/-- A block under a lock that is always there. -/
theorem sure_locked {body : LockProgram L σ α} (hhome : homes.home l = none)
    (hmoored : homes.Moored held) (hbody : body.Sure homes ((l, mode) :: held)) :
    (locked l mode body).Sure homes held :=
  ⟨fun s => homes.there_of_home_eq_none s hhome,
    finds_locked (LockHomes.anchored_of_home_eq_none held hhome) hmoored hbody.1 hbody.2⟩

omit [DecidableEq L] in
theorem AimsThere.there_of_aim {p : LockProgram L σ α} (h : p.AimsThere homes Q s)
    (haim : p.aim = some l) : homes.there l s = true := by
  induction p with
  | acquire l' mode next ih =>
    cases haim
    exact h
  | release l' mode next ih => exact ih h haim
  | _ => cases haim

omit [DecidableEq L] in
theorem aimsThere_of_aim {p : LockProgram L σ α}
    (h : ∀ l, p.aim = some l → homes.there l s = true) : p.AimsThere homes Ends s := by
  induction p with
  | ret a => exact trivial
  | acquire l mode next ih => exact h l rfl
  | release l mode next ih => exact ih h
  | read next ih => exact trivial
  | update f next ih => exact trivial

theorem Finds.anchored_aim {p : LockProgram L σ α} (h : p.Finds homes Q target held)
    (haim : p.aim = some l) : homes.Anchored held l := by
  induction p generalizing held with
  | acquire l' mode next ih =>
    cases haim
    exact h.1
  | release l' mode next ih => exact (ih h.2.2 haim).mono List.erase_subset
  | _ => cases haim

end LockProgram

/-! ## Programs of a part of the system -/

/-- The locks of a part of the system have their homes in the part. -/
structure HomesAlike {L' σ' : Type u} {g' : LockGuards L' σ'} (part : LockPart L L' σ σ')
    (homes : LockHomes g) (homes' : LockHomes g') : Prop where
  there : ∀ l s, homes'.there (part.lock l) s = homes.there l (part.get s)
  home : ∀ l, homes'.home (part.lock l) = (homes.home l).map part.lock
  stray : ∀ l, homes'.stray (part.lock l) = homes.stray l
  get_set : ∀ x s, part.get (part.set x s) = x

namespace LockProgram

variable {L' σ' α : Type u} [DecidableEq L'] {g' : LockGuards L' σ'} {part : LockPart L L' σ σ'}
  {homes : LockHomes g} {homes' : LockHomes g'} {held target : List (L × LockMode)} {l : L}

omit [DecidableEq L] [DecidableEq L'] in
theorem AimsThere.lift {p : LockProgram L σ α} {s : σ'} (halike : HomesAlike part homes homes')
    (h : p.AimsThere homes Ends (part.get s)) : (p.lift part).AimsThere homes' Ends s := by
  induction p with
  | ret a => exact trivial
  | acquire l mode next ih => exact (halike.there l s).trans h
  | release l mode next ih => exact ih h
  | read next ih => exact trivial
  | update f next ih => exact trivial

omit [DecidableEq L] [DecidableEq L'] in
theorem anchored_lift (halike : HomesAlike part homes homes') (h : homes.Anchored held l) :
    homes'.Anchored (liftHeld part held) (part.lock l) := by
  intro home' hhome'
  rw [halike.home, Option.map_eq_some_iff] at hhome'
  obtain ⟨home, hhome, rfl⟩ := hhome'
  rcases h home hhome with ⟨mode, hmem⟩ | hstray
  · exact Or.inl ⟨mode, mem_liftHeld.mpr hmem⟩
  · exact Or.inr ((halike.stray l).trans hstray)

omit [DecidableEq L] [DecidableEq L'] in
theorem moored_lift (halike : HomesAlike part homes homes') (h : homes.Moored held) :
    homes'.Moored (liftHeld part held) := by
  intro x hx
  obtain ⟨y, hy, rfl⟩ := List.mem_map.mp hx
  exact anchored_lift halike (h y hy)

theorem Finds.lift {p : LockProgram L σ α} (halike : HomesAlike part homes homes')
    (h : p.Finds homes Ends target held) :
    (p.lift part).Finds homes' Ends (liftHeld part target) (liftHeld part held) := by
  induction p generalizing held with
  | ret a => exact congrArg (liftHeld part) h
  | acquire l mode next ih =>
    obtain ⟨hl, hnext, hrest⟩ := h
    exact ⟨anchored_lift halike hl, fun s => (hnext (part.get s)).lift halike, ih hrest⟩
  | release l mode next ih =>
    obtain ⟨hmem, hmoored, hrest⟩ := h
    refine ⟨mem_liftHeld.mpr hmem, ?_, ?_⟩
    · rw [← liftHeld_erase]
      exact moored_lift halike hmoored
    · rw [← liftHeld_erase]
      exact ih hrest
  | read next ih => exact fun s => ⟨(h (part.get s)).1.lift halike, ih _ (h (part.get s)).2⟩
  | update f next ih =>
    obtain ⟨hnext, hkeeps, hrest⟩ := h
    refine ⟨fun s => AimsThere.lift halike ?_, fun x hx s hthere => ?_, ih hrest⟩
    · rw [halike.get_set]
      exact hnext (part.get s)
    · obtain ⟨y, hy, rfl⟩ := List.mem_map.mp hx
      rw [halike.there] at hthere ⊢
      rw [halike.get_set]
      exact hkeeps y hy (part.get s) hthere

/-- A call of the part that finds its locks finds them in the system. -/
theorem Sure.lift {p : LockProgram L σ α} (halike : HomesAlike part homes homes')
    (h : p.Sure homes []) : (p.lift part).Sure homes' [] :=
  ⟨fun s => (h.1 (part.get s)).lift halike, h.2.lift halike⟩

end LockProgram

/-! ## Threads -/

namespace LockWorld

open LockProgram

variable {κ : Type u} {homes : LockHomes g} {body : κ → LockProgram L σ PUnit}
  {blocks hangs : LockWorld L σ → ThreadId → Bool} {rank : L → ℕ} {w w' : LockWorld L σ}
  {t : ThreadId} {thread : LockThread L σ} {l : L}

/-- The thread finds its locks from here on, and those that it uses are there. -/
structure Stands (homes : LockHomes g) (s : σ) (thread : LockThread L σ) : Prop where
  finds : thread.program.Finds homes Ends [] thread.held
  aims : thread.program.AimsThere homes Ends s
  there : ∀ x ∈ thread.held, homes.there x.1 s = true
  moored : homes.Moored thread.held

/-- So it is with every thread. -/
def Standing (homes : LockHomes g) (w : LockWorld L σ) : Prop :=
  ∀ t thread, w.threads.lookup t = some thread → Stands homes w.shared thread

theorem Stands.anchored (h : Stands homes w.shared thread) (hl : l ∈ thread.uses) :
    homes.Anchored thread.held l := by
  rcases List.mem_append.mp hl with haim | hheld
  · exact h.finds.anchored_aim (Option.mem_toList.mp haim)
  · obtain ⟨x, hx, rfl⟩ := List.mem_map.mp hheld
    exact h.moored x hx

theorem Stands.there_of_uses (h : Stands homes w.shared thread) (hl : l ∈ thread.uses) :
    homes.there l w.shared = true := by
  rcases List.mem_append.mp hl with haim | hheld
  · exact h.aims.there_of_aim (Option.mem_toList.mp haim)
  · obtain ⟨x, hx, rfl⟩ := List.mem_map.mp hheld
    exact h.there x hx

/-- A thread stands where the locks that it uses are there. -/
theorem Stands.of_uses {s s' : σ} (h : Stands homes s thread)
    (hthere : ∀ l ∈ thread.uses, homes.there l s' = true) : Stands homes s' thread where
  finds := h.finds
  aims := aimsThere_of_aim fun l haim =>
    hthere l (List.mem_append_left _ (Option.mem_toList.mpr haim))
  there x hx := hthere x.1 (List.mem_append_right _ (List.mem_map_of_mem hx))
  moored := h.moored

/-- The own step of a thread. -/
theorem Stands.of_effect (h : Stands homes w.shared thread) (heffect : w.Effect t thread w') :
    ∀ thread', w'.threads.lookup t = some thread' → Stands homes w'.shared thread' := by
  obtain ⟨hfinds, haims, hthere, hmoored⟩ := h
  intro thread' ht'
  cases heffect with
  | returned hprogram =>
    rw [UnorderedMap.lookup_erase, if_pos rfl] at ht'
    cases ht'
  -- Waiting for a lock changes nothing that the thread relies on.
  | asked hprogram hwaiting =>
    rw [lookup_setThread, if_pos rfl] at ht'
    cases ht'
    exact ⟨hfinds, haims, hthere, hmoored⟩
  | @granted l mode next hprogram hfree =>
    rw [lookup_setThread, if_pos rfl] at ht'
    cases ht'
    rw [hprogram] at hfinds haims
    -- The lock was there when the thread came to it, and is now one that it holds.
    obtain ⟨hl, hnext, hrest⟩ := hfinds
    refine ⟨hrest, hnext w.shared, fun x hx => ?_, hmoored.cons hl mode⟩
    rcases List.mem_cons.mp hx with rfl | hmem
    · exact haims
    · exact hthere x hmem
  | released hprogram =>
    rw [lookup_setThread, if_pos rfl] at ht'
    cases ht'
    rw [hprogram] at hfinds haims
    exact ⟨hfinds.2.2, haims, fun x hx => hthere x (List.mem_of_mem_erase hx), hfinds.2.1⟩
  | inspected hprogram =>
    rw [lookup_setThread, if_pos rfl] at ht'
    cases ht'
    rw [hprogram] at hfinds
    obtain ⟨hnext, hrest⟩ := hfinds w.shared
    exact ⟨hrest, hnext, hthere, hmoored⟩
  -- A program that finds its locks does not free one that it holds.
  | changed hprogram =>
    rw [lookup_setThread, if_pos rfl] at ht'
    cases ht'
    rw [hprogram] at hfinds
    obtain ⟨hnext, hkeeps, hrest⟩ := hfinds
    exact ⟨hrest, hnext w.shared, fun x hx => hkeeps x hx w.shared (hthere x hx), hmoored⟩

/-- Only a change makes locks go. -/
theorem there_of_effect (ht : w.threads.lookup t = some thread)
    (heffect : w.Effect t thread w') (hfrees : w.frees homes t l = false)
    (hthere : homes.there l w.shared = true) : homes.there l w'.shared = true := by
  cases heffect with
  | changed hprogram =>
    simp only [frees, ht, Option.map_some, Option.getD_some, LockThread.frees, hprogram, hthere,
      Bool.true_and, Bool.not_eq_false'] at hfrees
    exact hfrees
  | _ => exact hthere

/-- A settled step of one thread keeps the locks of the others. -/
theorem Standing.advance (h : w.Standing homes) (hprotected : w.Protected g)
    (hsettled : w.Settled homes (.advance t : LockAction κ)) (hstep : w.advance blocks t = some w') :
    w'.Standing homes := by
  obtain ⟨thread, ht, heffect⟩ := effect_of_advance hstep
  intro u threadU hu
  by_cases hut : u = t
  · subst hut
    exact (h u thread ht).of_effect heffect threadU hu
  · have hu' : w.threads.lookup u = some threadU := by
      cases heffect with
      | returned hprogram => rwa [UnorderedMap.lookup_erase, if_neg hut] at hu
      | _ => rwa [lookup_setThread, if_neg hut] at hu
    have hstands := h u threadU hu'
    refine hstands.of_uses fun l hl => ?_
    have hthere := hstands.there_of_uses hl
    cases hhome : homes.home l with
    | none => exact homes.there_of_home_eq_none _ hhome
    | some home =>
      by_cases hat : threadU.atHome homes l = true
      · -- It holds the lock of the map, which the step therefore leaves as it is.
        obtain ⟨x, hx, heq⟩ := List.any_eq_true.mp hat
        rw [decide_eq_true_eq, hhome, Option.some.injEq] at heq
        subst heq
        -- Two threads are two actions, which is what the frame of the lock asks for.
        have hother : (.advance t : LockAction κ) ≠ .advance u := by
          rintro ⟨⟩
          exact hut rfl
        have hstep' : w.step (fun _ : κ => .ret ⟨⟩) blocks (.advance t) = some w' := hstep
        have hkept := hprotected.kept_by_other hu' hx (homes.live_home w.shared hhome) hother hstep'
        rw [homes.there_congr hhome hkept.2.2]
        exact hthere
      -- It goes on with the lock although its home is not held, so the step must not free it.
      · have hstray : homes.stray l = true := by
          rcases hstands.anchored hl home hhome with ⟨mode, hmem⟩ | hstray
          · refine absurd (List.any_eq_true.mpr ⟨(home, mode), hmem, ?_⟩) hat
            exact decide_eq_true hhome
          · exact hstray
        have hastray : l ∈ w.astray homes u := by
          simp only [astray, hu', List.mem_filter, Bool.and_eq_true, Bool.not_eq_true']
          exact ⟨hl, hstray, Bool.eq_false_of_not_eq_true hat⟩
        have hfrees := hsettled u (UnorderedMap.mem_keys_of_lookup hu') hut l hastray
        exact there_of_effect ht heffect hfrees hthere

/-- No thread comes upon a lock that has gone. -/
theorem Standing.not_lost (h : w.Standing homes) (t : ThreadId) : w.lost homes t = false := by
  unfold lost
  cases ht : w.threads.lookup t with
  | none => rfl
  | some thread =>
    obtain ⟨hfinds, haims, hthere, hmoored⟩ := h t thread ht
    cases hprogram : thread.program with
    | acquire l mode next =>
      rw [hprogram] at haims
      have hl : homes.there l w.shared = true := haims
      simp [LockThread.lost, hprogram, hl]
    | release l mode next =>
      rw [hprogram] at hfinds
      have hl := hthere (l, mode) hfinds.1
      simp [LockThread.lost, hprogram, hl]
    | _ => simp [LockThread.lost, hprogram]

/-- An unsettled step leaves a thread with a lock that has gone. -/
theorem exists_gone_of_not_settled (hunsettled : ¬ w.Settled homes (.advance t : LockAction κ))
    (hstep : w.advance blocks t = some w') :
    ∃ t' l, l ∈ w'.astray homes t' ∧ homes.there l w'.shared = false := by
  simp only [Settled, not_forall, Bool.not_eq_false] at hunsettled
  obtain ⟨t', -, hne, l, hastray, hfrees⟩ := hunsettled
  obtain ⟨thread, ht, heffect⟩ := effect_of_advance hstep
  simp only [frees, ht, Option.map_some, Option.getD_some, LockThread.frees] at hfrees
  refine ⟨t', l, ?_, ?_⟩
  · have hsame : w'.threads.lookup t' = w.threads.lookup t' := by
      cases heffect with
      | returned hprogram => rw [UnorderedMap.lookup_erase, if_neg hne]
      | _ => rw [lookup_setThread, if_neg hne]
    rwa [astray, hsame]
  · cases heffect with
    | changed hprogram =>
      rw [hprogram, Bool.and_eq_true, Bool.not_eq_true'] at hfrees
      exact hfrees.2
    | _ => simp_all

/-- A step where locks go away is a step as if they did not. -/
theorem step_of_mortalStep {a : LockAction κ}
    (h : (mortalSystem homes body blocks hangs).step w a = some w') :
    w.step body blocks a = some w' := by
  cases a with
  | call t c => exact h
  | advance t =>
    simp only [mortalSystem, Option.ite_none_left_eq_some] at h
    exact h.2

theorem reachable_of_mortal {C : LockWorld L σ → LockAction κ → Prop}
    (h : (mortalSystem homes body blocks hangs).ReachWhere C w) :
    (lockSystem body blocks).Reachable w := by
  induction h with
  | init hinit => exact .init hinit
  | step _ _ hstep ih => exact .step ih trivial (step_of_mortalStep hstep)

theorem run_of_mortal {C : LockWorld L σ → LockAction κ → Prop} [∀ w a, Decidable (C w a)]
    {acts : List (LockAction κ)}
    (h : (mortalSystem homes body blocks hangs).runWhere C w acts = some w') :
    (lockSystem body blocks).run w acts = some w' := by
  induction acts generalizing w with
  | nil => exact h
  | cons a acts ih =>
    simp only [TransitionSystem.runWhere, Option.ite_none_right_eq_some] at h
    obtain ⟨w₁, hstep, hrest⟩ := Option.bind_eq_some_iff.mp h.2
    exact Option.bind_eq_some_iff.mpr ⟨w₁, step_of_mortalStep hstep, ih hrest⟩

/-- In a run of settled steps every thread finds its locks. -/
theorem standing_of_settled (hsure : ∀ c, (body c).Sure homes [])
    (hguarded : ∀ c, (body c).Guarded g [] [])
    (h : (mortalSystem homes body blocks hangs).ReachWhere (Settled homes) w) :
    w.Standing homes := by
  induction h with
  | init hinit =>
    intro t thread ht
    rw [show _ = ∅ from hinit, Finmap.lookup_empty] at ht
    cases ht
  | @step w w' a hreach hsettled hstep ih =>
    have hplain := step_of_mortalStep hstep
    cases a with
    | advance t =>
      exact ih.advance (.of_reachable hguarded (reachable_of_mortal hreach)) hsettled hplain
    | call t c =>
      simp only [LockWorld.step, Option.ite_none_right_eq_some, Option.some.injEq] at hplain
      obtain ⟨-, rfl⟩ := hplain
      intro u thread hu
      rw [lookup_setThread] at hu
      split at hu
      · cases hu
        obtain ⟨haims, hfinds⟩ := hsure c
        exact ⟨hfinds, haims w.shared, fun x hx => absurd hx List.not_mem_nil,
          LockHomes.moored_nil homes⟩
      · exact ih u thread hu

/-- In a run of settled steps some thread can go on as long as some thread is in a call. -/
theorem exists_mortalStep (hbalanced : ∀ c, (body c).Balanced rank [])
    (hsure : ∀ c, (body c).Sure homes []) (hguarded : ∀ c, (body c).Guarded g [] [])
    (h : (mortalSystem homes body blocks hangs).ReachWhere (Settled homes) w)
    (ht : w.threads.lookup t = some thread) :
    ∃ t' w', (mortalSystem homes body blocks hangs).step w (.advance t') = some w' := by
  have hordered : w.Ordered rank := ordered_of_reachable hbalanced (reachable_of_mortal h)
  obtain ⟨t', w', hadvance⟩ : ∃ t' w', w.advance blocks t' = some w' := exists_advance hordered ht
  refine ⟨t', w', ?_⟩
  have hfound := (standing_of_settled hsure hguarded h).not_lost t'
  simp only [mortalSystem, hfound, Bool.false_and, Bool.false_eq_true, if_false]
  exact hadvance

end LockWorld
