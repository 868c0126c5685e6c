import WasmHot.Lib.LockProgram

/-!
# Lock programs on one thread

A thread that is alone waits for nobody but itself. It can take a lock unless it holds it already in
a mode that excludes the other, and where it cannot, it waits for ever. `alone` is the run of such a
thread together with the locks that it holds, and `eval` is what its program computes when the locks
are left out.

Locks in the order of a rank are never waited for by a thread that holds them (`passes_of_follows`).
The threads of `lockSystem` do what `alone` says when there is one of them (`solo_completes_iff`).
-/

universe u

namespace LockProgram

variable {L σ α β : Type u}

theorem bind_ret (p : LockProgram L σ α) : (p >>= .ret) = p := by
  induction p with
  | ret a => rfl
  | acquire l mode next ih => exact congrArg (acquire l mode) ih
  | release l mode next ih => exact congrArg (release l mode) ih
  | read next ih => exact congrArg read (funext ih)
  | update g next ih => exact congrArg (update g) ih

theorem bind_bind {γ : Type u} (p : LockProgram L σ α) (f : α → LockProgram L σ β)
    (g : β → LockProgram L σ γ) : (p >>= f >>= g) = (p >>= fun a => f a >>= g) := by
  induction p with
  | ret a => rfl
  | acquire l mode next ih => exact congrArg (acquire l mode) ih
  | release l mode next ih => exact congrArg (release l mode) ih
  | read next ih => exact congrArg read (funext ih)
  | update h next ih => exact congrArg (update h) ih

instance : LawfulMonad (LockProgram L σ) :=
  .mk' _ bind_ret (fun _ _ => rfl) bind_bind

/-- What the program returns and makes of the shared data if it gets all its locks. -/
def eval : LockProgram L σ α → σ → α × σ
  | .ret a, s => (a, s)
  | .acquire _ _ next, s => next.eval s
  | .release _ _ next, s => next.eval s
  | .read next, s => (next s).eval s
  | .update f next, s => next.eval (f s)

theorem eval_bind (p : LockProgram L σ α) (f : α → LockProgram L σ β) (s : σ) :
    (p >>= f).eval s = (f (p.eval s).1).eval (p.eval s).2 := by
  induction p generalizing s with
  | ret a => rfl
  | acquire l mode next ih => exact ih s
  | release l mode next ih => exact ih s
  | read next ih => exact ih s s
  | update g next ih => exact ih (g s)

/-- Whoever holds these locks can take this one, if nobody else holds it. -/
def Grants (held : List (L × LockMode)) (l : L) (mode : LockMode) : Prop :=
  ∀ h ∈ held, h.1 = l → mode = .shared ∧ h.2 = .shared

instance [DecidableEq L] (held : List (L × LockMode)) (l : L) (mode : LockMode) :
    Decidable (Grants held l mode) :=
  inferInstanceAs (Decidable (∀ h ∈ held, _))

theorem grants_of_rankedBelow {rank : L → ℕ} {held : List (L × LockMode)} {l : L}
    (h : RankedBelow rank held (rank l)) (mode : LockMode) : Grants held l mode := by
  intro lock hlock heq
  have hlt := h lock hlock
  rw [heq] at hlt
  exact absurd hlt (Nat.lt_irrefl _)

variable [DecidableEq L] {rank : L → ℕ} {held held' target : List (L × LockMode)} {s s' : σ} {a : α}

/-- The run of a thread that is alone and holds these locks: what it returns, the locks that it
holds then and the shared data, or nothing if it comes to wait for itself. -/
def alone : LockProgram L σ α → List (L × LockMode) → σ → Option (α × List (L × LockMode) × σ)
  | .ret a, held, s => some (a, held, s)
  | .acquire l mode next, held, s =>
      if Grants held l mode then next.alone ((l, mode) :: held) s else none
  | .release l mode next, held, s => next.alone (held.erase (l, mode)) s
  | .read next, held, s => (next s).alone held s
  | .update f next, held, s => next.alone held (f s)

theorem alone_bind (p : LockProgram L σ α) (f : α → LockProgram L σ β)
    (held : List (L × LockMode)) (s : σ) :
    (p >>= f).alone held s = (p.alone held s).bind fun r => (f r.1).alone r.2.1 r.2.2 := by
  induction p generalizing held s with
  | ret a => rfl
  | acquire l mode next ih =>
    show (if Grants held l mode then _ else none) =
      Option.bind (if Grants held l mode then _ else _) _
    split
    · exact ih ((l, mode) :: held) s
    · rfl
  | release l mode next ih => exact ih (held.erase (l, mode)) s
  | read next ih => exact ih s held s
  | update g next ih => exact ih held (g s)

/-- A run that ends has computed what the program computes. -/
theorem eval_of_alone {p : LockProgram L σ α} (h : p.alone held s = some (a, held', s')) :
    p.eval s = (a, s') := by
  induction p generalizing held s with
  | ret b =>
    cases h
    rfl
  | acquire l mode next ih =>
    simp only [alone, Option.ite_none_right_eq_some] at h
    exact ih h.2
  | release l mode next ih => exact ih h
  | read next ih => exact ih s h
  | update g next ih => exact ih h

/-- The thread gets to the end of the program from these locks, and has those then. -/
def Passes (held target : List (L × LockMode)) (p : LockProgram L σ α) (s : σ) : Prop :=
  p.alone held s = some ((p.eval s).1, target, (p.eval s).2)

theorem passes_pure (a : α) (s : σ) : (pure a : LockProgram L σ α).Passes held held s := rfl

theorem Passes.bind {p : LockProgram L σ α} {f : α → LockProgram L σ β}
    (hp : p.Passes held held' s) (hf : (f (p.eval s).1).Passes held' target (p.eval s).2) :
    (p >>= f).Passes held target s := by
  rw [Passes, alone_bind, hp, Option.bind_some, eval_bind]
  exact hf

/-- A program that takes its locks in the order of their ranks does not wait for itself. -/
theorem passes_of_follows {p : LockProgram L σ α} (h : p.Follows rank target held) (s : σ) :
    p.Passes held target s := by
  induction p generalizing held s with
  | ret a =>
    cases h
    rfl
  | acquire l mode next ih =>
    rw [Passes, alone, if_pos (grants_of_rankedBelow h.1 mode)]
    exact ih h.2 s
  | release l mode next ih => exact ih h.2 s
  | read next ih => exact ih s (h s) s
  | update g next ih => exact ih h (g s)

end LockProgram

/-! ## A world with one thread -/

variable {L σ : Type u} [DecidableEq L]

namespace LockWorld

open LockProgram

/-- The shared data with one thread in a call. -/
def solo (s : σ) (t : ThreadId) (thread : LockThread L σ) : LockWorld L σ :=
  setThread ⟨s, ∅⟩ t thread

variable {α : Type u} {s s' : σ} {a : α} {t : ThreadId} {thread thread' : LockThread L σ} {l : L}
  {mode : LockMode} {blocks : LockWorld L σ → ThreadId → Bool} {held held' : List (L × LockMode)}
  {waiting : Bool}

omit [DecidableEq L] in
theorem solo_setThread : (solo s t thread).setThread t thread' = solo s t thread' := by
  simp [solo, setThread, Finmap.insert_insert]

omit [DecidableEq L] in
theorem lookup_solo : (solo s t thread).threads.lookup t = some thread := by
  rw [solo, lookup_setThread, if_pos rfl]

omit [DecidableEq L] in
theorem keys_solo : (solo s t thread).threads.keys = {t} := by
  ext t'
  rw [Finmap.mem_keys, Finset.mem_singleton, ← Finmap.lookup_isSome, solo, lookup_setThread]
  split
  · next heq => exact iff_of_true rfl heq
  · next hne =>
    rw [Finmap.lookup_empty]
    exact iff_of_false Bool.false_ne_true hne

/-- The thread is granted what its own locks do not exclude. -/
theorem free_solo_iff : (solo s t thread).Free l mode ↔ Grants thread.held l mode := by
  simp only [Free, keys_solo, Finset.mem_singleton, forall_eq, lookup_solo, Option.map_some, ne_eq,
    Option.some.injEq, LockThread.excludes, List.any_eq_true, Bool.and_eq_true, Bool.or_eq_true,
    decide_eq_true_eq, not_exists, not_and, not_or, Grants]
  refine forall₃_congr fun lock _ _ => ?_
  cases mode <;> cases lock.2 <;> simp

/-- A reader does not wait behind itself. -/
theorem not_writerWaits_solo {next : LockProgram L σ PUnit}
    (hprogram : thread.program = .acquire l .shared next) (l' : L) :
    ¬ (solo s t thread).WriterWaits l' := by
  rintro ⟨t', ht', hwaits⟩
  rw [keys_solo, Finset.mem_singleton] at ht'
  rw [ht', lookup_solo, Option.map_some, LockThread.waitsAlone, hprogram] at hwaits
  simp at hwaits

/-- A thread that is alone and waits is granted the lock, or waits on. -/
theorem advance_acquire (next : LockProgram L σ PUnit) :
    (solo s t ⟨held, true, .acquire l mode next⟩).advance blocks t =
      if Grants held l mode then some (solo s t ⟨(l, mode) :: held, false, next⟩) else none := by
  have hreader : ¬ (mode = .shared ∧
      blocks (solo s t ⟨held, true, .acquire l mode next⟩) t = true ∧
      (solo s t ⟨held, true, .acquire l mode next⟩).WriterWaits l) := by
    rintro ⟨rfl, -, hwaits⟩
    exact not_writerWaits_solo rfl l hwaits
  simp only [advance, lookup_solo, Bool.true_eq_false, if_false, free_solo_iff, solo_setThread,
    hreader, not_false_eq_true, and_true]

theorem advance_release (next : LockProgram L σ PUnit) :
    (solo s t ⟨held, waiting, .release l mode next⟩).advance blocks t =
      some (solo s t ⟨held.erase (l, mode), waiting, next⟩) := by
  simp only [advance, lookup_solo, solo_setThread]

theorem advance_read (next : σ → LockProgram L σ PUnit) :
    (solo s t ⟨held, waiting, .read next⟩).advance blocks t =
      some (solo s t ⟨held, waiting, next s⟩) := by
  simp only [advance, lookup_solo, solo_setThread]
  rfl

theorem advance_update (f : σ → σ) (next : LockProgram L σ PUnit) :
    (solo s t ⟨held, waiting, .update f next⟩).advance blocks t =
      some (solo (f s) t ⟨held, waiting, next⟩) := by
  simp only [advance, lookup_solo]
  exact congrArg some solo_setThread

variable {κ : Type*} {body : κ → LockProgram L σ PUnit}

/-- The thread gets from one world to the other by its own steps. -/
def Advances (body : κ → LockProgram L σ PUnit) (blocks : LockWorld L σ → ThreadId → Bool)
    (t : ThreadId) (w w' : LockWorld L σ) : Prop :=
  ∃ n, (lockSystem body blocks).run w (List.replicate n (.advance t)) = some w'

theorem Advances.refl (w : LockWorld L σ) : Advances body blocks t w w := ⟨0, rfl⟩

theorem Advances.step {w w₁ w₂ : LockWorld L σ} (hstep : w.advance blocks t = some w₁)
    (h : Advances body blocks t w₁ w₂) : Advances body blocks t w w₂ := by
  obtain ⟨n, hrun⟩ := h
  refine ⟨n + 1, ?_⟩
  rw [List.replicate_succ, TransitionSystem.run]
  show (w.advance blocks t).bind _ = _
  rw [hstep, Option.bind_some, hrun]

theorem Advances.trans {w w₁ w₂ : LockWorld L σ} (h : Advances body blocks t w w₁)
    (h' : Advances body blocks t w₁ w₂) : Advances body blocks t w w₂ := by
  obtain ⟨n, hrun⟩ := h
  obtain ⟨n', hrun'⟩ := h'
  refine ⟨n + n', ?_⟩
  rw [List.replicate_add, TransitionSystem.run_append, hrun, Option.bind_some, hrun']

/-- The thread does in the world what `alone` says, and is then at the rest of its program. -/
theorem advances_of_alone {p : LockProgram L σ α} (f : α → LockProgram L σ PUnit)
    (h : p.alone held s = some (a, held', s')) :
    Advances body blocks t (solo s t ⟨held, false, p >>= f⟩)
      (solo s' t ⟨held', false, f a⟩) := by
  induction p generalizing held s with
  | ret b =>
    cases h
    exact .refl _
  | acquire l mode next ih =>
    simp only [alone, Option.ite_none_right_eq_some] at h
    obtain ⟨hgrants, h⟩ := h
    have hask : (solo s t ⟨held, false, .acquire l mode (next >>= f)⟩).advance blocks t =
        some (solo s t ⟨held, true, .acquire l mode (next >>= f)⟩) := by
      simp only [advance, lookup_solo, if_true, solo_setThread]
    have hgranted : (solo s t ⟨held, true, .acquire l mode (next >>= f)⟩).advance blocks t =
        some (solo s t ⟨(l, mode) :: held, false, next >>= f⟩) := by
      rw [advance_acquire, if_pos hgrants]
    exact .step hask (.step hgranted (ih h))
  | release l mode next ih => exact .step (advance_release (next >>= f)) (ih h)
  | read next ih => exact .step (advance_read fun s => next s >>= f) (ih s h)
  | update g next ih => exact .step (advance_update g (next >>= f)) (ih h)

/-- The thread can take its steps to the end of its call. -/
def Completes (body : κ → LockProgram L σ PUnit) (blocks : LockWorld L σ → ThreadId → Bool)
    (t : ThreadId) (w : LockWorld L σ) : Prop :=
  ∃ n w', (lockSystem body blocks).run w (List.replicate n (.advance t)) = some w' ∧ w'.threads = ∅

theorem advance_ret (a : PUnit) :
    (solo s t ⟨held, false, .ret a⟩).advance blocks t = some ⟨s, ∅⟩ := by
  have hnobody : (solo s t ⟨held, false, .ret a⟩).threads.erase t = ∅ := by
    apply Finmap.ext_lookup
    intro t'
    rw [UnorderedMap.lookup_erase, solo, lookup_setThread, Finmap.lookup_empty]
    split <;> rfl
  simp only [advance, lookup_solo]
  exact congrArg (fun threads => some (LockWorld.mk s threads)) hnobody

/-- A thread that does not come to wait for itself returns. -/
theorem completes_of_alone {p : LockProgram L σ PUnit} (h : (p.alone held s).isSome) :
    Completes body blocks t (solo s t ⟨held, false, p⟩) := by
  obtain ⟨⟨a, held', s'⟩, hend⟩ := Option.isSome_iff_exists.mp h
  have hadvances : Advances body blocks t (solo s t ⟨held, false, p >>= .ret⟩) ⟨s', ∅⟩ :=
    (advances_of_alone .ret hend).trans (.step (advance_ret a) (.refl _))
  rw [bind_ret] at hadvances
  obtain ⟨n, hrun⟩ := hadvances
  exact ⟨n, _, hrun, rfl⟩

/-- A thread that returns has not come to wait for itself. -/
theorem alone_of_completes {p : LockProgram L σ PUnit} {n : ℕ} {w : LockWorld L σ}
    (hrun : (lockSystem body blocks).run (solo s t ⟨held, waiting, p⟩)
      (List.replicate n (.advance t)) = some w) (hdone : w.threads = ∅) :
    (p.alone held s).isSome := by
  induction n generalizing held waiting p s with
  -- The thread is still there, so it has not returned.
  | zero =>
    cases hrun
    have hkeys : (solo s t ⟨held, waiting, p⟩).threads.keys = {t} := keys_solo
    rw [hdone, Finmap.keys_empty] at hkeys
    exact absurd hkeys.symm (Finset.singleton_ne_empty t)
  | succ n ih =>
    rw [List.replicate_succ, TransitionSystem.run] at hrun
    obtain ⟨w₁, hstep, hrun⟩ := Option.bind_eq_some_iff.mp hrun
    have hstep : (solo s t ⟨held, waiting, p⟩).advance blocks t = some w₁ := hstep
    cases p with
    | ret a => rfl
    | acquire l mode next =>
      cases waiting with
      -- It comes to the lock, which changes nothing but that it waits.
      | false =>
        simp only [advance, lookup_solo, if_true, solo_setThread, Option.some.injEq] at hstep
        subst hstep
        exact ih hrun
      | true =>
        rw [advance_acquire] at hstep
        -- Alone it can only be in its own way, which is what `alone` tests.
        split at hstep
        · next hgrants =>
          cases hstep
          rw [alone, if_pos hgrants]
          exact ih hrun
        · cases hstep
    | release l mode next =>
      rw [advance_release] at hstep
      cases hstep
      rw [alone]
      exact ih hrun
    | read next =>
      rw [advance_read] at hstep
      cases hstep
      rw [alone]
      exact ih hrun
    | update g next =>
      rw [advance_update] at hstep
      cases hstep
      rw [alone]
      exact ih hrun

/-- A call of a thread that is alone completes exactly when the thread does not come to wait for
itself. -/
theorem solo_completes_iff {p : LockProgram L σ PUnit} :
    Completes body blocks t (solo s t ⟨held, false, p⟩) ↔ (p.alone held s).isSome := by
  constructor
  · rintro ⟨n, w, hrun, hdone⟩
    exact alone_of_completes hrun hdone
  · exact completes_of_alone

end LockWorld
