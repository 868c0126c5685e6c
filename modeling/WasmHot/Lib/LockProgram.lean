import WasmHot.Lib.Transition
import WasmHot.Lib.UnorderedMap
import Mathlib.Data.Finset.Max

/-!
# Programs that take locks

A `LockProgram` is a sequential program whose steps are the acquisitions and releases of locks and
the accesses to the data they protect. Threads run such programs side by side. A lock is taken alone
or shared, a thread first asks for it and then waits until it is granted, and whether a reader has
to stay behind a waiting writer is up to a policy.

Locks that are always taken in the order of a rank cannot deadlock (`LockWorld.exists_advance`):
among the threads that wait, one that waits for a lock of the highest rank waits for nobody, since
whoever holds that lock could only be waiting for one of a higher rank. A writer that keeps readers
out waits for the same lock as they do, and the same argument finds the thread that it waits for.
-/

universe u

/-- How a lock is held. A mutex is always held alone. -/
inductive LockMode
  | shared
  | unique
  deriving DecidableEq

/-- A program over locks `L` and shared data `σ`. -/
inductive LockProgram (L σ α : Type u)
  | ret (a : α)
  | acquire (l : L) (mode : LockMode) (next : LockProgram L σ α)
  | release (l : L) (mode : LockMode) (next : LockProgram L σ α)
  | read (next : σ → LockProgram L σ α)
  | update (f : σ → σ) (next : LockProgram L σ α)

namespace LockProgram

variable {L σ α β : Type u}

/-- One program after the other. -/
def bind : LockProgram L σ α → (α → LockProgram L σ β) → LockProgram L σ β
  | .ret a, f => f a
  | .acquire l mode next, f => .acquire l mode (next.bind f)
  | .release l mode next, f => .release l mode (next.bind f)
  | .read next, f => .read fun s => (next s).bind f
  | .update g next, f => .update g (next.bind f)

instance : Monad (LockProgram L σ) where
  pure := .ret
  bind := .bind

/-- Take a lock. -/
def lock (l : L) (mode : LockMode) : LockProgram L σ PUnit := .acquire l mode (.ret ⟨⟩)

/-- Give it back. -/
def unlock (l : L) (mode : LockMode) : LockProgram L σ PUnit := .release l mode (.ret ⟨⟩)

/-- Look at the shared data. -/
def inspect (f : σ → α) : LockProgram L σ α := .read fun s => .ret (f s)

/-- Change the shared data. -/
def change (f : σ → σ) : LockProgram L σ PUnit := .update f (.ret ⟨⟩)

/-- A block that holds a lock from its start to its end. -/
def locked (l : L) (mode : LockMode) (body : LockProgram L σ α) : LockProgram L σ α := do
  lock l mode
  let a ← body
  unlock l mode
  return a

/-! ## Locks in the order of a rank -/

variable [DecidableEq L] {rank : L → ℕ} {held held' target : List (L × LockMode)}

/-- Every lock that is held has a lower rank. -/
def RankedBelow (rank : L → ℕ) (held : List (L × LockMode)) (r : ℕ) : Prop :=
  ∀ h ∈ held, rank h.1 < r

omit [DecidableEq L] in
theorem rankedBelow_nil (rank : L → ℕ) (r : ℕ) : RankedBelow rank [] r :=
  fun _ h => absurd h List.not_mem_nil

omit [DecidableEq L] in
/-- One more lock is held, of a rank between. -/
theorem RankedBelow.cons {l : L} {r : ℕ} (h : RankedBelow rank held (rank l)) (hl : rank l < r)
    (mode : LockMode) : RankedBelow rank ((l, mode) :: held) r := by
  intro lock hlock
  rcases List.mem_cons.mp hlock with rfl | hheld
  · exact hl
  · exact (h lock hheld).trans hl

omit [DecidableEq L] in
theorem RankedBelow.mono {r r' : ℕ} (h : RankedBelow rank held r) (hr : r ≤ r') :
    RankedBelow rank held r' :=
  fun lock hlock => (h lock hlock).trans_le hr

/-- The program takes each lock while it holds only locks of lower ranks, releases only locks that
it holds, and ends with the locks of `target`. -/
def Follows (rank : L → ℕ) (target : List (L × LockMode)) :
    List (L × LockMode) → LockProgram L σ α → Prop
  | held, .ret _ => held = target
  | held, .acquire l mode next =>
      RankedBelow rank held (rank l) ∧ next.Follows rank target ((l, mode) :: held)
  | held, .release l mode next =>
      (l, mode) ∈ held ∧ next.Follows rank target (held.erase (l, mode))
  | held, .read next => ∀ s, (next s).Follows rank target held
  | held, .update _ next => next.Follows rank target held

/-- The program follows the order and gives back what it takes. -/
def Balanced (rank : L → ℕ) (held : List (L × LockMode)) (p : LockProgram L σ α) : Prop :=
  p.Follows rank held held

theorem Follows.bind {p : LockProgram L σ α} {f : α → LockProgram L σ β}
    (hp : p.Follows rank held' held) (hf : ∀ a, (f a).Follows rank target held') :
    (p >>= f).Follows rank target held := by
  induction p generalizing held with
  | ret a =>
    cases hp
    exact hf a
  | acquire l mode next ih => exact ⟨hp.1, ih hp.2⟩
  | release l mode next ih => exact ⟨hp.1, ih hp.2⟩
  | read next ih => exact fun s => ih s (hp s)
  | update g next ih => exact ih hp

theorem Balanced.bind {p : LockProgram L σ α} {f : α → LockProgram L σ β}
    (hp : p.Balanced rank held) (hf : ∀ a, (f a).Balanced rank held) :
    (p >>= f).Balanced rank held :=
  Follows.bind hp hf

theorem balanced_pure (a : α) : (pure a : LockProgram L σ α).Balanced rank held := rfl

theorem follows_lock {l : L} (mode : LockMode) (h : RankedBelow rank held (rank l)) :
    (lock l mode : LockProgram L σ PUnit).Follows rank ((l, mode) :: held) held :=
  ⟨h, rfl⟩

theorem follows_unlock (l : L) (mode : LockMode) :
    (unlock l mode : LockProgram L σ PUnit).Follows rank held ((l, mode) :: held) :=
  ⟨List.mem_cons_self, List.erase_cons_head _ _⟩

theorem balanced_inspect (f : σ → α) : (inspect f : LockProgram L σ α).Balanced rank held :=
  fun _ => rfl

theorem balanced_change (f : σ → σ) : (change f : LockProgram L σ PUnit).Balanced rank held :=
  rfl

/-- A block is balanced if its body is, with the lock held. -/
theorem balanced_locked {l : L} {mode : LockMode} {body : LockProgram L σ α}
    (h : RankedBelow rank held (rank l)) (hbody : body.Balanced rank ((l, mode) :: held)) :
    (locked l mode body).Balanced rank held := by
  refine Follows.bind (follows_lock mode h) fun _ => ?_
  refine Follows.bind hbody fun a => ?_
  exact Follows.bind (follows_unlock l mode) fun _ => balanced_pure a

end LockProgram

/-! ## Threads -/

/-- A thread in the middle of a call: the locks it holds, whether it waits for the lock that its
program takes next, and the rest of its program. -/
structure LockThread (L σ : Type u) where
  held : List (L × LockMode)
  waiting : Bool
  program : LockProgram L σ PUnit

/-- The shared data and the threads in the middle of a call. -/
structure LockWorld (L σ : Type u) where
  shared : σ
  threads : UnorderedMap ThreadId (LockThread L σ)

/-- A thread starts a call, or goes on in it. -/
inductive LockAction (κ : Type*)
  | call (t : ThreadId) (c : κ)
  | advance (t : ThreadId)

variable {L σ : Type u} [DecidableEq L]

/-- What the thread holds keeps others from taking the lock in this mode. -/
def LockThread.excludes (thread : LockThread L σ) (l : L) (mode : LockMode) : Bool :=
  thread.held.any fun h => h.1 = l && (mode = .unique || h.2 = .unique)

/-- The thread waits for the lock in order to hold it alone. -/
def LockThread.waitsAlone (thread : LockThread L σ) (l : L) : Bool :=
  thread.waiting &&
    match thread.program with
    | .acquire l' .unique _ => l' = l
    | _ => false

namespace LockWorld

/-- No thread keeps others from taking the lock in this mode. -/
def Free (w : LockWorld L σ) (l : L) (mode : LockMode) : Prop :=
  ∀ t ∈ w.threads.keys, (w.threads.lookup t).map (·.excludes l mode) ≠ some true

/-- Some thread waits for the lock in order to hold it alone. -/
def WriterWaits (w : LockWorld L σ) (l : L) : Prop :=
  ∃ t ∈ w.threads.keys, (w.threads.lookup t).map (·.waitsAlone l) = some true

instance (w : LockWorld L σ) (l : L) (mode : LockMode) : Decidable (w.Free l mode) :=
  inferInstanceAs (Decidable (∀ t ∈ w.threads.keys, _))

instance (w : LockWorld L σ) (l : L) : Decidable (w.WriterWaits l) :=
  inferInstanceAs (Decidable (∃ t ∈ w.threads.keys, _))

/-- The thread is now like this. -/
def setThread (w : LockWorld L σ) (t : ThreadId) (thread : LockThread L σ) : LockWorld L σ :=
  { w with threads := w.threads.insert t thread }

/-- The next step of a thread. `blocks` is the policy: whether a reader is kept out of a lock that
it could have, because of a writer that waits for it. -/
def advance (blocks : LockWorld L σ → ThreadId → Bool) (w : LockWorld L σ) (t : ThreadId) :
    Option (LockWorld L σ) :=
  match w.threads.lookup t with
  | none => none
  | some thread =>
      match thread.program with
      | .ret _ => some { w with threads := w.threads.erase t }
      | .acquire l mode next =>
          if thread.waiting = false then some (w.setThread t { thread with waiting := true })
          else if w.Free l mode ∧ ¬ (mode = .shared ∧ blocks w t = true ∧ w.WriterWaits l) then
            some (w.setThread t ⟨(l, mode) :: thread.held, false, next⟩)
          else none
      | .release l mode next =>
          some (w.setThread t ⟨thread.held.erase (l, mode), thread.waiting, next⟩)
      | .read next => some (w.setThread t ⟨thread.held, thread.waiting, next w.shared⟩)
      | .update f next =>
          some ({ w with shared := f w.shared }.setThread t ⟨thread.held, thread.waiting, next⟩)

variable {κ : Type*}

/-- The step of an action. A thread starts a call when it is in none. -/
def step (body : κ → LockProgram L σ PUnit) (blocks : LockWorld L σ → ThreadId → Bool)
    (w : LockWorld L σ) : LockAction κ → Option (LockWorld L σ)
  | .call t c =>
      if w.threads.lookup t = none then some (w.setThread t ⟨[], false, body c⟩) else none
  | .advance t => w.advance blocks t

end LockWorld

/-- Threads that make calls one after the other, from any shared data. -/
def lockSystem {κ : Type*} (body : κ → LockProgram L σ PUnit)
    (blocks : LockWorld L σ → ThreadId → Bool) :
    TransitionSystem (LockWorld L σ) (LockAction κ) where
  Init w := w.threads = ∅
  step := LockWorld.step body blocks

namespace LockWorld

variable {κ : Type*} {body : κ → LockProgram L σ PUnit}
  {blocks : LockWorld L σ → ThreadId → Bool} {rank : L → ℕ} {w w' : LockWorld L σ} {t : ThreadId}
  {thread : LockThread L σ} {l : L} {mode : LockMode} {next : LockProgram L σ PUnit}

omit [DecidableEq L] in
theorem lookup_setThread (w : LockWorld L σ) (t t' : ThreadId) (thread : LockThread L σ) :
    (w.setThread t thread).threads.lookup t' =
      if t' = t then some thread else w.threads.lookup t' :=
  UnorderedMap.lookup_insert _ _ _ _

/-! ## What a step does -/

/-- What the next step of a thread makes of the state. -/
inductive Effect (w : LockWorld L σ) (t : ThreadId) (thread : LockThread L σ) :
    LockWorld L σ → Prop
  | returned {a : PUnit} (hprogram : thread.program = .ret a) :
      Effect w t thread { w with threads := w.threads.erase t }
  | asked {l : L} {mode : LockMode} {next : LockProgram L σ PUnit}
      (hprogram : thread.program = .acquire l mode next) (hwaiting : thread.waiting = false) :
      Effect w t thread (w.setThread t { thread with waiting := true })
  | granted {l : L} {mode : LockMode} {next : LockProgram L σ PUnit}
      (hprogram : thread.program = .acquire l mode next) (hfree : w.Free l mode) :
      Effect w t thread (w.setThread t ⟨(l, mode) :: thread.held, false, next⟩)
  | released {l : L} {mode : LockMode} {next : LockProgram L σ PUnit}
      (hprogram : thread.program = .release l mode next) :
      Effect w t thread (w.setThread t ⟨thread.held.erase (l, mode), thread.waiting, next⟩)
  | inspected {next : σ → LockProgram L σ PUnit} (hprogram : thread.program = .read next) :
      Effect w t thread (w.setThread t ⟨thread.held, thread.waiting, next w.shared⟩)
  | changed {f : σ → σ} {next : LockProgram L σ PUnit}
      (hprogram : thread.program = .update f next) :
      Effect w t thread
        ({ w with shared := f w.shared }.setThread t ⟨thread.held, thread.waiting, next⟩)

theorem effect_of_advance (hstep : w.advance blocks t = some w') :
    ∃ thread, w.threads.lookup t = some thread ∧ w.Effect t thread w' := by
  unfold advance at hstep
  split at hstep
  · cases hstep
  · next thread ht =>
    refine ⟨thread, ht, ?_⟩
    split at hstep
    · next hprogram =>
      cases hstep
      exact .returned hprogram
    · next hprogram =>
      -- At a lock the thread asks first, and goes on only when the lock is granted.
      split at hstep
      · next hwaiting =>
        cases hstep
        exact .asked hprogram hwaiting
      · split at hstep
        · next hgranted =>
          cases hstep
          exact .granted hprogram hgranted.1
        · cases hstep
    · next hprogram =>
      cases hstep
      exact .released hprogram
    · next hprogram =>
      cases hstep
      exact .inspected hprogram
    · next hprogram =>
      cases hstep
      exact .changed hprogram

/-! ## Every thread follows the order -/

/-- The rest of every program follows the order of the rank, from the locks that its thread
holds. -/
def Ordered (rank : L → ℕ) (w : LockWorld L σ) : Prop :=
  ∀ t thread, w.threads.lookup t = some thread → thread.program.Follows rank [] thread.held

theorem Ordered.setThread (h : w.Ordered rank)
    (hfollows : thread.program.Follows rank [] thread.held) :
    (w.setThread t thread).Ordered rank := by
  intro t' thread' ht'
  rw [lookup_setThread] at ht'
  split at ht'
  · cases ht'
    exact hfollows
  · exact h t' thread' ht'

theorem Ordered.advance (h : w.Ordered rank) (hstep : w.advance blocks t = some w') :
    w'.Ordered rank := by
  obtain ⟨thread, ht, heffect⟩ := effect_of_advance hstep
  have hfollows := h t thread ht
  cases heffect with
  | returned hprogram =>
    intro t' thread' ht'
    rw [UnorderedMap.lookup_erase, Option.ite_none_left_eq_some] at ht'
    exact h t' thread' ht'.2
  | asked hprogram hwaiting => exact h.setThread hfollows
  | granted hprogram hfree =>
    rw [hprogram] at hfollows
    exact h.setThread hfollows.2
  | released hprogram =>
    rw [hprogram] at hfollows
    exact h.setThread hfollows.2
  | inspected hprogram =>
    rw [hprogram] at hfollows
    exact h.setThread (hfollows w.shared)
  | @changed f next hprogram =>
    rw [hprogram] at hfollows
    exact Ordered.setThread (w := { w with shared := f w.shared }) h hfollows

/-- If every call follows the order from no lock to no lock, every thread does at all times. -/
theorem ordered_of_reachable (hbody : ∀ c, (body c).Balanced rank [])
    (h : (lockSystem body blocks).Reachable w) : w.Ordered rank := by
  refine h.invariant ?_ ?_
  · intro w hinit t thread ht
    rw [hinit, Finmap.lookup_empty] at ht
    cases ht
  · intro w a w' hordered _ hstep
    cases a with
    | call t c =>
      simp only [lockSystem, step, Option.ite_none_right_eq_some, Option.some.injEq] at hstep
      obtain ⟨-, rfl⟩ := hstep
      exact hordered.setThread (hbody c)
    | advance t => exact hordered.advance hstep

/-! ## No deadlock -/

/-- The lock that a thread takes next, if that is its next step. -/
def wanted (w : LockWorld L σ) (t : ThreadId) : Option L :=
  (w.threads.lookup t).bind fun thread =>
    match thread.program with
    | .acquire l _ _ => some l
    | _ => none

/-- A thread that cannot go on waits for a lock that it is not granted. -/
theorem waits_of_stuck (ht : w.threads.lookup t = some thread)
    (hstuck : w.advance blocks t = none) :
    thread.waiting = true ∧ ∃ l mode next, thread.program = .acquire l mode next ∧
      (¬ w.Free l mode ∨ mode = .shared ∧ w.WriterWaits l) := by
  unfold LockWorld.advance at hstuck
  rw [ht] at hstuck
  dsimp only at hstuck
  split at hstuck
  · cases hstuck
  · next l mode next hprogram =>
    split at hstuck
    · cases hstuck
    · next hwaiting =>
      refine ⟨Bool.of_not_eq_false hwaiting, l, mode, next, hprogram, ?_⟩
      split at hstuck
      · cases hstuck
      · next hrefused =>
        by_cases hfree : w.Free l mode
        · obtain ⟨hmode, -, hwriter⟩ := not_not.mp fun h => hrefused ⟨hfree, h⟩
          exact Or.inr ⟨hmode, hwriter⟩
        · exact Or.inl hfree
  · cases hstuck
  · cases hstuck
  · cases hstuck

/-- Whoever keeps others from a lock holds it. -/
theorem exists_holder (h : ¬ w.Free l mode) :
    ∃ t thread, w.threads.lookup t = some thread ∧ ∃ held ∈ thread.held, held.1 = l := by
  simp only [Free, not_forall, not_not] at h
  obtain ⟨t, -, hexcludes⟩ := h
  obtain ⟨thread, ht, hexcludes⟩ := Option.map_eq_some_iff.mp hexcludes
  obtain ⟨held, hheld, hlock⟩ := List.any_eq_true.mp hexcludes
  rw [Bool.and_eq_true, decide_eq_true_eq] at hlock
  exact ⟨t, thread, ht, held, hheld, hlock.1⟩

/-- A writer that waits for a lock has it as the next one to take. -/
theorem exists_writer (h : w.WriterWaits l) :
    ∃ t thread next, w.threads.lookup t = some thread ∧
      thread.program = .acquire l .unique next := by
  obtain ⟨t, -, hwaits⟩ := h
  obtain ⟨thread, ht, hwaits⟩ := Option.map_eq_some_iff.mp hwaits
  rw [LockThread.waitsAlone, Bool.and_eq_true] at hwaits
  obtain ⟨-, hprogram⟩ := hwaits
  split at hprogram
  · next l' next heq =>
    rw [decide_eq_true_eq] at hprogram
    exact ⟨t, thread, next, ht, hprogram ▸ heq⟩
  · cases hprogram

/-- While some thread is in a call, some thread can take a step. -/
theorem exists_advance (h : w.Ordered rank) (ht : w.threads.lookup t = some thread) :
    ∃ t' w', w.advance blocks t' = some w' := by
  by_contra hnone
  have hstuck : ∀ t, w.advance blocks t = none := by
    intro t
    by_contra hne
    obtain ⟨w', hw'⟩ := Option.ne_none_iff_exists'.mp hne
    exact hnone ⟨t, w', hw'⟩
  -- Among the threads in a call, one that wants a lock of the highest rank.
  obtain ⟨top, htop, hmax⟩ := w.threads.keys.exists_max_image
    (fun t => ((w.wanted t).map rank).getD 0) ⟨t, UnorderedMap.mem_keys_of_lookup ht⟩
  have hwanted : ∀ t thread l mode next, w.threads.lookup t = some thread →
      thread.program = .acquire l mode next → ((w.wanted t).map rank).getD 0 = rank l := by
    intro t thread l mode next ht hprogram
    simp [wanted, ht, hprogram]
  have hholder : ∀ l mode, ¬ w.Free l mode →
      rank l < ((w.wanted top).map rank).getD 0 := by
    intro l mode hheld
    obtain ⟨t, thread, ht, held, hmem, rfl⟩ := exists_holder hheld
    obtain ⟨-, l', mode', next, hprogram, -⟩ := waits_of_stuck ht (hstuck t)
    have hfollows := h t thread ht
    rw [hprogram] at hfollows
    calc rank held.1 < rank l' := hfollows.1 held hmem
      _ = ((w.wanted t).map rank).getD 0 := (hwanted t thread l' mode' next ht hprogram).symm
      _ ≤ _ := hmax t (UnorderedMap.mem_keys_of_lookup ht)
  obtain ⟨thread, ht⟩ := Finmap.mem_iff.mp (Finmap.mem_keys.mp htop)
  obtain ⟨-, l, mode, next, hprogram, hrefused⟩ := waits_of_stuck ht (hstuck top)
  have htopRank := hwanted top thread l mode next ht hprogram
  rcases hrefused with hheld | ⟨-, hwriter⟩
  · have hlt := hholder l mode hheld
    omega
  · -- The writer wants the same lock, so somebody holds it.
    obtain ⟨t, writer, next', ht', hprogram'⟩ := exists_writer hwriter
    obtain ⟨-, l', mode', next'', hprogram'', hrefused'⟩ := waits_of_stuck ht' (hstuck t)
    cases hprogram'.symm.trans hprogram''
    rcases hrefused' with hheld | ⟨hmode, -⟩
    · have hlt := hholder l .unique hheld
      omega
    · cases hmode

end LockWorld
