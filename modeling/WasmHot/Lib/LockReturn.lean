import WasmHot.Lib.LockProgram
import Mathlib.Logic.Hydra

/-!
# Calls that take locks return

A lock program is a finite tree, so a thread has only finitely many steps to take before its call
returns, whatever it reads on the way. The threads of a world together are a multiset of such trees
of which every step replaces one by a smaller one, so the threads cannot go on for ever without
starting new calls (`wellFounded_goesOn`). Under locks in the order of a rank they do not stop
earlier either, and so all calls return (`threads_eq_empty_of_stuck`).
-/

universe u

namespace LockProgram

variable {L σ α : Type u}

/-- What may be left of a program after its first step. -/
inductive Next : LockProgram L σ α → LockProgram L σ α → Prop
  | acquire (l : L) (mode : LockMode) (next : LockProgram L σ α) : Next next (.acquire l mode next)
  | release (l : L) (mode : LockMode) (next : LockProgram L σ α) : Next next (.release l mode next)
  | read (next : σ → LockProgram L σ α) (s : σ) : Next (next s) (.read next)
  | update (f : σ → σ) (next : LockProgram L σ α) : Next next (.update f next)

theorem wellFounded_next : WellFounded (Next (L := L) (σ := σ) (α := α)) := by
  constructor
  intro p
  induction p with
  | ret a => exact ⟨_, fun p h => nomatch h⟩
  | acquire l mode next ih =>
    refine ⟨_, fun p h => ?_⟩
    cases h
    exact ih
  | release l mode next ih =>
    refine ⟨_, fun p h => ?_⟩
    cases h
    exact ih
  | read next ih =>
    refine ⟨_, fun p h => ?_⟩
    cases h with
    | read _ s => exact ih s
  | update f next ih =>
    refine ⟨_, fun p h => ?_⟩
    cases h
    exact ih

end LockProgram

variable {L σ : Type u}

namespace LockThread

/-- The thread has less to do: a shorter program, or the same one with its next lock asked for. -/
def Ahead (thread' thread : LockThread L σ) : Prop :=
  Prod.Lex LockProgram.Next (fun waiting' waiting => waiting = false ∧ waiting' = true)
    (thread'.program, thread'.waiting) (thread.program, thread.waiting)

theorem wellFounded_ahead : WellFounded (Ahead (L := L) (σ := σ)) := by
  have hwaiting : WellFounded fun waiting' waiting : Bool => waiting = false ∧ waiting' = true := by
    have htrue : Acc (fun waiting' waiting : Bool => waiting = false ∧ waiting' = true) true :=
      ⟨_, fun _ h => nomatch h.1⟩
    refine ⟨fun waiting => ⟨_, fun waiting' h => ?_⟩⟩
    rw [h.2]
    exact htrue
  exact InvImage.wf (fun thread : LockThread L σ => (thread.program, thread.waiting))
    (LockProgram.wellFounded_next.prod_lex hwaiting)

theorem ahead_of_next {held : List (L × LockMode)} {waiting : Bool}
    {program : LockProgram L σ PUnit} {thread : LockThread L σ}
    (h : LockProgram.Next program thread.program) : Ahead ⟨held, waiting, program⟩ thread :=
  Prod.Lex.left _ _ h

theorem ahead_of_asks {thread : LockThread L σ} (h : thread.waiting = false) :
    Ahead { thread with waiting := true } thread :=
  Prod.Lex.right _ ⟨h, rfl⟩

end LockThread

namespace LockWorld

open Relation

variable [DecidableEq L] {blocks : LockWorld L σ → ThreadId → Bool} {rank : L → ℕ}
  {w w' : LockWorld L σ} {t : ThreadId}

/-- One thread goes on in its call. -/
def GoesOn (blocks : LockWorld L σ → ThreadId → Bool) (w' w : LockWorld L σ) : Prop :=
  ∃ t, w.advance blocks t = some w'

/-- A step of a thread ends its call or leaves it with less to do. -/
theorem advance_ahead (h : w.advance blocks t = some w') :
    ∃ thread, w.threads.lookup t = some thread ∧
      (w'.threads = w.threads.erase t ∨
        ∃ thread', thread'.Ahead thread ∧ w'.threads = w.threads.insert t thread') := by
  obtain ⟨thread, ht, heffect⟩ := effect_of_advance h
  refine ⟨thread, ht, ?_⟩
  cases heffect with
  | returned hprogram => exact Or.inl rfl
  | asked hprogram hwaiting => exact Or.inr ⟨_, LockThread.ahead_of_asks hwaiting, rfl⟩
  | granted hprogram hfree =>
    exact Or.inr ⟨_, LockThread.ahead_of_next (hprogram ▸ .acquire _ _ _), rfl⟩
  | released hprogram =>
    exact Or.inr ⟨_, LockThread.ahead_of_next (hprogram ▸ .release _ _ _), rfl⟩
  | inspected hprogram =>
    exact Or.inr ⟨_, LockThread.ahead_of_next (hprogram ▸ .read _ w.shared), rfl⟩
  | changed hprogram =>
    exact Or.inr ⟨_, LockThread.ahead_of_next (hprogram ▸ .update _ _), rfl⟩

/-- The threads in a call, without their numbers. -/
def working (threads : UnorderedMap ThreadId (LockThread L σ)) : Multiset (LockThread L σ) :=
  threads.entries.map (·.2)

omit [DecidableEq L] in
theorem working_insert (threads : UnorderedMap ThreadId (LockThread L σ)) (t : ThreadId)
    (thread : LockThread L σ) :
    working (threads.insert t thread) = {thread} + working (threads.erase t) := by
  have hnew : t ∉ threads.erase t := Finmap.notMem_erase_self
  have hinsert : threads.insert t thread = (threads.erase t).insert t thread := by
    apply Finmap.ext_lookup
    intro t'
    simp only [UnorderedMap.lookup_insert, UnorderedMap.lookup_erase]
    split <;> rfl
  rw [hinsert, working, Finmap.entries_insert_of_notMem hnew, Multiset.map_cons]
  rfl

/-- Without new calls the threads do not go on for ever. -/
theorem wellFounded_goesOn (blocks : LockWorld L σ → ThreadId → Bool) :
    WellFounded (GoesOn blocks) := by
  refine Subrelation.wf ?_
    (InvImage.wf (fun w => working w.threads) LockThread.wellFounded_ahead.cutExpand)
  rintro w' w ⟨t, h⟩
  obtain ⟨thread, ht, hthreads⟩ := advance_ahead h
  have hbefore : working w.threads = {thread} + working (w.threads.erase t) := by
    rw [← working_insert, UnorderedMap.insert_of_lookup ht]
  show CutExpand LockThread.Ahead (working w'.threads) (working w.threads)
  rw [hbefore]
  rcases hthreads with hthreads | ⟨thread', hahead, hthreads⟩
  · rw [hthreads]
    refine ⟨0, thread, fun _ h => absurd h (Multiset.notMem_zero _), ?_⟩
    rw [add_zero, add_comm]
  · rw [hthreads, working_insert]
    exact cutExpand_single_add hahead _

/-- No run of steps from a state is infinite. -/
theorem no_infinite_run (run : ℕ → LockWorld L σ) :
    ¬ ∀ n, GoesOn blocks (run (n + 1)) (run n) := by
  intro h
  have hempty := wellFounded_iff_isEmpty_descending_chain.mp (wellFounded_goesOn blocks)
  exact hempty.false ⟨run, h⟩

/-- Where the locks are taken in the order of a rank, threads that have come to a stop have returned
from all their calls. -/
theorem threads_eq_empty_of_stuck (h : w.Ordered rank) (hstuck : ∀ t, w.advance blocks t = none) :
    w.threads = ∅ := by
  apply Finmap.ext_lookup
  intro t
  rw [Finmap.lookup_empty]
  by_contra hne
  obtain ⟨thread, ht⟩ := Option.ne_none_iff_exists'.mp hne
  obtain ⟨t', w', hadvance⟩ := exists_advance h ht
  rw [hstuck t'] at hadvance
  cases hadvance

end LockWorld
