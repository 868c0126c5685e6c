import Mathlib.Data.List.Basic
import Mathlib.Data.Option.Basic

/-!
# Transition systems with an executable step

A system is a set of initial states and a partial step function on labelled actions; an action that
is not enabled has no successor. `ReachWhere C` is reachability by steps that each satisfy a
condition `C` on the state before the step and the action, and `Reachable` is the unconditional
case. `run` and `runWhere` execute a list of actions, so that one concrete run is evaluated.

`withHistory` pairs a system with a history variable. A step of the recorded system is a step of the
plain one together with its record (`withHistory_step`), so what is proved of the recorded system is
a fact about the runs of the plain one.
-/

/-- Threads are numbered. -/
abbrev ThreadId := ℕ

/-- Initial states and a partial step function on actions. -/
structure TransitionSystem (σ α : Type*) where
  /-- The states a run may start in. -/
  Init : σ → Prop
  /-- The successor of a state under an action, if the action is enabled there. -/
  step : σ → α → Option σ

namespace TransitionSystem

variable {σ α η : Type*} (M : TransitionSystem σ α)

/-- States reached from an initial one by steps that each satisfy `C`. -/
inductive ReachWhere (C : σ → α → Prop) : σ → Prop
  /-- An initial state is reached. -/
  | init {s : σ} (hinit : M.Init s) : ReachWhere C s
  /-- An enabled action that satisfies `C` leads on. -/
  | step {s s' : σ} {a : α} (hreach : ReachWhere C s) (hC : C s a)
      (hstep : M.step s a = some s') : ReachWhere C s'

/-- States reached by any run. -/
abbrev Reachable : σ → Prop := M.ReachWhere fun _ _ => True

/-- Execute the actions of a list in order; `none` if one of them is not enabled. -/
def run : σ → List α → Option σ
  | s, [] => some s
  | s, a :: acts => (M.step s a).bind fun s' => run s' acts

/-- Execute the actions of a list in order as long as each satisfies `C` and is enabled. -/
def runWhere (C : σ → α → Prop) [∀ s a, Decidable (C s a)] : σ → List α → Option σ
  | s, [] => some s
  | s, a :: acts => if C s a then (M.step s a).bind fun s' => runWhere C s' acts else none

variable {M} {C : σ → α → Prop} {I : σ → Prop}

/-- A property of the initial states that every admitted step keeps holds wherever the run gets. -/
theorem ReachWhere.invariant {s : σ} (h : M.ReachWhere C s) (hinit : ∀ s, M.Init s → I s)
    (hkeep : ∀ s a s', I s → C s a → M.step s a = some s' → I s') : I s := by
  induction h with
  | init h₀ => exact hinit _ h₀
  | step _ hC hstep ih => exact hkeep _ _ _ ih hC hstep

/-- What is reached under a condition is reached without it. -/
theorem ReachWhere.reachable {s : σ} (h : M.ReachWhere C s) : M.Reachable s := by
  induction h with
  | init h₀ => exact .init h₀
  | step _ _ hstep ih => exact .step ih trivial hstep

/-- One run after another is the run of both lists of actions. -/
theorem run_append (s : σ) (acts acts' : List α) :
    M.run s (acts ++ acts') = (M.run s acts).bind fun s' => M.run s' acts' := by
  induction acts generalizing s with
  | nil => rfl
  | cons a acts ih =>
    rw [List.cons_append, run, run, Option.bind_assoc]
    apply congrArg
    funext s'
    exact ih s'

/-- A run from a reached state ends in a reached state. -/
theorem Reachable.of_run {s s' : σ} (hs : M.Reachable s) (acts : List α)
    (hrun : M.run s acts = some s') : M.Reachable s' := by
  induction acts generalizing s with
  | nil =>
    cases hrun
    exact hs
  | cons a acts ih =>
    obtain ⟨s₁, hstep, hrest⟩ := Option.bind_eq_some_iff.mp hrun
    exact ih (.step hs trivial hstep) hrest

/-- A run from a reached state, each of whose actions satisfies the condition, ends in a reached
state. -/
theorem ReachWhere.of_runWhere [∀ s a, Decidable (C s a)] {s s' : σ} (hs : M.ReachWhere C s)
    (acts : List α) (hrun : M.runWhere C s acts = some s') : M.ReachWhere C s' := by
  induction acts generalizing s with
  | nil =>
    cases hrun
    exact hs
  | cons a acts ih =>
    simp only [runWhere, Option.ite_none_right_eq_some] at hrun
    obtain ⟨hC, hrun⟩ := hrun
    obtain ⟨s₁, hstep, hrest⟩ := Option.bind_eq_some_iff.mp hrun
    exact ih (.step hs hC hstep) hrest

/-! ## Properties that hold exactly along guarded runs -/

/-- Every state a run passes through, the first and the last included, satisfies `I`. -/
def AlwaysOn (M : TransitionSystem σ α) (I : σ → Prop) : σ → List α → Prop
  | s, [] => I s
  | s, a :: acts => I s ∧ ∀ s', M.step s a = some s' → AlwaysOn M I s' acts

/-- Every step of a run satisfies `C` in the state it is taken from. -/
def EachStep (M : TransitionSystem σ α) (C : σ → α → Prop) : σ → List α → Prop
  | _, [] => True
  | s, a :: acts => ∀ s', M.step s a = some s' → C s a ∧ EachStep M C s' acts

/-- If one step keeps `I` exactly when it satisfies `C`, then a run keeps `I` throughout exactly
when each of its steps satisfies `C`. -/
theorem alwaysOn_iff_eachStep (hiff : ∀ s a s', I s → M.step s a = some s' → (I s' ↔ C s a))
    {s : σ} (hs : I s) (acts : List α) : M.AlwaysOn I s acts ↔ M.EachStep C s acts := by
  induction acts generalizing s with
  | nil => exact iff_of_true hs trivial
  | cons a acts ih =>
    constructor
    · rintro ⟨-, hrest⟩ s' hstep
      have hI : I s' := by
        have h := hrest s' hstep
        cases acts with
        | nil => exact h
        | cons b bs => exact h.1
      exact ⟨(hiff s a s' hs hstep).mp hI, (ih hI).mp (hrest s' hstep)⟩
    · intro hguard
      refine ⟨hs, fun s' hstep => ?_⟩
      obtain ⟨hC, hrest⟩ := hguard s' hstep
      exact (ih ((hiff s a s' hs hstep).mpr hC)).mpr hrest

/-- The same where the step lemma needs an invariant `J` that every step keeps. -/
theorem alwaysOn_iff_eachStep_of_inv {J : σ → Prop}
    (hkeep : ∀ s a s', J s → M.step s a = some s' → J s')
    (hiff : ∀ s a s', J s → I s → M.step s a = some s' → (I s' ↔ C s a)) {s : σ} (hJ : J s)
    (hs : I s) (acts : List α) : M.AlwaysOn I s acts ↔ M.EachStep C s acts := by
  have hboth : M.AlwaysOn (fun s => J s ∧ I s) s acts ↔ M.EachStep C s acts := by
    refine alwaysOn_iff_eachStep ?_ ⟨hJ, hs⟩ acts
    rintro s a s' ⟨hJ, hI⟩ hstep
    rw [← hiff s a s' hJ hI hstep]
    exact and_iff_right (hkeep s a s' hJ hstep)
  rw [← hboth]
  clear hboth hs hiff
  induction acts generalizing s with
  | nil => exact (and_iff_right hJ).symm
  | cons a acts ih =>
    refine and_congr (and_iff_right hJ).symm (forall_congr' fun s' => forall_congr' fun hstep => ?_)
    exact ih (hkeep s a s' hJ hstep)

/-! ## History variables -/

/-- The system with a history variable: `start` gives its value in an initial state and `record`
updates it from the state before the step and the action. -/
def withHistory (M : TransitionSystem σ α) (start : σ → η) (record : η → σ → α → η) :
    TransitionSystem (σ × η) α where
  Init p := M.Init p.1 ∧ p.2 = start p.1
  step p a := (M.step p.1 a).map fun s' => (s', record p.2 p.1 a)

variable {start : σ → η} {record : η → σ → α → η}

/-- A step of the recorded system is a step of the plain one together with the record of it. -/
theorem withHistory_step {p p' : σ × η} {a : α} :
    (M.withHistory start record).step p a = some p' ↔
      M.step p.1 a = some p'.1 ∧ p'.2 = record p.2 p.1 a := by
  obtain ⟨s, g⟩ := p
  obtain ⟨s', g'⟩ := p'
  simp only [withHistory, Option.map_eq_some_iff, Prod.mk.injEq]
  constructor
  · rintro ⟨s₁, hstep, rfl, rfl⟩
    exact ⟨hstep, rfl⟩
  · rintro ⟨hstep, rfl⟩
    exact ⟨s', hstep, rfl, rfl⟩

/-- An invariant that relates state and history: it holds at the start, and every admitted step of
the plain system keeps it with the step recorded. -/
theorem ReachWhere.invariant_withHistory {C : σ × η → α → Prop} {I : σ → η → Prop} {p : σ × η}
    (h : (M.withHistory start record).ReachWhere C p) (hinit : ∀ s, M.Init s → I s (start s))
    (hkeep : ∀ s g a s', I s g → C (s, g) a → M.step s a = some s' → I s' (record g s a)) :
    I p.1 p.2 := by
  refine h.invariant (I := fun p => I p.1 p.2) ?_ ?_
  · rintro ⟨s, g⟩ ⟨h₀, hg⟩
    dsimp only at h₀ hg
    rw [hg]
    exact hinit s h₀
  · rintro ⟨s, g⟩ a ⟨s', g'⟩ hI hC hstep
    obtain ⟨hplain, hg⟩ := withHistory_step.mp hstep
    dsimp only at hplain hg ⊢
    rw [hg]
    exact hkeep s g a s' hI hC hplain

/-- Forgetting the history gives a run of the plain system. -/
theorem ReachWhere.fst_withHistory {C : σ → α → Prop} {p : σ × η}
    (h : (M.withHistory start record).ReachWhere (fun p a => C p.1 a) p) :
    M.ReachWhere C p.1 := by
  induction h with
  | init h₀ => exact .init h₀.1
  | step _ hC hstep ih => exact .step ih hC (withHistory_step.mp hstep).1

theorem Reachable.fst_withHistory {p : σ × η} (h : (M.withHistory start record).Reachable p) :
    M.Reachable p.1 :=
  ReachWhere.fst_withHistory (C := fun _ _ => True) h

end TransitionSystem
