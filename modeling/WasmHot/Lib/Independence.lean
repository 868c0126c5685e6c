import WasmHot.Lib.Transition
import Mathlib.Logic.Relation

/-!
# Threads that work on separate parts of the state

In the systems of this module the actions are the threads: `step s i` is the next step of thread
`i`, and a list of threads is a schedule. The threads are independent when each of them sees and
changes its own part of the state only.

A thread then goes through the same parts whatever the others do in between, so the schedules
differ in nothing but the order: if one of them gets to a state in which no thread can go on, each
other one can be continued to that very state (`Independent.confluent`).
-/

namespace TransitionSystem

variable {σ ι L R : Type*} {M : TransitionSystem σ ι} {I : σ → Prop} {part : ι → σ → L}
  {rest : σ → R}

/-- No thread can go on. -/
def Complete (M : TransitionSystem σ ι) (s : σ) : Prop :=
  ∀ i, M.step s i = none

/-- In the states with `I`, each thread sees and changes its own part of the state only. `rest` is
what no thread sees. -/
structure Independent (M : TransitionSystem σ ι) (I : σ → Prop) (part : ι → σ → L)
    (rest : σ → R) : Prop where
  keeps : ∀ i s s', I s → M.step s i = some s' → I s'
  own : ∀ i s t, I s → I t → part i s = part i t →
    (M.step s i).map (part i) = (M.step t i).map (part i)
  others : ∀ i j s s', I s → M.step s i = some s' → j ≠ i → part j s' = part j s
  rest_kept : ∀ i s s', I s → M.step s i = some s' → rest s' = rest s
  ext : ∀ s t, (∀ i, part i s = part i t) → rest s = rest t → s = t

namespace Independent

variable {s s₁ w : σ} {i : ι} {a b : L}

/-- A step of thread `i`, as its own part of the state shows it. -/
def Moves (M : TransitionSystem σ ι) (I : σ → Prop) (part : ι → σ → L) (i : ι) (a b : L) : Prop :=
  ∃ s s', I s ∧ M.step s i = some s' ∧ part i s = a ∧ part i s' = b

/-- Where the part allows a step, the thread can take it. -/
theorem step_of_moves (h : M.Independent I part rest) (hs : I s)
    (hmoves : Moves M I part i (part i s) b) : ∃ s', M.step s i = some s' ∧ part i s' = b := by
  obtain ⟨t, t', ht, hstep, hpart, rfl⟩ := hmoves
  have hown := h.own i t s ht hs hpart
  rw [hstep, Option.map_some] at hown
  exact Option.map_eq_some_iff.mp hown.symm

/-- The part determines what the step makes of it. -/
theorem moves_rightUnique (h : M.Independent I part rest) (i : ι) :
    Relator.RightUnique (Moves M I part i) := by
  rintro a b c ⟨s, s', hs, hstep, rfl, rfl⟩ hmoves
  obtain ⟨s'', hstep', rfl⟩ := h.step_of_moves hs hmoves
  cases hstep.symm.trans hstep'
  rfl

/-- A run takes each thread through moves of its own part. -/
theorem run_moves (h : M.Independent I part rest) (hs : I s) {l : List ι}
    (hrun : M.run s l = some w) :
    I w ∧ rest w = rest s ∧
      ∀ i, Relation.ReflTransGen (Moves M I part i) (part i s) (part i w) := by
  induction l generalizing s with
  | nil =>
    cases hrun
    exact ⟨hs, rfl, fun _ => .refl⟩
  | cons j l ih =>
    obtain ⟨s', hstep, hrest⟩ := Option.bind_eq_some_iff.mp hrun
    obtain ⟨hw, hkept, hmoves⟩ := ih (h.keeps j s s' hs hstep) hrest
    refine ⟨hw, hkept.trans (h.rest_kept j s s' hs hstep), fun i => ?_⟩
    by_cases hij : i = j
    · subst hij
      exact .head ⟨s, s', hs, hstep, rfl, rfl⟩ (hmoves i)
    · rw [← h.others j i s s' hs hstep hij]
      exact hmoves i

/-- What one thread can do with its part it can do on its own, the others standing still. -/
theorem run_alone (h : M.Independent I part rest) (hs : I s)
    (hmoves : Relation.ReflTransGen (Moves M I part i) (part i s) b) :
    ∃ l w, M.run s l = some w ∧ part i w = b ∧ ∀ j, j ≠ i → part j w = part j s := by
  generalize ha : part i s = a at hmoves
  induction hmoves using Relation.ReflTransGen.head_induction_on generalizing s with
  | refl => exact ⟨[], s, rfl, ha, fun _ _ => rfl⟩
  | head hmove _ ih =>
    subst ha
    obtain ⟨s', hstep, hpart⟩ := h.step_of_moves hs hmove
    obtain ⟨l, w, hrun, hw, hothers⟩ := ih (h.keeps i s s' hs hstep) hpart
    refine ⟨i :: l, w, ?_, hw, fun j hj => ?_⟩
    · rw [run, hstep]
      exact hrun
    · exact (hothers j hj).trans (h.others i j s s' hs hstep hj)

/-- If each thread can get its part to where it is in `s₁`, one after the other they do. -/
theorem run_each (h : M.Independent I part rest) (threads : List ι) (hs : I s)
    (hmoves : ∀ i, Relation.ReflTransGen (Moves M I part i) (part i s) (part i s₁)) :
    ∃ l w, M.run s l = some w ∧ (∀ i ∈ threads, part i w = part i s₁) ∧
      ∀ i, i ∉ threads → part i w = part i s := by
  induction threads generalizing s with
  | nil => exact ⟨[], s, rfl, fun _ hi => absurd hi List.not_mem_nil, fun _ _ => rfl⟩
  | cons i threads ih =>
    obtain ⟨l, w, hrun, hw, hothers⟩ := h.run_alone hs (hmoves i)
    have hmoves' : ∀ j, Relation.ReflTransGen (Moves M I part j) (part j w) (part j s₁) := by
      intro j
      by_cases hj : j = i
      · rw [hj, hw]
      · rw [hothers j hj]
        exact hmoves j
    obtain ⟨l', w', hrun', hdone, hrest⟩ := ih (h.run_moves hs hrun).1 hmoves'
    refine ⟨l ++ l', w', ?_, fun j hj => ?_, fun j hj => ?_⟩
    · rw [run_append, hrun]
      exact hrun'
    · by_cases hmem : j ∈ threads
      · exact hdone j hmem
      · rw [hrest j hmem, (List.mem_cons.mp hj).resolve_right hmem, hw]
    · rw [List.mem_cons, not_or] at hj
      exact (hrest j hj.2).trans (hothers j hj.1)

/-- A part in which its thread cannot go on does not move. -/
theorem eq_of_moves (h : M.Independent I part rest) (hs : I s) (hstop : M.step s i = none)
    (hmoves : Relation.ReflTransGen (Moves M I part i) (part i s) b) : b = part i s := by
  rcases hmoves.cases_head with heq | ⟨c, hmove, -⟩
  · exact heq.symm
  · obtain ⟨s', hstep, -⟩ := h.step_of_moves hs hmove
    rw [hstop] at hstep
    cases hstep

/-- If one schedule ends in a state in which no thread can go on, every other schedule can be
continued to that state. -/
theorem confluent (h : M.Independent I part rest) {threads : List ι} (hall : ∀ i, i ∈ threads)
    (hs : I s) {l₁ l : List ι} (hrun₁ : M.run s l₁ = some s₁) (hcomplete : M.Complete s₁)
    (hrun : M.run s l = some w) : ∃ l', M.run w l' = some s₁ := by
  obtain ⟨hI₁, hrest₁, hmoves₁⟩ := h.run_moves hs hrun₁
  obtain ⟨hIw, hrestw, hmovesw⟩ := h.run_moves hs hrun
  have hmoves : ∀ i, Relation.ReflTransGen (Moves M I part i) (part i w) (part i s₁) := by
    intro i
    rcases Relation.ReflTransGen.total_of_right_unique (h.moves_rightUnique i) (hmovesw i)
      (hmoves₁ i) with hforward | hback
    · exact hforward
    · rw [h.eq_of_moves hI₁ (hcomplete i) hback]
  obtain ⟨l', w', hrun', hparts, -⟩ := h.run_each threads hIw hmoves
  have hrest' := (h.run_moves hIw hrun').2.1
  have heq : w' = s₁ :=
    h.ext w' s₁ (fun i => hparts i (hall i)) (hrest'.trans (hrestw.trans hrest₁.symm))
  exact ⟨l', heq ▸ hrun'⟩

/-- Two schedules after which no thread can go on end in the same state. -/
theorem eq_of_complete (h : M.Independent I part rest) {threads : List ι}
    (hall : ∀ i, i ∈ threads) (hs : I s) {l₁ l : List ι} (hrun₁ : M.run s l₁ = some s₁)
    (hcomplete : M.Complete s₁) (hrun : M.run s l = some w) (hstop : M.Complete w) : w = s₁ := by
  obtain ⟨l', hrun'⟩ := h.confluent hall hs hrun₁ hcomplete hrun
  cases l' with
  | nil => exact Option.some.inj hrun'
  | cons i l' =>
    rw [run, hstop i] at hrun'
    cases hrun'

end Independent

end TransitionSystem
