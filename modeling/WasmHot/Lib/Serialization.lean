import WasmHot.Lib.Transition
import Mathlib.Data.Finset.Basic
import Mathlib.Data.List.Induction
import Mathlib.Logic.Relation

/-!
# Serial runs

The actions of a system belong to owners, and some actions depend on others. If two neighbouring
actions of different owners can be swapped whenever the second does not depend on the first, then a
run can be rearranged into one in which the actions of each owner stand together, provided that the
dependencies do not force the owners into a circle (`exists_serial`).

The dependencies of a run grow as it goes on, and `ClosesNoCycle` says of one more action that it
does not close a circle. If no action does, there is none at the end (`acyclic_of_steps`).
-/

/-- A relation without circles has a first element in every nonempty finite set. -/
theorem Finset.exists_first {ι : Type*} {r : ι → ι → Prop}
    (hacyclic : ∀ i, ¬ Relation.TransGen r i i) {s : Finset ι} (hs : s.Nonempty) :
    ∃ i ∈ s, ∀ j ∈ s, ¬ Relation.TransGen r j i := by
  induction hs using Finset.Nonempty.cons_induction with
  | singleton a =>
    refine ⟨a, Finset.mem_singleton_self a, fun j hj => ?_⟩
    rw [Finset.mem_singleton.mp hj]
    exact hacyclic a
  | cons a s ha hs ih =>
    obtain ⟨i, hi, hfirst⟩ := ih
    by_cases hai : Relation.TransGen r a i
    · -- Whatever comes before `a` comes before `i`.
      refine ⟨a, Finset.mem_cons_self a s, fun j hj hja => ?_⟩
      rcases Finset.mem_cons.mp hj with rfl | hj
      · exact hacyclic j hja
      · exact hfirst j hj (hja.trans hai)
    · refine ⟨i, Finset.mem_cons_of_mem hi, fun j hj => ?_⟩
      rcases Finset.mem_cons.mp hj with rfl | hj
      · exact hai
      · exact hfirst j hj

namespace TransitionSystem

variable {σ α ι : Type*} {M : TransitionSystem σ α} {owner : α → ι} {dep : α → α → Prop}

/-- Neighbouring actions of different owners can be swapped if the second does not depend on the
first. -/
def Swaps (M : TransitionSystem σ α) (owner : α → ι) (dep : α → α → Prop) : Prop :=
  ∀ s s' a b, owner a ≠ owner b → ¬ dep a b → M.run s [a, b] = some s' → M.run s [b, a] = some s'

/-- One of the actions of `j` comes after an action of `i` that it depends on. -/
def Precedes (owner : α → ι) (dep : α → α → Prop) (l : List α) (i j : ι) : Prop :=
  ∃ a b, List.Sublist [a, b] l ∧ dep a b ∧ owner a = i ∧ owner b = j ∧ i ≠ j

/-- The owners are not forced into a circle. -/
def Acyclic (owner : α → ι) (dep : α → α → Prop) (l : List α) : Prop :=
  ∀ i, ¬ Relation.TransGen (Precedes owner dep l) i i

/-- After the actions of `l`, the action `x` depends on none of an owner that already has to come
after the owner of `x`. -/
def ClosesNoCycle (owner : α → ι) (dep : α → α → Prop) (l : List α) (x : α) : Prop :=
  ∀ y ∈ l, dep y x → owner y ≠ owner x →
    ¬ Relation.TransGen (Precedes owner dep l) (owner x) (owner y)

/-! ## Dependencies that grow -/

theorem Precedes.mono {l l' : List α} (hl : List.Sublist l l') {i j : ι}
    (h : Precedes owner dep l i j) : Precedes owner dep l' i j := by
  obtain ⟨a, b, hab, h⟩ := h
  exact ⟨a, b, hab.trans hl, h⟩

theorem Acyclic.mono {l l' : List α} (hl : List.Sublist l l') (h : Acyclic owner dep l') :
    Acyclic owner dep l :=
  fun i hcycle => h i (hcycle.lift id fun _ _ => Precedes.mono hl)

/-- One more action adds the dependencies of that action. -/
theorem precedes_concat {l : List α} {x : α} {i j : ι}
    (h : Precedes owner dep (l ++ [x]) i j) :
    Precedes owner dep l i j ∨ (owner x = j ∧ i ≠ j ∧ ∃ y ∈ l, dep y x ∧ owner y = i) := by
  obtain ⟨a, b, hab, hdep, ha, hb, hij⟩ := h
  obtain ⟨l₁, l₂, heq, hl₁, hl₂⟩ := List.sublist_append_iff.mp hab
  rcases List.sublist_singleton.mp hl₂ with rfl | rfl
  · rw [List.append_nil] at heq
    exact Or.inl ⟨a, b, heq ▸ hl₁, hdep, ha, hb, hij⟩
  · have hparts : [a] ++ [b] = l₁ ++ [x] := heq
    obtain ⟨rfl, hbx⟩ := List.append_inj' hparts rfl
    cases hbx
    exact Or.inr ⟨hb, hij, a, List.singleton_sublist.mp hl₁, hdep, ha⟩

/-- With one more action, what comes after what did so before or does so through that action. -/
theorem transGen_concat {l : List α} {x : α} (hx : ClosesNoCycle owner dep l x) {i j : ι}
    (h : Relation.TransGen (Precedes owner dep (l ++ [x])) i j) :
    Relation.TransGen (Precedes owner dep l) i j ∨
      (∃ y ∈ l, dep y x ∧ owner y ≠ owner x ∧
        Relation.ReflTransGen (Precedes owner dep l) i (owner y)) ∧
      Relation.ReflTransGen (Precedes owner dep l) (owner x) j := by
  induction h with
  | single hedge =>
    rcases precedes_concat hedge with hold | ⟨rfl, hne, y, hy, hdep, rfl⟩
    · exact Or.inl (.single hold)
    · exact Or.inr ⟨⟨y, hy, hdep, hne, .refl⟩, .refl⟩
  | tail _ hedge ih =>
    rcases precedes_concat hedge with hold | ⟨rfl, hne, y, hy, hdep, rfl⟩
    · rcases ih with hbefore | ⟨hthrough, hafter⟩
      · exact Or.inl (hbefore.tail hold)
      · exact Or.inr ⟨hthrough, hafter.tail hold⟩
    · rcases ih with hbefore | ⟨-, hafter⟩
      · exact Or.inr ⟨⟨y, hy, hdep, hne, hbefore.to_reflTransGen⟩, .refl⟩
      · -- `x` would depend on an action of an owner that comes after its own.
        rcases Relation.reflTransGen_iff_eq_or_transGen.mp hafter with heq | hcycle
        · exact absurd heq hne
        · exact absurd hcycle (hx y hy hdep hne)

/-- If no action closes a circle, there is none. -/
theorem acyclic_of_steps {l : List α}
    (h : ∀ pre x post, l = pre ++ x :: post → ClosesNoCycle owner dep pre x) :
    Acyclic owner dep l := by
  induction l using List.reverseRecOn with
  | nil =>
    intro i hcycle
    obtain ⟨j, ⟨a, b, hab, -⟩, -⟩ := Relation.TransGen.head'_iff.mp hcycle
    exact absurd hab.length_le (by simp)
  | append_singleton l x ih =>
    have hold : Acyclic owner dep l := by
      refine ih fun pre y post heq => h pre y (post ++ [x]) ?_
      rw [heq, List.append_assoc, List.cons_append]
    have hx : ClosesNoCycle owner dep l x := h l x [] rfl
    intro i hcycle
    rcases transGen_concat hx hcycle with hcycle' | ⟨⟨y, hy, hdep, hne, hiy⟩, hxi⟩
    · exact hold i hcycle'
    · rcases Relation.reflTransGen_iff_eq_or_transGen.mp (hxi.trans hiy) with heq | hcycle'
      · exact hne heq
      · exact hx y hy hdep hne hcycle'

/-- If actions depend only on actions of owners of a smaller rank, none closes a circle. -/
theorem closesNoCycle_of_rank (rank : ι → ℕ) {l : List α}
    (h : l.Pairwise fun a b => dep a b → owner a ≠ owner b → rank (owner a) < rank (owner b))
    {pre post : List α} {x : α} (hl : l = pre ++ x :: post) : ClosesNoCycle owner dep pre x := by
  subst hl
  intro y hy hdep hne hcycle
  obtain ⟨hpre, -, hx⟩ := List.pairwise_append.mp h
  have hedge : ∀ i j, Precedes owner dep pre i j → rank i < rank j := by
    rintro i j ⟨a, b, hab, hdep, rfl, rfl, hne⟩
    exact List.pairwise_iff_forall_sublist.mp hpre hab hdep hne
  have hrises : ∀ i j, Relation.TransGen (Precedes owner dep pre) i j → rank i < rank j := by
    intro i j hij
    induction hij with
    | single hlast => exact hedge _ _ hlast
    | tail _ hlast ih => exact ih.trans (hedge _ _ hlast)
  have hback := hrises _ _ hcycle
  have hforth := hx y hy x List.mem_cons_self hdep hne
  omega

/-! ## Rearranging a run -/

/-- An action moves back over actions of other owners that do not depend on it. -/
theorem run_move (hswaps : M.Swaps owner dep) {y : α} {l : List α}
    (hl : ∀ x ∈ l, owner y ≠ owner x ∧ ¬ dep y x) {s s' : σ}
    (hrun : M.run s (y :: l) = some s') : M.run s (l ++ [y]) = some s' := by
  induction l generalizing s with
  | nil => exact hrun
  | cons x l ih =>
    obtain ⟨hne, hindep⟩ := hl x List.mem_cons_self
    have hsplit : y :: x :: l = [y, x] ++ l := rfl
    rw [hsplit, run_append] at hrun
    obtain ⟨s₂, hfirst, hrest⟩ := Option.bind_eq_some_iff.mp hrun
    obtain ⟨s₁, hx, hy⟩ := Option.bind_eq_some_iff.mp (hswaps s s₂ y x hne hindep hfirst)
    rw [List.cons_append, run, hx, Option.bind_some]
    refine ih (fun x' hx' => hl x' (List.mem_cons_of_mem _ hx')) ?_
    obtain ⟨s₂', hy', hnil⟩ := Option.bind_eq_some_iff.mp hy
    cases hnil
    rw [run, hy', Option.bind_some]
    exact hrest

variable [DecidableEq ι]

/-- The actions of an owner that nobody precedes move to the front. -/
theorem run_gather (hswaps : M.Swaps owner dep) {i : ι} {l : List α}
    (hl : l.Pairwise fun y x => owner x = i → owner y ≠ i → ¬ dep y x) {s s' : σ}
    (hrun : M.run s l = some s') :
    M.run s (l.filter (owner · = i) ++ l.filter (owner · ≠ i)) = some s' := by
  induction l generalizing s with
  | nil => exact hrun
  | cons y l ih =>
    obtain ⟨hy, hl⟩ := List.pairwise_cons.mp hl
    obtain ⟨s₁, hstep, hrest⟩ := Option.bind_eq_some_iff.mp hrun
    have hgathered := ih hl hrest
    by_cases hyi : owner y = i
    · rw [List.filter_cons_of_pos (by simpa using hyi),
        List.filter_cons_of_neg (by simpa using hyi), List.cons_append, run, hstep]
      exact hgathered
    · rw [List.filter_cons_of_neg (by simpa using hyi),
        List.filter_cons_of_pos (by simpa using hyi)]
      rw [run_append] at hgathered
      obtain ⟨s₂, hfront, hback⟩ := Option.bind_eq_some_iff.mp hgathered
      -- `y` is of another owner, so every action of `i` behind it may come before it.
      have hmoved : M.run s (l.filter (owner · = i) ++ [y]) = some s₂ := by
        refine run_move hswaps (fun x hx => ?_) ?_
        · obtain ⟨hxl, hxi⟩ := List.mem_filter.mp hx
          have hxi : owner x = i := of_decide_eq_true hxi
          exact ⟨fun heq => hyi (heq.trans hxi), hy x hxl hxi hyi⟩
        · rw [run, hstep]
          exact hfront
      have hsplit : l.filter (owner · = i) ++ y :: l.filter (owner · ≠ i) =
          (l.filter (owner · = i) ++ [y]) ++ l.filter (owner · ≠ i) := by
        rw [List.append_assoc, List.singleton_append]
      rw [hsplit, run_append, hmoved]
      exact hback

/-- What is left without the actions of `i` has all actions of the other owners. -/
theorem flatMap_filter_ne {i : ι} {l : List α} {order : List ι} (hi : i ∉ order) :
    (order.flatMap fun j => (l.filter (owner · ≠ i)).filter (owner · = j)) =
      order.flatMap fun j => l.filter (owner · = j) := by
  refine List.flatMap_congr fun j hj => ?_
  rw [List.filter_filter]
  refine List.filter_congr fun a _ => ?_
  have hne : j ≠ i := fun heq => hi (heq ▸ hj)
  by_cases haj : owner a = j
  · simp [haj, hne]
  · simp [haj]

/-- A run whose owners are not forced into a circle ends like one in which each owner takes all its
actions together, in the order in which it took them. -/
theorem exists_serial (hswaps : M.Swaps owner dep) {l : List α} (hl : Acyclic owner dep l)
    {s s' : σ} (hrun : M.run s l = some s') :
    ∃ order : List ι, order.Nodup ∧ (∀ i, i ∈ order ↔ ∃ a ∈ l, owner a = i) ∧
      (order.flatMap fun i => l.filter (owner · = i)).Perm l ∧
      M.run s (order.flatMap fun i => l.filter (owner · = i)) = some s' := by
  induction hn : l.length using Nat.strongRecOn generalizing l s with
  | ind n ih =>
    subst hn
    rcases l.eq_nil_or_concat with rfl | ⟨init, last, hlast⟩
    · refine ⟨[], List.nodup_nil, fun i => ?_, .refl [], hrun⟩
      simp
    · have hmem : ∀ a ∈ l, owner a ∈ (l.map owner).toFinset := fun a ha =>
        List.mem_toFinset.mpr (List.mem_map_of_mem ha)
      have hlast : last ∈ l := by simp [hlast]
      -- The order is acyclic and finite, so there is an owner that no other has to precede.
      obtain ⟨i, hi, hfirst⟩ := Finset.exists_first hl ⟨owner last, hmem last hlast⟩
      have hpairwise : l.Pairwise fun y x => owner x = i → owner y ≠ i → ¬ dep y x := by
        refine List.pairwise_iff_forall_sublist.mpr fun {y x} hyx hx hy hdep => ?_
        have hyl : y ∈ l := hyx.subset List.mem_cons_self
        exact hfirst (owner y) (hmem y hyl) (.single ⟨y, x, hyx, hdep, rfl, hx, hy⟩)
      -- Its actions come to the front, and the rest is shorter and acyclic too.
      have hgathered := run_gather hswaps hpairwise hrun
      rw [run_append] at hgathered
      obtain ⟨s₁, hfront, hback⟩ := Option.bind_eq_some_iff.mp hgathered
      obtain ⟨a, ha, hai⟩ := List.mem_map.mp (List.mem_toFinset.mp hi)
      have hshorter : (l.filter (owner · ≠ i)).length < l.length :=
        List.length_filter_lt_length_iff_exists.mpr ⟨a, ha, by simp [hai]⟩
      obtain ⟨order, hnodup, horder, hperm, hserial⟩ :=
        ih _ hshorter (hl.mono List.filter_sublist) hback rfl
      -- None of the rest is of `i`, so the order goes on without it.
      have hiorder : i ∉ order := by
        rw [horder]
        rintro ⟨b, hb, hbi⟩
        simp [hbi] at hb
      rw [flatMap_filter_ne hiorder] at hperm hserial
      refine ⟨i :: order, List.nodup_cons.mpr ⟨hiorder, hnodup⟩, fun j => ?_, ?_, ?_⟩
      · rw [List.mem_cons, horder]
        constructor
        · rintro (rfl | ⟨b, hb, hbj⟩)
          · exact ⟨a, ha, hai⟩
          · exact ⟨b, List.mem_of_mem_filter hb, hbj⟩
        · rintro ⟨b, hb, rfl⟩
          by_cases hbi : owner b = i
          · exact Or.inl hbi
          · exact Or.inr ⟨b, List.mem_filter.mpr ⟨hb, by simpa using hbi⟩, rfl⟩
      · rw [List.flatMap_cons]
        refine (hperm.append_left _).trans ?_
        have hparts := List.filter_append_perm (owner · = i) l
        simpa using hparts
      · rw [List.flatMap_cons, run_append, hfront]
        exact hserial

end TransitionSystem
