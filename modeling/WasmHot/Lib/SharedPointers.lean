import Mathlib.Data.Finset.Image
import WasmHot.Lib.Transition
import WasmHot.Lib.UnorderedMap

/-!
# Pointers that share their objects

Objects are numbered in the order in which they are made. A place (a variable, an entry of a table, a
member of another object) points to at most one object, and several places may point to the same. The
thread that takes away the last pointer to an object destroys it: until the destructor is through,
the object is dying in that thread.

Every change of the pointers is a `redirect`, which finds out by itself which objects it has left
without a pointer. `Counted` is what the counting of references is for: as long as a place points to
an object it is neither dying nor destroyed, and every object is destroyed once, by one thread.
-/

/-- The pointers, the number of objects made, the objects whose destructors are to run or running, by
the thread that does it, and those destroyed, in this order. -/
structure SharedPointers (π : Type*) where
  pointers : UnorderedMap π ℕ
  made : ℕ
  dying : Finset (ThreadId × ℕ)
  destroyed : List ℕ
  deriving DecidableEq

namespace SharedPointers

variable {π : Type*} [DecidableEq π] {s s' : SharedPointers π} {t t' : ThreadId} {n : ℕ}

/-- No object. -/
def empty : SharedPointers π := ⟨∅, 0, ∅, []⟩

/-- The object that a place points to. -/
def at? (s : SharedPointers π) (place : π) : Option ℕ := s.pointers.lookup place

/-- The objects that some place points to. -/
def targets (pointers : UnorderedMap π ℕ) : Finset ℕ :=
  (pointers.entries.map (·.2)).toFinset

/-- Thread `t` changes the pointers, and has to destroy what no place points to any more. -/
def redirect (s : SharedPointers π) (t : ThreadId) (pointers : UnorderedMap π ℕ) :
    SharedPointers π :=
  { s with
    pointers := pointers
    dying := s.dying ∪ (targets s.pointers \ targets pointers).image (t, ·) }

/-- A new object, with one pointer to it. -/
def make (s : SharedPointers π) (t : ThreadId) (place : π) : SharedPointers π :=
  { s.redirect t (s.pointers.insert place s.made) with made := s.made + 1 }

/-- The pointer at `source` is moved to `place`. -/
def move (s : SharedPointers π) (t : ThreadId) (source place : π) : SharedPointers π :=
  match s.at? source with
  | none => s
  | some n => s.redirect t ((s.pointers.erase source).insert place n)

/-- The pointer at `source` is copied to `place`. -/
def copy (s : SharedPointers π) (t : ThreadId) (source place : π) : SharedPointers π :=
  match s.at? source with
  | none => s
  | some n => s.redirect t (s.pointers.insert place n)

/-- The pointer at `place` is taken away. -/
def reset (s : SharedPointers π) (t : ThreadId) (place : π) : SharedPointers π :=
  s.redirect t (s.pointers.erase place)

/-- The pointers at all places of a kind are taken away. -/
def resetAll (s : SharedPointers π) (t : ThreadId) (P : π → Prop) [DecidablePred P] :
    SharedPointers π :=
  s.redirect t (s.pointers.without P)

/-- The destructor of an object is through. -/
def destroy (s : SharedPointers π) (t : ThreadId) (n : ℕ) : Option (SharedPointers π) :=
  if (t, n) ∈ s.dying then
    some { s with dying := s.dying.erase (t, n), destroyed := s.destroyed ++ [n] }
  else none

/-- The thread has nothing to destroy. -/
def Settled (s : SharedPointers π) (t : ThreadId) : Prop := ∀ p ∈ s.dying, p.1 ≠ t

instance (s : SharedPointers π) (t : ThreadId) : Decidable (s.Settled t) :=
  inferInstanceAs (Decidable (∀ p ∈ s.dying, _))

/-! ## What the operations do to the places -/

theorem mem_targets {pointers : UnorderedMap π ℕ} :
    n ∈ targets pointers ↔ ∃ place, pointers.lookup place = some n := by
  simp only [targets, Multiset.mem_toFinset, Multiset.mem_map]
  constructor
  · rintro ⟨⟨place, n⟩, hentry, rfl⟩
    exact ⟨place, Finmap.lookup_eq_some_iff.mpr hentry⟩
  · rintro ⟨place, hplace⟩
    exact ⟨⟨place, n⟩, Finmap.lookup_eq_some_iff.mp hplace, rfl⟩

theorem at?_redirect (pointers : UnorderedMap π ℕ) (place : π) :
    (s.redirect t pointers).at? place = pointers.lookup place := rfl

theorem at?_make (place place' : π) :
    (s.make t place).at? place' = if place' = place then some s.made else s.at? place' :=
  UnorderedMap.lookup_insert s.pointers place place' s.made

theorem at?_move (source place place' : π) :
    (s.move t source place).at? place' =
      if s.at? source = none then s.at? place'
      else if place' = place then s.at? source
      else if place' = source then none else s.at? place' := by
  unfold move
  cases hsource : s.at? source with
  | none => rfl
  | some n =>
    dsimp only
    rw [if_neg nofun, at?_redirect, UnorderedMap.lookup_insert, UnorderedMap.lookup_erase]
    rfl

theorem at?_copy (source place place' : π) :
    (s.copy t source place).at? place' =
      if s.at? source ≠ none ∧ place' = place then s.at? source else s.at? place' := by
  unfold copy
  cases hsource : s.at? source with
  | none => simp
  | some n =>
    simp only [at?_redirect, UnorderedMap.lookup_insert, ne_eq, reduceCtorEq, not_false_eq_true,
      true_and]
    rfl

theorem at?_reset (place place' : π) :
    (s.reset t place).at? place' = if place' = place then none else s.at? place' :=
  UnorderedMap.lookup_erase s.pointers place place'

theorem at?_resetAll (P : π → Prop) [DecidablePred P] (place : π) :
    (s.resetAll t P).at? place = if P place then none else s.at? place :=
  UnorderedMap.lookup_without s.pointers P place

@[simp]
theorem made_make (place : π) : (s.make t place).made = s.made + 1 := rfl

@[simp]
theorem made_move (source place : π) : (s.move t source place).made = s.made := by
  unfold move
  split <;> rfl

@[simp]
theorem made_copy (source place : π) : (s.copy t source place).made = s.made := by
  unfold copy
  split <;> rfl

@[simp]
theorem made_reset (place : π) : (s.reset t place).made = s.made := rfl

theorem at?_destroy (h : s.destroy t n = some s') (place : π) : s'.at? place = s.at? place := by
  simp only [destroy, Option.ite_none_right_eq_some, Option.some.injEq] at h
  obtain ⟨-, rfl⟩ := h
  rfl

omit [DecidableEq π] in
theorem made_destroy (h : s.destroy t n = some s') : s'.made = s.made := by
  simp only [destroy, Option.ite_none_right_eq_some, Option.some.injEq] at h
  obtain ⟨-, rfl⟩ := h
  rfl

/-! ## Counting -/

/-- An object is pointed to, dying or destroyed, one of the three, and dying in one thread. -/
structure Counted (s : SharedPointers π) : Prop where
  lt_made : ∀ n, (∃ place, s.at? place = some n) ∨ (∃ t, (t, n) ∈ s.dying) ∨ n ∈ s.destroyed →
    n < s.made
  accounted : ∀ n < s.made,
    (∃ place, s.at? place = some n) ∨ (∃ t, (t, n) ∈ s.dying) ∨ n ∈ s.destroyed
  not_dying : ∀ place n, s.at? place = some n → ∀ t, (t, n) ∉ s.dying
  not_destroyed : ∀ place n, s.at? place = some n → n ∉ s.destroyed
  dying_once : ∀ t t' n, (t, n) ∈ s.dying → (t', n) ∈ s.dying → t = t'
  dying_apart : ∀ t n, (t, n) ∈ s.dying → n ∉ s.destroyed
  destroyed_once : s.destroyed.Nodup

namespace Counted

theorem empty : (empty : SharedPointers π).Counted where
  lt_made := by simp [SharedPointers.empty, at?]
  accounted := by simp [SharedPointers.empty]
  not_dying := by simp [SharedPointers.empty]
  not_destroyed := by simp [SharedPointers.empty]
  dying_once := by simp [SharedPointers.empty]
  dying_apart := by simp [SharedPointers.empty]
  destroyed_once := List.nodup_nil

theorem mem_dying_redirect {pointers : UnorderedMap π ℕ} :
    (t', n) ∈ (s.redirect t pointers).dying ↔ (t', n) ∈ s.dying ∨
      t' = t ∧ (∃ place, s.at? place = some n) ∧ ∀ place, pointers.lookup place ≠ some n := by
  simp only [redirect, Finset.mem_union, Finset.mem_image, Finset.mem_sdiff, mem_targets,
    Prod.mk.injEq, not_exists]
  constructor
  · rintro (h | ⟨n', ⟨hold, hnew⟩, rfl, rfl⟩)
    · exact Or.inl h
    · exact Or.inr ⟨rfl, hold, hnew⟩
  · rintro (h | ⟨rfl, hold, hnew⟩)
    · exact Or.inl h
    · exact Or.inr ⟨n, ⟨hold, hnew⟩, rfl, rfl⟩

/-- New pointers to objects that were pointed to already, and to all the objects made meanwhile. -/
theorem change (h : s.Counted) {pointers : UnorderedMap π ℕ} {made : ℕ} (hle : s.made ≤ made)
    (hold : ∀ place n, pointers.lookup place = some n →
      (∃ place', s.at? place' = some n) ∨ s.made ≤ n ∧ n < made)
    (hnew : ∀ n, s.made ≤ n → n < made → ∃ place, pointers.lookup place = some n) :
    ({ s.redirect t pointers with made := made } : SharedPointers π).Counted where
  lt_made n hn := by
    have hbefore := h.lt_made n
    rcases hn with ⟨place, hplace⟩ | ⟨t', hdying⟩ | hdestroyed
    · rcases hold place n hplace with hpointed | ⟨-, hlt⟩
      · exact (hbefore (Or.inl hpointed)).trans_le hle
      · exact hlt
    · rcases mem_dying_redirect.mp hdying with hdying | ⟨-, hpointed, -⟩
      · exact (hbefore (Or.inr (Or.inl ⟨t', hdying⟩))).trans_le hle
      · exact (hbefore (Or.inl hpointed)).trans_le hle
    · exact (hbefore (Or.inr (Or.inr hdestroyed))).trans_le hle
  accounted n hn := by
    -- What was made meanwhile is pointed to; what was there is, or the thread that lost it destroys
    -- it.
    by_cases hmade : s.made ≤ n
    · exact Or.inl (hnew n hmade hn)
    rcases h.accounted n (not_le.mp hmade) with hpointed | ⟨t', hdying⟩ | hdestroyed
    · by_cases hstill : ∃ place, pointers.lookup place = some n
      · exact Or.inl hstill
      · exact Or.inr (Or.inl ⟨t, mem_dying_redirect.mpr
          (Or.inr ⟨rfl, hpointed, not_exists.mp hstill⟩)⟩)
    · exact Or.inr (Or.inl ⟨t', mem_dying_redirect.mpr (Or.inl hdying)⟩)
    · exact Or.inr (Or.inr hdestroyed)
  not_dying place n hplace t' hdying := by
    rcases mem_dying_redirect.mp hdying with hdying | ⟨-, -, hlost⟩
    · rcases hold place n hplace with ⟨place', hplace'⟩ | ⟨hmade, -⟩
      · exact h.not_dying place' n hplace' t' hdying
      · exact absurd (h.lt_made n (Or.inr (Or.inl ⟨t', hdying⟩))) (not_lt.mpr hmade)
    · exact hlost place hplace
  not_destroyed place n hplace := by
    rcases hold place n hplace with ⟨place', hplace'⟩ | ⟨hmade, -⟩
    · exact h.not_destroyed place' n hplace'
    · exact fun hdestroyed =>
        absurd (h.lt_made n (Or.inr (Or.inr hdestroyed))) (not_lt.mpr hmade)
  dying_once t₁ t₂ n h₁ h₂ := by
    rcases mem_dying_redirect.mp h₁ with h₁ | ⟨rfl, ⟨place, hplace⟩, -⟩
    · rcases mem_dying_redirect.mp h₂ with h₂ | ⟨-, ⟨place, hplace⟩, -⟩
      · exact h.dying_once t₁ t₂ n h₁ h₂
      · exact absurd h₁ (h.not_dying place n hplace t₁)
    · rcases mem_dying_redirect.mp h₂ with h₂ | ⟨rfl, -, -⟩
      · exact absurd h₂ (h.not_dying place n hplace t₂)
      · rfl
  dying_apart t' n hdying := by
    rcases mem_dying_redirect.mp hdying with hdying | ⟨-, ⟨place, hplace⟩, -⟩
    · exact h.dying_apart t' n hdying
    · exact h.not_destroyed place n hplace
  destroyed_once := h.destroyed_once

/-- Pointers to objects that were pointed to already. -/
theorem redirect (h : s.Counted) {pointers : UnorderedMap π ℕ}
    (hold : ∀ place n, pointers.lookup place = some n → ∃ place', s.at? place' = some n) :
    (s.redirect t pointers).Counted :=
  h.change le_rfl (fun place n hplace => Or.inl (hold place n hplace))
    fun _ hmade hn => absurd hn (not_lt.mpr hmade)

theorem make (h : s.Counted) (place : π) : (s.make t place).Counted := by
  refine h.change (Nat.le_succ _) (fun place' n hplace' => ?_) fun n hmade hn => ?_
  · rw [UnorderedMap.lookup_insert] at hplace'
    split at hplace'
    · cases hplace'
      exact Or.inr ⟨le_rfl, Nat.lt_succ_self _⟩
    · exact Or.inl ⟨place', hplace'⟩
  · exact ⟨place, by rw [UnorderedMap.lookup_insert, if_pos rfl, Nat.eq_of_le_of_lt_succ hmade hn]⟩

theorem move (h : s.Counted) (source place : π) : (s.move t source place).Counted := by
  unfold SharedPointers.move
  split
  · exact h
  · next n hsource =>
    refine h.redirect fun place' n' hplace' => ?_
    rw [UnorderedMap.lookup_insert, UnorderedMap.lookup_erase] at hplace'
    split at hplace'
    · cases hplace'
      exact ⟨source, hsource⟩
    · split at hplace'
      · cases hplace'
      · exact ⟨place', hplace'⟩

theorem copy (h : s.Counted) (source place : π) : (s.copy t source place).Counted := by
  unfold SharedPointers.copy
  split
  · exact h
  · next n hsource =>
    refine h.redirect fun place' n' hplace' => ?_
    rw [UnorderedMap.lookup_insert] at hplace'
    split at hplace'
    · cases hplace'
      exact ⟨source, hsource⟩
    · exact ⟨place', hplace'⟩

theorem reset (h : s.Counted) (place : π) : (s.reset t place).Counted := by
  refine h.redirect fun place' n hplace' => ?_
  rw [UnorderedMap.lookup_erase] at hplace'
  split at hplace'
  · cases hplace'
  · exact ⟨place', hplace'⟩

theorem resetAll (h : s.Counted) (P : π → Prop) [DecidablePred P] : (s.resetAll t P).Counted := by
  refine h.redirect fun place n hplace => ?_
  rw [UnorderedMap.lookup_without] at hplace
  split at hplace
  · cases hplace
  · exact ⟨place, hplace⟩

theorem destroy (h : s.Counted) (hdestroy : s.destroy t n = some s') : s'.Counted := by
  simp only [SharedPointers.destroy, Option.ite_none_right_eq_some, Option.some.injEq] at hdestroy
  obtain ⟨hdying, rfl⟩ := hdestroy
  refine ⟨fun n' hn' => ?_, fun n' hn' => ?_, fun place n' hplace t' hdying' => ?_,
    fun place n' hplace hdestroyed => ?_, fun t₁ t₂ n' h₁ h₂ => ?_,
    fun t' n' hdying' hdestroyed => ?_, ?_⟩
  -- The object moves from those that are dying to those that are destroyed.
  · rcases hn' with hpointed | ⟨t', hdying'⟩ | hdestroyed
    · exact h.lt_made n' (Or.inl hpointed)
    · exact h.lt_made n' (Or.inr (Or.inl ⟨t', Finset.mem_of_mem_erase hdying'⟩))
    · rcases List.mem_append.mp hdestroyed with hdestroyed | hlast
      · exact h.lt_made n' (Or.inr (Or.inr hdestroyed))
      · rw [List.mem_singleton.mp hlast]
        exact h.lt_made n (Or.inr (Or.inl ⟨t, hdying⟩))
  · rcases h.accounted n' hn' with hpointed | ⟨t', hdying'⟩ | hdestroyed
    · exact Or.inl hpointed
    · by_cases hsame : (t', n') = (t, n)
      · cases hsame
        exact Or.inr (Or.inr (List.mem_append_right _ (List.mem_singleton_self _)))
      · exact Or.inr (Or.inl ⟨t', Finset.mem_erase.mpr ⟨hsame, hdying'⟩⟩)
    · exact Or.inr (Or.inr (List.mem_append_left _ hdestroyed))
  · exact h.not_dying place n' hplace t' (Finset.mem_of_mem_erase hdying')
  · rcases List.mem_append.mp hdestroyed with hdestroyed | hlast
    · exact h.not_destroyed place n' hplace hdestroyed
    · rw [List.mem_singleton.mp hlast] at hplace
      exact h.not_dying place n hplace t hdying
  · exact h.dying_once t₁ t₂ n' (Finset.mem_of_mem_erase h₁) (Finset.mem_of_mem_erase h₂)
  · rcases List.mem_append.mp hdestroyed with hdestroyed | hlast
    · exact h.dying_apart t' n' (Finset.mem_of_mem_erase hdying') hdestroyed
    · obtain ⟨hne, hdying'⟩ := Finset.mem_erase.mp hdying'
      rw [List.mem_singleton.mp hlast] at hne hdying'
      exact hne (by rw [h.dying_once t' t n hdying' hdying])
  · exact List.nodup_append.mpr ⟨h.destroyed_once, List.nodup_singleton n, fun a ha b hb hab =>
      h.dying_apart t n hdying (List.mem_singleton.mp hb ▸ hab ▸ ha)⟩

end Counted

/-! ## Where an object may be pointed to -/

/-- Every pointer is at a place that is allowed for its object. -/
def Obeys (s : SharedPointers π) (P : ℕ → π → Prop) : Prop :=
  ∀ place n, s.at? place = some n → P n place

namespace Obeys

variable {P P' : ℕ → π → Prop}

theorem empty : (SharedPointers.empty : SharedPointers π).Obeys P := by
  intro place n hplace
  cases hplace

theorem mono (h : s.Obeys P) (hP : ∀ place n, s.at? place = some n → P n place → P' n place) :
    s.Obeys P' :=
  fun place n hplace => hP place n hplace (h place n hplace)

theorem make {place : π} (h : s.Obeys P) (hmade : P s.made place) : (s.make t place).Obeys P := by
  intro place' n hplace'
  rw [at?_make] at hplace'
  split at hplace'
  · next heq =>
    cases hplace'
    exact heq ▸ hmade
  · exact h place' n hplace'

/-- Of the other pointers, only what is left after the change has to be allowed. -/
theorem move {source place : π} (hrest : s.Obeys fun n place' => place' ≠ source → P n place')
    (hmove : ∀ n, s.at? source = some n → P n place) : (s.move t source place).Obeys P := by
  intro place' n hplace'
  rw [at?_move] at hplace'
  split_ifs at hplace' with hnone heq hsource
  · exact hrest place' n hplace' fun heq => by simp [heq, hnone] at hplace'
  · exact heq ▸ hmove n hplace'
  · exact hrest place' n hplace' hsource

theorem copy {source place : π} (h : s.Obeys P) (hcopy : ∀ n, s.at? source = some n → P n place) :
    (s.copy t source place).Obeys P := by
  intro place' n hplace'
  rw [at?_copy] at hplace'
  split_ifs at hplace' with heq
  · exact heq.2 ▸ hcopy n hplace'
  · exact h place' n hplace'

theorem reset {place : π} (hrest : s.Obeys fun n place' => place' ≠ place → P n place') :
    (s.reset t place).Obeys P := by
  intro place' n hplace'
  rw [at?_reset, Option.ite_none_left_eq_some] at hplace'
  exact hrest place' n hplace'.2 hplace'.1

theorem resetAll {Q : π → Prop} [DecidablePred Q]
    (hrest : s.Obeys fun n place => ¬ Q place → P n place) : (s.resetAll t Q).Obeys P := by
  intro place n hplace
  rw [at?_resetAll, Option.ite_none_left_eq_some] at hplace
  exact hrest place n hplace.2 hplace.1

theorem destroy (h : s.Obeys P) (hdestroy : s.destroy t n = some s') : s'.Obeys P := by
  intro place n' hplace
  rw [at?_destroy hdestroy] at hplace
  exact h place n' hplace

end Obeys

end SharedPointers
