import Mathlib.Order.BooleanAlgebra.Set
import Mathlib.Data.List.Count

/-!
# Logs of handles

A library hands out handles, and its user owes each of them exactly one deletion. A log records in
order what is done to them. `Sound` is the discipline: a handle is created once, and used and deleted
only while it is live. So in a sound log nothing comes after the deletion of a handle
(`Sound.not_mem_after`), and a handle that is not live any more was deleted exactly once
(`Sound.count_deleted`).

`Holds` is the form in which the user of the handles carries this through a program: the log is sound
and these are the live handles.
-/

/-- What is done to a handle. -/
inductive HandleEvent (ι : Type*)
  | created (h : ι)
  | used (h : ι)
  | deleted (h : ι)
  deriving DecidableEq

/-- What has been done to handles, in order. -/
abbrev HandleLog (ι : Type*) := List (HandleEvent ι)

namespace HandleLog

open HandleEvent

variable {ι : Type*} {log : HandleLog ι} {e : HandleEvent ι} {h h' : ι} {S : Set ι}

/-- The handle was created and is not deleted. -/
def Live (log : HandleLog ι) (h : ι) : Prop :=
  created h ∈ log ∧ deleted h ∉ log

/-- What can be done to a handle after what has been done before. -/
def Allows (log : HandleLog ι) : HandleEvent ι → Prop
  | created h => created h ∉ log ∧ deleted h ∉ log
  | used h => Live log h
  | deleted h => Live log h

/-- Every event is allowed where it happens. -/
def Sound (log : HandleLog ι) : Prop :=
  ∀ front e rest, log = front ++ e :: rest → Allows front e

theorem sound_nil : Sound ([] : HandleLog ι) := by
  intro front e rest hsplit
  cases front <;> cases hsplit

/-- A sound log goes on with an event that it allows. -/
theorem Sound.concat (hlog : Sound log) (hallows : Allows log e) : Sound (log ++ [e]) := by
  intro front e' rest hsplit
  rcases List.eq_nil_or_concat rest with rfl | ⟨rest, last, rfl⟩
  · obtain ⟨rfl, hlast⟩ := List.append_inj' hsplit rfl
    cases hlast
    exact hallows
  · rw [List.concat_eq_append, ← List.cons_append, ← List.append_assoc] at hsplit
    exact hlog front e' rest (List.append_inj' hsplit rfl).1

/-- Nothing is done to a handle after its deletion. -/
theorem Sound.not_mem_after (hlog : Sound log) {front rest : HandleLog ι}
    (hsplit : log = front ++ deleted h :: rest) :
    created h ∉ rest ∧ used h ∉ rest ∧ deleted h ∉ rest := by
  have hdead : ∀ e ∈ rest, ∃ before, deleted h ∈ before ∧ Allows before e := by
    intro e he
    obtain ⟨before, after, rfl⟩ := List.append_of_mem he
    refine ⟨front ++ deleted h :: before, by simp, hlog _ e after ?_⟩
    rw [hsplit, List.append_assoc, List.cons_append]
  refine ⟨fun hmem => ?_, fun hmem => ?_, fun hmem => ?_⟩
  · obtain ⟨before, hdeleted, hallows⟩ := hdead _ hmem
    exact hallows.2 hdeleted
  · obtain ⟨before, hdeleted, hallows⟩ := hdead _ hmem
    exact hallows.2 hdeleted
  · obtain ⟨before, hdeleted, hallows⟩ := hdead _ hmem
    exact hallows.2 hdeleted

/-- A handle that was created and is not live any more was deleted exactly once. -/
theorem Sound.count_deleted [DecidableEq ι] (hlog : Sound log) (hcreated : created h ∈ log)
    (hlive : ¬ Live log h) : log.count (deleted h) = 1 := by
  have hdeleted : deleted h ∈ log := by
    by_contra hnot
    exact hlive ⟨hcreated, hnot⟩
  obtain ⟨front, rest, hsplit⟩ := List.append_of_mem hdeleted
  have hbefore : deleted h ∉ front := (hlog front _ rest hsplit).2
  have hafter := (hlog.not_mem_after hsplit).2.2
  rw [hsplit, List.count_append, List.count_cons_self, List.count_eq_zero_of_not_mem hbefore,
    List.count_eq_zero_of_not_mem hafter]

/-- The log is sound, and the live handles are these. -/
structure Holds (log : HandleLog ι) (S : Set ι) : Prop where
  sound : Sound log
  live : ∀ h, Live log h ↔ h ∈ S

namespace Holds

theorem nil : Holds ([] : HandleLog ι) ∅ :=
  ⟨sound_nil, fun _ => ⟨fun hlive => (List.not_mem_nil hlive.1).elim, fun hmem => hmem.elim⟩⟩

theorem created (hlog : Holds log S) (hnew : Allows log (.created h)) :
    Holds (log ++ [.created h]) (insert h S) := by
  refine ⟨hlog.sound.concat hnew, fun g => ?_⟩
  rw [Set.mem_insert_iff, ← hlog.live g]
  simp only [Live, List.mem_append, List.mem_singleton, HandleEvent.created.injEq, reduceCtorEq,
    or_false]
  constructor
  · rintro ⟨hbefore | rfl, hdeleted⟩
    · exact Or.inr ⟨hbefore, hdeleted⟩
    · exact Or.inl rfl
  · rintro (rfl | ⟨hbefore, hdeleted⟩)
    · exact ⟨Or.inr rfl, hnew.2⟩
    · exact ⟨Or.inl hbefore, hdeleted⟩

theorem used (hlog : Holds log S) (hmem : h ∈ S) : Holds (log ++ [.used h]) S := by
  refine ⟨hlog.sound.concat ((hlog.live h).mpr hmem), fun g => ?_⟩
  rw [← hlog.live g]
  simp only [Live, List.mem_append, List.mem_singleton, reduceCtorEq, or_false]

theorem deleted (hlog : Holds log S) (hmem : h ∈ S) : Holds (log ++ [.deleted h]) (S \ {h}) := by
  refine ⟨hlog.sound.concat ((hlog.live h).mpr hmem), fun g => ?_⟩
  rw [Set.mem_sdiff, Set.mem_singleton_iff, ← hlog.live g]
  simp only [Live, List.mem_append, List.mem_singleton, reduceCtorEq, or_false,
    HandleEvent.deleted.injEq, not_or, and_assoc]

end Holds

end HandleLog
