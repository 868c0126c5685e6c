import Mathlib.Algebra.Order.Monoid.Basic
import Mathlib.Algebra.Order.Monoid.Defs
import Mathlib.Data.List.Chain

/-!
# Events with a distance

Something that happens at times `times`, the latest first, with at least `gap` between each and the
next. How many times fit between two others follows from the distance alone.
-/

/-- The times, the latest first, have at least this distance. -/
def SpacedTimes {α : Type*} [Add α] [LE α] (gap : α) (times : List α) : Prop :=
  times.IsChain fun later before => before + gap ≤ later

/-- A time at this distance from the latest one. -/
theorem SpacedTimes.cons {α : Type*} [Add α] [LE α] {gap time : α} {times : List α}
    (h : SpacedTimes gap times) (htime : ∀ last, times.head? = some last → last + gap ≤ time) :
    SpacedTimes gap (time :: times) := by
  cases times with
  | nil => exact List.isChain_singleton time
  | cons last older => exact List.isChain_cons_cons.mpr ⟨htime last rfl, h⟩

namespace SpacedTimes

variable {α : Type*} [AddCommMonoid α] [LinearOrder α] [IsOrderedCancelAddMonoid α]
  {gap start stop time : α} {times : List α}

/-- Each two of the times have the distance. -/
theorem pairwise (h : SpacedTimes gap times) (hgap : 0 ≤ gap) :
    times.Pairwise fun later before => before + gap ≤ later := by
  have : Trans (fun later before : α => before + gap ≤ later)
      (fun later before => before + gap ≤ later) (fun later before => before + gap ≤ later) :=
    ⟨fun hfirst hsecond => (add_le_add_left ((le_add_of_nonneg_right hgap).trans hsecond) gap).trans
      hfirst⟩
  exact List.isChain_iff_pairwise.mp h

/-- Of times from `start` on, the latest is as late as the number of the others makes it. -/
theorem add_length_nsmul_le (h : (time :: times).Pairwise fun later before => before + gap ≤ later)
    (hstart : ∀ t ∈ time :: times, start ≤ t) : start + times.length • gap ≤ time := by
  induction times generalizing time with
  | nil =>
    rw [List.length_nil, zero_nsmul, add_zero]
    exact hstart time List.mem_cons_self
  | cons next older ih =>
    obtain ⟨htime, hnext⟩ := List.pairwise_cons.mp h
    have hrest := ih hnext fun t hmem => hstart t (List.mem_cons_of_mem _ hmem)
    calc start + (next :: older).length • gap
        = start + older.length • gap + gap := by rw [List.length_cons, succ_nsmul, add_assoc]
      _ ≤ next + gap := add_le_add_left hrest gap
      _ ≤ time := htime next List.mem_cons_self

/-- The last of the times is as late as the number of those after the first makes it. -/
theorem first_add_nsmul_le {first last : α} (h : SpacedTimes gap (times ++ [first])) (hgap : 0 ≤ gap)
    (hlast : (times ++ [first]).head? = some last) : first + times.length • gap ≤ last := by
  cases times with
  | nil =>
    cases hlast
    rw [List.length_nil, zero_nsmul, add_zero]
  | cons time older =>
    cases hlast
    have hpairwise := h.pairwise hgap
    have hstart : ∀ t ∈ last :: (older ++ [first]), first ≤ t := by
      intro t hmem
      rcases List.mem_append.mp (show t ∈ (last :: older) ++ [first] from hmem) with hmem | hmem
      · have hfirst := (List.pairwise_append.mp hpairwise).2.2 t hmem first List.mem_cons_self
        exact (le_add_of_nonneg_right hgap).trans hfirst
      · exact (List.mem_singleton.mp hmem).ge
    have hlength : first + (older ++ [first]).length • gap ≤ last :=
      add_length_nsmul_le hpairwise hstart
    rwa [List.length_append] at hlength

/-- Fewer times than fit with room for one more are in a window. -/
theorem window (h : SpacedTimes gap times) (hgap : 0 < gap) (hwindow : start ≤ stop) :
    start + (times.countP fun t => decide (start ≤ t ∧ t < stop)) • gap < stop + gap := by
  have hinside := (h.pairwise hgap.le).filter fun t => decide (start ≤ t ∧ t < stop)
  have hbounds : ∀ t ∈ times.filter fun t => decide (start ≤ t ∧ t < stop), start ≤ t ∧ t < stop :=
    fun t hmem => of_decide_eq_true (List.mem_filter.mp hmem).2
  rw [List.countP_eq_length_filter]
  cases hlist : times.filter fun t => decide (start ≤ t ∧ t < stop) with
  | nil =>
    rw [List.length_nil, zero_nsmul, add_zero]
    exact hwindow.trans_lt (lt_add_of_pos_right stop hgap)
  | cons latest older =>
    rw [hlist] at hinside hbounds
    have hlatest := (hbounds latest List.mem_cons_self).2
    have hlength := add_length_nsmul_le hinside fun t hmem => (hbounds t hmem).1
    calc start + (latest :: older).length • gap
        = start + older.length • gap + gap := by rw [List.length_cons, succ_nsmul, add_assoc]
      _ ≤ latest + gap := add_le_add_left hlength gap
      _ < stop + gap := add_lt_add_left hlatest gap

end SpacedTimes
