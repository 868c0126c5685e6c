import WasmHot.Lib.UnorderedMap
import Mathlib.Data.Set.Function

/-!
# Moving the entries of a map up a chain of keys

`moveTo` moves the value of one key to another. `shiftUp` does that along a chain of keys `name 0`,
`name 1` and so on, the last step of the chain first, so that each value goes up by one and is not
moved again. What is at the end of the chain makes room, if something takes its place.

The keys of a chain are different from each other, and nothing is assumed about which of them have
values. `shiftUp_keeps` says that no other value is lost: those that stay in the map can be followed
to different places.
-/

namespace UnorderedMap

variable {κ ν : Type*} [DecidableEq κ]

/-- The value of `source` is moved to `target`, if there is one. -/
def moveTo (source target : κ) (m : UnorderedMap κ ν) : UnorderedMap κ ν :=
  match m.lookup source with
  | none => m
  | some v => (m.erase source).insert target v

theorem lookup_moveTo (source target : κ) (m : UnorderedMap κ ν) (k : κ) :
    (moveTo source target m).lookup k =
      if k = target then (m.lookup source).or (m.lookup target)
      else if k = source then none
      else m.lookup k := by
  unfold moveTo
  cases hsource : m.lookup source with
  | none =>
    by_cases htarget : k = target
    · rw [if_pos htarget, htarget, Option.none_or]
    · by_cases hk : k = source
      · rw [if_neg htarget, if_pos hk, hk, hsource]
      · rw [if_neg htarget, if_neg hk]
  | some v =>
    dsimp only
    rw [lookup_insert, lookup_erase, Option.some_or]

theorem lookup_moveTo_of_ne {source target k : κ} (hsource : k ≠ source) (htarget : k ≠ target)
    (m : UnorderedMap κ ν) : (moveTo source target m).lookup k = m.lookup k := by
  rw [lookup_moveTo, if_neg htarget, if_neg hsource]

/-- Each value of the chain goes up by one, from `name (n - 1)` down to `name 0`. -/
def shiftUp (name : ℕ → κ) : ℕ → UnorderedMap κ ν → UnorderedMap κ ν
  | 0, m => m
  | n + 1, m => shiftUp name n (moveTo (name n) (name (n + 1)) m)

variable {name : ℕ → κ}

/-- Nothing else is touched. -/
theorem lookup_shiftUp_of_ne {n : ℕ} {k : κ} (hk : ∀ i ≤ n, k ≠ name i) (m : UnorderedMap κ ν) :
    (shiftUp name n m).lookup k = m.lookup k := by
  induction n generalizing m with
  | zero => rfl
  | succ n ih =>
    rw [shiftUp, ih fun i hi => hk i (Nat.le_succ_of_le hi),
      lookup_moveTo_of_ne (hk n (Nat.le_succ n)) (hk (n + 1) le_rfl)]

/-- The place at the start of the chain is left empty. -/
theorem lookup_shiftUp_zero {n : ℕ} (hn : n ≠ 0) (hname : Function.Injective name)
    (m : UnorderedMap κ ν) : (shiftUp name n m).lookup (name 0) = none := by
  induction n generalizing m with
  | zero => exact absurd rfl hn
  | succ n ih =>
    rw [shiftUp]
    cases n with
    | zero =>
      rw [shiftUp, lookup_moveTo, if_neg (hname.ne Nat.zero_ne_one),
        if_pos rfl]
    | succ n => exact ih (Nat.succ_ne_zero n) _

/-- A place further up has what was below it. If that was nothing, it is left empty, unless it is
the end of the chain. -/
theorem lookup_shiftUp_succ {n i : ℕ} (hi : i < n) (hname : Function.Injective name)
    (m : UnorderedMap κ ν) :
    (shiftUp name n m).lookup (name (i + 1)) =
      (m.lookup (name i)).or (if i + 1 = n then m.lookup (name (i + 1)) else none) := by
  induction n generalizing m with
  | zero => exact absurd hi (Nat.not_lt_zero i)
  | succ n ih =>
    have hne : name n ≠ name (n + 1) := hname.ne (Nat.ne_of_lt (Nat.lt_succ_self n))
    rw [shiftUp]
    by_cases htop : i = n
    · -- The step that comes first is the last one that touches the end of the chain.
      subst htop
      have habove : ∀ j ≤ i, name (i + 1) ≠ name j :=
        fun j hj => hname.ne (Nat.ne_of_gt (Nat.lt_succ_of_le hj))
      rw [lookup_shiftUp_of_ne habove, lookup_moveTo, if_pos rfl, if_pos rfl]
    · have hlt : i < n := by omega
      have hbelow : (moveTo (name n) (name (n + 1)) m).lookup (name i) = m.lookup (name i) :=
        lookup_moveTo_of_ne (hname.ne (by omega)) (hname.ne (by omega)) m
      have htopEmpty : (if i + 1 = n then
          (moveTo (name n) (name (n + 1)) m).lookup (name (i + 1)) else none) = none := by
        split
        · next heq => rw [heq, lookup_moveTo, if_neg hne, if_pos rfl]
        · rfl
      rw [ih hlt, hbelow, htopEmpty, if_neg (by omega)]

/-! ## Nothing else is lost -/

/-- The value at the end of the chain, where another one takes its place. -/
def Displaced (name : ℕ → κ) (n : ℕ) (m : UnorderedMap κ ν) (k : κ) : Prop :=
  ∃ i, i + 1 = n ∧ k = name n ∧ (m.lookup (name i)).isSome

/-- Where the value of a key goes. -/
noncomputable def shifted (name : ℕ → κ) (n : ℕ) (k : κ) : κ :=
  if h : ∃ i < n, k = name i then name (h.choose + 1) else k

theorem shifted_name {n i : ℕ} (hi : i < n) (hname : Function.Injective name) :
    shifted name n (name i) = name (i + 1) := by
  have h : ∃ j < n, name i = name j := ⟨i, hi, rfl⟩
  rw [shifted, dif_pos h, ← hname h.choose_spec.2]

theorem shifted_of_ne {n : ℕ} {k : κ} (h : ¬ ∃ i < n, k = name i) : shifted name n k = k :=
  dif_neg h

/-- A value that is not displaced is found where it went. -/
theorem lookup_shifted {n : ℕ} {k : κ} {v : ν} {m : UnorderedMap κ ν} (hv : m.lookup k = some v)
    (hk : ¬ Displaced name n m k) (hname : Function.Injective name) :
    (shiftUp name n m).lookup (shifted name n k) = some v := by
  by_cases hchain : ∃ i < n, k = name i
  · obtain ⟨i, hi, rfl⟩ := hchain
    rw [shifted_name hi hname, lookup_shiftUp_succ hi hname, hv, Option.some_or]
  · rw [shifted_of_ne hchain]
    by_cases hend : k = name n
    · subst hend
      cases n with
      | zero => exact hv
      | succ n =>
        have hbelow : m.lookup (name n) = none :=
          Option.not_isSome_iff_eq_none.mp fun h => hk ⟨n, rfl, rfl, h⟩
        rw [lookup_shiftUp_succ (Nat.lt_succ_self n) hname, hbelow, if_pos rfl, hv, Option.none_or]
    · rw [lookup_shiftUp_of_ne _ m, hv]
      rintro i hi rfl
      rcases Nat.lt_or_eq_of_le hi with hlt | rfl
      · exact hchain ⟨i, hlt, rfl⟩
      · exact hend rfl

/-- Values that are not displaced go to different places. -/
theorem shifted_injOn (n : ℕ) (m : UnorderedMap κ ν) (hname : Function.Injective name) :
    Set.InjOn (shifted name n) {k | (m.lookup k).isSome ∧ ¬ Displaced name n m k} := by
  -- A value of the chain only comes to where another one was at the end of the chain.
  have hother : ∀ i < n, ∀ k, (m.lookup (name i)).isSome → ¬ Displaced name n m k →
      (¬ ∃ j < n, k = name j) → name (i + 1) ≠ k := by
    rintro i hi k hsome hk hchain rfl
    by_cases hend : i + 1 = n
    · exact hk ⟨i, hend, congrArg name hend, hsome⟩
    · exact hchain ⟨i + 1, by omega, rfl⟩
  rintro k ⟨hsome, hk⟩ k' ⟨hsome', hk'⟩ heq
  by_cases hchain : ∃ i < n, k = name i
  · obtain ⟨i, hi, rfl⟩ := hchain
    rw [shifted_name hi hname] at heq
    by_cases hchain' : ∃ j < n, k' = name j
    · obtain ⟨j, hj, rfl⟩ := hchain'
      rw [shifted_name hj hname] at heq
      rw [Nat.succ.inj (hname heq)]
    · rw [shifted_of_ne hchain'] at heq
      exact absurd heq (hother i hi k' hsome hk' hchain')
  · rw [shifted_of_ne hchain] at heq
    by_cases hchain' : ∃ j < n, k' = name j
    · obtain ⟨j, hj, rfl⟩ := hchain'
      rw [shifted_name hj hname] at heq
      exact absurd heq.symm (hother j hj k hsome' hk hchain)
    · rw [shifted_of_ne hchain'] at heq
      exact heq

end UnorderedMap
