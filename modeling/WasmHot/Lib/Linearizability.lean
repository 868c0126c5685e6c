import Mathlib.Data.List.Basic
import Mathlib.Data.List.Flatten
import Mathlib.Data.Nat.Basic

/-!
# Linearizability

A completed call carries its operation, its result, and the times of its first and its last step. A
`Linearization` of a set of completed calls is an order of them that a sequential specification can
replay with the same results, and in which no call stands before one that had returned when it
began.

The order is built in blocks. A call that takes effect when it returns opens a block of its own. A
call whose effect is overwritten by another one, its `main`, can be put into the block of that one
as long as it spans the block's time, even if it returns much later (`Explains.absorb`): the point
where it takes effect then depends on what other calls have done meanwhile.
-/

variable {ω ρ σ : Type*}

/-- A call that has returned. -/
structure CompletedCall (ω ρ : Type*) where
  op : ω
  result : ρ
  invoked : ℕ
  returned : ℕ
  deriving DecidableEq

/-- What each operation returns, and what it makes of the state. -/
abbrev SequentialSpec (ω ρ σ : Type*) := ω → σ → ρ × σ

namespace SequentialSpec

variable (spec : SequentialSpec ω ρ σ)

/-- Performing the calls one after another gives their results and leads from the first state to
the last one. -/
def Replays : σ → List (CompletedCall ω ρ) → σ → Prop
  | s, [], s' => s' = s
  | s, c :: calls, s' => (spec c.op s).1 = c.result ∧ Replays (spec c.op s).2 calls s'

/-- Whatever the state, the call has its result, and its effect is gone after `main`. -/
def Absorbed (c main : CompletedCall ω ρ) : Prop :=
  ∀ s, (spec c.op s).1 = c.result ∧ spec main.op (spec c.op s).2 = spec main.op s

/-- A sequential order of the completed calls. -/
structure Linearization (start : σ) (completed order : List (CompletedCall ω ρ)) : Prop where
  /-- The order has the completed calls, each as often as it was made. -/
  perm : order.Perm completed
  /-- A call stands before those that began after it had returned. -/
  realTime : order.Pairwise fun earlier later => ¬ later.returned < earlier.invoked
  /-- Performing the calls in this order gives their results. -/
  legal : ∃ s, spec.Replays start order s

variable {spec} {s s₁ s₂ : σ} {c main : CompletedCall ω ρ}

theorem Replays.append {calls calls' : List (CompletedCall ω ρ)} (h : spec.Replays s calls s₁)
    (h' : spec.Replays s₁ calls' s₂) : spec.Replays s (calls ++ calls') s₂ := by
  induction calls generalizing s with
  | nil =>
    cases h
    exact h'
  | cons c calls ih => exact ⟨h.1, ih h.2⟩

/-- Calls that are absorbed by the call after them can be performed as well as left out. -/
theorem replays_absorbed {late : List (CompletedCall ω ρ)}
    (hlate : ∀ c ∈ late, spec.Absorbed c main) (s s' : σ) :
    spec.Replays s (late ++ [main]) s' ↔ spec.Replays s [main] s' := by
  induction late generalizing s with
  | nil => rfl
  | cons c late ih =>
    obtain ⟨hresult, heffect⟩ := hlate c List.mem_cons_self s
    have hrest := ih (fun c' hc' => hlate c' (List.mem_cons_of_mem c hc')) (spec c.op s).2
    constructor
    · rintro ⟨-, h⟩
      have h := hrest.mp h
      simpa only [Replays, heffect] using h
    · intro h
      refine ⟨hresult, hrest.mpr ?_⟩
      simpa only [Replays, heffect] using h

end SequentialSpec

/-- The calls that take effect at one time: `main`, and before it the ones that it absorbs. -/
structure CallBlock (ω ρ : Type*) where
  time : ℕ
  late : List (CompletedCall ω ρ)
  main : CompletedCall ω ρ

namespace CallBlock

/-- The calls of the block in their order. -/
def calls (b : CallBlock ω ρ) : List (CompletedCall ω ρ) := b.late ++ [b.main]

/-- The block with one more absorbed call. -/
def absorb (b : CallBlock ω ρ) (c : CompletedCall ω ρ) : CallBlock ω ρ :=
  { b with late := c :: b.late }

/-- Every block is still there, perhaps with more absorbed calls. -/
def Extend (blocks blocks' : List (CallBlock ω ρ)) : Prop :=
  ∀ b ∈ blocks, ∃ b' ∈ blocks', b'.time = b.time ∧ b'.main = b.main

theorem Extend.refl (blocks : List (CallBlock ω ρ)) : Extend blocks blocks :=
  fun b hb => ⟨b, hb, rfl, rfl⟩

theorem Extend.append (blocks more : List (CallBlock ω ρ)) : Extend blocks (blocks ++ more) :=
  fun b hb => ⟨b, List.mem_append_left more hb, rfl, rfl⟩

theorem Extend.absorb (before after : List (CallBlock ω ρ)) (b : CallBlock ω ρ)
    (c : CompletedCall ω ρ) : Extend (before ++ b :: after) (before ++ b.absorb c :: after) := by
  intro b' hb'
  rcases List.mem_append.mp hb' with hb' | hb'
  · exact ⟨b', List.mem_append_left _ hb', rfl, rfl⟩
  · rcases List.mem_cons.mp hb' with rfl | hb'
    · exact ⟨_, List.mem_append_right _ List.mem_cons_self, rfl, rfl⟩
    · exact ⟨b', List.mem_append_right _ (List.mem_cons_of_mem _ hb'), rfl, rfl⟩

end CallBlock

/-- The blocks account for the completed calls and for the state that is reached now. -/
structure Explains (spec : SequentialSpec ω ρ σ) (start : σ) (blocks : List (CallBlock ω ρ)) (s : σ)
    (now : ℕ) (completed : List (CompletedCall ω ρ)) : Prop where
  perm : (blocks.flatMap CallBlock.calls).Perm completed
  sorted : blocks.Pairwise fun b b' => b.time < b'.time
  past : ∀ b ∈ blocks, b.time < now
  spans : ∀ b ∈ blocks, ∀ c ∈ b.calls, c.invoked ≤ b.time ∧ b.time ≤ c.returned
  absorbed : ∀ b ∈ blocks, ∀ c ∈ b.late, spec.Absorbed c b.main
  replays : spec.Replays start (blocks.map CallBlock.main) s

namespace Explains

variable {spec : SequentialSpec ω ρ σ} {start s s' : σ} {blocks : List (CallBlock ω ρ)} {now : ℕ}
  {completed : List (CompletedCall ω ρ)} {c : CompletedCall ω ρ} {b : CallBlock ω ρ}

theorem nil (spec : SequentialSpec ω ρ σ) (s : σ) (now : ℕ) : Explains spec s [] s now [] where
  perm := List.Perm.refl []
  sorted := List.Pairwise.nil
  past := nofun
  spans := nofun
  absorbed := nofun
  replays := rfl

/-- Time passes. -/
theorem wait {later : ℕ} (h : Explains spec start blocks s now completed) (hlater : now ≤ later) :
    Explains spec start blocks s later completed :=
  { h with past := fun b hb => Nat.lt_of_lt_of_le (h.past b hb) hlater }

/-- A call takes effect now, with the result of the specification. -/
theorem commit (h : Explains spec start blocks s now completed) (hinvoked : c.invoked ≤ now)
    (hreturned : now ≤ c.returned) (hspec : spec c.op s = (c.result, s')) :
    Explains spec start (blocks ++ [⟨now, [], c⟩]) s' (now + 1) (completed ++ [c]) where
  perm := by
    rw [List.flatMap_append]
    exact h.perm.append (List.Perm.refl [c])
  sorted := by
    refine List.pairwise_append.mpr ⟨h.sorted, List.pairwise_singleton _ _, ?_⟩
    intro b hb b' hb'
    cases List.mem_singleton.mp hb'
    exact h.past b hb
  past := by
    intro b hb
    rcases List.mem_append.mp hb with hb | hb
    · exact Nat.lt_succ_of_lt (h.past b hb)
    · cases List.mem_singleton.mp hb
      exact Nat.lt_succ_self now
  spans := by
    intro b hb
    rcases List.mem_append.mp hb with hb | hb
    · exact h.spans b hb
    · intro c' hc'
      cases List.mem_singleton.mp hb
      cases List.mem_singleton.mp hc'
      exact ⟨hinvoked, hreturned⟩
  absorbed := by
    intro b hb
    rcases List.mem_append.mp hb with hb | hb
    · exact h.absorbed b hb
    · cases List.mem_singleton.mp hb
      nofun
  -- The new block is last, and its call is the only one in it.
  replays := by
    rw [List.map_append]
    refine h.replays.append ⟨congrArg Prod.fst hspec, ?_⟩
    exact (congrArg Prod.snd hspec).symm

/-- A call takes effect in an old block that absorbs it. -/
theorem absorb (h : Explains spec start blocks s now completed) (hb : b ∈ blocks)
    (hinvoked : c.invoked ≤ b.time) (hreturned : b.time ≤ c.returned)
    (habsorbed : spec.Absorbed c b.main) :
    ∃ blocks', Explains spec start blocks' s now (completed ++ [c]) ∧
      CallBlock.Extend blocks blocks' := by
  obtain ⟨before, after, rfl⟩ := List.append_of_mem hb
  -- Each law speaks about the blocks one by one, and a block other than `b` is as it was.
  have hold : ∀ b' ∈ before ++ b.absorb c :: after,
      b' = b.absorb c ∨ b' ∈ before ++ b :: after := by
    intro b' hb'
    simp only [List.mem_append, List.mem_cons] at hb' ⊢
    tauto
  refine ⟨before ++ b.absorb c :: after, ?_, CallBlock.Extend.absorb before after b c⟩
  constructor
  case perm =>
    have hmove : ((before ++ b.absorb c :: after).flatMap CallBlock.calls).Perm
        (c :: (before ++ b :: after).flatMap CallBlock.calls) := by
      rw [List.flatMap_append, List.flatMap_append]
      exact List.perm_middle
    have hcons : (c :: completed).Perm (completed ++ [c]) :=
      (List.perm_append_singleton c completed).symm
    exact (hmove.trans (h.perm.cons c)).trans hcons
  case sorted =>
    have hsorted := h.sorted
    rw [List.pairwise_append, List.pairwise_cons] at hsorted ⊢
    refine ⟨hsorted.1, hsorted.2.1, fun b' hb' b'' hb'' => ?_⟩
    rcases List.mem_cons.mp hb'' with rfl | hb''
    · exact hsorted.2.2 b' hb' b List.mem_cons_self
    · exact hsorted.2.2 b' hb' b'' (List.mem_cons_of_mem b hb'')
  case past =>
    intro b' hb'
    rcases hold b' hb' with rfl | hb'
    · exact h.past b hb
    · exact h.past b' hb'
  case spans =>
    intro b' hb'
    rcases hold b' hb' with rfl | hb'
    · intro c' hc'
      rcases List.mem_cons.mp hc' with rfl | hc'
      · exact ⟨hinvoked, hreturned⟩
      · exact h.spans b hb c' hc'
    · exact h.spans b' hb'
  case absorbed =>
    intro b' hb'
    rcases hold b' hb' with rfl | hb'
    · intro c' hc'
      rcases List.mem_cons.mp hc' with rfl | hc'
      · exact habsorbed
      · exact h.absorbed b hb c' hc'
    · exact h.absorbed b' hb'
  case replays =>
    have hmain : (before ++ b.absorb c :: after).map CallBlock.main =
        (before ++ b :: after).map CallBlock.main := by
      simp only [List.map_append, List.map_cons]
      rfl
    rw [hmain]
    exact h.replays

/-- Performing the blocks with the calls they absorb is performing their main calls. -/
theorem replays_flatMap (habsorbed : ∀ b ∈ blocks, ∀ c ∈ b.late, spec.Absorbed c b.main)
    (h : spec.Replays s (blocks.map CallBlock.main) s') :
    spec.Replays s (blocks.flatMap CallBlock.calls) s' := by
  induction blocks generalizing s with
  | nil => exact h
  | cons b blocks ih =>
    have hblock : spec.Replays s b.calls (spec b.main.op s).2 :=
      (SequentialSpec.replays_absorbed (habsorbed b List.mem_cons_self) s _).mpr ⟨h.1, rfl⟩
    exact hblock.append (ih (fun b' hb' => habsorbed b' (List.mem_cons_of_mem b hb')) h.2)

/-- Calls that all span the time of their block respect real time in the order of the blocks. -/
theorem pairwise_flatMap (hsorted : blocks.Pairwise fun b b' => b.time < b'.time)
    (hspans : ∀ b ∈ blocks, ∀ c ∈ b.calls, c.invoked ≤ b.time ∧ b.time ≤ c.returned) :
    (blocks.flatMap CallBlock.calls).Pairwise
      fun earlier later => ¬ later.returned < earlier.invoked := by
  induction blocks with
  | nil => exact List.Pairwise.nil
  | cons b blocks ih =>
    rw [List.pairwise_cons] at hsorted
    rw [List.flatMap_cons, List.pairwise_append]
    refine ⟨?_, ih hsorted.2 fun b' hb' => hspans b' (List.mem_cons_of_mem b hb'), ?_⟩
    · refine List.pairwise_of_forall_mem_list fun c hc c' hc' => ?_
      have h := (hspans b List.mem_cons_self c hc).1
      have h' := (hspans b List.mem_cons_self c' hc').2
      omega
    · intro c hc c' hc'
      obtain ⟨b', hb', hc'⟩ := List.mem_flatMap.mp hc'
      have h := (hspans b List.mem_cons_self c hc).1
      have h' := (hspans b' (List.mem_cons_of_mem b hb') c' hc').2
      have hlt := hsorted.1 b' hb'
      omega

/-- The calls in the order of their blocks are a linearization. -/
theorem linearization (h : Explains spec start blocks s now completed) :
    spec.Linearization start completed (blocks.flatMap CallBlock.calls) where
  perm := h.perm
  realTime := pairwise_flatMap h.sorted h.spans
  legal := ⟨s, replays_flatMap h.absorbed h.replays⟩

end Explains
