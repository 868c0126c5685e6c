import WasmHot.Concurrent.SharedWorld
import Mathlib.Logic.Function.Basic

/-!
# Two objects with one id

An id can be created again while the `Destroy` of its former object is between the erase and the
`RemoveAll`. The storage knows ids only, so the `RemoveAll` takes the components of the new object
with it.

The history counts the `Create`s of each id. A view belongs to the incarnation its `Get` found, a
component to the incarnation of the view it was last written through, and a `Destroy` ends the
incarnation its erase found. `Incarnations.Kept` is the invariant: nothing that a pending
`RemoveAll` would remove belongs to a later incarnation than the one it ends.
-/

namespace WasmHot

/-- The thread whose plugin invocation takes the step. -/
def SharedAction.invoker : SharedAction → Option ThreadId
  | .hostCall t _ _ => some t
  | .invokeReturn t _ _ => some t
  | _ => none

/-- How often each id was created so far, and at which count each view was handed out, each pending
`Destroy` did its erase, and the view was handed out through which each component was last
written. A component that was not written through a view of its object counts as old. -/
structure Incarnations where
  created : UInt64 → ℕ
  handedOut : ThreadId → ℕ
  erased : ThreadId → ℕ
  written : UInt64 → ComponentType → ℕ

namespace Incarnations

/-- No id was created yet. -/
def start : Incarnations := ⟨fun _ => 0, fun _ => 0, fun _ => 0, fun _ _ => 0⟩

/-- The incarnation of the view through which a step writes components of this object. -/
def writer (g : Incarnations) (s : SharedWorld) (a : SharedAction) (objectId : UInt64) : ℕ :=
  match a.invoker with
  | none => 0
  | some t =>
      match s.calls.lookup t with
      | some (.invoking id _) => if id = objectId then g.handedOut t else 0
      | _ => 0

/-- Extend the history by one step. -/
def record (g : Incarnations) (s : SharedWorld) (a : SharedAction) : Incarnations where
  created :=
    match a with
    | .create header => Function.update g.created header.objectId (g.created header.objectId + 1)
    | _ => g.created
  handedOut :=
    match a with
    | .getSnapshot t objectId => Function.update g.handedOut t (g.created objectId)
    | _ => g.handedOut
  erased :=
    match a with
    | .destroyErase t objectId => Function.update g.erased t (g.created objectId)
    | _ => g.erased
  written objectId type :=
    if ∃ w ∈ s.writesOf a, w.Hits objectId type then g.writer s a objectId
    else g.written objectId type

/-- The step writes no component through a view that was handed out after a `Create`, while a
`Destroy` of the object that did its erase before that `Create` has its `RemoveAll` ahead. -/
def WritesBehind (g : Incarnations) (s : SharedWorld) (a : SharedAction) : Prop :=
  ∀ w ∈ s.writesOf a, ∀ t, s.calls.lookup t = some (.destroying w.objectId) →
    g.writer s a w.objectId ≤ g.erased t

instance (g : Incarnations) (s : SharedWorld) (a : SharedAction) : Decidable (g.WritesBehind s a) :=
  inferInstanceAs (Decidable (∀ w ∈ s.writesOf a,
    ∀ t, Finmap.lookup t s.calls = some (.destroying w.objectId) →
      g.writer s a w.objectId ≤ g.erased t))

/-- What relates the history to the state: a pending `RemoveAll` finds nothing of a later
incarnation, and no component and no view is of an incarnation that is still to come. -/
structure Kept (s : SharedWorld) (g : Incarnations) : Prop where
  pending : ∀ t objectId type data, s.calls.lookup t = some (.destroying objectId) →
    s.storage.read objectId type = some data → g.written objectId type ≤ g.erased t
  written_le : ∀ objectId type, g.written objectId type ≤ g.created objectId
  handedOut_le : ∀ t objectId view, s.calls.lookup t = some (.invoking objectId view) →
    g.handedOut t ≤ g.created objectId

variable {s s' : SharedWorld} {g : Incarnations} {a : SharedAction}

theorem created_mono (g : Incarnations) (s : SharedWorld) (a : SharedAction) (objectId : UInt64) :
    g.created objectId ≤ (g.record s a).created objectId := by
  cases a with
  | create header =>
    show _ ≤ Function.update g.created header.objectId (g.created header.objectId + 1) objectId
    by_cases hid : objectId = header.objectId
    · subst hid
      rw [Function.update_self]
      omega
    · rw [Function.update_of_ne hid]
  | _ => exact le_rfl

/-- A `Destroy` keeps the incarnation it ends. -/
theorem erased_of_destroying {t : ThreadId} {objectId : UInt64} (hstep : s.step a = some s')
    (hcall : s.calls.lookup t = some (.destroying objectId)) :
    (g.record s a).erased t = g.erased t := by
  cases a with
  | destroyErase u id =>
    obtain ⟨hidle, -, -⟩ := SharedWorld.destroyErase_eq hstep
    exact Function.update_of_ne (UnorderedMap.ne_of_lookup hcall hidle) _ _
  | _ => rfl

/-- A view keeps its incarnation. -/
theorem handedOut_of_invoking {t : ThreadId} {objectId : UInt64} {view : GameObject}
    (hstep : s.step a = some s') (hcall : s.calls.lookup t = some (.invoking objectId view)) :
    (g.record s a).handedOut t = g.handedOut t := by
  cases a with
  | getSnapshot u id =>
    obtain ⟨hidle, -, -⟩ := SharedWorld.getSnapshot_eq hstep
    exact Function.update_of_ne (UnorderedMap.ne_of_lookup hcall hidle) _ _
  | _ => rfl

theorem Kept.writer_le (hinv : Kept s g) (a : SharedAction) (objectId : UInt64) :
    g.writer s a objectId ≤ g.created objectId := by
  unfold writer
  cases a.invoker with
  | none => exact Nat.zero_le _
  | some t =>
    dsimp only
    split
    · next id view hcall =>
      by_cases hid : id = objectId
      · subst hid
        rw [if_pos rfl]
        exact hinv.handedOut_le t id view hcall
      · rw [if_neg hid]
        exact Nat.zero_le _
    · exact Nat.zero_le _

theorem Kept.step (hinv : Kept s g) (hbehind : g.WritesBehind s a) (hstep : s.step a = some s') :
    Kept s' (g.record s a) where
  pending t objectId type data hcall' hread' := by
    show (if ∃ w ∈ s.writesOf a, w.Hits objectId type then g.writer s a objectId
      else g.written objectId type) ≤ _
    have hread := SharedWorld.read_cases hstep hread'
    -- The `Destroy` was under way, and then the write is behind it, or it starts with this step.
    rcases SharedWorld.destroying_cases hstep hcall' with hcall | rfl
    · rw [erased_of_destroying hstep hcall]
      by_cases hhit : ∃ w ∈ s.writesOf a, w.Hits objectId type
      · rw [if_pos hhit]
        obtain ⟨w, hw, rfl, -⟩ := hhit
        exact hbehind w hw t hcall
      · rw [if_neg hhit]
        exact hinv.pending t objectId type data hcall (hread.resolve_left hhit)
    · -- The `Destroy` starts here: it ends the current incarnation, and nothing is younger.
      have herased : (g.record s (.destroyErase t objectId)).erased t = g.created objectId :=
        Function.update_self _ _ _
      rw [herased, if_neg (by simp [SharedWorld.writesOf])]
      exact hinv.written_le objectId type
  written_le objectId type := by
    show (if ∃ w ∈ s.writesOf a, w.Hits objectId type then g.writer s a objectId
      else g.written objectId type) ≤ _
    have hmono := created_mono g s a objectId
    split
    · exact (hinv.writer_le a objectId).trans hmono
    · exact (hinv.written_le objectId type).trans hmono
  handedOut_le t objectId view hcall' := by
    have hmono := created_mono g s a objectId
    -- The view was out before, or it is handed out in this step.
    rcases SharedWorld.invoking_cases hstep hcall' with hcall | rfl
    · rw [handedOut_of_invoking hstep hcall]
      exact (hinv.handedOut_le t objectId view hcall).trans hmono
    · have hhanded : (g.record s (.getSnapshot t objectId)).handedOut t = g.created objectId :=
        Function.update_self _ _ _
      rw [hhanded]
      exact hmono

end Incarnations

/-- The interleavings of all calls, from any state without calls, with their incarnations. -/
def recordedIncarnations : TransitionSystem (SharedWorld × Incarnations) SharedAction :=
  (sharedSystem (·.calls = ∅)).withHistory (fun _ => .start) Incarnations.record

/-- In every run whose writes stay behind the pending `Destroy`s, a component that a `RemoveAll`
finds was written through a view of an incarnation no later than the one its `Destroy` erased. -/
theorem removeAll_spares_later {p : SharedWorld × Incarnations}
    (h : recordedIncarnations.ReachWhere (fun p a => p.2.WritesBehind p.1 a) p) (t : ThreadId)
    (objectId : UInt64) (type : ComponentType) (data : ComponentData)
    (hcall : p.1.calls.lookup t = some (.destroying objectId))
    (hread : p.1.storage.read objectId type = some data) :
    p.2.written objectId type ≤ p.2.erased t := by
  have hinv : Incarnations.Kept p.1 p.2 := by
    refine h.invariant_withHistory ?_ fun s g a s' hinv hbehind hstep => hinv.step hbehind hstep
    intro s hidle
    refine ⟨fun t id type data hcall => ?_, fun _ _ => le_rfl, fun t id view hcall => ?_⟩
    · rw [show s.calls = ∅ from hidle] at hcall
      cases hcall
    · rw [show s.calls = ∅ from hidle] at hcall
      cases hcall
  exact hinv.pending t objectId type data hcall hread

/-! ## A `Destroy` that wipes the next object -/

/-- Object 5 is created again and gets component 7 before the `Destroy` of thread 0 goes on. -/
def createDuringDestroy : List SharedAction :=
  [.create ⟨1, 0, 5⟩, .destroyErase 0 5, .create ⟨1, 0, 5⟩, .getSnapshot 1 5,
    .hostCall 1 (.setComponent 5 7 0 0) none]

/-- The `Destroy` of thread 0 has erased incarnation 1, and its `RemoveAll` removes component 7 of
incarnation 2. -/
theorem removeAll_wipes_later :
    ∃ p p', recordedIncarnations.run (.empty, .start) createDuringDestroy = some p ∧
      recordedIncarnations.step p (.destroyRemoveAll 0) = some p' ∧
      p.1.calls.lookup 0 = some (.destroying 5) ∧ p.2.erased 0 = 1 ∧ p.2.written 5 7 = 2 ∧
      p.1.storage.read 5 7 = some [] ∧ p'.1.storage.read 5 7 = none :=
  ⟨_, _, rfl, rfl, by decide, by decide, by decide, by decide, by decide⟩

/-- Component 7 is written before the erase. -/
def writeThenErase : List SharedAction :=
  [.create ⟨1, 0, 5⟩, .getSnapshot 1 5, .hostCall 1 (.setComponent 5 7 0 0) none,
    .destroyErase 0 5]

/-- `removeAll_spares_later` on that run. -/
theorem removeAll_spares_later_writeThenErase :
    ∃ p, recordedIncarnations.runWhere (fun p a => p.2.WritesBehind p.1 a) (.empty, .start)
        writeThenErase = some p ∧ p.2.written 5 7 ≤ p.2.erased 0 :=
  have hstart : recordedIncarnations.Init (.empty, .start) := ⟨rfl, rfl⟩
  ⟨_, rfl, removeAll_spares_later (.of_runWhere (.init hstart) writeThenErase rfl) 0 5 7 []
    (by decide) (by decide)⟩

end WasmHot
