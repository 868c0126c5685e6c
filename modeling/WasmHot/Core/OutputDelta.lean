import WasmHot.Core.Words

/-!
# What the result of ApplyOutputDelta means

A caller learns from `ApplyOutputDelta` whether the plugin's output was a delta. Whether it was also
applied is up to the view: `WriteComponent` returns nothing and writes nothing when the view has no
storage, while its overload with a schema returns false there. So the result means what it says
exactly for the views that have a storage, and for outputs that are no delta
(`applyOutputDelta_means_iff`).
-/

namespace WasmHot

/-- The bytes of a delta: the magic, the component type and the payload. -/
def deltaBytes (type : ComponentType) (payload : ComponentData) : List UInt8 :=
  storeU32 deltaMagic ++ (storeU32 type ++ payload)

namespace GameObject

/-- The component of the view is the payload, and every other component of every object is as it
was. -/
structure DeltaApplied (obj : GameObject) (type : ComponentType) (payload : ComponentData)
    (s s' : ComponentStorage) : Prop where
  applied : obj.readComponent type s' = some payload
  others : ∀ id type', (id, type') ≠ (obj.header.objectId, type) →
    s'.read id type' = s.read id type'

/-- The result is true exactly when the output is a delta that has been applied, and where it is
false no component has changed. -/
def DeltaMeansResult (obj : GameObject) (output : List UInt8) (s : ComponentStorage) : Prop :=
  ((obj.applyOutputDelta output s).1 = true ↔
      ∃ type payload, output = deltaBytes type payload ∧
        obj.DeltaApplied type payload s (obj.applyOutputDelta output s).2) ∧
    ((obj.applyOutputDelta output s).1 = false →
      (obj.applyOutputDelta output s).2.SameComponents s)

/-- The outputs that are accepted are the deltas. -/
theorem isDelta_iff {output : List UInt8} :
    IsDelta output ↔ ∃ type payload, output = deltaBytes type payload := by
  constructor
  · rintro ⟨hlength, hmagic⟩
    have hrest : 4 ≤ (output.drop 4).length := by
      rw [List.length_drop]
      omega
    refine ⟨loadU32 (output.drop 4), (output.drop 4).drop 4, ?_⟩
    rw [deltaBytes, storeU32_loadU32 hrest, ← hmagic, storeU32_loadU32 (by omega)]
  · rintro ⟨type, payload, rfl⟩
    refine ⟨?_, loadU32_storeU32_append _ _⟩
    simp only [deltaBytes, List.length_append, length_storeU32]
    omega

/-- A delta is read as the type and the payload it was made from. -/
theorem applyOutputDelta_deltaBytes (obj : GameObject) (type : ComponentType)
    (payload : ComponentData) (s : ComponentStorage) :
    obj.applyOutputDelta (deltaBytes type payload) s =
      (true, obj.writeComponent type payload s) := by
  have htype : (deltaBytes type payload).drop 4 = storeU32 type ++ payload :=
    List.drop_left' (length_storeU32 _)
  have hpayload : (deltaBytes type payload).drop 8 = payload := by
    have hsplit : (deltaBytes type payload).drop 8 = ((deltaBytes type payload).drop 4).drop 4 := by
      rw [List.drop_drop]
    rw [hsplit, htype]
    exact List.drop_left' (length_storeU32 _)
  rw [applyOutputDelta_eq, if_pos (isDelta_iff.mpr ⟨type, payload, rfl⟩), htype, hpayload,
    loadU32_storeU32_append]

/-- With a storage a write is seen under its type, and nowhere else. -/
theorem deltaApplied_writeComponent {obj : GameObject} (hstorage : obj.storage = .singleton)
    (type : ComponentType) (payload : ComponentData) (s : ComponentStorage) :
    obj.DeltaApplied type payload s (obj.writeComponent type payload s) := by
  constructor
  · simp [readComponent, writeComponent, hstorage, ComponentStorage.read_write]
  · intro id type' hne
    simp only [writeComponent, hstorage]
    exact ComponentStorage.read_write_of_ne hne s payload

/-- Without a storage nothing is applied. -/
theorem not_deltaApplied_of_null {obj : GameObject} (hstorage : obj.storage = .null)
    (type : ComponentType) (payload : ComponentData) (s s' : ComponentStorage) :
    ¬ obj.DeltaApplied type payload s s' := by
  intro happlied
  have hread := happlied.applied
  rw [readComponent, hstorage] at hread
  cases hread

/-- `ApplyOutputDelta` means what it returns exactly where the view has a storage or the output is
no delta. -/
theorem applyOutputDelta_means_iff (obj : GameObject) (output : List UInt8)
    (s : ComponentStorage) :
    obj.DeltaMeansResult output s ↔ (obj.storage = .singleton ∨ ¬ IsDelta output) := by
  by_cases hdelta : IsDelta output
  · obtain ⟨type, payload, rfl⟩ := isDelta_iff.mp hdelta
    have hresult := obj.applyOutputDelta_deltaBytes type payload s
    rw [or_iff_left (not_not.mpr hdelta), DeltaMeansResult, hresult]
    cases hstorage : obj.storage with
    | null =>
      refine iff_of_false (fun hmeans => ?_) nofun
      obtain ⟨type', payload', -, happlied⟩ := hmeans.1.mp rfl
      exact not_deltaApplied_of_null hstorage type' payload' s _ happlied
    | singleton =>
      refine iff_of_true ⟨iff_of_true rfl ?_, nofun⟩ rfl
      exact ⟨type, payload, rfl, deltaApplied_writeComponent hstorage type payload s⟩
  · have hresult : obj.applyOutputDelta output s = (false, s) := by
      rw [applyOutputDelta_eq, if_neg hdelta]
    refine iff_of_true ?_ (Or.inr hdelta)
    rw [DeltaMeansResult, hresult]
    refine ⟨iff_of_false nofun ?_, fun _ => .refl s⟩
    rintro ⟨type, payload, rfl, -⟩
    exact hdelta (isDelta_iff.mpr ⟨type, payload, rfl⟩)

/-- A delta for component 7 that is given to a view without a storage: the result is true, and the
view has no component 7. -/
theorem delta_lost_without_storage :
    let obj : GameObject := ⟨⟨1, 0, 5⟩, .null⟩
    obj.applyOutputDelta (deltaBytes 7 [1]) .empty = (true, .empty) ∧
      obj.readComponent 7 .empty = none ∧ ¬ obj.DeltaMeansResult (deltaBytes 7 [1]) .empty := by
  intro obj
  refine ⟨obj.applyOutputDelta_deltaBytes 7 [1] .empty, rfl, fun hmeans => ?_⟩
  obtain ⟨type, payload, -, happlied⟩ :=
    hmeans.1.mp (congrArg Prod.fst (obj.applyOutputDelta_deltaBytes 7 [1] .empty))
  exact not_deltaApplied_of_null rfl type payload _ _ happlied

end GameObject

end WasmHot
