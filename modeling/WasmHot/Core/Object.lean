import WasmHot.Core.ComponentStorage

/-!
# GameObject

A `GameObject` is a view: the header that identifies an object and a pointer to the storage that
holds its components. The storage is a singleton, so the pointer is either null or that one
storage, and an operation on a view takes the storage as an argument and returns what it leaves.

`applyOutputDelta` is the entry point of a plugin's output. It is all or nothing: the output is
checked before anything is written (`applyOutputDelta_eq`).
-/

namespace WasmHot

/-- `ObjectHeader`. -/
structure ObjectHeader where
  schemaVersion : UInt32
  objectType : UInt32
  objectId : UInt64
  deriving DecidableEq

/-- A `ComponentStorage*`: null, or `ComponentStorage::Instance()`. -/
inductive StoragePtr
  | null
  | singleton
  deriving DecidableEq

/-- `GameObject`, a header with the storage it delegates to. -/
structure GameObject where
  header : ObjectHeader
  storage : StoragePtr
  deriving DecidableEq

/-- `g_delta_magic`. -/
def deltaMagic : UInt32 := 0x4D534157

/-- The `uint32_t` that `memcpy` reads from the front of the bytes, least significant byte first. -/
def loadU32 : List UInt8 → UInt32
  | b₀ :: b₁ :: b₂ :: b₃ :: _ =>
      b₀.toUInt32 ||| (b₁.toUInt32 <<< 8) ||| (b₂.toUInt32 <<< 16) ||| (b₃.toUInt32 <<< 24)
  | _ => 0

namespace GameObject

/-- `ReadComponent`: the argument its callback gets. -/
def readComponent (obj : GameObject) (type : ComponentType) (s : ComponentStorage) :
    Option ComponentData :=
  match obj.storage with
  | .null => none
  | .singleton => s.read obj.header.objectId type

/-- `WriteComponent` without a schema. -/
def writeComponent (obj : GameObject) (type : ComponentType) (data : ComponentData)
    (s : ComponentStorage) : ComponentStorage :=
  match obj.storage with
  | .null => s
  | .singleton => s.write obj.header.objectId type data

/-- `RemoveComponent`. -/
def removeComponent (obj : GameObject) (type : ComponentType) (s : ComponentStorage) :
    Bool × ComponentStorage :=
  match obj.storage with
  | .null => (false, s)
  | .singleton => s.remove obj.header.objectId type

/-- `ApplyOutputDelta`: the magic, a component type and the new bytes of that component. -/
def applyOutputDelta (obj : GameObject) (output : List UInt8) (s : ComponentStorage) :
    Bool × ComponentStorage :=
  if output.length < 4 * 2 then (false, s)
  else
    let magic := loadU32 output
    let type := loadU32 (output.drop 4)
    if magic ≠ deltaMagic then (false, s)
    else (true, obj.writeComponent type (output.drop (4 * 2)) s)

/-- `obj.header.schema_version = version`. -/
def setVersion (obj : GameObject) (version : UInt32) : GameObject :=
  { obj with header := { obj.header with schemaVersion := version } }

/-! ## What a delta does -/

/-- The bytes of an output that `ApplyOutputDelta` accepts. -/
def IsDelta (output : List UInt8) : Prop :=
  8 ≤ output.length ∧ loadU32 output = deltaMagic

instance (output : List UInt8) : Decidable (IsDelta output) :=
  inferInstanceAs (Decidable (_ ∧ _))

/-- An accepted delta writes the component it names and a rejected one writes nothing. -/
theorem applyOutputDelta_eq (obj : GameObject) (output : List UInt8) (s : ComponentStorage) :
    obj.applyOutputDelta output s =
      if IsDelta output then
        (true, obj.writeComponent (loadU32 (output.drop 4)) (output.drop 8) s)
      else (false, s) := by
  unfold applyOutputDelta
  by_cases hlen : output.length < 4 * 2
  · have hbad : ¬ IsDelta output := fun h => absurd h.1 (by omega)
    rw [if_pos hlen, if_neg hbad]
  · rw [if_neg hlen]
    by_cases hmagic : loadU32 output = deltaMagic
    · have hgood : IsDelta output := ⟨by omega, hmagic⟩
      rw [if_pos hgood]
      simp [hmagic]
    · have hbad : ¬ IsDelta output := fun h => hmagic h.2
      rw [if_neg hbad]
      simp [hmagic]

end GameObject

end WasmHot
