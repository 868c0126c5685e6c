import WasmHot.Lib.UnorderedMap
import Mathlib.Data.List.Induction

/-!
# SchemaManager

`SchemaManager` keeps the schemas of each object type by their versions. `GetSchema` looks one up,
and `GetLatestVersion` goes through all versions of a type in the order of the hash map and keeps
the greatest.

The loop starts from version 0 and its result 0 is taken to mean that there is no version. Version 0
can be registered like any other, so the two calls agree on a type unless 0 is the only version it
has (`latest_agrees_iff`).
-/

namespace WasmHot

/-- `FieldType`. -/
inductive FieldType
  | int32
  | int64
  | float
  | double
  | bool
  | string
  | bytes
  | objectRef
  deriving DecidableEq

/-- `FieldDef`. -/
structure FieldDef where
  name : String
  type : FieldType
  offset : UInt32
  size : UInt32
  deriving DecidableEq

/-- `Schema`. -/
structure Schema where
  version : UInt32
  objectType : UInt32
  fields : List FieldDef
  totalSize : UInt32
  deriving DecidableEq

/-- `SchemaManager`: object type to version to schema. -/
structure SchemaManager where
  /-- `schemas_`. -/
  schemas : UnorderedMap UInt32 (UnorderedMap UInt32 Schema)

namespace SchemaManager

/-- The manager before the first `RegisterSchema`. -/
def empty : SchemaManager := ⟨∅⟩

/-- `RegisterSchema`: the versions of the type are created if it has none. -/
def registerSchema (m : SchemaManager) (schema : Schema) : SchemaManager :=
  let versions := (m.schemas.lookup schema.objectType).getD ∅
  ⟨m.schemas.insert schema.objectType (versions.insert schema.version schema)⟩

/-- `GetSchema`. -/
def getSchema (m : SchemaManager) (objectType version : UInt32) : Option Schema :=
  match m.schemas.lookup objectType with
  | none => none
  | some versions => versions.lookup version

/-- The loop of `GetLatestVersion` over the versions in the order in which the map yields them. -/
def latestOf (order : List UInt32) : UInt32 :=
  order.foldl (fun latest version => max version latest) 0

/-- `GetLatestVersion`. -/
def getLatestVersion (m : SchemaManager) (objectType : UInt32) (order : List UInt32) :
    Option UInt32 :=
  match m.schemas.lookup objectType with
  | none => none
  | some _ => if latestOf order > 0 then some (latestOf order) else none

/-- The map of the type yields its versions in this order, which may be any. -/
def Yields (m : SchemaManager) (objectType : UInt32) (order : List UInt32) : Prop :=
  ∀ versions ∈ m.schemas.lookup objectType, (order : Multiset UInt32) = versions.keys.val

instance (m : SchemaManager) (objectType : UInt32) (order : List UInt32) :
    Decidable (m.Yields objectType order) :=
  inferInstanceAs (Decidable (∀ versions ∈ _, _))

/-- The manager after some calls of `RegisterSchema`. -/
def registerAll (schemas : List Schema) : SchemaManager :=
  schemas.foldl registerSchema empty

/-- The schema that was registered last for the type and version. -/
def lastRegistered (schemas : List Schema) (objectType version : UInt32) : Option Schema :=
  schemas.reverse.find? fun schema => schema.objectType = objectType ∧ schema.version = version

/-- `GetLatestVersion` says nothing where `GetSchema` finds nothing for any version, and otherwise
the greatest version for which it finds something. -/
structure LatestAgrees (m : SchemaManager) (objectType : UInt32) (latest : Option UInt32) :
    Prop where
  empty : latest = none ↔ ∀ version, m.getSchema objectType version = none
  found : ∀ version, latest = some version → (m.getSchema objectType version).isSome
  greatest : ∀ version, latest = some version →
    ∀ version', (m.getSchema objectType version').isSome → version' ≤ version

variable {m : SchemaManager} {objectType version : UInt32} {order : List UInt32}

/-! ## GetSchema -/

/-- A registration is seen under its type and version, and nowhere else. -/
theorem getSchema_registerSchema (m : SchemaManager) (schema : Schema)
    (objectType version : UInt32) :
    (m.registerSchema schema).getSchema objectType version =
      if schema.objectType = objectType ∧ schema.version = version then some schema
      else m.getSchema objectType version := by
  simp only [getSchema, registerSchema, UnorderedMap.lookup_insert]
  by_cases htype : objectType = schema.objectType
  · subst htype
    simp only [if_true, UnorderedMap.lookup_insert, true_and, eq_comm (a := version)]
    cases m.schemas.lookup schema.objectType <;> rfl
  · rw [if_neg htype, if_neg fun h => htype h.1.symm]

/-- `GetSchema` gives what was registered last. -/
theorem getSchema_registerAll (schemas : List Schema) (objectType version : UInt32) :
    (registerAll schemas).getSchema objectType version =
      lastRegistered schemas objectType version := by
  induction schemas using List.reverseRecOn with
  | nil => rfl
  | append_singleton schemas schema ih =>
    have hlast : registerAll (schemas ++ [schema]) =
        (registerAll schemas).registerSchema schema := by
      rw [registerAll, List.foldl_append]
      rfl
    rw [hlast, getSchema_registerSchema, ih, lastRegistered, lastRegistered, List.reverse_append,
      List.reverse_singleton, List.singleton_append]
    by_cases hkey : schema.objectType = objectType ∧ schema.version = version
    · rw [if_pos hkey, List.find?_cons_of_pos (by simpa using hkey)]
    · rw [if_neg hkey, List.find?_cons_of_neg (by simpa using hkey)]

/-- There is a schema exactly where one was registered. -/
theorem isSome_getSchema_registerAll (schemas : List Schema) (objectType version : UInt32) :
    ((registerAll schemas).getSchema objectType version).isSome ↔
      ∃ schema ∈ schemas, schema.objectType = objectType ∧ schema.version = version := by
  rw [getSchema_registerAll, lastRegistered, List.find?_isSome]
  simp only [List.mem_reverse, decide_eq_true_eq]

/-! ## GetLatestVersion -/

/-- The loop ends with its start or with one of the versions, and with none below a version. -/
theorem latestOf_spec (order : List UInt32) :
    (latestOf order = 0 ∨ latestOf order ∈ order) ∧
      ∀ version ∈ order, version ≤ latestOf order := by
  induction order using List.reverseRecOn with
  | nil => exact ⟨Or.inl rfl, fun _ h => absurd h List.not_mem_nil⟩
  | append_singleton order last ih =>
    obtain ⟨hmem, hle⟩ := ih
    have hstep : latestOf (order ++ [last]) =
        if last ≤ latestOf order then latestOf order else last := by
      rw [latestOf, List.foldl_append]
      rfl
    rw [hstep]
    split
    · next hlast =>
      refine ⟨hmem.imp_right (List.mem_append_left _), fun version hversion => ?_⟩
      rcases List.mem_append.mp hversion with hversion | hversion
      · exact hle version hversion
      · rw [List.mem_singleton.mp hversion]
        exact hlast
    · next hlast =>
      refine ⟨Or.inr (List.mem_append_right _ (List.mem_singleton_self _)), ?_⟩
      intro version hversion
      have hbelow : latestOf order ≤ last := UInt32.le_of_lt (UInt32.not_le.mp hlast)
      rcases List.mem_append.mp hversion with hversion | hversion
      · exact UInt32.le_trans (hle version hversion) hbelow
      · rw [List.mem_singleton.mp hversion]
        exact UInt32.le_refl _

/-- The versions that the map of a type yields are those with a schema. -/
theorem mem_order_iff (horder : m.Yields objectType order)
    {versions : UnorderedMap UInt32 Schema} (hfound : m.schemas.lookup objectType = some versions) :
    version ∈ order ↔ (m.getSchema objectType version).isSome := by
  have hkeys := horder versions hfound
  have hmem : version ∈ order ↔ version ∈ versions.keys := by
    rw [← Multiset.mem_coe, hkeys, Finset.mem_val]
  rw [hmem, getSchema, hfound, Finmap.mem_keys, Finmap.lookup_isSome]

/-- To say that there is no version is right where there is no schema. -/
theorem latestAgrees_none_iff :
    m.LatestAgrees objectType none ↔ ∀ version, m.getSchema objectType version = none := by
  constructor
  · exact fun hagrees => hagrees.empty.mp rfl
  · exact fun hnone => ⟨iff_of_true rfl hnone, nofun, nofun⟩

/-- To name a version is right where it is the greatest with a schema. -/
theorem latestAgrees_some_iff :
    m.LatestAgrees objectType (some version) ↔
      (m.getSchema objectType version).isSome ∧
        ∀ version', (m.getSchema objectType version').isSome → version' ≤ version := by
  constructor
  · exact fun hagrees => ⟨hagrees.found version rfl, hagrees.greatest version rfl⟩
  · rintro ⟨hsome, hgreatest⟩
    refine ⟨iff_of_false nofun fun hnone => ?_, ?_, ?_⟩
    · rw [hnone] at hsome
      cases hsome
    · rintro _ ⟨⟩
      exact hsome
    · rintro _ ⟨⟩
      exact hgreatest

/-- The two calls agree on a type unless version 0 is all it has. -/
theorem latestAgrees_iff (horder : m.Yields objectType order) :
    m.LatestAgrees objectType (m.getLatestVersion objectType order) ↔
      ((m.getSchema objectType 0).isSome →
        ∃ version, version ≠ 0 ∧ (m.getSchema objectType version).isSome) := by
  cases hfound : m.schemas.lookup objectType with
  -- A type without schemas has no latest version and no version at all.
  | none =>
    have hnone : ∀ version, m.getSchema objectType version = none := fun version => by
      rw [getSchema, hfound]
    rw [getLatestVersion, hfound]
    refine iff_of_true (latestAgrees_none_iff.mpr hnone) fun hzero => ?_
    rw [hnone] at hzero
    cases hzero
  | some versions =>
    have hmem : ∀ version, version ∈ order ↔ (m.getSchema objectType version).isSome :=
      fun version => mem_order_iff horder hfound
    obtain ⟨hlatest, hle⟩ := latestOf_spec order
    have hgreatest : ∀ version, (m.getSchema objectType version).isSome →
        version ≤ latestOf order :=
      fun version hversion => hle version ((hmem version).mpr hversion)
    rw [getLatestVersion, hfound]
    by_cases hpos : latestOf order > 0
    · -- The result is one of the versions, and not 0.
      have hne : latestOf order ≠ 0 := fun heq => by
        rw [heq] at hpos
        exact absurd hpos (UInt32.lt_irrefl 0)
      have hsome := (hmem _).mp (hlatest.resolve_left hne)
      simp only [if_pos hpos]
      exact iff_of_true (latestAgrees_some_iff.mpr ⟨hsome, hgreatest⟩) fun _ => ⟨_, hne, hsome⟩
    · -- No version is above 0, so the result is that there is none.
      have hzero : ∀ version, (m.getSchema objectType version).isSome → version = 0 :=
        fun version hversion => by
          have hbelow := UInt32.le_trans (hgreatest version hversion) (UInt32.not_lt.mp hpos)
          exact UInt32.le_antisymm hbelow UInt32.zero_le
      simp only [if_neg hpos, latestAgrees_none_iff]
      constructor
      · intro hnone hhas
        rw [hnone 0] at hhas
        cases hhas
      · intro hother version
        by_contra hsome
        have hversion := Option.isSome_iff_ne_none.mpr hsome
        obtain ⟨version', hne, hversion'⟩ := hother (hzero version hversion ▸ hversion)
        exact hne (hzero version' hversion')

/-- After any registrations, `GetSchema` gives what was registered last, and `GetLatestVersion`
agrees with it exactly where version 0 is not all that was registered for the type. -/
theorem latest_agrees_iff (schemas : List Schema) (objectType : UInt32) (order : List UInt32)
    (horder : (registerAll schemas).Yields objectType order) :
    ((registerAll schemas).LatestAgrees objectType
        ((registerAll schemas).getLatestVersion objectType order) ∧
      ∀ version, (registerAll schemas).getSchema objectType version =
        lastRegistered schemas objectType version) ↔
      ((∃ schema ∈ schemas, schema.objectType = objectType ∧ schema.version = 0) →
        ∃ schema ∈ schemas, schema.objectType = objectType ∧ schema.version ≠ 0) := by
  have hother : (∃ version, version ≠ 0 ∧
      ((registerAll schemas).getSchema objectType version).isSome) ↔
      ∃ schema ∈ schemas, schema.objectType = objectType ∧ schema.version ≠ 0 := by
    simp only [isSome_getSchema_registerAll]
    constructor
    · rintro ⟨version, hne, schema, hschema, htype, rfl⟩
      exact ⟨schema, hschema, htype, hne⟩
    · rintro ⟨schema, hschema, htype, hne⟩
      exact ⟨schema.version, hne, schema, hschema, htype, rfl⟩
  rw [and_iff_left (getSchema_registerAll schemas objectType), latestAgrees_iff horder, hother,
    isSome_getSchema_registerAll]

/-- Versions 1 and 3 of one type, which the map yields in the wrong order. -/
def twoVersions : List Schema := [⟨1, 7, [], 4⟩, ⟨3, 7, [], 8⟩]

/-- `latest_agrees_iff` for `twoVersions`. -/
theorem latest_agrees_twoVersions :
    (registerAll twoVersions).LatestAgrees 7 ((registerAll twoVersions).getLatestVersion 7 [3, 1]) ∧
      (registerAll twoVersions).getLatestVersion 7 [3, 1] = some 3 := by
  have horder : (registerAll twoVersions).Yields 7 [3, 1] := by decide
  refine ⟨((latest_agrees_iff twoVersions 7 [3, 1] horder).mpr fun _ => ?_).1, rfl⟩
  exact ⟨⟨1, 7, [], 4⟩, List.mem_cons_self, rfl, by decide⟩

/-- A type that has version 0 and no other: there is a schema, and no latest version. -/
theorem version_zero_is_not_latest :
    let m := registerAll [⟨0, 7, [], 4⟩]
    m.Yields 7 [0] ∧ m.getSchema 7 0 = some ⟨0, 7, [], 4⟩ ∧ m.getLatestVersion 7 [0] = none ∧
      ¬ m.LatestAgrees 7 (m.getLatestVersion 7 [0]) := by
  intro m
  refine ⟨by decide, rfl, rfl, fun hagrees => ?_⟩
  have hnone := hagrees.empty.mp rfl 0
  cases hnone

end SchemaManager

end WasmHot
