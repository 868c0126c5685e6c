import WasmHot.Core.Object
import Mathlib.Logic.Relation

/-!
# MigrationEngine

`Migrate` walks the version line from the view's version to the target, one adjacent pair at a time,
and stops at the first pair that has no function or whose function returns false. A function gets
the view by reference and writes straight into the shared storage, so a failed walk leaves whatever
its successful functions wrote.

A walk is analysed through the loop state `Progress`. `Advances` is one successful round and `Stuck`
is the state in which the loop returns false; `migrateLoop_spec` says that the loop runs successful
rounds and then stops at the target or stuck, and `migrateLoop_of_advancesTo` that the rounds
determine its result.
-/

namespace WasmHot

/-- A function call made by `MigrateStep`, with its verdict. -/
structure MigrationCall where
  fromVersion : UInt32
  toVersion : UInt32
  ok : Bool
  deriving DecidableEq

/-- The pairs whose function returned true, in call order. -/
def succeeded (calls : List MigrationCall) : List (UInt32 × UInt32) :=
  (calls.filter (·.ok)).map fun call => (call.fromVersion, call.toVersion)

theorem succeeded_append (calls calls' : List MigrationCall) :
    succeeded (calls ++ calls') = succeeded calls ++ succeeded calls' := by
  simp [succeeded]

/-- What a `MigrationFunc` leaves: its verdict, the view it got by reference, and the storage. -/
structure FuncResult where
  ok : Bool
  obj : GameObject
  storage : ComponentStorage

/-- `MigrationFunc`. -/
abbrev MigrationFunc := GameObject → UInt32 → UInt32 → ComponentStorage → FuncResult

/-- What `MigrateStep` and `Migrate` leave. `calls` is not in the source: it lists the function
calls made, in order. -/
structure Migrated where
  ok : Bool
  obj : GameObject
  storage : ComponentStorage
  calls : List MigrationCall

/-- `MigrationEngine`, with `migrations_` keyed by `makeKey`. -/
structure MigrationEngine where
  migrations : UnorderedMap UInt64 MigrationFunc

/-- The variables of the `Migrate` loop: `current`, the view and the shared storage. -/
structure Progress where
  current : UInt32
  obj : GameObject
  storage : ComponentStorage

/-- `current < target_version ? current + 1 : current - 1`. -/
def nextVersion (current target : UInt32) : UInt32 :=
  if current < target then current + 1 else current - 1

/-- The number of adjacent pairs between two versions. -/
def versionDistance (a b : UInt32) : ℕ :=
  (a.toNat - b.toNat) + (b.toNat - a.toNat)

/-- A step towards another version does not wrap around. -/
theorem nextVersion_toNat {current target : UInt32} (h : current ≠ target) :
    (nextVersion current target).toNat =
      if current < target then current.toNat + 1 else current.toNat - 1 := by
  have hne : current.toNat ≠ target.toNat := fun heq => h (UInt32.toNat.inj heq)
  have ht := target.toNat_lt
  unfold nextVersion
  by_cases hlt : current < target
  · have hlt' := UInt32.lt_iff_toNat_lt.mp hlt
    rw [if_pos hlt, if_pos hlt, UInt32.toNat_add, UInt32.toNat_one, Nat.mod_eq_of_lt (by omega)]
  · have hge : ¬ current.toNat < target.toNat := fun h' => hlt (UInt32.lt_iff_toNat_lt.mpr h')
    have hone : (1 : UInt32) ≤ current := by
      rw [UInt32.le_iff_toNat_le, UInt32.toNat_one]
      omega
    rw [if_neg hlt, if_neg hlt, UInt32.toNat_sub_of_le _ _ hone, UInt32.toNat_one]

/-- A step towards another version comes one pair closer. -/
theorem versionDistance_nextVersion {current target : UInt32} (h : current ≠ target) :
    versionDistance (nextVersion current target) target + 1 = versionDistance current target := by
  have hne : current.toNat ≠ target.toNat := fun heq => h (UInt32.toNat.inj heq)
  simp only [versionDistance, nextVersion_toNat h, UInt32.lt_iff_toNat_lt]
  split <;> omega

namespace MigrationEngine

/-- `MakeKey`. -/
def makeKey (fromVersion toVersion : UInt32) : UInt64 :=
  (fromVersion.toUInt64 <<< 32) ||| toVersion.toUInt64

/-- `Register`. -/
def register (e : MigrationEngine) (fromVersion toVersion : UInt32) (func : MigrationFunc) :
    MigrationEngine :=
  ⟨e.migrations.insert (makeKey fromVersion toVersion) func⟩

/-- `MigrateStep`. -/
def migrateStep (e : MigrationEngine) (obj : GameObject) (fromVersion toVersion : UInt32)
    (storage : ComponentStorage) : Migrated :=
  match e.migrations.lookup (makeKey fromVersion toVersion) with
  | none => ⟨false, obj, storage, []⟩
  | some func =>
      let result := func obj fromVersion toVersion storage
      ⟨result.ok, result.obj, result.storage, [⟨fromVersion, toVersion, result.ok⟩]⟩

/-- A step applies its pair exactly when it returns true. -/
theorem succeeded_migrateStep (e : MigrationEngine) (obj : GameObject) (v v' : UInt32)
    (storage : ComponentStorage) :
    succeeded (e.migrateStep obj v v' storage).calls =
      if (e.migrateStep obj v v' storage).ok then [(v, v')] else [] := by
  unfold migrateStep
  cases e.migrations.lookup (makeKey v v') with
  | none => rfl
  | some func => cases hok : (func obj v v' storage).ok <;> simp [succeeded, hok]

/-- The step the loop takes next. -/
def stepOf (e : MigrationEngine) (target : UInt32) (p : Progress) : Migrated :=
  e.migrateStep p.obj p.current (nextVersion p.current target) p.storage

theorem succeeded_stepOf (e : MigrationEngine) (target : UInt32) (p : Progress) :
    succeeded (e.stepOf target p).calls =
      if (e.stepOf target p).ok then [(p.current, nextVersion p.current target)] else [] :=
  succeeded_migrateStep e p.obj p.current _ p.storage

/-- The loop state after that step returned true. -/
def after (e : MigrationEngine) (target : UInt32) (p : Progress) : Progress :=
  let next := nextVersion p.current target
  -- The version in the view is overwritten, whatever the function did to the header.
  ⟨next, (e.stepOf target p).obj.setVersion next, (e.stepOf target p).storage⟩

/-- The `while` loop of `Migrate`. -/
def migrateLoop (e : MigrationEngine) (target : UInt32) (p : Progress) : Migrated :=
  if _hne : p.current ≠ target then
    let step := e.stepOf target p
    if step.ok then
      let rest := migrateLoop e target (e.after target p)
      { rest with calls := step.calls ++ rest.calls }
    else step
  else ⟨true, p.obj, p.storage, []⟩
termination_by versionDistance p.current target
decreasing_by
  have hcloser := versionDistance_nextVersion _hne
  simp only [after]
  omega

/-- The loop state `Migrate` starts from. -/
def start (obj : GameObject) (storage : ComponentStorage) : Progress :=
  ⟨obj.header.schemaVersion, obj, storage⟩

/-- `Migrate`. -/
def migrate (e : MigrationEngine) (obj : GameObject) (target : UInt32)
    (storage : ComponentStorage) : Migrated :=
  e.migrateLoop target (start obj storage)

/-! ## The loop as a sequence of successful rounds -/

variable (e : MigrationEngine) (target : UInt32)

/-- One round of the loop whose step returned true. -/
def Advances (p q : Progress) : Prop :=
  p.current ≠ target ∧ (e.stepOf target p).ok = true ∧ q = e.after target p

/-- Any number of rounds whose steps returned true. -/
def AdvancesTo : Progress → Progress → Prop :=
  Relation.ReflTransGen (e.Advances target)

/-- The target is not reached, and the next pair has no function or its function says no. -/
def Stuck (p : Progress) : Prop :=
  p.current ≠ target ∧ (e.stepOf target p).ok = false

variable {e target} {p q : Progress}

theorem migrateLoop_of_eq (h : p.current = target) :
    e.migrateLoop target p = ⟨true, p.obj, p.storage, []⟩ := by
  rw [migrateLoop, dif_neg (not_not.mpr h)]

theorem migrateLoop_of_stuck (h : e.Stuck target p) :
    e.migrateLoop target p = e.stepOf target p := by
  rw [migrateLoop, dif_pos h.1]
  simp [h.2]

theorem migrateLoop_of_advances (h : e.Advances target p q) :
    e.migrateLoop target p =
      { e.migrateLoop target q with
        calls := (e.stepOf target p).calls ++ (e.migrateLoop target q).calls } := by
  obtain ⟨hne, hok, rfl⟩ := h
  rw [migrateLoop, dif_pos hne]
  simp [hok]

/-- In every loop state the loop ends, goes one round, or is stuck. -/
theorem round_cases (e : MigrationEngine) (target : UInt32) (p : Progress) :
    p.current = target ∨ e.Advances target p (e.after target p) ∨ e.Stuck target p := by
  by_cases hcur : p.current = target
  · exact Or.inl hcur
  · cases hok : (e.stepOf target p).ok with
    | true => exact Or.inr (Or.inl ⟨hcur, hok, rfl⟩)
    | false => exact Or.inr (Or.inr ⟨hcur, hok⟩)

/-- Induction along the walk: a property that holds at the target, holds where the loop is stuck,
and holds before each successful round whenever it holds after it, holds everywhere. -/
theorem walk_induction (e : MigrationEngine) (target : UInt32) {motive : Progress → Prop}
    (done : ∀ p, p.current = target → motive p)
    (stuck : ∀ p, e.Stuck target p → motive p)
    (round : ∀ p q, e.Advances target p q → motive q → motive p) (p : Progress) : motive p := by
  induction hn : versionDistance p.current target using Nat.strongRecOn generalizing p with
  | ind n ih =>
    subst hn
    rcases round_cases e target p with hcur | hadv | hstuck
    · exact done p hcur
    · refine round p _ hadv (ih _ ?_ _ rfl)
      have hcloser := versionDistance_nextVersion hadv.1
      simp only [after]
      omega
    · exact stuck p hstuck

/-- The loop makes successful rounds until it reaches the target or is stuck, and returns what it
finds there. -/
theorem migrateLoop_spec (e : MigrationEngine) (target : UInt32) (p : Progress) :
    ∃ q, e.AdvancesTo target p q ∧
      ((q.current = target ∧ (e.migrateLoop target p).ok = true ∧
          (e.migrateLoop target p).obj = q.obj ∧ (e.migrateLoop target p).storage = q.storage) ∨
        (e.Stuck target q ∧ (e.migrateLoop target p).ok = false)) := by
  induction p using walk_induction e target with
  | done p hcur => exact ⟨p, .refl, Or.inl ⟨hcur, by simp [migrateLoop_of_eq hcur]⟩⟩
  | stuck p hstuck =>
    exact ⟨p, .refl, Or.inr ⟨hstuck, by rw [migrateLoop_of_stuck hstuck, hstuck.2]⟩⟩
  | round p q hadv ih =>
    obtain ⟨r, hreach, hend⟩ := ih
    refine ⟨r, .head hadv hreach, ?_⟩
    rw [migrateLoop_of_advances hadv]
    exact hend

/-- Successful rounds do not change what the loop will return. -/
theorem migrateLoop_of_advancesTo (h : e.AdvancesTo target p q) :
    (e.migrateLoop target p).ok = (e.migrateLoop target q).ok ∧
      (e.migrateLoop target p).obj = (e.migrateLoop target q).obj ∧
      (e.migrateLoop target p).storage = (e.migrateLoop target q).storage := by
  induction h using Relation.ReflTransGen.head_induction_on with
  | refl => exact ⟨rfl, rfl, rfl⟩
  | head hadv _ ih =>
    rw [migrateLoop_of_advances hadv]
    exact ih

/-- The loop returns false exactly when some number of successful rounds leads to a stuck state. -/
theorem migrateLoop_fails_iff (p : Progress) :
    (e.migrateLoop target p).ok = false ↔ ∃ q, e.AdvancesTo target p q ∧ e.Stuck target q := by
  constructor
  · intro hfail
    obtain ⟨q, hreach, ⟨-, hok, -⟩ | ⟨hstuck, -⟩⟩ := migrateLoop_spec e target p
    · rw [hok] at hfail
      cases hfail
    · exact ⟨q, hreach, hstuck⟩
  · rintro ⟨q, hreach, hstuck⟩
    rw [(migrateLoop_of_advancesTo hreach).1, migrateLoop_of_stuck hstuck, hstuck.2]

/-- The view and the loop agree on the version after every round, whatever the functions do to the
header. -/
theorem AdvancesTo.version_eq (h : e.AdvancesTo target p q)
    (hp : p.obj.header.schemaVersion = p.current) : q.obj.header.schemaVersion = q.current := by
  induction h with
  | refl => exact hp
  | tail _ hadv _ =>
    obtain ⟨-, -, rfl⟩ := hadv
    rfl

/-- A successful migration leaves the view at the target version. -/
theorem migrate_ok_version {obj : GameObject} {storage : ComponentStorage}
    (h : (e.migrate obj target storage).ok = true) :
    (e.migrate obj target storage).obj.header.schemaVersion = target := by
  obtain ⟨q, hreach, ⟨hcur, -, hobj, -⟩ | ⟨-, hfail⟩⟩ :=
    migrateLoop_spec e target (start obj storage)
  · rw [migrate, hobj, hreach.version_eq rfl, hcur]
  · rw [migrate, hfail] at h
    cases h

end MigrationEngine

end WasmHot
