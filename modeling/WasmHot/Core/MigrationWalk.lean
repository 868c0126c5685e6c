import WasmHot.Core.ObjectRegistry

/-!
# The walk of a migration

`Walks` says what `Migrate` is to do, without a loop and without packed keys: go along a list of
version pairs, call the function of each on the view and the storage that the one before left, and
stop at the first pair that has no function or whose function returns false. `migrate_walks` is that
`MigrationEngine::Migrate` does this along the adjacent pairs from the view's version to the target,
with the functions that were last registered for them.

`migrate_composes` splits a walk at any version on its way.
-/

namespace WasmHot

/-! ## Pairs of versions -/

/-- The version that is `i` pairs away from `a` on the way to `b`. -/
def versionAt (a b : UInt32) (i : ℕ) : UInt32 :=
  UInt32.ofNat (if a ≤ b then a.toNat + i else a.toNat - i)

/-- The adjacent pairs from one version to another, upwards or downwards. -/
def versionPath (a b : UInt32) : List (UInt32 × UInt32) :=
  (List.range (versionDistance a b)).map fun i => (versionAt a b i, versionAt a b (i + 1))

/-- The versions are next to each other on the version line, which has no wrap-around. -/
def Adjacent (v w : UInt32) : Prop :=
  w.toNat = v.toNat + 1 ∨ v.toNat = w.toNat + 1

/-- The version `b` lies between `a` and `c`, the ends included. -/
def Between (a b c : UInt32) : Prop :=
  (a ≤ b ∧ b ≤ c) ∨ (c ≤ b ∧ b ≤ a)

instance (a b c : UInt32) : Decidable (Between a b c) :=
  inferInstanceAs (Decidable (_ ∨ _))

@[simp]
theorem versionAt_zero (a b : UInt32) : versionAt a b 0 = a := by
  simp [versionAt]

/-- One pair further is the same from the next version on. -/
theorem versionAt_succ {a b : UInt32} (h : a ≠ b) {i : ℕ}
    (hi : i ≤ versionDistance (nextVersion a b) b) :
    versionAt a b (i + 1) = versionAt (nextVersion a b) b i := by
  have hne : a.toNat ≠ b.toNat := fun heq => h (UInt32.toNat.inj heq)
  unfold versionAt
  congr 1
  simp only [versionDistance, nextVersion_toNat h, UInt32.le_iff_toNat_le,
    UInt32.lt_iff_toNat_lt] at hi ⊢
  split_ifs at hi ⊢ <;> omega

theorem length_versionPath (a b : UInt32) :
    (versionPath a b).length = versionDistance a b := by
  rw [versionPath, List.length_map, List.length_range]

@[simp]
theorem versionPath_self (a : UInt32) : versionPath a a = [] := by
  simp [versionPath, versionDistance]

/-- The path starts with the step the loop takes and goes on from where that leads. -/
theorem versionPath_cons {a b : UInt32} (h : a ≠ b) :
    versionPath a b = (a, nextVersion a b) :: versionPath (nextVersion a b) b := by
  have hfirst : versionAt a b 1 = nextVersion a b := by
    rw [versionAt_succ h (Nat.zero_le _), versionAt_zero]
  rw [versionPath, ← versionDistance_nextVersion h, List.range_succ_eq_map, List.map_cons,
    versionAt_zero, hfirst, List.map_map]
  congr 1
  refine List.map_congr_left fun i hi => ?_
  have hlt := List.mem_range.mp hi
  rw [Function.comp_apply, Nat.succ_eq_add_one, versionAt_succ h (by omega),
    versionAt_succ h (by omega)]

/-- No pair of the path wraps around. -/
theorem adjacent_of_mem_versionPath {a b : UInt32} {pair : UInt32 × UInt32}
    (h : pair ∈ versionPath a b) : Adjacent pair.1 pair.2 := by
  obtain ⟨i, hi, rfl⟩ := List.mem_map.mp h
  have hlt := List.mem_range.mp hi
  have ha := a.toNat_lt
  have hb := b.toNat_lt
  have hsize : UInt32.size = 2 ^ 32 := rfl
  simp only [versionDistance] at hlt
  simp only [Adjacent, versionAt, UInt32.le_iff_toNat_le]
  split_ifs
  · rw [UInt32.toNat_ofNat_of_lt' (by omega), UInt32.toNat_ofNat_of_lt' (by omega)]
    omega
  · rw [UInt32.toNat_ofNat_of_lt' (by omega), UInt32.toNat_ofNat_of_lt' (by omega)]
    omega

/-! ## Registered functions -/

/-- The arguments of a `Register` call. -/
structure Registration where
  fromVersion : UInt32
  toVersion : UInt32
  func : MigrationFunc

/-- The function last registered for a pair. -/
def lastRegistered (history : List Registration) (v w : UInt32) : Option MigrationFunc :=
  (history.reverse.find? fun r => r.fromVersion = v ∧ r.toVersion = w).map (·.func)

namespace MigrationEngine

/-- The table after a history of `Register` calls. -/
def registerAll (history : List Registration) : MigrationEngine :=
  history.foldl (fun e r => e.register r.fromVersion r.toVersion r.func) ⟨∅⟩

theorem makeKey_toNat (v w : UInt32) : (makeKey v w).toNat = v.toNat * 2 ^ 32 + w.toNat := by
  have hv := v.toNat_lt
  have hw := w.toNat_lt
  have hshift : v.toNat <<< 32 < 2 ^ 64 := by
    rw [Nat.shiftLeft_eq]
    omega
  rw [makeKey, UInt64.toNat_or, UInt64.toNat_shiftLeft, UInt32.toNat_toUInt64,
    UInt32.toNat_toUInt64]
  simp only [UInt64.reduceToNat, Nat.reduceMod]
  rw [Nat.mod_eq_of_lt hshift, ← Nat.shiftLeft_add_eq_or_of_lt hw, Nat.shiftLeft_eq]

/-- The packed keys of two pairs are different. -/
theorem makeKey_inj {v w v' w' : UInt32} : makeKey v w = makeKey v' w' ↔ v = v' ∧ w = w' := by
  constructor
  · intro heq
    have hkey := congrArg UInt64.toNat heq
    rw [makeKey_toNat, makeKey_toNat] at hkey
    have hw := w.toNat_lt
    have hw' := w'.toNat_lt
    exact ⟨UInt32.toNat.inj (by omega), UInt32.toNat.inj (by omega)⟩
  · rintro ⟨rfl, rfl⟩
    rfl

/-- Under the key of a pair the table has the function last registered for it. -/
theorem lookup_registerAll (history : List Registration) (v w : UInt32) :
    (registerAll history).migrations.lookup (makeKey v w) = lastRegistered history v w := by
  induction history using List.reverseRecOn with
  | nil => simp [registerAll, lastRegistered]
  | append_singleton history r ih =>
    have hlast : registerAll (history ++ [r]) =
        (registerAll history).register r.fromVersion r.toVersion r.func := by
      simp [registerAll]
    rw [hlast, register, UnorderedMap.lookup_insert]
    simp only [makeKey_inj, ih, lastRegistered, List.reverse_append, List.reverse_singleton,
      List.singleton_append, List.find?_cons]
    by_cases hpair : v = r.fromVersion ∧ w = r.toVersion
    · obtain ⟨rfl, rfl⟩ := hpair
      simp
    · have hpair' : ¬ (r.fromVersion = v ∧ r.toVersion = w) :=
        fun h => hpair ⟨h.1.symm, h.2.symm⟩
      simp [hpair, hpair']

end MigrationEngine

/-! ## Going along a path -/

/-- What comes of calling the functions of the pairs of a list in order, each on the view and the
storage that the one before left. -/
inductive Walks (funcs : UInt32 → UInt32 → Option MigrationFunc) :
    List (UInt32 × UInt32) → GameObject → ComponentStorage → Migrated → Prop
  /-- There is no pair left. -/
  | done (obj : GameObject) (s : ComponentStorage) : Walks funcs [] obj s ⟨true, obj, s, []⟩
  /-- The next pair has no function. -/
  | missing {v w : UInt32} {path : List (UInt32 × UInt32)} {obj : GameObject}
      {s : ComponentStorage} (hfunc : funcs v w = none) :
      Walks funcs ((v, w) :: path) obj s ⟨false, obj, s, []⟩
  /-- The function of the next pair returns false. -/
  | refused {v w : UInt32} {path : List (UInt32 × UInt32)} {obj : GameObject}
      {s : ComponentStorage} {func : MigrationFunc} (hfunc : funcs v w = some func)
      (hok : (func obj v w s).ok = false) :
      Walks funcs ((v, w) :: path) obj s
        ⟨false, (func obj v w s).obj, (func obj v w s).storage, [⟨v, w, false⟩]⟩
  /-- It returns true, and the view is set to the version reached. -/
  | advanced {v w : UInt32} {path : List (UInt32 × UInt32)} {obj : GameObject}
      {s : ComponentStorage} {func : MigrationFunc} {m : Migrated} (hfunc : funcs v w = some func)
      (hok : (func obj v w s).ok = true)
      (hrest : Walks funcs path ((func obj v w s).obj.setVersion w) (func obj v w s).storage m) :
      Walks funcs ((v, w) :: path) obj s { m with calls := ⟨v, w, true⟩ :: m.calls }

namespace Walks

variable {funcs : UInt32 → UInt32 → Option MigrationFunc} {path : List (UInt32 × UInt32)}
  {obj : GameObject} {s : ComponentStorage} {m : Migrated}

/-- The calls go along the path, each pair at most once and none left out before the stop. -/
theorem calls_isPrefix (h : Walks funcs path obj s m) :
    m.calls.map (fun call => (call.fromVersion, call.toVersion)) <+: path := by
  induction h with
  | done => exact List.nil_prefix
  | missing => exact List.nil_prefix
  | refused => exact List.cons_prefix_cons.mpr ⟨rfl, List.nil_prefix⟩
  | advanced _ _ _ ih => exact List.cons_prefix_cons.mpr ⟨rfl, ih⟩

/-- The walk succeeds exactly when the functions of all pairs returned true. -/
theorem ok_iff (h : Walks funcs path obj s m) : m.ok = true ↔ succeeded m.calls = path := by
  induction h with
  | done => simp [succeeded]
  | missing => simp [succeeded]
  | refused => simp [succeeded]
  | advanced _ _ _ ih => simpa [succeeded] using ih

end Walks

namespace MigrationEngine

variable {e : MigrationEngine} {funcs : UInt32 → UInt32 → Option MigrationFunc} {target : UInt32}

/-- The loop goes along the path from its current version to the target. -/
theorem migrateLoop_walks (hfuncs : ∀ v w, e.migrations.lookup (makeKey v w) = funcs v w)
    (p : Progress) :
    Walks funcs (versionPath p.current target) p.obj p.storage (e.migrateLoop target p) := by
  induction p using walk_induction e target with
  | done p hcur =>
    rw [migrateLoop_of_eq hcur, hcur, versionPath_self]
    exact .done _ _
  | stuck p hstuck =>
    rw [migrateLoop_of_stuck hstuck, versionPath_cons hstuck.1]
    have hok := hstuck.2
    unfold stepOf migrateStep at hok ⊢
    rw [hfuncs] at hok ⊢
    cases hfunc : funcs p.current (nextVersion p.current target) with
    | none => exact .missing hfunc
    | some func =>
      simp only [hfunc] at hok ⊢
      rw [hok]
      exact .refused hfunc hok
  | round p q hadv ih =>
    rw [migrateLoop_of_advances hadv, versionPath_cons hadv.1]
    obtain ⟨-, hok, rfl⟩ := hadv
    unfold after stepOf migrateStep at ih ⊢
    unfold stepOf migrateStep at hok
    rw [hfuncs] at hok ih ⊢
    cases hfunc : funcs p.current (nextVersion p.current target) with
    | none => simp [hfunc] at hok
    | some func =>
      simp only [hfunc] at hok ih ⊢
      rw [hok]
      exact .advanced hfunc hok ih

/-- The loop with a bound on its rounds; nothing if it would need more. -/
def migrateWithin (e : MigrationEngine) (target : UInt32) : ℕ → Progress → Option Migrated
  | 0, p => if p.current = target then some ⟨true, p.obj, p.storage, []⟩ else none
  | rounds + 1, p =>
      if p.current = target then some ⟨true, p.obj, p.storage, []⟩
      else
        let step := e.stepOf target p
        if step.ok then
          (e.migrateWithin target rounds (e.after target p)).map fun rest =>
            { rest with calls := step.calls ++ rest.calls }
        else some step

/-- As many rounds as there are pairs up to the target are enough. -/
theorem migrateWithin_distance (e : MigrationEngine) (target : UInt32) (p : Progress) :
    e.migrateWithin target (versionDistance p.current target) p = some (e.migrateLoop target p) := by
  induction p using walk_induction e target with
  | done p hcur =>
    have hnear : versionDistance p.current target = 0 := by
      rw [hcur, versionDistance, Nat.sub_self]
    rw [migrateLoop_of_eq hcur, hnear, migrateWithin, if_pos hcur]
  | stuck p hstuck =>
    rw [migrateLoop_of_stuck hstuck, ← versionDistance_nextVersion hstuck.1, migrateWithin,
      if_neg hstuck.1]
    simp [hstuck.2]
  | round p q hadv ih =>
    rw [migrateLoop_of_advances hadv, ← versionDistance_nextVersion hadv.1, migrateWithin,
      if_neg hadv.1]
    obtain ⟨-, hok, rfl⟩ := hadv
    have hrest : e.migrateWithin target (versionDistance (nextVersion p.current target) target)
        (e.after target p) = some (e.migrateLoop target (e.after target p)) := ih
    simp [hok, hrest]

/-- Every registered function leaves the header of its view alone. -/
def KeepsHeaders (e : MigrationEngine) : Prop :=
  ∀ key func, e.migrations.lookup key = some func →
    ∀ obj v w s, (func obj v w s).obj.header = obj.header

/-- A step with such functions leaves the header alone. -/
theorem KeepsHeaders.stepOf_header (he : e.KeepsHeaders) (p : Progress) :
    (e.stepOf target p).obj.header = p.obj.header := by
  unfold stepOf migrateStep
  cases hfound : e.migrations.lookup (makeKey p.current (nextVersion p.current target)) with
  | none => rfl
  | some func => exact he _ func hfound _ _ _ _

theorem length_succeeded_le (hfuncs : ∀ v w, e.migrations.lookup (makeKey v w) = funcs v w)
    (p : Progress) :
    (succeeded (e.migrateLoop target p).calls).length ≤ versionDistance p.current target := by
  have hwalks : Walks funcs (versionPath p.current target) p.obj p.storage
      (e.migrateLoop target p) := migrateLoop_walks hfuncs p
  have hcalls := hwalks.calls_isPrefix.length_le
  rw [List.length_map, length_versionPath] at hcalls
  refine le_trans ?_ hcalls
  rw [succeeded, List.length_map]
  exact List.length_filter_le _ _

/-- With functions that leave the header alone, the view ends at the version that the successful
calls reach. -/
theorem migrateLoop_version (he : e.KeepsHeaders) (p : Progress)
    (hp : p.obj.header.schemaVersion = p.current) :
    (e.migrateLoop target p).obj.header.schemaVersion =
      versionAt p.current target (succeeded (e.migrateLoop target p).calls).length := by
  induction p using walk_induction e target with
  | done p hcur =>
    rw [migrateLoop_of_eq hcur]
    simpa [succeeded] using hp
  | stuck p hstuck =>
    rw [migrateLoop_of_stuck hstuck, he.stepOf_header, succeeded_stepOf, hstuck.2]
    simpa using hp
  | round p q hadv ih =>
    have hle : (succeeded (e.migrateLoop target q).calls).length ≤
        versionDistance q.current target := length_succeeded_le (fun _ _ => rfl) q
    rw [migrateLoop_of_advances hadv, succeeded_append, succeeded_stepOf, if_pos hadv.2.1]
    obtain ⟨hne, -, rfl⟩ := hadv
    rw [List.singleton_append, List.length_cons, versionAt_succ hne hle]
    exact ih rfl

end MigrationEngine

/-- What a migration by these functions from the view's version to `target` is to be. -/
structure WalksExactly (funcs : UInt32 → UInt32 → Option MigrationFunc) (obj : GameObject)
    (target : UInt32) (s : ComponentStorage) (m : Migrated) : Prop where
  /-- The functions of the adjacent pairs are called in order, up to the stop. -/
  walks : Walks funcs (versionPath obj.header.schemaVersion target) obj s m
  /-- Each of them is called once, and there are no other calls. -/
  inOrder : m.calls.map (fun call => (call.fromVersion, call.toVersion)) <+:
    versionPath obj.header.schemaVersion target
  short : m.calls.length ≤ versionDistance obj.header.schemaVersion target
  noWrap : ∀ call ∈ m.calls, Adjacent call.fromVersion call.toVersion
  ok_iff : m.ok = true ↔
    succeeded m.calls = versionPath obj.header.schemaVersion target
  atTarget : m.ok = true → m.obj.header.schemaVersion = target

namespace MigrationEngine

/-- `Migrate` walks the version line exactly, in at most as many rounds as there are pairs. With
functions that leave the header alone its view ends at the version that was reached. -/
theorem migrate_walks (history : List Registration) (obj : GameObject) (target : UInt32)
    (s : ComponentStorage) :
    WalksExactly (lastRegistered history) obj target s
        ((registerAll history).migrate obj target s) ∧
      (registerAll history).migrateWithin target (versionDistance obj.header.schemaVersion target)
        (start obj s) = some ((registerAll history).migrate obj target s) ∧
      ((registerAll history).KeepsHeaders →
        ((registerAll history).migrate obj target s).obj.header.schemaVersion =
          versionAt obj.header.schemaVersion target
            (succeeded ((registerAll history).migrate obj target s).calls).length) := by
  have hwalks : Walks (lastRegistered history) (versionPath obj.header.schemaVersion target) obj s
      ((registerAll history).migrate obj target s) :=
    migrateLoop_walks (lookup_registerAll history) (start obj s)
  have hcalled := hwalks.calls_isPrefix
  refine ⟨⟨hwalks, hcalled, ?_, ?_, hwalks.ok_iff, migrate_ok_version⟩,
    migrateWithin_distance _ target (start obj s), fun he => migrateLoop_version he _ rfl⟩
  · have hlength := hcalled.length_le
    rwa [List.length_map, length_versionPath] at hlength
  · intro call hcall
    exact adjacent_of_mem_versionPath (hcalled.subset (List.mem_map_of_mem hcall))

/-! ## Stopping on the way -/

/-- `Migrate` to `b`, and if that returned true `Migrate` to `c`. -/
def migrateVia (e : MigrationEngine) (obj : GameObject) (b c : UInt32) (s : ComponentStorage) :
    Migrated :=
  let first := e.migrate obj b s
  if first.ok then
    let second := e.migrate first.obj c first.storage
    { second with calls := first.calls ++ second.calls }
  else first

/-- Short of `b`, the next version on the way to `b` is that on the way to `c`, and `b` lies between
it and `c`. -/
theorem nextVersion_of_between {a b c : UInt32} (h : Between a b c) (hne : a ≠ b) :
    a ≠ c ∧ nextVersion a c = nextVersion a b ∧ Between (nextVersion a b) b c := by
  have hnext := nextVersion_toNat hne
  have hne' : a.toNat ≠ b.toNat := fun heq => hne (UInt32.toNat.inj heq)
  simp only [Between, UInt32.le_iff_toNat_le, hnext, UInt32.lt_iff_toNat_lt] at h ⊢
  have hac : a ≠ c := by
    rintro rfl
    omega
  refine ⟨hac, ?_, ?_⟩
  · apply UInt32.toNat.inj
    rw [hnext, nextVersion_toNat hac]
    simp only [UInt32.lt_iff_toNat_lt]
    split_ifs <;> omega
  · split_ifs <;> omega

/-- A walk to `c` is a walk to `b` followed, if that succeeds, by a walk on to `c`. -/
theorem migrateLoop_via (e : MigrationEngine) (b c : UInt32) (p : Progress)
    (h : Between p.current b c) :
    e.migrateLoop c p =
      if (e.migrateLoop b p).ok then
        { e.migrateLoop c ⟨b, (e.migrateLoop b p).obj, (e.migrateLoop b p).storage⟩ with
          calls := (e.migrateLoop b p).calls ++
            (e.migrateLoop c ⟨b, (e.migrateLoop b p).obj, (e.migrateLoop b p).storage⟩).calls }
      else e.migrateLoop b p := by
  -- Up to `b` the two walks take the same steps, since `b` is on the way to `c`.
  induction p using walk_induction e b with
  | done p hcur =>
    obtain ⟨current, obj, storage⟩ := p
    dsimp only at hcur
    subst hcur
    rw [migrateLoop_of_eq (p := ⟨current, obj, storage⟩) rfl]
    rfl
  | stuck p hstuck =>
    obtain ⟨hne, hsame, -⟩ := nextVersion_of_between h hstuck.1
    have hstep : e.stepOf c p = e.stepOf b p := by rw [stepOf, stepOf, hsame]
    have hstuck' : e.Stuck c p := ⟨hne, by rw [hstep, hstuck.2]⟩
    rw [migrateLoop_of_stuck hstuck, migrateLoop_of_stuck hstuck', hstep, hstuck.2]
    rfl
  | round p q hadv ih =>
    obtain ⟨hne, hsame, hbetween⟩ := nextVersion_of_between h hadv.1
    have hstep : e.stepOf c p = e.stepOf b p := by rw [stepOf, stepOf, hsame]
    have hafter : e.after c p = e.after b p := by simp only [after, hsame, hstep]
    have hadv' : e.Advances c p q := by
      obtain ⟨-, hok, rfl⟩ := hadv
      exact ⟨hne, by rw [hstep, hok], hafter.symm⟩
    have hq : q.current = nextVersion p.current b := by
      obtain ⟨-, -, rfl⟩ := hadv
      rfl
    rw [migrateLoop_of_advances hadv, migrateLoop_of_advances hadv', hstep,
      ih (by rw [hq]; exact hbetween)]
    split
    · simp only [List.append_assoc]
    · rfl

/-- Migrating to `c` is migrating to any version on the way and then on to `c`. -/
theorem migrate_composes (e : MigrationEngine) (obj : GameObject) {b c : UInt32}
    (s : ComponentStorage) (h : Between obj.header.schemaVersion b c) :
    e.migrate obj c s = e.migrateVia obj b c s := by
  have hvia := migrateLoop_via e b c (start obj s) h
  change e.migrate obj c s = if (e.migrate obj b s).ok then _ else e.migrate obj b s at hvia
  rw [hvia, migrateVia]
  cases hok : (e.migrate obj b s).ok with
  | false => rfl
  | true =>
    have hsecond : e.migrate (e.migrate obj b s).obj c (e.migrate obj b s).storage =
        e.migrateLoop c ⟨b, (e.migrate obj b s).obj, (e.migrate obj b s).storage⟩ := by
      rw [migrate, start, migrate_ok_version hok]
    simp only [if_true, hsecond]
    rfl

/-- A migration to version 3 that stops at version 2 does so with a stop at 2 on the way as well. -/
theorem migrate_composes_upgradeToTwo :
    upgradeToTwo.migrate (viewOf ⟨1, 0, 5⟩) 3 .empty =
      upgradeToTwo.migrateVia (viewOf ⟨1, 0, 5⟩) 2 3 .empty :=
  migrate_composes upgradeToTwo (viewOf ⟨1, 0, 5⟩) .empty (by decide)

end MigrationEngine

end WasmHot
