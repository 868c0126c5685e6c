import WasmHot.Core.MigrationWalk

/-!
# Failed migrations

`Migrate` copies the header back only if the whole walk succeeded. The components have no such
second copy: a function that returns true has written to the storage, and when a later pair has no
function, or one that returns false, nothing takes that back.

So a failed `Migrate` leaves everything as it was if no function returned true before the first pair
that fails. Once one has, nothing about the pairs and the answers is enough any more: for every number
of pairs before the failing one there are functions with which the components come out changed
(`migrate_keeps_all`).
-/

namespace WasmHot

/-- If `Migrate` returns false, every stored header and every component are as they were. -/
def ObjectRegistry.MigrateKeepsAll (r : ObjectRegistry) (e : MigrationEngine) (objectId : UInt64)
    (target : UInt32) (storage : ComponentStorage) : Prop :=
  (r.migrate e objectId target storage).ok = false →
    (r.migrate e objectId target storage).registry = r ∧
      (r.migrate e objectId target storage).storage.SameComponents storage

/-! ## Walks that fail at once -/

open MigrationEngine in
/-- A walk that fails at its first pair or not at all leaves everything as it was. -/
theorem ObjectRegistry.migrateKeepsAll_of_failsAtOnce {r : ObjectRegistry} {e : MigrationEngine}
    {objectId : UInt64} {target : UInt32} {storage : ComponentStorage} (he : e.WellBehaved)
    (h : ∀ header, r.objects.lookup objectId = some header →
      e.FailsAtOnce target (start (viewOf header) storage)) :
    r.MigrateKeepsAll e objectId target storage := by
  intro hfail
  cases hentry : r.objects.lookup objectId with
  | none =>
    rw [migrate_of_none hentry]
    exact ⟨rfl, .refl storage⟩
  | some header =>
    rw [migrate_of_some hentry] at hfail ⊢
    have hfail : (e.migrate (viewOf header) target storage).ok = false := hfail
    obtain ⟨q, hreach, hstuck⟩ := (migrateLoop_fails_iff _).mp hfail
    obtain rfl := h header hentry q hreach hstuck
    have hstorage := he.stuck_storage hstuck
    rw [← migrateLoop_of_stuck hstuck] at hstorage
    refine ⟨by simp [hfail], ?_⟩
    rw [MigrationEngine.migrate, hstorage]
    exact .refl storage

/-! ## Walks that fail later -/

/-- The versions on the way are all different. -/
theorem versionAt_inj {a b : UInt32} {i j : ℕ} (hi : i ≤ versionDistance a b)
    (hj : j ≤ versionDistance a b) (h : versionAt a b i = versionAt a b j) : i = j := by
  have ha := a.toNat_lt
  have hb := b.toNat_lt
  have hsize : UInt32.size = 2 ^ 32 := rfl
  have hversion := congrArg UInt32.toNat h
  simp only [versionDistance] at hi hj
  simp only [versionAt, UInt32.le_iff_toNat_le] at hversion
  split_ifs at hversion
  · rw [UInt32.toNat_ofNat_of_lt' (by omega), UInt32.toNat_ofNat_of_lt' (by omega)] at hversion
    omega
  · rw [UInt32.toNat_ofNat_of_lt' (by omega), UInt32.toNat_ofNat_of_lt' (by omega)] at hversion
    omega

theorem nodup_versionPath (a b : UInt32) : (versionPath a b).Nodup := by
  refine List.Nodup.map_on (fun i hi j hj hpair => ?_) List.nodup_range
  have hi := List.mem_range.mp hi
  have hj := List.mem_range.mp hj
  exact versionAt_inj hi.le hj.le (congrArg Prod.fst hpair)

/-- The same function for all pairs of a list. -/
def registerPairs (func : MigrationFunc) (pairs : List (UInt32 × UInt32)) : List Registration :=
  pairs.map fun pair => ⟨pair.1, pair.2, func⟩

theorem lastRegistered_registerPairs (func : MigrationFunc) (pairs : List (UInt32 × UInt32))
    (v w : UInt32) :
    lastRegistered (registerPairs func pairs) v w =
      if (v, w) ∈ pairs then some func else none := by
  unfold lastRegistered registerPairs
  split
  · next hmem =>
    -- Whatever registration is found, its function is this one.
    cases hfind : (pairs.map fun pair => (⟨pair.1, pair.2, func⟩ : Registration)).reverse.find?
        fun r => r.fromVersion = v ∧ r.toVersion = w with
    | none =>
      have hnot := List.find?_eq_none.mp hfind ⟨v, w, func⟩
        (List.mem_reverse.mpr (List.mem_map.mpr ⟨(v, w), hmem, rfl⟩))
      simp at hnot
    | some r =>
      obtain ⟨pair, -, rfl⟩ := List.mem_map.mp
        (List.mem_reverse.mp (List.mem_of_find?_eq_some hfind))
      rfl
  · next hmem =>
    rw [Option.map_eq_none_iff, List.find?_eq_none]
    intro r hr
    obtain ⟨pair, hpair, rfl⟩ := List.mem_map.mp (List.mem_reverse.mp hr)
    simp only [decide_eq_true_eq, not_and]
    rintro rfl rfl
    exact hmem hpair

/-- Where the functions of the first pairs write component 7 and the next pair has none, the walk
fails and component 7 is written, unless there is no first pair. -/
theorem Walks.writes_seven {funcs : UInt32 → UInt32 → Option MigrationFunc}
    {first rest : List (UInt32 × UInt32)} {v w : UInt32} {obj : GameObject} {s : ComponentStorage}
    {m : Migrated} (hfirst : ∀ pair ∈ first, funcs pair.1 pair.2 = some writeSeven)
    (hmissing : funcs v w = none) (hptr : obj.storage = .singleton)
    (h : Walks funcs (first ++ (v, w) :: rest) obj s m) :
    m.ok = false ∧ (first ≠ [] ∨ s.read obj.header.objectId 7 = some [1] →
      m.storage.read obj.header.objectId 7 = some [1]) := by
  induction first generalizing obj s m with
  | nil =>
    cases h with
    | missing => exact ⟨rfl, fun hwritten => hwritten.resolve_left (not_not.mpr rfl)⟩
    | refused hfunc => cases hmissing.symm.trans hfunc
    | advanced hfunc => cases hmissing.symm.trans hfunc
  | cons pair first ih =>
    obtain ⟨a, b⟩ := pair
    have hfunc : funcs a b = some writeSeven := hfirst (a, b) List.mem_cons_self
    have h : Walks funcs ((a, b) :: (first ++ (v, w) :: rest)) obj s m := h
    cases h with
    | missing hnone => cases hnone.symm.trans hfunc
    | refused hfound hok =>
      cases hfound.symm.trans hfunc
      cases hok
    | advanced hfound hok hrest =>
      cases hfound.symm.trans hfunc
      have hwritten : (writeSeven obj a b s).storage.read obj.header.objectId 7 =
          some [1] := by
        simp [writeSeven, GameObject.writeComponent, hptr, ComponentStorage.read_write]
      have hptr' : (obj.setVersion b).storage = .singleton := hptr
      obtain ⟨hfails, hkept⟩ := ih (fun p hp => hfirst p (List.mem_cons_of_mem _ hp)) hptr' hrest
      exact ⟨hfails, fun _ => hkept (Or.inr hwritten)⟩

/-- A failed `Migrate` leaves every stored header and every component as they were if no function
returned true before the first pair that has no function or whose function returns false. And not
otherwise, as far as the pairs and the answers go: there is a function that keeps its promise and
always returns true, with which for every registered object and every number of pairs before the
failing one such a `Migrate` fails and has changed a component. -/
theorem ObjectRegistry.migrate_keeps_all (objectId : UInt64) (target : UInt32) :
    (∀ (r : ObjectRegistry) (e : MigrationEngine) (storage : ComponentStorage), e.WellBehaved →
      (∀ header, r.objects.lookup objectId = some header →
        e.FailsAtOnce target (MigrationEngine.start (viewOf header) storage)) →
      r.MigrateKeepsAll e objectId target storage) ∧
    ∃ func : MigrationFunc, func.WellBehaved ∧ (∀ obj v w s, (func obj v w s).ok = true) ∧
      ∀ (r : ObjectRegistry) (header : ObjectHeader) (k : ℕ),
        r.objects.lookup objectId = some header → 0 < k →
        k < versionDistance header.schemaVersion target →
        ¬ r.MigrateKeepsAll (MigrationEngine.registerAll
          (registerPairs func ((versionPath header.schemaVersion target).take k))) objectId target
            .empty := by
  refine ⟨fun r e storage he h => migrateKeepsAll_of_failsAtOnce he h,
    writeSeven, writeSeven_wellBehaved, fun _ _ _ _ => rfl, ?_⟩
  intro r header k hentry hpos hk hkeeps
  have hlength := length_versionPath header.schemaVersion target
  -- The path splits at the failing pair, which is not among those before it.
  obtain ⟨pair, rest, hdrop⟩ : ∃ pair rest,
      (versionPath header.schemaVersion target).drop k = pair :: rest :=
    List.exists_cons_of_ne_nil fun hnil => by
      have hle := List.drop_eq_nil_iff.mp hnil
      omega
  have hsplit := List.take_append_drop k (versionPath header.schemaVersion target)
  rw [hdrop] at hsplit
  have hnew : pair ∉ (versionPath header.schemaVersion target).take k := by
    have hnodup := nodup_versionPath header.schemaVersion target
    rw [← hsplit, List.nodup_append] at hnodup
    exact fun hmem => hnodup.2.2 pair hmem pair List.mem_cons_self rfl
  have hnonempty : (versionPath header.schemaVersion target).take k ≠ [] := by
    intro hnil
    have htake := congrArg List.length hnil
    rw [List.length_take, List.length_nil] at htake
    omega
  have hwalks : Walks _ (versionPath header.schemaVersion target) (viewOf header) .empty
      ((MigrationEngine.registerAll (registerPairs writeSeven
        ((versionPath header.schemaVersion target).take k))).migrate (viewOf header) target .empty) :=
    MigrationEngine.migrateLoop_walks (MigrationEngine.lookup_registerAll _)
      (MigrationEngine.start (viewOf header) .empty)
  nth_rewrite 2 [← hsplit] at hwalks
  obtain ⟨hfails, hwritten⟩ := hwalks.writes_seven
    (fun p hp => (lastRegistered_registerPairs writeSeven _ p.1 p.2).trans (if_pos hp))
    ((lastRegistered_registerPairs writeSeven _ pair.1 pair.2).trans (if_neg hnew)) rfl
  have hok : (r.migrate (MigrationEngine.registerAll (registerPairs writeSeven
      ((versionPath header.schemaVersion target).take k))) objectId target .empty).ok = false := by
    rw [migrate_of_some hentry]
    exact hfails
  have hsame := (hkeeps hok).2 header.objectId 7
  rw [migrate_of_some hentry, ComponentStorage.read_empty] at hsame
  cases hsame.symm.trans (hwritten (Or.inl hnonempty))

/-! ## Object 5

It is at version 1. The pair (1, 2) has a function that writes component 7, and the pair (2, 3) has
none.
-/

/-- Migrating object 5 to version 3 returns false after component 7 was written. -/
theorem migrate_false_after_write :
    upgradeToTwo.WellBehaved ∧
      (registryOfFive.migrate upgradeToTwo 5 3 .empty).ok = false ∧
      ¬ (registryOfFive.migrate upgradeToTwo 5 3 .empty).storage.SameComponents .empty := by
  refine ⟨upgradeToTwo_wellBehaved, by decide +kernel, fun hsame => ?_⟩
  have hwritten : (registryOfFive.migrate upgradeToTwo 5 3 .empty).storage.read 5 7 = some [1] := by
    decide +kernel
  rw [hsame 5 7, ComponentStorage.read_empty] at hwritten
  cases hwritten

/-- Migrating it to version 0 fails at once, and changes nothing. -/
theorem migrate_keeps_all_toZero :
    (registryOfFive.migrate upgradeToTwo 5 0 .empty).ok = false ∧
      registryOfFive.MigrateKeepsAll upgradeToTwo 5 0 .empty := by
  refine ⟨by decide +kernel, (ObjectRegistry.migrate_keeps_all 5 0).1 _ _ _ upgradeToTwo_wellBehaved
    fun header hentry q hreach _ => ?_⟩
  obtain rfl : (⟨1, 0, 5⟩ : ObjectHeader) = header := Option.some.inj hentry
  rcases Relation.ReflTransGen.cases_head hreach with rfl | ⟨p, hadv, -⟩
  · rfl
  · cases hadv.2.1

end WasmHot
