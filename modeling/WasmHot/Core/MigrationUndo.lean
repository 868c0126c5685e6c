import WasmHot.Core.MigrationWalk

/-!
# Upgrading and downgrading back

When every pair between two versions has a function in each direction and the second undoes the
first, `ObjectRegistry::Migrate` there and back restores the object: its stored header and every
component in the storage (`migrate_and_back`).

The functions of the way back do not run on what the functions of the way out left, but on what is
left of it after the later pairs have been undone. That has the same components, possibly with other
empty entries, so `Local` asks of a function that it sees nothing of the storage but the components
of its object.
-/

namespace WasmHot

/-! ## Functions that undo each other -/

/-- What a migration function does when it is called on one view with one pair of versions. -/
abbrev BoundFunc := ComponentStorage → FuncResult

/-- The call reads and writes the components of this object and nothing else, and leaves the view
alone. -/
structure BoundFunc.Local (call : BoundFunc) (objectId : UInt64) (view : GameObject) : Prop where
  others : ∀ s id type, id ≠ objectId → (call s).storage.read id type = s.read id type
  own : ∀ s t, s.SameObject objectId t →
    (call s).ok = (call t).ok ∧ (call s).storage.SameObject objectId (call t).storage
  view_kept : ∀ s, (call s).obj = view

/-- The view of an object at a version. -/
def ObjectHeader.viewAt (header : ObjectHeader) (version : UInt32) : GameObject :=
  (viewOf header).setVersion version

/-- The object can go from version `v` to `w` and back: both pairs have a function, both functions
keep to the object and return true, the second one at least on what the first one leaves, and the
second undoes the first. -/
structure MigrationEngine.Undoes (e : MigrationEngine) (header : ObjectHeader) (v w : UInt32)
    (out back : MigrationFunc) : Prop where
  out_registered : e.migrations.lookup (makeKey v w) = some out
  back_registered : e.migrations.lookup (makeKey w v) = some back
  out_local : BoundFunc.Local (out (header.viewAt v) v w) header.objectId (header.viewAt v)
  back_local : BoundFunc.Local (back (header.viewAt w) w v) header.objectId (header.viewAt w)
  out_ok : ∀ s, (out (header.viewAt v) v w s).ok = true
  back_ok : ∀ s, (back (header.viewAt w) w v (out (header.viewAt v) v w s).storage).ok = true
  undone : ∀ s, ComponentStorage.SameObject header.objectId
    (back (header.viewAt w) w v (out (header.viewAt v) v w s).storage).storage s

/-- Every pair on the path from `a` to `b` can be gone and undone. -/
def MigrationEngine.UndoesPath (e : MigrationEngine) (header : ObjectHeader) (a b : UInt32) : Prop :=
  ∀ pair ∈ versionPath a b, ∃ out back, e.Undoes header pair.1 pair.2 out back

/-- Migrating from `a` to `b` and back succeeds and restores the components of the object. The way
back may start from any storage that shows the object as the way out has left it. -/
structure MigrationEngine.Returns (e : MigrationEngine) (header : ObjectHeader) (a b : UInt32)
    (s : ComponentStorage) : Prop where
  out_ok : (e.migrateLoop b ⟨a, header.viewAt a, s⟩).ok = true
  out_view : (e.migrateLoop b ⟨a, header.viewAt a, s⟩).obj = header.viewAt b
  out_others : ∀ id type, id ≠ header.objectId →
    (e.migrateLoop b ⟨a, header.viewAt a, s⟩).storage.read id type = s.read id type
  back_ok : ∀ t, (e.migrateLoop b ⟨a, header.viewAt a, s⟩).storage.SameObject header.objectId t →
    (e.migrateLoop a ⟨b, header.viewAt b, t⟩).ok = true
  back_view : ∀ t, (e.migrateLoop b ⟨a, header.viewAt a, s⟩).storage.SameObject header.objectId t →
    (e.migrateLoop a ⟨b, header.viewAt b, t⟩).obj = header.viewAt a
  back_own : ∀ t, (e.migrateLoop b ⟨a, header.viewAt a, s⟩).storage.SameObject header.objectId t →
    (e.migrateLoop a ⟨b, header.viewAt b, t⟩).storage.SameObject header.objectId s
  back_others : ∀ t,
    (e.migrateLoop b ⟨a, header.viewAt a, s⟩).storage.SameObject header.objectId t →
      ∀ id type, id ≠ header.objectId →
        (e.migrateLoop a ⟨b, header.viewAt b, t⟩).storage.read id type = t.read id type

/-! ## One pair there and back -/

@[simp]
theorem ObjectHeader.viewAt_setVersion (header : ObjectHeader) (v w : UInt32) :
    (header.viewAt v).setVersion w = header.viewAt w := rfl

theorem nextVersion_back {a b : UInt32} (h : a ≠ b) :
    nextVersion a b ≠ a ∧ nextVersion (nextVersion a b) a = a ∧ Between b (nextVersion a b) a := by
  have hnext := nextVersion_toNat h
  have hne : a.toNat ≠ b.toNat := fun heq => h (UInt32.toNat.inj heq)
  have hback : nextVersion a b ≠ a := by
    intro heq
    have hnat := congrArg UInt32.toNat heq
    rw [hnext] at hnat
    simp only [UInt32.lt_iff_toNat_lt] at hnat
    split_ifs at hnat <;> omega
  refine ⟨hback, ?_, ?_⟩
  · apply UInt32.toNat.inj
    rw [nextVersion_toNat hback]
    simp only [hnext, UInt32.lt_iff_toNat_lt]
    split_ifs <;> omega
  · simp only [Between, UInt32.le_iff_toNat_le, hnext, UInt32.lt_iff_toNat_lt]
    split_ifs <;> omega

namespace MigrationEngine

variable {e : MigrationEngine} {header : ObjectHeader} {v w : UInt32} {out back : MigrationFunc}

/-- A round whose function returns true and leaves the view alone. -/
theorem advances_of_local {func : MigrationFunc} {target : UInt32} {s : ComponentStorage}
    (hne : v ≠ target) (hnext : nextVersion v target = w)
    (hfunc : e.migrations.lookup (makeKey v w) = some func)
    (hok : (func (header.viewAt v) v w s).ok = true)
    (hlocal : BoundFunc.Local (func (header.viewAt v) v w) header.objectId (header.viewAt v)) :
    e.Advances target ⟨v, header.viewAt v, s⟩
      ⟨w, header.viewAt w, (func (header.viewAt v) v w s).storage⟩ := by
  subst hnext
  have hstep : e.stepOf target ⟨v, header.viewAt v, s⟩ =
      ⟨true, header.viewAt v, (func (header.viewAt v) v (nextVersion v target) s).storage,
        [⟨v, nextVersion v target, true⟩]⟩ := by
    simp only [stepOf, migrateStep, hfunc, hok, hlocal.view_kept]
  refine ⟨hne, by rw [hstep], ?_⟩
  simp only [after, hstep, ObjectHeader.viewAt_setVersion]

/-- There and back along no pair at all. -/
theorem Returns.refl (e : MigrationEngine) (header : ObjectHeader) (a : UInt32)
    (s : ComponentStorage) : e.Returns header a a s := by
  have hstay : ∀ t, e.migrateLoop a ⟨a, header.viewAt a, t⟩ = ⟨true, header.viewAt a, t, []⟩ :=
    fun t => migrateLoop_of_eq rfl
  constructor
  · rw [hstay]
  · rw [hstay]
  · intro id type _
    rw [hstay]
  · intro t _
    rw [hstay]
  · intro t _
    rw [hstay]
  · intro t hsame type
    rw [hstay] at hsame ⊢
    exact (hsame type).symm
  · intro t _ id type _
    rw [hstay]

/-- A pair that can be undone, put in front of a way there and back. -/
theorem Returns.cons {a b : UInt32} {s : ComponentStorage} (hne : a ≠ b)
    (hundoes : e.Undoes header a (nextVersion a b) out back)
    (h : e.Returns header (nextVersion a b) b
      (out (header.viewAt a) a (nextVersion a b) s).storage) :
    e.Returns header a b s := by
  obtain ⟨hback, hreturn, hbetween⟩ := nextVersion_back hne
  -- The way out makes one round and goes on from there.
  have hout := migrateLoop_of_advances
    (advances_of_local hne rfl hundoes.out_registered (hundoes.out_ok s) hundoes.out_local)
  -- The way back goes to the next version first, and then makes one more round.
  have hin : ∀ t, (e.migrateLoop b ⟨a, header.viewAt a, s⟩).storage.SameObject header.objectId t →
      ∃ t', (out (header.viewAt a) a (nextVersion a b) s).storage.SameObject header.objectId t' ∧
        (∀ id type, id ≠ header.objectId → t'.read id type = t.read id type) ∧
        (e.migrateLoop a ⟨b, header.viewAt b, t⟩).ok = true ∧
        (e.migrateLoop a ⟨b, header.viewAt b, t⟩).obj = header.viewAt a ∧
        (e.migrateLoop a ⟨b, header.viewAt b, t⟩).storage =
          (back (header.viewAt (nextVersion a b)) (nextVersion a b) a t').storage := by
    intro t hsame
    rw [hout] at hsame
    have hvia := migrateLoop_via e (nextVersion a b) a ⟨b, header.viewAt b, t⟩ hbetween
    rw [h.back_ok t hsame, h.back_view t hsame] at hvia
    have hown := h.back_own t hsame
    have hlast := (hundoes.back_local.own _ _ fun type => (hown type).symm).1
    rw [hundoes.back_ok] at hlast
    have hround := migrateLoop_of_advances
      (advances_of_local hback hreturn hundoes.back_registered hlast.symm hundoes.back_local)
    rw [migrateLoop_of_eq (p := ⟨a, _, _⟩) rfl] at hround
    refine ⟨_, fun type => (hown type).symm, h.back_others t hsame, ?_⟩
    rw [hvia, hround]
    exact ⟨rfl, rfl, rfl⟩
  constructor
  · rw [hout]
    exact h.out_ok
  · rw [hout]
    exact h.out_view
  · intro id type hid
    rw [hout]
    exact (h.out_others id type hid).trans (hundoes.out_local.others s id type hid)
  · intro t hsame
    obtain ⟨t', -, -, hok, -, -⟩ := hin t hsame
    exact hok
  · intro t hsame
    obtain ⟨t', -, -, -, hview, -⟩ := hin t hsame
    exact hview
  · intro t hsame type
    obtain ⟨t', hown, -, -, -, hstorage⟩ := hin t hsame
    rw [hstorage, ← (hundoes.back_local.own _ _ hown).2 type]
    exact hundoes.undone s type
  · intro t hsame id type hid
    obtain ⟨t', -, hothers, -, -, hstorage⟩ := hin t hsame
    rw [hstorage, hundoes.back_local.others t' id type hid]
    exact hothers id type hid

/-- A path whose pairs can be undone can be gone there and back. -/
theorem UndoesPath.returns {a b : UInt32} (h : e.UndoesPath header a b) (s : ComponentStorage) :
    e.Returns header a b s := by
  induction hn : versionDistance a b generalizing a s with
  | zero =>
    have heq : a = b := by
      apply UInt32.toNat.inj
      rw [versionDistance] at hn
      omega
    subst heq
    exact .refl e header a s
  | succ n ih =>
    have hne : a ≠ b := by
      rintro rfl
      rw [versionDistance] at hn
      omega
    have hcloser := versionDistance_nextVersion hne
    rw [UndoesPath, versionPath_cons hne] at h
    obtain ⟨out, back, hundoes⟩ := h _ List.mem_cons_self
    exact .cons hne hundoes (ih (fun pair hpair => h pair (List.mem_cons_of_mem _ hpair)) _
      (by omega))

end MigrationEngine

namespace ObjectRegistry

variable {r : ObjectRegistry} {e : MigrationEngine} {objectId : UInt64} {header : ObjectHeader}
  {target : UInt32}

/-- A successful `Migrate` stores the header of the view. -/
theorem migrate_of_ok {s : ComponentStorage} (h : r.objects.lookup objectId = some header)
    (hok : (e.migrate (viewOf header) target s).ok = true) :
    r.migrate e objectId target s =
      ⟨true, ⟨r.objects.insert objectId (e.migrate (viewOf header) target s).obj.header⟩,
        (e.migrate (viewOf header) target s).storage,
        (e.migrate (viewOf header) target s).calls⟩ := by
  rw [migrate_of_some h, hok]
  rfl

/-- If every pair between an object's version and `b` has functions in both directions that return
true, keep to the components of the object and leave the header alone, and the second one undoes
the first, then migrating the object to `b` and back succeeds twice and restores its stored header
and all components of all objects. -/
theorem migrate_and_back {b : UInt32} (s : ComponentStorage)
    (hobj : r.objects.lookup objectId = some header)
    (hundoes : e.UndoesPath header header.schemaVersion b) :
    (r.migrate e objectId b s).ok = true ∧
      ((r.migrate e objectId b s).registry.migrate e objectId header.schemaVersion
        (r.migrate e objectId b s).storage).ok = true ∧
      ((r.migrate e objectId b s).registry.migrate e objectId header.schemaVersion
        (r.migrate e objectId b s).storage).registry = r ∧
      ((r.migrate e objectId b s).registry.migrate e objectId header.schemaVersion
        (r.migrate e objectId b s).storage).storage.SameComponents s := by
  have hreturns := hundoes.returns s
  have hmigrated := migrate_of_ok hobj hreturns.out_ok
  have hview : (e.migrate (viewOf header) b s).obj = header.viewAt b := hreturns.out_view
  rw [hview] at hmigrated
  rw [hmigrated]
  refine ⟨rfl, ?_⟩
  generalize hstorage : (e.migrate (viewOf header) b s).storage = s₁
  have hsame : (e.migrateLoop b ⟨header.schemaVersion, header.viewAt header.schemaVersion,
      s⟩).storage.SameObject header.objectId s₁ := fun type => by rw [← hstorage]; rfl
  -- The second call finds the header that the first one stored.
  have hfound : Finmap.lookup objectId (r.objects.insert objectId (header.viewAt b).header) =
      some (header.viewAt b).header := Finmap.lookup_insert _
  have hback := migrate_of_ok (r := ⟨r.objects.insert objectId (header.viewAt b).header⟩) hfound
    (hreturns.back_ok s₁ hsame)
  have hview' : (e.migrate (viewOf (header.viewAt b).header) header.schemaVersion s₁).obj =
      viewOf header := hreturns.back_view s₁ hsame
  rw [hview'] at hback
  rw [hback]
  refine ⟨rfl, ?_, fun id type => ?_⟩
  · show (⟨_⟩ : ObjectRegistry) = r
    rw [Finmap.insert_insert, show (viewOf header).header = header from rfl,
      UnorderedMap.insert_of_lookup hobj]
  · by_cases hid : id = header.objectId
    · subst hid
      exact hreturns.back_own s₁ hsame type
    · refine (hreturns.back_others s₁ hsame id type hid).trans ?_
      rw [← hstorage]
      exact hreturns.out_others id type hid

end ObjectRegistry

/-! ## A byte in front

Going from version 1 to 2 puts a zero byte in front of component 7, and going back takes it away.
-/

/-- Rewrite the bytes of component 7 of the object, if it has that component. -/
def rewriteSeven (change : ComponentData → ComponentData) : MigrationFunc := fun obj _ _ s =>
  match obj.readComponent 7 s with
  | none => ⟨true, obj, s⟩
  | some data => ⟨true, obj, obj.writeComponent 7 (change data) s⟩

/-- The table with the two functions for (1, 2) and (2, 1). -/
def pushAndPop : MigrationEngine :=
  ((⟨∅⟩ : MigrationEngine).register 1 2 (rewriteSeven (0 :: ·))).register 2 1
    (rewriteSeven List.tail)

theorem rewriteSeven_ok (change : ComponentData → ComponentData) (obj : GameObject) (v w : UInt32)
    (s : ComponentStorage) :
    (rewriteSeven change obj v w s).ok = true ∧ (rewriteSeven change obj v w s).obj = obj := by
  unfold rewriteSeven
  split <;> exact ⟨rfl, rfl⟩

theorem read_rewriteSeven (change : ComponentData → ComponentData) (header : ObjectHeader)
    (version v w : UInt32) (s : ComponentStorage) (id : UInt64) (type : ComponentType) :
    (rewriteSeven change (header.viewAt version) v w s).storage.read id type =
      if id = header.objectId ∧ type = 7 then (s.read header.objectId 7).map change
      else s.read id type := by
  have hread : (header.viewAt version).readComponent 7 s = s.read header.objectId 7 := rfl
  unfold rewriteSeven
  rw [hread]
  cases hdata : s.read header.objectId 7 with
  | none =>
    show s.read id type = if _ then none else _
    by_cases hown : id = header.objectId ∧ type = 7
    · rw [if_pos hown, hown.1, hown.2, hdata]
    · rw [if_neg hown]
  | some data => exact s.read_write _ _ _ _ _

theorem rewriteSeven_local (change : ComponentData → ComponentData) (header : ObjectHeader)
    (version v w : UInt32) :
    BoundFunc.Local (rewriteSeven change (header.viewAt version) v w) header.objectId
      (header.viewAt version) where
  others s id type hid := by
    rw [read_rewriteSeven, if_neg fun h => hid h.1]
  own s t hsame := by
    refine ⟨by rw [(rewriteSeven_ok ..).1, (rewriteSeven_ok ..).1], fun type => ?_⟩
    rw [read_rewriteSeven, read_rewriteSeven, hsame 7, hsame type]
  view_kept s := (rewriteSeven_ok ..).2

theorem pushAndPop_undoes (header : ObjectHeader) :
    pushAndPop.Undoes header 1 2 (rewriteSeven (0 :: ·)) (rewriteSeven List.tail) where
  out_registered := rfl
  back_registered := rfl
  out_local := rewriteSeven_local _ header 1 1 2
  back_local := rewriteSeven_local _ header 2 2 1
  out_ok s := (rewriteSeven_ok ..).1
  back_ok s := (rewriteSeven_ok ..).1
  undone s type := by
    rw [read_rewriteSeven, read_rewriteSeven, read_rewriteSeven]
    by_cases htype : type = 7
    · subst htype
      simp [Function.comp_def]
    · simp [htype]

/-- Object 5 goes to version 2 and back. -/
theorem migrate_and_back_pushAndPop :
    (registryOfFive.migrate pushAndPop 5 2 (ComponentStorage.empty.write 5 7 [1])).ok = true ∧
      ((registryOfFive.migrate pushAndPop 5 2 (ComponentStorage.empty.write 5 7 [1])).registry.migrate
        pushAndPop 5 1
        (registryOfFive.migrate pushAndPop 5 2 (ComponentStorage.empty.write 5 7 [1])).storage).ok =
          true ∧
      ((registryOfFive.migrate pushAndPop 5 2 (ComponentStorage.empty.write 5 7 [1])).registry.migrate
        pushAndPop 5 1
        (registryOfFive.migrate pushAndPop 5 2 (ComponentStorage.empty.write 5 7 [1])).storage).registry
          = registryOfFive ∧
      ((registryOfFive.migrate pushAndPop 5 2 (ComponentStorage.empty.write 5 7 [1])).registry.migrate
        pushAndPop 5 1
        (registryOfFive.migrate pushAndPop 5 2
          (ComponentStorage.empty.write 5 7 [1])).storage).storage.SameComponents
        (ComponentStorage.empty.write 5 7 [1]) := by
  have hpath : versionPath 1 2 = [(1, 2)] := by decide
  have hregistered : registryOfFive.objects.lookup 5 = some ⟨1, 0, 5⟩ := rfl
  refine ObjectRegistry.migrate_and_back _ hregistered fun pair hpair => ?_
  obtain rfl := List.mem_singleton.mp (hpath ▸ hpair)
  exact ⟨_, _, pushAndPop_undoes ⟨1, 0, 5⟩⟩

end WasmHot
