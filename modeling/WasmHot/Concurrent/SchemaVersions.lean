import WasmHot.Concurrent.SharedWorld
import Mathlib.Logic.Function.Basic

/-!
# A view and the version of the data behind it

A `Migrate` rewrites an object's components under the entry's mutex. `Get` takes that mutex too, but
only to copy the header: the invocation then works on its view without it, and a `Migrate` can run
in between, so that the view shows a version which the data has left.

The history follows the version of each object's data. It changes with the migration functions, and
a function that refuses leaves the data at the version it was called on. `Tracked` is the invariant
for one object: as long as no function is called on it while an invocation holds a view, and no
`Migrate` of it fails halfway, every view shows the version of the data.
-/

namespace WasmHot

/-- The object an invocation holds a view of. -/
def Call.views : Call → Option UInt64
  | .invoking objectId _ => some objectId
  | _ => none

/-- The object, the target and the current version of a walk of `Migrate`. -/
def Call.walk : Call → Option (UInt64 × UInt32 × UInt32)
  | .migrating objectId target current _ _ => some (objectId, target, current)
  | _ => none

/-- The version of each object's data, unknown while a migration function runs on it; how many
functions were called on the object so far; and how many there were when a thread got its view. -/
structure DataVersions where
  version : UInt64 → Option UInt32
  steps : UInt64 → ℕ
  shown : ThreadId → ℕ

namespace DataVersions

/-- Between calls the data of an object is at the version its header shows. -/
def start (s : SharedWorld) : DataVersions :=
  ⟨fun id => (s.registry.objects.lookup id).map (·.schemaVersion), fun _ => 0, fun _ => 0⟩

/-- Extend the history by one step. -/
def record (g : DataVersions) (s : SharedWorld) (a : SharedAction) : DataVersions where
  version :=
    match a with
    | .create header =>
        Function.update g.version header.objectId (some header.schemaVersion)
    | .funcCall t =>
        match (s.calls.lookup t).bind Call.walk with
        | some (id, _, _) => Function.update g.version id none
        | none => g.version
    | .funcReturn t ok _ =>
        match (s.calls.lookup t).bind Call.walk with
        | some (id, target, current) =>
            Function.update g.version id (some (if ok then nextVersion current target else current))
        | none => g.version
    | _ => g.version
  steps :=
    match a with
    | .funcCall t =>
        match (s.calls.lookup t).bind Call.walk with
        | some (id, _, _) => Function.update g.steps id (g.steps id + 1)
        | none => g.steps
    | _ => g.steps
  shown :=
    match a with
    | .getSnapshot t objectId => Function.update g.shown t (g.steps objectId)
    | _ => g.shown

end DataVersions

/-- The count a view was handed out at stays with it. -/
theorem DataVersions.shown_kept (g : DataVersions) {s s' : SharedWorld} {a : SharedAction}
    (hstep : s.step a = some s') (objectId : UInt64) (t : ThreadId) (view : GameObject)
    (hcall : s.calls.lookup t = some (.invoking objectId view)) :
    (g.record s a).shown t = g.shown t := by
  cases a with
  | getSnapshot u id =>
    obtain ⟨hidle, -, -⟩ := SharedWorld.getSnapshot_eq hstep
    exact Function.update_of_ne (UnorderedMap.ne_of_lookup hcall hidle) _ _
  | _ => rfl

namespace SharedWorld

/-- No invocation holds a view of the object. -/
def Unviewed (s : SharedWorld) (objectId : UInt64) : Prop :=
  ∀ t ∈ s.calls.keys, (s.calls.lookup t).bind Call.views ≠ some objectId

instance (s : SharedWorld) (objectId : UInt64) : Decidable (s.Unviewed objectId) :=
  inferInstanceAs (Decidable (∀ t ∈ s.calls.keys, _))

/-- If the thread migrates the object, it is at the target or has not gone a step yet. -/
def WholeWalk (s : SharedWorld) (t : ThreadId) (objectId : UInt64) : Prop :=
  ∀ walk ∈ (s.calls.lookup t).bind Call.walk, walk.1 = objectId →
    walk.2.2 = walk.2.1 ∨
      (s.registry.objects.lookup objectId).map (·.schemaVersion) = some walk.2.2

instance (s : SharedWorld) (t : ThreadId) (objectId : UInt64) :
    Decidable (s.WholeWalk t objectId) :=
  -- Named, because a search through all 32-bit versions would be an instance as well.
  Option.decidableForallMem _

/-- The object is not created or destroyed by the step; a migration function is called on it only
when no invocation holds a view of it; and a `Migrate` of it does not fail after a step of the
walk. -/
def Separate (s : SharedWorld) (objectId : UInt64) : SharedAction → Prop
  | .create header => header.objectId ≠ objectId
  | .destroyErase _ id => id ≠ objectId
  | .funcCall t =>
      (s.calls.lookup t).bind Call.locks = some objectId → s.Unviewed objectId
  | .funcReturn t ok _ => ok = false → s.WholeWalk t objectId
  | .migrateEnd t => s.WholeWalk t objectId
  | _ => True

instance (s : SharedWorld) (objectId : UInt64) : DecidablePred (s.Separate objectId)
  | .create _ => inferInstanceAs (Decidable (_ ≠ _))
  | .destroyErase _ _ => inferInstanceAs (Decidable (_ ≠ _))
  | .funcCall _ => inferInstanceAs (Decidable (_ → _))
  | .funcReturn _ _ _ => inferInstanceAs (Decidable (_ → _))
  | .migrateEnd _ => inferInstanceAs (Decidable (WholeWalk _ _ _))
  | .destroyRemoveAll _ => inferInstanceAs (Decidable True)
  | .getSnapshot _ _ => inferInstanceAs (Decidable True)
  | .hostCall _ _ _ => inferInstanceAs (Decidable True)
  | .invokeReturn _ _ _ => inferInstanceAs (Decidable True)
  | .register _ _ => inferInstanceAs (Decidable True)
  | .migrateBegin _ _ _ => inferInstanceAs (Decidable True)
  | .funcWrite _ _ => inferInstanceAs (Decidable True)
  | .funcRemove _ _ _ => inferInstanceAs (Decidable True)

theorem Unviewed.ne_invoking {s : SharedWorld} {objectId : UInt64} {t : ThreadId}
    {view : GameObject} (h : s.Unviewed objectId) :
    s.calls.lookup t ≠ some (.invoking objectId view) :=
  fun hcall => UnorderedMap.label_ne h hcall rfl

end SharedWorld

/-! ## The invariant of one object -/

/-- How the calls, the header and the data version of an object belong together. -/
structure Tracked (objectId : UInt64) (s : SharedWorld) (g : DataVersions) : Prop where
  /-- Without a `Migrate` of the object its header shows the version of its data. -/
  settled : (∀ t call, s.calls.lookup t = some call → call.locks ≠ some objectId) →
    ∀ header, s.registry.objects.lookup objectId = some header →
      g.version objectId = some header.schemaVersion
  /-- A `Migrate` of the object knows the version of its data. -/
  walking : ∀ t target current view inFunc,
    s.calls.lookup t = some (.migrating objectId target current view inFunc) →
      view.header.schemaVersion = current ∧
        g.version objectId = (if inFunc then none else some current) ∧
        (inFunc = true → current ≠ target)
  /-- Only one thread at a time migrates the object. -/
  exclusive : ∀ t t' call call', s.calls.lookup t = some call → s.calls.lookup t' = some call' →
    call.locks = some objectId → call'.locks = some objectId → t = t'
  /-- A view shows the version of the data, and no function was called since it was handed out. -/
  shown : ∀ t view, s.calls.lookup t = some (.invoking objectId view) →
    g.version objectId = some view.header.schemaVersion ∧ g.shown t = g.steps objectId

namespace Tracked

variable {objectId : UInt64} {s s' : SharedWorld} {g g' : DataVersions} {t : ThreadId}

/-- Whatever leaves the header, the data version, the `Migrate`s and the views of the object alone
keeps the invariant; views may be given up. -/
theorem frame (hinv : Tracked objectId s g)
    (hcalls : ∀ t call, s'.calls.lookup t = some call →
      s.calls.lookup t = some call ∨
        (call.locks ≠ some objectId ∧ call.views ≠ some objectId))
    (hlocks : ∀ t call, s.calls.lookup t = some call → call.locks = some objectId →
      s'.calls.lookup t = some call)
    (hheader : s'.registry.objects.lookup objectId = s.registry.objects.lookup objectId)
    (hversion : g'.version objectId = g.version objectId)
    (hsteps : g'.steps objectId = g.steps objectId)
    (hshown : ∀ t view, s.calls.lookup t = some (.invoking objectId view) →
      g'.shown t = g.shown t) : Tracked objectId s' g' where
  settled hfree header hfound := by
    rw [hversion]
    rw [hheader] at hfound
    refine hinv.settled (fun t call hcall hlock => ?_) header hfound
    exact hfree t call (hlocks t call hcall hlock) hlock
  walking t target current view inFunc hcall := by
    rw [hversion]
    rcases hcalls t _ hcall with hcall | ⟨hlock, -⟩
    · exact hinv.walking t target current view inFunc hcall
    · exact absurd rfl hlock
  exclusive t t' call call' hcall hcall' hlock hlock' := by
    have hold := (hcalls t call hcall).resolve_right fun h => h.1 hlock
    have hold' := (hcalls t' call' hcall').resolve_right fun h => h.1 hlock'
    exact hinv.exclusive t t' call call' hold hold' hlock hlock'
  shown t view hcall := by
    rcases hcalls t _ hcall with hcall | ⟨-, hview⟩
    · rw [hversion, hsteps, hshown t view hcall]
      exact hinv.shown t view hcall
    · exact absurd rfl hview

/-- `frame` for a step that moves one thread, from a call that does not lock the object to one that
neither locks nor views it. -/
theorem frame_at {after : Option Call} (hinv : Tracked objectId s g)
    (hcalls : ∀ u, s'.calls.lookup u = if u = t then after else s.calls.lookup u)
    (hbefore : ∀ call, s.calls.lookup t = some call → call.locks ≠ some objectId)
    (hafter : ∀ call, after = some call →
      call.locks ≠ some objectId ∧ call.views ≠ some objectId)
    (hheader : s'.registry.objects.lookup objectId = s.registry.objects.lookup objectId)
    (hversion : g'.version objectId = g.version objectId)
    (hsteps : g'.steps objectId = g.steps objectId)
    (hshown : ∀ t view, s.calls.lookup t = some (.invoking objectId view) →
      g'.shown t = g.shown t) : Tracked objectId s' g' := by
  refine hinv.frame ?_ ?_ hheader hversion hsteps hshown
  · intro u call hu
    rw [hcalls] at hu
    by_cases hut : u = t
    · rw [if_pos hut] at hu
      exact Or.inr (hafter call hu)
    · rw [if_neg hut] at hu
      exact Or.inl hu
  · intro u call hu hlock
    have hut : u ≠ t := by
      rintro rfl
      exact hbefore call hu hlock
    rw [hcalls, if_neg hut, hu]

/-- `Get` hands out a view. -/
theorem getSnapshot {header : ObjectHeader} (hinv : Tracked objectId s g)
    (hfree : s.EntryFree objectId)
    (hfound : s.registry.objects.lookup objectId = some header) :
    Tracked objectId (s.enter t (.invoking objectId (viewOf header)))
      (g.record s (.getSnapshot t objectId)) := by
  have hversion := hinv.settled (fun u call hcall => hfree.locks_ne hcall) header hfound
  refine ⟨fun _ => hinv.settled fun u call hcall => hfree.locks_ne hcall, ?_, ?_, ?_⟩
  · intro u target current view inFunc hcall
    rw [SharedWorld.lookup_enter] at hcall
    by_cases hu : u = t
    · simp [hu] at hcall
    · rw [if_neg hu] at hcall
      exact hinv.walking u target current view inFunc hcall
  -- A view takes no lock, so it is not one of two migrations.
  · intro u u' call call' hcall hcall' hlock hlock'
    rw [SharedWorld.lookup_enter] at hcall
    by_cases hu : u = t
    · rw [if_pos hu] at hcall
      cases hcall
      cases hlock
    · rw [if_neg hu] at hcall
      exact absurd hlock (hfree.locks_ne hcall)
  · intro u view hcall
    rw [SharedWorld.lookup_enter] at hcall
    by_cases hu : u = t
    · rw [if_pos hu] at hcall
      cases hcall
      subst hu
      exact ⟨hversion, Function.update_self _ _ _⟩
    · rw [if_neg hu] at hcall
      -- The note of what was shown is the thread's own.
      have hshown : (g.record s (.getSnapshot t objectId)).shown u = g.shown u :=
        Function.update_of_ne hu _ _
      rw [hshown]
      exact hinv.shown u view hcall

/-- A `Migrate` of the object begins. -/
theorem migrateBegin {header : ObjectHeader} {target : UInt32} (hinv : Tracked objectId s g)
    (hfree : s.EntryFree objectId)
    (hfound : s.registry.objects.lookup objectId = some header) :
    Tracked objectId
      (s.enter t (.migrating objectId target header.schemaVersion (viewOf header) false))
      (g.record s (.migrateBegin t objectId target)) := by
  -- No call has the entry, so its header is at the version of the data.
  have hversion := hinv.settled (fun u call hcall => hfree.locks_ne hcall) header hfound
  have hself : (s.enter t (.migrating objectId target header.schemaVersion (viewOf header)
      false)).calls.lookup t = some (.migrating objectId target header.schemaVersion
        (viewOf header) false) := by
    rw [SharedWorld.lookup_enter, if_pos rfl]
  refine ⟨fun hnone => absurd rfl (hnone t _ hself), ?_, ?_, ?_⟩
  · intro u target' current view inFunc hcall
    rw [SharedWorld.lookup_enter] at hcall
    by_cases hu : u = t
    · rw [if_pos hu] at hcall
      cases hcall
      exact ⟨rfl, hversion, fun h => by cases h⟩
    · rw [if_neg hu] at hcall
      exact absurd rfl (hfree.locks_ne hcall)
  · intro u u' call call' hcall hcall' hlock hlock'
    rw [SharedWorld.lookup_enter] at hcall hcall'
    -- Whoever has the lock of the entry now is the thread that just took it.
    have hu : u = t := by
      by_contra hu
      rw [if_neg hu] at hcall
      exact hfree.locks_ne hcall hlock
    have hu' : u' = t := by
      by_contra hu'
      rw [if_neg hu'] at hcall'
      exact hfree.locks_ne hcall' hlock'
    rw [hu, hu']
  · intro u view hcall
    rw [SharedWorld.lookup_enter] at hcall
    by_cases hu : u = t
    · simp [hu] at hcall
    · rw [if_neg hu] at hcall
      exact hinv.shown u view hcall

/-- While thread `t` migrates the object, moving `t` on in its walk keeps the invariant if the new
place knows the new version of the data, and no view is out. -/
theorem walk_on {target current current' : UInt32} {view view' : GameObject} {inFunc inFunc' : Bool}
    (hinv : Tracked objectId s g)
    (hcall : s.calls.lookup t = some (.migrating objectId target current view inFunc))
    (hunviewed : ∀ u view, s.calls.lookup u ≠ some (.invoking objectId view))
    (hview : view'.header.schemaVersion = current')
    (hversion : g'.version objectId = if inFunc' then none else some current')
    (hrunning : inFunc' = true → current' ≠ target) :
    Tracked objectId (s.enter t (.migrating objectId target current' view' inFunc')) g' := by
  have hself : (s.enter t (.migrating objectId target current' view' inFunc')).calls.lookup t =
      some (.migrating objectId target current' view' inFunc') := by
    rw [SharedWorld.lookup_enter, if_pos rfl]
  -- Any other thread at a call that locks the object would have locked it before.
  have honly : ∀ u call,
      (s.enter t (.migrating objectId target current' view' inFunc')).calls.lookup u = some call →
        call.locks = some objectId → u = t := by
    intro u call hu hlock
    rw [SharedWorld.lookup_enter] at hu
    by_contra hne
    rw [if_neg hne] at hu
    exact hne (hinv.exclusive u t _ _ hu hcall hlock rfl)
  refine ⟨fun hnone => absurd rfl (hnone t _ hself), ?_, ?_, ?_⟩
  · intro u target₂ current₂ view₂ inFunc₂ hu
    have hut := honly u _ hu rfl
    subst hut
    rw [hself] at hu
    cases hu
    exact ⟨hview, hversion, hrunning⟩
  · intro u u' call call' hu hu' hlock hlock'
    rw [honly u call hu hlock, honly u' call' hu' hlock']
  · intro u view₂ hu
    rw [SharedWorld.lookup_enter] at hu
    by_cases hut : u = t
    · simp [hut] at hu
    · rw [if_neg hut] at hu
      exact absurd hu (hunviewed u view₂)

/-- The `Migrate` of thread `t` returns, with the registry as it leaves it. -/
theorem walk_over {target current : UInt32} {view : GameObject} {inFunc : Bool}
    {registry : ObjectRegistry} (hinv : Tracked objectId s g)
    (hcall : s.calls.lookup t = some (.migrating objectId target current view inFunc))
    (hheader : ∀ header, registry.objects.lookup objectId = some header →
      g'.version objectId = some header.schemaVersion)
    (hshown : ∀ u view, s.calls.lookup u = some (.invoking objectId view) →
      g'.version objectId = some view.header.schemaVersion ∧ g'.shown u = g'.steps objectId) :
    Tracked objectId ({ s with registry := registry }.leave t) g' := by
  have hold : ∀ u call, ({ s with registry := registry }.leave t).calls.lookup u = some call →
      u ≠ t ∧ s.calls.lookup u = some call := by
    intro u call hu
    rw [SharedWorld.lookup_leave, Option.ite_none_left_eq_some] at hu
    exact hu
  have hunlocked : ∀ u call, ({ s with registry := registry }.leave t).calls.lookup u = some call →
      call.locks ≠ some objectId := by
    intro u call hu hlock
    obtain ⟨hne, hu⟩ := hold u call hu
    exact hne (hinv.exclusive u t _ _ hu hcall hlock rfl)
  refine ⟨fun _ => hheader, ?_, ?_, ?_⟩
  · intro u target₂ current₂ view₂ inFunc₂ hu
    exact absurd rfl (hunlocked u _ hu)
  · intro u u' call call' hu hu' hlock hlock'
    exact absurd hlock (hunlocked u call hu)
  · intro u view₂ hu
    exact hshown u view₂ (hold u _ hu).2

/-- A thread inside a `Migrate` of another object does not lock this one. -/
theorem locks_ne_of_migrating {id : UInt64} {target current : UInt32} {view : GameObject}
    {inFunc : Bool} (hid : id ≠ objectId)
    (hcall : s.calls.lookup t = some (.migrating id target current view inFunc)) :
    ∀ call, s.calls.lookup t = some call → call.locks ≠ some objectId := by
  intro call hcall'
  rw [hcall] at hcall'
  cases hcall'
  exact fun h => hid (Option.some.inj h)

theorem funcCall (hinv : Tracked objectId s g) (hsep : s.Separate objectId (.funcCall t))
    (hstep : s.step (.funcCall t) = some s') :
    Tracked objectId s' (g.record s (.funcCall t)) := by
  have hshown := g.shown_kept hstep objectId
  obtain ⟨id, target, current, view, hcall, hne, rfl⟩ := SharedWorld.funcCall_eq hstep
  by_cases hid : id = objectId
  · subst hid
    have hunviewed : s.Unviewed id := hsep (by rw [hcall]; rfl)
    refine hinv.walk_on hcall (fun u view => hunviewed.ne_invoking)
      (hinv.walking t _ _ _ _ hcall).1 ?_ fun _ => hne
    simp [DataVersions.record, hcall, Call.walk]
  · refine hinv.frame_at (SharedWorld.lookup_enter _ t · _) (locks_ne_of_migrating hid hcall) ?_
      rfl ?_ ?_ hshown
    · rintro call ⟨⟩
      exact ⟨fun h => hid (Option.some.inj h), Option.some_ne_none _ ∘ Eq.symm⟩
    · simp [DataVersions.record, hcall, Call.walk, Function.update_of_ne (Ne.symm hid)]
    · simp [DataVersions.record, hcall, Call.walk, Function.update_of_ne (Ne.symm hid)]

theorem funcReturn {ok : Bool} {header : ObjectHeader} (hinv : Tracked objectId s g)
    (hsep : s.Separate objectId (.funcReturn t ok header))
    (hstep : s.step (.funcReturn t ok header) = some s') :
    Tracked objectId s' (g.record s (.funcReturn t ok header)) := by
  have hshown := g.shown_kept hstep objectId
  obtain ⟨id, target, current, view, hcall, rfl⟩ := SharedWorld.funcReturn_eq hstep
  by_cases hid : id = objectId
  · subst hid
    -- The function is running, so no view is out: it would show a version the data has not.
    have hunviewed : ∀ u view, s.calls.lookup u ≠ some (.invoking id view) := by
      intro u view hu
      have hrunning := (hinv.walking t _ _ _ _ hcall).2.1
      have hversion := (hinv.shown u view hu).1
      rw [hrunning] at hversion
      cases hversion
    cases ok with
    | true =>
      refine hinv.walk_on hcall hunviewed rfl ?_ Bool.false_ne_true.elim
      simp [DataVersions.record, hcall, Call.walk]
    | false =>
      refine hinv.walk_over hcall (fun header' hfound => ?_)
        (fun u view hu => absurd hu (hunviewed u view))
      have hne := (hinv.walking t _ _ _ _ hcall).2.2 rfl
      have hwhole := hsep rfl (id, target, current) (by rw [hcall]; rfl) rfl
      have hheader := hwhole.resolve_left hne
      rw [hfound, Option.map_some] at hheader
      rw [hheader]
      simp [DataVersions.record, hcall, Call.walk]
  · have hversion : (g.record s (.funcReturn t ok header)).version objectId =
        g.version objectId := by
      simp [DataVersions.record, hcall, Call.walk, Function.update_of_ne (Ne.symm hid)]
    have hbefore := locks_ne_of_migrating hid hcall
    cases ok with
    | true =>
      refine hinv.frame_at (SharedWorld.lookup_enter _ t · _) hbefore ?_ rfl hversion rfl hshown
      rintro call ⟨⟩
      exact ⟨fun h => hid (Option.some.inj h), Option.some_ne_none _ ∘ Eq.symm⟩
    | false =>
      exact hinv.frame_at (SharedWorld.lookup_leave _ t ·) hbefore (fun _ => nofun) rfl hversion
        rfl hshown

theorem migrateEnd (hinv : Tracked objectId s g) (hsep : s.Separate objectId (.migrateEnd t))
    (hstep : s.step (.migrateEnd t) = some s') :
    Tracked objectId s' (g.record s (.migrateEnd t)) := by
  have hshown := g.shown_kept hstep objectId
  obtain ⟨id, target, current, view, hcall, rfl⟩ := SharedWorld.migrateEnd_eq hstep
  by_cases hid : id = objectId
  · subst hid
    obtain ⟨hview, hversion, -⟩ := hinv.walking t _ _ _ _ hcall
    by_cases hcur : current = target
    · rw [if_pos hcur]
      refine hinv.walk_over hcall (fun header hfound => ?_) hinv.shown
      rw [UnorderedMap.lookup_insert, if_pos rfl] at hfound
      rw [← Option.some.inj hfound, hview]
      exact hversion
    · rw [if_neg hcur]
      refine hinv.walk_over hcall (fun header hfound => ?_) hinv.shown
      have hwhole := hsep (id, target, current) (by rw [hcall]; rfl) rfl
      have hheader := hwhole.resolve_left hcur
      rw [hfound, Option.map_some] at hheader
      rw [hheader]
      exact hversion
  · have hbefore := locks_ne_of_migrating hid hcall
    by_cases hcur : current = target
    · rw [if_pos hcur]
      refine hinv.frame_at (SharedWorld.lookup_leave _ t ·) hbefore (fun _ => nofun) ?_ rfl rfl
        hshown
      exact (UnorderedMap.lookup_insert _ _ _ _).trans (if_neg (Ne.symm hid))
    · rw [if_neg hcur]
      exact hinv.frame_at (SharedWorld.lookup_leave _ t ·) hbefore (fun _ => nofun) rfl rfl rfl
        hshown

/-- A step whose action keeps views and migration functions of the object apart keeps the
invariant. -/
theorem step {a : SharedAction} (hinv : Tracked objectId s g) (hsep : s.Separate objectId a)
    (hstep : s.step a = some s') : Tracked objectId s' (g.record s a) := by
  have hshown := g.shown_kept hstep objectId
  -- An idle thread locks nothing.
  have hidle_locks : ∀ t, s.calls.lookup t = none →
      ∀ call, s.calls.lookup t = some call → call.locks ≠ some objectId := by
    intro t hidle call hcall
    rw [hidle] at hcall
    cases hcall
  cases a with
  | create header =>
    obtain ⟨-, rfl⟩ := SharedWorld.create_eq hstep
    have hne : objectId ≠ header.objectId := Ne.symm hsep
    refine hinv.frame (fun _ _ h => Or.inl h) (fun _ _ h _ => h) ?_ ?_ rfl hshown
    · exact (UnorderedMap.lookup_insert _ _ _ _).trans (if_neg hne)
    · exact Function.update_of_ne hne _ _
  | destroyErase t id =>
    have hne : objectId ≠ id := Ne.symm hsep
    obtain ⟨hidle, -, rfl | rfl⟩ := SharedWorld.destroyErase_eq hstep
    · exact hinv.frame (fun _ _ h => Or.inl h) (fun _ _ h _ => h) rfl rfl rfl hshown
    · refine hinv.frame_at (SharedWorld.lookup_enter _ t · _) (hidle_locks t hidle) ?_ ?_ rfl rfl
        hshown
      · rintro call ⟨⟩
        exact ⟨nofun, nofun⟩
      · exact (UnorderedMap.lookup_erase _ _ _).trans (if_neg hne)
  | destroyRemoveAll t =>
    obtain ⟨id, hcall, rfl⟩ := SharedWorld.destroyRemoveAll_eq hstep
    refine hinv.frame_at (SharedWorld.lookup_leave _ t ·) ?_ (fun _ => nofun) rfl rfl rfl hshown
    intro call hcall'
    rw [hcall] at hcall'
    cases hcall'
    exact nofun
  | getSnapshot t id =>
    obtain ⟨hidle, hfree, rfl | ⟨header, hfound, rfl⟩⟩ := SharedWorld.getSnapshot_eq hstep
    · exact hinv.frame (fun _ _ h => Or.inl h) (fun _ _ h _ => h) rfl rfl rfl hshown
    · by_cases hid : id = objectId
      · subst hid
        exact hinv.getSnapshot hfree hfound
      · refine hinv.frame_at (SharedWorld.lookup_enter _ t · _) (hidle_locks t hidle) ?_ rfl rfl
          rfl hshown
        rintro call ⟨⟩
        exact ⟨nofun, fun h => hid (Option.some.inj h)⟩
  | hostCall t call memory =>
    obtain ⟨_, _, -, rfl⟩ := SharedWorld.hostCall_eq hstep
    exact hinv.frame (fun _ _ h => Or.inl h) (fun _ _ h _ => h) rfl rfl rfl hshown
  | invokeReturn t exported value =>
    obtain ⟨id, view, hcall, rfl⟩ := SharedWorld.invokeReturn_eq hstep
    refine hinv.frame_at (SharedWorld.lookup_leave _ t ·) ?_ (fun _ => nofun) rfl rfl rfl hshown
    intro call hcall'
    rw [hcall] at hcall'
    cases hcall'
    exact nofun
  | register fromVersion toVersion =>
    cases hstep
    exact hinv.frame (fun _ _ h => Or.inl h) (fun _ _ h _ => h) rfl rfl rfl hshown
  | migrateBegin t id target =>
    obtain ⟨hidle, hfree, rfl | ⟨header, hfound, rfl⟩⟩ := SharedWorld.migrateBegin_eq hstep
    · exact hinv.frame (fun _ _ h => Or.inl h) (fun _ _ h _ => h) rfl rfl rfl hshown
    · by_cases hid : id = objectId
      · subst hid
        exact hinv.migrateBegin hfree hfound
      · refine hinv.frame_at (SharedWorld.lookup_enter _ t · _) (hidle_locks t hidle) ?_ rfl rfl
          rfl hshown
        rintro call ⟨⟩
        exact ⟨fun h => hid (Option.some.inj h), nofun⟩
  | funcCall t => exact hinv.funcCall hsep hstep
  | funcWrite t w =>
    have hs' := SharedWorld.funcWrite_eq hstep
    subst hs'
    exact hinv.frame (fun _ _ h => Or.inl h) (fun _ _ h _ => h) rfl rfl rfl hshown
  | funcRemove t id type =>
    have hs' := SharedWorld.funcRemove_eq hstep
    subst hs'
    exact hinv.frame (fun _ _ h => Or.inl h) (fun _ _ h _ => h) rfl rfl rfl hshown
  | funcReturn t ok header => exact hinv.funcReturn hsep hstep
  | migrateEnd t => exact hinv.migrateEnd hsep hstep

end Tracked

/-- The interleavings of all calls, from any state without calls, with the data versions. -/
def recordedVersions : TransitionSystem (SharedWorld × DataVersions) SharedAction :=
  (sharedSystem (·.calls = ∅)).withHistory DataVersions.start DataVersions.record

/-- In every run that keeps views and migration functions of the object apart, whenever an
invocation holds a view of the object, at each of its accesses in particular, the data is at the
version the view shows and no migration function was called on it since the view was handed out. -/
theorem view_shows_data_version {objectId : UInt64} {p : SharedWorld × DataVersions}
    (h : recordedVersions.ReachWhere (fun p a => p.1.Separate objectId a) p) (t : ThreadId)
    (view : GameObject) (hcall : p.1.calls.lookup t = some (.invoking objectId view)) :
    p.2.version objectId = some view.header.schemaVersion ∧
      p.2.shown t = p.2.steps objectId := by
  have hinv : Tracked objectId p.1 p.2 := by
    refine h.invariant_withHistory ?_ fun s g a s' hinv hsep hstep => hinv.step hsep hstep
    intro s hidle
    have hnone : ∀ t call, s.calls.lookup t ≠ some call := by
      intro t call hcall
      rw [show s.calls = ∅ from hidle] at hcall
      cases hcall
    refine ⟨fun _ header hfound => ?_, ?_, ?_, ?_⟩
    · exact congrArg (Option.map (·.schemaVersion)) hfound
    · exact fun t _ _ _ _ hcall => absurd hcall (hnone t _)
    · exact fun t _ _ _ hcall => absurd hcall (hnone t _)
    · exact fun t _ hcall => absurd hcall (hnone t _)
  exact hinv.shown t view hcall

/-! ## An invocation on a version the data has left -/

/-- Object 5 at version 1, and a migration function for the pair (1, 2). -/
def fiveAtOne : SharedWorld :=
  ⟨registryOfFive, .empty, {MigrationEngine.makeKey 1 2}, ∅⟩

/-- Thread 0 migrates object 5 to version 2; the function stores component 7. -/
def migrateToTwo : List SharedAction :=
  [.migrateBegin 0 5 2, .funcCall 0, .funcWrite 0 ⟨5, 7, [2]⟩, .funcReturn 0 true ⟨1, 0, 5⟩,
    .migrateEnd 0]

/-- The guest of thread 1, whose view was handed out before the migration and shows version 1,
writes component 7 of data at version 2. -/
theorem write_through_old_view :
    ∃ p p', recordedVersions.run (fiveAtOne, .start fiveAtOne)
        (.getSnapshot 1 5 :: migrateToTwo) = some p ∧
      recordedVersions.step p (.hostCall 1 (.setComponent 5 7 0 0) none) = some p' ∧
      p.1.calls.lookup 1 = some (.invoking 5 ⟨⟨1, 0, 5⟩, .singleton⟩) ∧
      p.1.storage.read 5 7 = some [2] ∧ p'.1.storage.read 5 7 = some [] ∧
      p.2.version 5 = some 2 ∧ p.2.shown 1 ≠ p.2.steps 5 :=
  ⟨_, _, rfl, rfl, by decide, by decide, by decide, by decide, by decide⟩

/-- `view_shows_data_version` for a view handed out after that migration. -/
theorem view_shows_data_version_after_migrate :
    ∃ p, recordedVersions.runWhere (fun p a => p.1.Separate 5 a) (fiveAtOne, .start fiveAtOne)
        (migrateToTwo ++ [.getSnapshot 1 5]) = some p ∧
      p.2.version 5 = some 2 ∧ p.2.shown 1 = p.2.steps 5 :=
  have hstart : recordedVersions.Init (fiveAtOne, .start fiveAtOne) := ⟨rfl, rfl⟩
  ⟨_, rfl, view_shows_data_version (.of_runWhere (.init hstart) (migrateToTwo ++ [.getSnapshot 1 5])
    rfl) 1 ⟨⟨2, 0, 5⟩, .singleton⟩ (by decide)⟩

end WasmHot
