import WasmHot.Concurrent.LockOrder
import WasmHot.Lib.LockAlone

/-!
# Callbacks that use the registry

A callback of `ObjectRegistry::Get` may call the registry again. `Get` releases the map lock before
it calls the callback with a view, but the callback of a `Get` that finds no object runs under the
map lock, held shared. A `Create` or a `Destroy` there waits for its own thread.

So a `Get` keeps its promise to callbacks exactly when each `Get` of the run finds its object
(`RegistryGet.reentrant_iff`). What is said of a run is said of the programs, and then of a thread
in the world of the locks (`enters_of_mem_entries`, `RegistryGet.completes_iff`).
-/

namespace WasmHot

open LockProgram

/-- A callback: the calls of the registry that it makes, one after the other. What a callback
returns is what it leaves in the variables that it captured. -/
inductive CallbackProgram (ρ : Type)
  | ret (result : ρ)
  | create (header : ObjectHeader) (next : CallbackProgram ρ)
  | destroy (objectId : UInt64) (next : CallbackProgram ρ)
  | migrate (objectId : UInt64) (target : UInt32) (next : Bool → CallbackProgram ρ)
  | get (objectId : UInt64) (callback : Option GameObject → CallbackProgram ρ)
      (next : ρ → CallbackProgram ρ)

namespace Locked

/-- `ObjectRegistry::Get` up to the call of its callback, with what it passes. -/
def enterGet (objectId : UInt64) : Locked (Option GameObject) := do
  lock .registryMap .shared
  match ← inspect fun s => s.objects.lookup objectId with
  | none => return none
  | some entry =>
      let header ← locked (.registryEntry entry) .unique (inspect fun s => s.header entry)
      unlock .registryMap .shared
      return some (viewOf header)

/-- `ObjectRegistry::Get` from the return of its callback. The lock of a `Get` that found nothing is
still held. -/
def leaveGet : Option GameObject → Locked PUnit
  | none => unlock .registryMap .shared
  | some _ => return ⟨⟩

/-- `Get` is the two parts with the callback between them. -/
theorem get_eq (objectId : UInt64) (callback : Option GameObject → Locked PUnit) :
    get objectId callback = (do
      let obj ← enterGet objectId
      callback obj
      leaveGet obj) := by
  rw [get, enterGet, bind_assoc]
  refine bind_congr fun _ => ?_
  rw [bind_assoc]
  refine bind_congr fun found => ?_
  cases found with
  | none => rfl
  | some entry =>
    simp only [leaveGet, bind_assoc, pure_bind]
    refine bind_congr fun header => bind_congr fun _ => ?_
    exact (bind_ret (callback (some (viewOf header)))).symm

end Locked

variable {ρ α β : Type} {objectId : UInt64} {entry : EntryId}
  {held held' : List (RegistryLock × LockMode)} {s s' : LockedTables}

open Locked

namespace CallbackProgram

/-- The callback runs. -/
def body : CallbackProgram ρ → Locked ρ
  | .ret result => return result
  | .create header next => do
      Locked.create header
      next.body
  | .destroy objectId next => do
      Locked.destroy objectId
      next.body
  | .migrate objectId target next => do
      let ok ← Locked.migrate objectId target
      (next ok).body
  | .get objectId callback next => do
      let obj ← enterGet objectId
      let result ← (callback obj).body
      leaveGet obj
      (next result).body

/-- What comes after a part of the run, if the thread gets to the end of that part. -/
def afterwards (p : Locked α) (held : List (RegistryLock × LockMode)) (s : LockedTables)
    (rest : α → List (RegistryLock × LockMode) → LockedTables → List β) : List β :=
  match p.alone held s with
  | none => []
  | some (a, held', s') => rest a held' s'

/-- The locks that the thread holds where a callback is entered, for each callback that is entered
in the run. -/
def entries : CallbackProgram ρ → List (RegistryLock × LockMode) → LockedTables →
    List (List (RegistryLock × LockMode))
  | .ret _, _, _ => []
  | .create header next, held, s =>
      afterwards (Locked.create header) held s fun _ => next.entries
  | .destroy objectId next, held, s =>
      afterwards (Locked.destroy objectId) held s fun _ => next.entries
  | .migrate objectId target next, held, s =>
      afterwards (Locked.migrate objectId target) held s fun ok => (next ok).entries
  | .get objectId callback next, held, s =>
      afterwards (enterGet objectId) held s fun obj held s =>
        held :: ((callback obj).entries held s ++
          afterwards (callback obj).body held s fun result held s =>
            afterwards (leaveGet obj) held s fun _ => (next result).entries)

/-- Each `Get` of the run finds its object. -/
def Finds : CallbackProgram ρ → LockedTables → Prop
  | .ret _, _ => True
  | .create header next, s => next.Finds ((Locked.create header).eval s).2
  | .destroy objectId next, s => next.Finds ((Locked.destroy objectId).eval s).2
  | .migrate objectId target next, s =>
      let migrated := (Locked.migrate objectId target).eval s
      (next migrated.1).Finds migrated.2
  | .get objectId callback next, s =>
      match s.objects.lookup objectId with
      | none => False
      | some entry =>
          let inner := callback (some (viewOf (s.header entry)))
          inner.Finds s ∧ (next (inner.body.eval s).1).Finds (inner.body.eval s).2

/-! ## The run of a thread that is alone -/

theorem exists_of_mem_afterwards {p : Locked α} {b : β}
    {rest : α → List (RegistryLock × LockMode) → LockedTables → List β}
    (h : b ∈ afterwards p held s rest) :
    ∃ a held' s', p.alone held s = some (a, held', s') ∧ b ∈ rest a held' s' := by
  unfold afterwards at h
  split at h
  · cases h
  · next a held' s' halone => exact ⟨a, held', s', halone, h⟩

variable {κ : Type} {calls : κ → Locked PUnit} {blocks : RegistryWorld → ThreadId → Bool}
  {t : ThreadId}

open LockWorld

/-- The thread, which holds the first locks, gets to where what it has to do next is a callback, and
holds the second ones then. -/
def Enters (ρ : Type) (calls : κ → Locked PUnit) (blocks : RegistryWorld → ThreadId → Bool)
    (t : ThreadId) (p : Locked PUnit) (held : List (RegistryLock × LockMode)) (s : LockedTables)
    (held' : List (RegistryLock × LockMode)) : Prop :=
  ∃ (s' : LockedTables) (callback : CallbackProgram ρ) (rest : ρ → Locked PUnit),
    Advances calls blocks t (solo s t ⟨held, false, p⟩)
      (solo s' t ⟨held', false, callback.body >>= rest⟩)

theorem enters_callback (callback : CallbackProgram ρ) (rest : ρ → Locked PUnit) :
    Enters ρ calls blocks t (callback.body >>= rest) held s held :=
  ⟨s, callback, rest, .refl _⟩

/-- It gets there after a part of its program if it does from what comes then. -/
theorem Enters.after {p : Locked α} {f : α → Locked PUnit} {a : α}
    {held₁ : List (RegistryLock × LockMode)} (halone : p.alone held s = some (a, held₁, s'))
    (h : Enters ρ calls blocks t (f a) held₁ s' held') :
    Enters ρ calls blocks t (p >>= f) held s held' := by
  obtain ⟨s₁, callback, rest, hadvances⟩ := h
  exact ⟨s₁, callback, rest, (advances_of_alone f halone).trans hadvances⟩

/-- The entries are the locks that the thread holds in the world when it enters a callback. -/
theorem enters_of_mem_entries {p : CallbackProgram ρ} (h : held' ∈ p.entries held s)
    (rest : ρ → Locked PUnit) :
    Enters ρ calls blocks t (p.body >>= rest) held s held' := by
  induction p generalizing held s rest with
  | ret result => cases h
  | create header next ih =>
    obtain ⟨a, held₁, s₁, halone, h⟩ := exists_of_mem_afterwards h
    rw [body, bind_assoc]
    exact .after halone (ih h rest)
  | destroy objectId next ih =>
    obtain ⟨a, held₁, s₁, halone, h⟩ := exists_of_mem_afterwards h
    rw [body, bind_assoc]
    exact .after halone (ih h rest)
  | migrate objectId target next ih =>
    obtain ⟨a, held₁, s₁, halone, h⟩ := exists_of_mem_afterwards h
    rw [body, bind_assoc]
    exact .after halone (ih a h rest)
  | get objectId callback next ihCallback ihNext =>
    obtain ⟨obj, held₁, s₁, halone, h⟩ := exists_of_mem_afterwards h
    simp only [body, bind_assoc]
    refine .after halone ?_
    rcases List.mem_cons.mp h with rfl | h
    · exact enters_callback (callback obj) _
    · rcases List.mem_append.mp h with hinner | hafter
      · exact ihCallback obj hinner _
      · obtain ⟨result, held₂, s₂, hcallback, hafter⟩ := exists_of_mem_afterwards hafter
        obtain ⟨_, held₃, s₃, hleave, hafter⟩ := exists_of_mem_afterwards hafter
        exact .after hcallback (.after hleave (ihNext result hafter rest))

/-! ## A `Get` that finds its object -/

/-- Nothing is held where its callback is entered. -/
theorem alone_enterGet_found (hfound : s.objects.lookup objectId = some entry) :
    (enterGet objectId).alone [] s = some (some (viewOf (s.header entry)), [], s) := by
  have hmap : Grants [] RegistryLock.registryMap .shared := fun lock hlock => by cases hlock
  have hentry := grants_of_rankedBelow (rankedBelow_registryEntry .shared entry) .unique
  simp only [enterGet, locked, lock, unlock, inspect, alone_bind, alone, hmap, hentry, if_true,
    Option.bind_some, hfound]
  simp only [pure, alone, Option.bind_some, List.erase_cons_head]

/-- The map lock is held where its callback is entered. -/
theorem alone_enterGet_missing (hmissing : s.objects.lookup objectId = none) :
    (enterGet objectId).alone [] s = some (none, [(.registryMap, .shared)], s) := by
  have hmap : Grants [] RegistryLock.registryMap .shared := fun lock hlock => by cases hlock
  simp only [enterGet, alone_bind, lock, inspect, alone, hmap, if_true, Option.bind_some, hmissing]
  rfl

theorem eval_enterGet_found (hfound : s.objects.lookup objectId = some entry) :
    (enterGet objectId).eval s = (some (viewOf (s.header entry)), s) :=
  eval_of_alone (alone_enterGet_found hfound)

theorem passes_enterGet_found (hfound : s.objects.lookup objectId = some entry) :
    (enterGet objectId).Passes [] [] s := by
  rw [Passes, eval_enterGet_found hfound]
  exact alone_enterGet_found hfound

/-! ## What a run without locks does -/

theorem passes_create (header : ObjectHeader) (s : LockedTables) :
    (Locked.create header).Passes [] [] s :=
  passes_of_follows (balanced_create header) s

theorem passes_destroy (objectId : UInt64) (s : LockedTables) :
    (Locked.destroy objectId).Passes [] [] s :=
  passes_of_follows (balanced_destroy objectId) s

theorem passes_migrate (objectId : UInt64) (target : UInt32) (s : LockedTables) :
    (Locked.migrate objectId target).Passes [] [] s :=
  passes_of_follows (balanced_migrate objectId target) s

/-- A callback whose `Get`s find their objects holds no lock at its end and waits for none that it
holds. -/
theorem passes_of_finds {p : CallbackProgram ρ} (h : p.Finds s) : p.body.Passes [] [] s := by
  induction p generalizing s with
  | ret result => exact passes_pure result s
  | create header next ih => exact (passes_create header s).bind (ih h)
  | destroy objectId next ih => exact (passes_destroy objectId s).bind (ih h)
  | migrate objectId target next ih => exact (passes_migrate objectId target s).bind (ih _ h)
  | get objectId callback next ihCallback ihNext =>
    cases hfound : s.objects.lookup objectId with
    | none =>
      simp only [Finds, hfound] at h
    | some entry =>
      simp only [Finds, hfound] at h
      refine (passes_enterGet_found hfound).bind ?_
      rw [eval_enterGet_found hfound]
      exact (ihCallback _ h.1).bind (ihNext _ h.2)

theorem afterwards_eq {p : Locked α} (h : p.Passes held held' s)
    (rest : α → List (RegistryLock × LockMode) → LockedTables → List β) :
    afterwards p held s rest = rest (p.eval s).1 held' (p.eval s).2 := by
  rw [afterwards, h]

/-- The callbacks are entered without a lock exactly when each `Get` finds its object. -/
theorem entries_iff {p : CallbackProgram ρ} :
    (∀ held ∈ p.entries [] s, held = []) ↔ p.Finds s := by
  induction p generalizing s with
  | ret result => exact iff_of_true (fun held hheld => absurd hheld List.not_mem_nil) trivial
  | create header next ih =>
    rw [entries, afterwards_eq (passes_create header s)]
    exact ih
  | destroy objectId next ih =>
    rw [entries, afterwards_eq (passes_destroy objectId s)]
    exact ih
  | migrate objectId target next ih =>
    rw [entries, afterwards_eq (passes_migrate objectId target s)]
    exact ih _
  | get objectId callback next ihCallback ihNext =>
    cases hfound : s.objects.lookup objectId with
    | none =>
      simp only [entries, Finds, afterwards, hfound, alone_enterGet_missing hfound, iff_false]
      intro hall
      cases hall _ List.mem_cons_self
    | some entry =>
      simp only [entries, Finds, hfound]
      rw [afterwards_eq (passes_enterGet_found hfound), eval_enterGet_found hfound]
      simp only [List.forall_mem_cons, List.forall_mem_append, true_and]
      rw [ihCallback]
      refine and_congr_right fun hinner => ?_
      rw [afterwards_eq (passes_of_finds hinner)]
      exact ihNext _

end CallbackProgram

/-! ## A call of `Get` -/

/-- A call of `Get` with its arguments. -/
structure RegistryGet (ρ : Type) where
  objectId : UInt64
  callback : Option GameObject → CallbackProgram ρ

namespace RegistryGet

variable (c : RegistryGet ρ)

/-- The code of the call. -/
def body : Locked PUnit :=
  Locked.get c.objectId fun obj => do
    let _result ← (c.callback obj).body
    return ⟨⟩

/-- The call as a callback would make it. -/
def program : CallbackProgram ρ := .get c.objectId c.callback .ret

theorem body_eq : c.body = (do
    let _result ← c.program.body
    return ⟨⟩) := by
  simp only [body, get_eq, program, CallbackProgram.body, bind_assoc, pure_bind]
  exact bind_congr fun obj => bind_congr fun _ => (bind_ret (leaveGet obj)).symm

end RegistryGet

/-- Threads that make such calls. -/
def registryGets (ρ : Type) (blocks : RegistryWorld → ThreadId → Bool) :
    TransitionSystem RegistryWorld (LockAction (RegistryGet ρ)) :=
  lockSystem RegistryGet.body blocks

namespace RegistryGet

/-- What `Get` promises to a callback that uses the registry, to a thread that is alone: the call
returns, and the callbacks that run in it are entered with no lock held. -/
structure Reentrant (c : RegistryGet ρ) (blocks : RegistryWorld → ThreadId → Bool) (t : ThreadId)
    (s : LockedTables) : Prop where
  completes : ∃ n w, (registryGets ρ blocks).run ⟨s, ∅⟩
    (.call t c :: List.replicate n (.advance t)) = some w ∧ w.threads = ∅
  entered : ∀ held ∈ c.program.entries [] s, held = []

variable {c : RegistryGet ρ} {blocks : RegistryWorld → ThreadId → Bool} {t : ThreadId}

/-- The thread does with its first step what `solo` says. -/
theorem run_call (actions : List (LockAction (RegistryGet ρ))) :
    (registryGets ρ blocks).run ⟨s, ∅⟩ (.call t c :: actions) =
      (registryGets ρ blocks).run (LockWorld.solo s t ⟨[], false, c.body⟩) actions :=
  rfl

theorem completes_iff :
    (∃ n w, (registryGets ρ blocks).run ⟨s, ∅⟩
      (.call t c :: List.replicate n (.advance t)) = some w ∧ w.threads = ∅) ↔
      (c.body.alone [] s).isSome := by
  simp only [run_call]
  exact LockWorld.solo_completes_iff

/-- `Get` keeps its promise exactly where each `Get` of the run, the call itself and those of the
callbacks, finds its object. -/
theorem reentrant_iff (c : RegistryGet ρ) (blocks : RegistryWorld → ThreadId → Bool) (t : ThreadId)
    (s : LockedTables) : c.Reentrant blocks t s ↔ c.program.Finds s := by
  constructor
  · intro h
    exact CallbackProgram.entries_iff.mp h.entered
  · intro h
    refine ⟨completes_iff.mpr ?_, CallbackProgram.entries_iff.mpr h⟩
    have hpasses : c.body.Passes [] [] s := by
      rw [body_eq]
      exact (CallbackProgram.passes_of_finds h).bind (passes_pure _ _)
    rw [hpasses]
    rfl

/-- Where the object is not found, a callback that goes on to take the map lock alone waits for its
own thread for ever. -/
theorem hangs (hmissing : s.objects.lookup c.objectId = none)
    {next : Locked ρ} (hnext : (c.callback none).body = .acquire .registryMap .unique next)
    (blocks : RegistryWorld → ThreadId → Bool) (t : ThreadId) :
    ¬ ∃ n w, (registryGets ρ blocks).run ⟨s, ∅⟩
      (.call t c :: List.replicate n (.advance t)) = some w ∧ w.threads = ∅ := by
  have hrefused : ¬ Grants [(RegistryLock.registryMap, LockMode.shared)] .registryMap .unique := by
    decide
  have hnone : c.body.alone [] s = none := by
    rw [body, get_eq, alone_bind, CallbackProgram.alone_enterGet_missing hmissing, Option.bind_some]
    simp only [hnext, alone_bind, alone, hrefused, if_false, Option.bind_none]
  rw [completes_iff, hnone]
  exact Bool.false_ne_true

end RegistryGet

/-- A callback that creates the object if there is none. -/
def createIfAbsent (header : ObjectHeader) : Option GameObject → CallbackProgram Unit
  | none => .create header (.ret ())
  | some _ => .ret ()

/-- The thread that creates object 5 from the callback of its `Get(5)` never returns. -/
theorem createIfAbsent_waits_for_itself :
    (∀ n w, (registryGets Unit fun _ _ => false).run emptyTables
      (.call 0 ⟨5, createIfAbsent ⟨1, 0, 5⟩⟩ :: List.replicate n (.advance 0)) = some w →
      w.threads ≠ ∅) ∧
    ¬ (RegistryGet.mk 5 (createIfAbsent ⟨1, 0, 5⟩)).Reentrant (fun _ _ => false) 0
      emptyTables.shared := by
  have hangs := RegistryGet.hangs (c := ⟨5, createIfAbsent ⟨1, 0, 5⟩⟩) (s := emptyTables.shared) rfl
    rfl (fun _ _ => false) 0
  exact ⟨fun n w hrun hdone => hangs ⟨n, w, hrun, hdone⟩, fun h => hangs h.completes⟩

end WasmHot
