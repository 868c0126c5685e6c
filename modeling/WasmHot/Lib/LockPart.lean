import WasmHot.Lib.LockProgram

/-!
# A part of a system with locks

A program that is written for the locks and the data of one part of a system runs in the whole
system, where it takes the part's locks among all locks and works on the part's data inside all
data. It follows an order of all locks if that order agrees with the part's own.
-/

universe u

/-- A part of a system: its locks among all locks `L'`, and its data inside all data `σ'`. -/
structure LockPart (L L' σ σ' : Type u) where
  /-- A lock of the part as a lock of the system. -/
  lock : L → L'
  get : σ' → σ
  set : σ → σ' → σ'
  lock_injective : lock.Injective

namespace LockProgram

variable {L L' σ σ' α : Type u} (part : LockPart L L' σ σ')

/-- The program of a part in the whole system. -/
def lift : LockProgram L σ α → LockProgram L' σ' α
  | .ret a => .ret a
  | .acquire l mode next => .acquire (part.lock l) mode next.lift
  | .release l mode next => .release (part.lock l) mode next.lift
  | .read next => .read fun s => (next (part.get s)).lift
  | .update f next => .update (fun s => part.set (f (part.get s)) s) next.lift

variable [DecidableEq L] [DecidableEq L'] {rank : L → ℕ} {rank' : L' → ℕ} {part}
  {held target : List (L × LockMode)}

/-- Locks of the part as locks of the system. -/
def liftHeld (part : LockPart L L' σ σ') (held : List (L × LockMode)) : List (L' × LockMode) :=
  held.map fun h => (part.lock h.1, h.2)

theorem liftHeld_erase (part : LockPart L L' σ σ') (held : List (L × LockMode)) (l : L)
    (mode : LockMode) :
    liftHeld part (held.erase (l, mode)) = (liftHeld part held).erase (part.lock l, mode) := by
  have hinj : Function.Injective fun h : L × LockMode => (part.lock h.1, h.2) := by
    rintro ⟨l₁, mode₁⟩ ⟨l₂, mode₂⟩ h
    obtain ⟨hl, hmode⟩ := Prod.ext_iff.mp h
    exact Prod.ext (part.lock_injective hl) hmode
  exact List.map_erase hinj held

/-- A program that follows the order of its part follows the order of the system. -/
theorem Follows.lift {p : LockProgram L σ α}
    (hrank : ∀ l l', rank l < rank l' → rank' (part.lock l) < rank' (part.lock l'))
    (hp : p.Follows rank target held) :
    (p.lift part).Follows rank' (liftHeld part target) (liftHeld part held) := by
  induction p generalizing held with
  | ret a => exact congrArg (liftHeld part) hp
  | acquire l mode next ih =>
    refine ⟨?_, ih hp.2⟩
    intro h hh
    obtain ⟨h, hmem, rfl⟩ := List.mem_map.mp hh
    exact hrank _ _ (hp.1 h hmem)
  | release l mode next ih =>
    refine ⟨List.mem_map.mpr ⟨(l, mode), hp.1, rfl⟩, ?_⟩
    rw [← liftHeld_erase]
    exact ih hp.2
  | read next ih => exact fun s => ih (part.get s) (hp (part.get s))
  | update f next ih => exact ih hp

/-- A call of the part that starts without locks gives its locks back in the system too. -/
theorem Balanced.lift {p : LockProgram L σ α}
    (hrank : ∀ l l', rank l < rank l' → rank' (part.lock l) < rank' (part.lock l'))
    (hp : p.Balanced rank []) : (p.lift part).Balanced rank' [] :=
  Follows.lift hrank hp

end LockProgram
