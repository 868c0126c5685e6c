import WasmHot.Core.Logging

/-!
# What Rotate does to the files

The loop of `Rotate` goes down from the oldest backup, so each file moves up by one and none is
moved twice. A loop that comes to its end has done what `shiftUp` does along the names of the
backups (`rotateLoop_files`).
-/

namespace WasmHot

open UnorderedMap

/-- To remove the target and then to rename is to move, if there is something to rename. -/
theorem Directory.rename_remove {files : Directory} {source target : String}
    (hne : source ≠ target) (hexists : files.fileExists source = true) :
    (files.remove target).rename source target = moveTo source target files := by
  obtain ⟨content, hsource⟩ := Option.isSome_iff_exists.mp hexists
  apply Finmap.ext_lookup
  intro filename
  rw [rename, lookup_moveTo, lookup_moveTo, remove, lookup_erase, lookup_erase, lookup_erase,
    if_neg hne, if_pos rfl, hsource, Option.some_or, Option.some_or]
  by_cases htarget : filename = target
  · rw [if_pos htarget, if_pos htarget]
  · rw [if_neg htarget, if_neg htarget, if_neg htarget]

/-- What a file holds, it holds when any file has been opened. -/
theorem Directory.lookup_create_of_lookup {files : Directory} {filename : String}
    {content : List UInt8} (h : files.lookup filename = some content) (filename' : String) :
    (files.create filename').lookup filename = some content := by
  rw [lookup_create]
  split
  · next hname => rw [← hname, h, Option.getD_some]
  · exact h

namespace DateRotatingFileSink

variable {throws : Failures} {baseFilename : String}

/-- A loop that comes to its end has moved each file up by one. -/
theorem rotateLoop_files {n : ℕ} {files : Directory}
    (hends : (rotateLoop throws baseFilename n files).1 = true) :
    (rotateLoop throws baseFilename n files).2 = shiftUp (calcFilename baseFilename) n files := by
  induction n generalizing files with
  | zero => rfl
  | succ n ih =>
    rw [rotateLoop] at hends ⊢
    by_cases hexists : files.fileExists (calcFilename baseFilename n) = false
    · rw [if_pos hexists] at hends ⊢
      have habsent : moveTo (calcFilename baseFilename n) (calcFilename baseFilename (n + 1))
          files = files := by
        rw [moveTo, Option.isSome_eq_false_iff.mp hexists |> Option.isNone_iff_eq_none.mp]
      rw [ih hends, shiftUp, habsent]
    · have hne : calcFilename baseFilename n ≠ calcFilename baseFilename (n + 1) :=
        (calcFilename_injective baseFilename).ne (Nat.ne_of_lt (Nat.lt_succ_self n))
      rw [if_neg hexists] at hends ⊢
      dsimp only at hends ⊢
      split at hends
      · cases hends
      · next hremove =>
        split at hends
        · cases hends
        · next hrename =>
          rw [if_neg hremove, if_neg hrename, ih hends, shiftUp,
            Directory.rename_remove hne (Bool.of_not_eq_false hexists)]

/-- The loop comes to its end if no operation throws. -/
theorem rotateLoop_noFailures (n : ℕ) (files : Directory) :
    (rotateLoop noFailures baseFilename n files).1 = true := by
  induction n generalizing files with
  | zero => rfl
  | succ n ih =>
    rw [rotateLoop]
    split
    · exact ih _
    · exact ih _

variable {s : DateRotatingFileSink}

/-- `Rotate` returns when its loop comes to its end, with the base file open. -/
theorem rotate_returns (hends : (rotateLoop throws s.baseFilename s.maxFiles s.contents).1 = true) :
    s.rotate throws = (true,
      { s with
        currentSize := 0
        fileHelper := (FileHelper.mk none
          (shiftUp (calcFilename s.baseFilename) s.maxFiles s.contents)).openFile
            s.baseFilename }) := by
  rw [← rotateLoop_files hends, rotate]
  exact if_pos hends

/-- Where the loop fails, the files are left as they are then, and none is open. -/
theorem rotate_throws
    (hfails : (rotateLoop throws s.baseFilename s.maxFiles s.contents).1 = false) :
    s.rotate throws = (false,
      { s with
        fileHelper := ⟨none, (rotateLoop throws s.baseFilename s.maxFiles s.contents).2⟩ }) :=
  if_neg (ne_true_of_eq_false hfails)

/-- `Rotate` returns exactly when its loop comes to its end. -/
theorem rotate_fst :
    (s.rotate throws).1 = (rotateLoop throws s.baseFilename s.maxFiles s.contents).1 := by
  cases hends : (rotateLoop throws s.baseFilename s.maxFiles s.contents).1 with
  | true => rw [rotate_returns hends]
  | false => rw [rotate_throws hends]

/-- What the files are after a rotation over `n` backups with these names. -/
structure ShiftsBackups (name : ℕ → String) (n : ℕ) (before after : Directory) : Prop where
  /-- A backup is what was below it, if that was there. -/
  moved : ∀ i content, i < n → before.lookup (name i) = some content →
    after.lookup (name (i + 1)) = some content
  /-- Otherwise it is absent if it has been moved on itself, -/
  vacated : ∀ i, i + 1 < n → before.lookup (name i) = none →
    (before.lookup (name (i + 1))).isSome → after.lookup (name (i + 1)) = none
  /-- and is unchanged if not. -/
  kept : ∀ i < n, before.lookup (name i) = none →
    ¬ (i + 1 < n ∧ (before.lookup (name (i + 1))).isSome) →
    after.lookup (name (i + 1)) = before.lookup (name (i + 1))
  /-- The base file is new. -/
  fresh : after.lookup (name 0) = some []
  /-- All but the last backup, and that one too if there was nothing below it, are still there, each
  in a place of its own. -/
  onlyLastLost : ∃ place : String → String,
    Set.InjOn place {filename | (before.lookup filename).isSome ∧
      ¬ (filename = name n ∧ (before.lookup (name (n - 1))).isSome)} ∧
    ∀ filename content, before.lookup filename = some content →
      ¬ (filename = name n ∧ (before.lookup (name (n - 1))).isSome) →
      after.lookup (place filename) = some content
  /-- No other file is touched. -/
  others : ∀ filename, (∀ i ≤ n, filename ≠ name i) →
    after.lookup filename = before.lookup filename

theorem displaced_iff {name : ℕ → String} {n : ℕ} (hn : 1 ≤ n) (files : Directory)
    (filename : String) :
    Displaced name n files filename ↔
      filename = name n ∧ (files.lookup (name (n - 1))).isSome := by
  constructor
  · rintro ⟨i, rfl, hname, hbelow⟩
    exact ⟨hname, hbelow⟩
  · rintro ⟨hname, hbelow⟩
    exact ⟨n - 1, by omega, hname, hbelow⟩

/-- To move the files up and to open the first is a rotation. -/
theorem shiftsBackups_shiftUp {name : ℕ → String} {n : ℕ} (hn : 1 ≤ n)
    (hname : Function.Injective name) (files : Directory) :
    ShiftsBackups name n files (Directory.create (shiftUp name n files) (name 0)) := by
  -- To open the first file leaves the backups as the moves have left them.
  have hbackup : ∀ i, (Directory.create (shiftUp name n files) (name 0)).lookup (name (i + 1)) =
      (shiftUp name n files).lookup (name (i + 1)) := by
    intro i
    rw [Directory.lookup_create, if_neg (hname.ne (Nat.succ_ne_zero i))]
  constructor
  case moved =>
    intro i content hi hbelow
    rw [hbackup, lookup_shiftUp_succ hi hname, hbelow, Option.some_or]
  case vacated =>
    intro i hi hbelow _
    rw [hbackup, lookup_shiftUp_succ (Nat.lt_of_succ_lt hi) hname, hbelow, if_neg (Nat.ne_of_lt hi),
      Option.none_or]
  case kept =>
    intro i hi hbelow hstays
    rw [hbackup, lookup_shiftUp_succ hi hname, hbelow, Option.none_or]
    split
    · rfl
    · next hend =>
      have hlt : i + 1 < n := by omega
      exact (Option.not_isSome_iff_eq_none.mp fun hsome => hstays ⟨hlt, hsome⟩).symm
  case fresh =>
    rw [Directory.lookup_create, if_pos rfl, lookup_shiftUp_zero (Nat.ne_of_gt hn) hname,
      Option.getD_none]
  case onlyLastLost =>
    refine ⟨shifted name n, ?_, ?_⟩
    · simp only [← displaced_iff hn]
      exact shifted_injOn n files hname
    · intro filename content hcontent hstays
      rw [← displaced_iff hn] at hstays
      exact Directory.lookup_create_of_lookup (lookup_shifted hcontent hstays hname) _
  case others =>
    intro filename hother
    rw [Directory.lookup_create, if_neg (hother 0 (Nat.zero_le n)), lookup_shiftUp_of_ne hother]

/-- A `Rotate` that returns shifts the backups and loses only the oldest, whatever the directory
holds. -/
theorem rotate_shiftsBackups (hmax : 1 ≤ s.maxFiles) (hreturns : (s.rotate throws).1 = true) :
    ShiftsBackups (calcFilename s.baseFilename) s.maxFiles s.contents
      (s.rotate throws).2.contents := by
  rw [rotate_fst] at hreturns
  have hafter : (s.rotate throws).2.contents = Directory.create
      (shiftUp (calcFilename s.baseFilename) s.maxFiles s.contents) s.baseFilename := by
    rw [rotate_returns hreturns]
    exact FileHelper.contents_openFile _
  rw [hafter]
  exact shiftsBackups_shiftUp hmax (calcFilename_injective _) _

/-- Two backups are kept, and the first one is missing. The last bytes of the base file wait in the
stream. -/
def withGap : DateRotatingFileSink where
  baseFilename := "a.log"
  maxSize := gMinFileSize
  maxFiles := 2
  currentSize := 2
  fileHelper :=
    { opened := some ⟨"a.log", [2]⟩
      files := ((Finmap.insert "a.log" [1] ∅).insert "a.log.2" [3]).insert "b.log" [4] }

theorem rotate_shiftsBackups_withGap :
    (withGap.rotate noFailures).1 = true ∧
      ShiftsBackups (calcFilename "a.log") 2 withGap.contents
        (withGap.rotate noFailures).2.contents := by
  have hreturns : (withGap.rotate noFailures).1 = true := by
    rw [rotate_returns (rotateLoop_noFailures _ _)]
  exact ⟨hreturns, rotate_shiftsBackups (s := withGap) (by decide) hreturns⟩

end DateRotatingFileSink

end WasmHot
