import WasmHot.Core.LogSizes

/-!
# A rotation that fails

`Rotate` closes the file before its loop and opens it again after it. When `remove` or `rename`
throws, the sink is left without an open file, under the name of the day. Whatever is logged on that
day is lost: a message that seems to fit is written to a closed file, and for any other one
`file_helper_.size()` throws. Only `CheckDateAndRotate` opens a file again, on another day
(`Silenced.writes`).
-/

namespace WasmHot

namespace DateRotatingFileSink

variable {s : DateRotatingFileSink} {throws : Failures} {now : LocalDate}
  {content formatted : List UInt8}

/-! ## Which rotations fail -/

/-- The loop fails exactly if an operation throws on a file that it finds. The steps before have not
touched that file. -/
theorem rotateLoop_fails_iff {baseFilename : String} {n : ℕ} {files : Directory} :
    (rotateLoop throws baseFilename n files).1 = false ↔
      ∃ i < n, files.fileExists (calcFilename baseFilename i) = true ∧
        (throws (i + 1) .remove = true ∨ throws (i + 1) .rename = true) := by
  induction n generalizing files with
  | zero =>
    refine iff_of_false Bool.noConfusion ?_
    rintro ⟨i, hi, -⟩
    exact Nat.not_lt_zero i hi
  | succ n ih =>
    -- The file that comes last is the one of this step.
    rw [rotateLoop, Nat.exists_lt_succ_right]
    dsimp only
    split
    · next habsent =>
      rw [ih, habsent]
      simp only [Bool.false_eq_true, false_and, or_false]
    · next hexists =>
      rw [Bool.not_eq_false] at hexists
      rw [hexists]
      split
      · next hremove =>
        exact iff_of_true rfl (Or.inr ⟨rfl, Or.inl hremove⟩)
      · next hremove =>
        split
        · next hrename =>
          exact iff_of_true rfl (Or.inr ⟨rfl, Or.inr hrename⟩)
        · next hrename =>
          have hname := calcFilename_injective baseFilename
          have hne : calcFilename baseFilename n ≠ calcFilename baseFilename (n + 1) :=
            hname.ne (Nat.ne_of_lt (Nat.lt_succ_self n))
          have hbelow : ∀ i < n, Directory.fileExists (UnorderedMap.moveTo
              (calcFilename baseFilename n) (calcFilename baseFilename (n + 1)) files)
                (calcFilename baseFilename i) = files.fileExists (calcFilename baseFilename i) :=
            fun i hi => congrArg Option.isSome
              (UnorderedMap.lookup_moveTo_of_ne (hname.ne (by omega)) (hname.ne (by omega)) files)
          rw [Directory.rename_remove hne hexists, ih]
          simp only [hremove, hrename, Bool.false_eq_true, or_self, and_false, or_false]
          refine exists_congr fun i => and_congr_right fun hi => ?_
          rw [hbelow i hi]

/-- Where an exception of the loop leaves `sink_it_`, the message did not fit in an open file, and
the sink is as the loop left it. -/
theorem sinkChecked_of_throws (h : (s.sinkChecked throws formatted).1 = .rotateThrows) :
    s.maxSize < s.currentSize + formatted.length ∧
      (∃ size, s.flush.fileHelper.size = some size ∧ 0 < size) ∧
      (s.flush.rotate throws).1 = false ∧
      (s.sinkChecked throws formatted).2 = (s.flush.rotate throws).2 := by
  rw [sinkChecked] at h ⊢
  dsimp only at h ⊢
  split at h
  · next hlarge =>
    rw [if_pos hlarge]
    split at h
    · cases h
    · next size hsize =>
      split at h
      · next hpos =>
        rw [if_pos hpos]
        split at h
        · cases h
        · next hfails =>
          rw [if_neg hfails]
          exact ⟨hlarge, ⟨size, hsize, hpos⟩, Bool.of_not_eq_true hfails, rfl⟩
      · cases h
  · cases h

/-- A message makes the sink fail exactly if it makes it rotate, and an operation throws on a file
that is there. -/
theorem Holds.sinkChecked_throws_iff (h : s.Holds content) :
    (s.sinkChecked throws formatted).1 = .rotateThrows ↔
      s.Overflows content formatted ∧
        ∃ i < s.maxFiles, s.contents.fileExists (calcFilename s.baseFilename i) = true ∧
          (throws (i + 1) .remove = true ∨ throws (i + 1) .rename = true) := by
  have hask : s.flush.fileHelper.size = some content.length := h.size_flush
  have hcontents : s.flush.contents = s.contents := FileHelper.contents_flush
  have hfails : (s.flush.rotate throws).1 = false ↔
      ∃ i < s.maxFiles, s.contents.fileExists (calcFilename s.baseFilename i) = true ∧
        (throws (i + 1) .remove = true ∨ throws (i + 1) .rename = true) := by
    rw [rotate_fst, rotateLoop_fails_iff, hcontents]
    rfl
  rw [← hfails]
  constructor
  · intro hthrows
    obtain ⟨hlarge, ⟨size, hsize, hpos⟩, hfails, -⟩ := sinkChecked_of_throws hthrows
    cases hask.symm.trans hsize
    exact ⟨⟨hpos, hlarge⟩, hfails⟩
  · rintro ⟨⟨hpos, hlarge⟩, hfails⟩
    rw [sinkChecked_rotates hlarge hask hpos, if_neg (ne_true_of_eq_false hfails)]

/-! ## The sink after a failure -/

/-- No file is open, and the base file is that of the day. -/
structure Silenced (s : DateRotatingFileSink) (now : LocalDate) : Prop where
  closed : s.fileHelper.opened = none
  sameDay : s.baseFilename = getLogFilename now

/-- The file has been closed before the loop, and is not opened again. -/
theorem rotate_of_throws (h : (s.rotate throws).1 = false) :
    (s.rotate throws).2.fileHelper.opened = none ∧
      (s.rotate throws).2.baseFilename = s.baseFilename := by
  rw [rotate_fst] at h
  rw [rotate_throws h]
  exact ⟨rfl, rfl⟩

/-- A call in which `remove` or `rename` throws leaves the sink like this, at whatever step of the
loop. -/
theorem silenced_of_throws (h : (s.sinkIt throws now formatted).1 = .rotateThrows) :
    (s.sinkIt throws now formatted).2.Silenced now := by
  obtain ⟨-, -, hfails, hafter⟩ := sinkChecked_of_throws h
  obtain ⟨hclosed, hname⟩ := rotate_of_throws hfails
  rw [baseFilename_flush, baseFilename_checkDateAndRotate] at hname
  rw [sinkIt, hafter]
  exact ⟨hclosed, hname⟩

/-- A message of the same day is lost. No file changes, and the sink stays as it is but for the size
that it believes in. -/
theorem Silenced.sinkIt (h : s.Silenced now) (throws : Failures) (formatted : List UInt8) :
    (s.sinkIt throws now formatted).2.Silenced now ∧
      (s.sinkIt throws now formatted).2.contents = s.contents := by
  obtain ⟨hclosed, hday⟩ := h
  have hsame : s.checkDateAndRotate now = s := checkDateAndRotate_of_eq hday.symm
  have hflush : s.flush = s := by
    rw [flush, FileHelper.flush, hclosed]
  have hsize : s.fileHelper.size = none := by
    rw [FileHelper.size, hclosed]
    rfl
  have hput : ∀ newSize, s.put formatted newSize = { s with currentSize := newSize } := by
    intro newSize
    rw [put, FileHelper.write, hclosed]
  rw [DateRotatingFileSink.sinkIt, hsame, sinkChecked]
  dsimp only
  split
  · rw [hflush, hsize]
    exact ⟨⟨hclosed, hday⟩, rfl⟩
  · rw [hput]
    exact ⟨⟨hclosed, hday⟩, rfl⟩

theorem Silenced.flush (h : s.Silenced now) : s.flush = s := by
  rw [DateRotatingFileSink.flush, FileHelper.flush, h.closed]

/-! ## Later messages -/

/-- While file operations succeed, the message gets to the end of the file of the day, behind what
that held, or into a new one. -/
def Writes (s : DateRotatingFileSink) (now : LocalDate) (formatted : List UInt8) : Prop :=
  ∃ before, (before = [] ∨ before = s.fileOf now) ∧
    (s.sinkIt noFailures now formatted).2.contents.lookup (getLogFilename now) =
      some (before ++ formatted)

/-- Each message of each later run is written. -/
def WritesLater (s : DateRotatingFileSink) : Prop :=
  ∀ acts s', logSink.run s acts = some s' → ∀ now formatted, s'.Writes now formatted

/-- A sink writes if the file of the day is open once the date has been checked. -/
theorem writes_of_holds (h : (s.checkDateAndRotate now).Holds (s.fileOf now))
    (formatted : List UInt8) : s.Writes now formatted := by
  obtain ⟨s', kept, hsink, hkept, hholds, hname⟩ := h.sinkChecked formatted
  refine ⟨kept, hkept, ?_⟩
  rw [DateRotatingFileSink.sinkIt, hsink, ← baseFilename_checkDateAndRotate s now, ← hname]
  exact hholds.lookup

/-- Messages of another day are written again. -/
theorem Silenced.writes (h : s.Silenced now) {later : LocalDate}
    (hlater : getLogFilename later ≠ getLogFilename now) (formatted : List UInt8) :
    s.Writes later formatted := by
  rw [← h.sameDay] at hlater
  exact writes_of_holds (holds_checkDateAndRotate_of_ne hlater) formatted

/-- A message that is longer than the file would be seen. -/
theorem Silenced.not_writes (h : s.Silenced now) : ¬ s.Writes now (0 :: s.fileOf now) := by
  rintro ⟨before, -, hwritten⟩
  rw [(h.sinkIt noFailures _).2] at hwritten
  have hfile : s.fileOf now = before ++ 0 :: s.fileOf now := by
    have hfile := congrArg (Option.getD · []) hwritten
    exact hfile
  have hlength := congrArg List.length hfile
  rw [List.length_append, List.length_cons] at hlength
  omega

end DateRotatingFileSink

/-- What the logger asks for on one day. -/
def LogAction.OnDay (now : LocalDate) : LogAction → Prop
  | .log now' _ => getLogFilename now' = getLogFilename now
  | .flush => True

namespace DateRotatingFileSink

variable {s s' : DateRotatingFileSink} {throws : Failures} {now : LocalDate}
  {formatted : List UInt8}

/-- For the rest of the day no file changes. -/
theorem Silenced.run (h : s.Silenced now) {acts : List LogAction}
    (hday : ∀ a ∈ acts, a.OnDay now) (hrun : logSink.run s acts = some s') :
    s'.Silenced now ∧ s'.contents = s.contents := by
  induction acts generalizing s with
  | nil =>
    cases hrun
    exact ⟨h, rfl⟩
  | cons a acts ih =>
    obtain ⟨s₁, hstep, hrun⟩ := Option.bind_eq_some_iff.mp hrun
    have hrest := fun b hb => hday b (List.mem_cons_of_mem a hb)
    have hfirst := hday a List.mem_cons_self
    have hkept : s₁.Silenced now ∧ s₁.contents = s.contents := by
      cases a with
      | log now' formatted =>
        cases hstep
        have hsame : s.Silenced now' := ⟨h.closed, h.sameDay.trans (Eq.symm hfirst)⟩
        obtain ⟨⟨hclosed, hname⟩, hcontents⟩ := hsame.sinkIt noFailures formatted
        exact ⟨⟨hclosed, hname.trans hfirst⟩, hcontents⟩
      | flush =>
        cases hstep
        rw [h.flush]
        exact ⟨h, rfl⟩
    obtain ⟨hsilenced, hcontents⟩ := ih hkept.1 hrest hrun
    exact ⟨hsilenced, hcontents.trans hkept.2⟩

/-- When `remove` or `rename` throws, at whatever point of the loop and in whatever state, the sink
is left without an open file, and not every later message is written. -/
theorem throws_silences (h : (s.sinkIt throws now formatted).1 = .rotateThrows) :
    (s.sinkIt throws now formatted).2.fileHelper.opened = none ∧
      ¬ (s.sinkIt throws now formatted).2.WritesLater := by
  have hsilenced := silenced_of_throws h
  exact ⟨hsilenced.closed, fun hwrites => hsilenced.not_writes (hwrites [] _ rfl now _)⟩

/-- A sink with one backup, on a file of one byte. -/
def withBackup : DateRotatingFileSink :=
  .create (Finmap.insert "20240101.log" [0] ∅) "20240101.log" 0 1

theorem withBackup_throws (throws : Failures)
    (hthrows : throws 1 .remove = true ∨ throws 1 .rename = true)
    (hlength : formatted.length = gMinFileSize) :
    (withBackup.sinkIt throws ⟨2024, 1, 1⟩ formatted).1 = .rotateThrows := by
  have hopen : withBackup.Holds [0] := holds_create _ _ _ _
  have hsame : withBackup.checkDateAndRotate ⟨2024, 1, 1⟩ = withBackup :=
    checkDateAndRotate_of_eq (by decide)
  have hexists : withBackup.contents.fileExists (calcFilename withBackup.baseFilename 0) = true :=
    Option.isSome_iff_exists.mpr ⟨[0], hopen.lookup⟩
  have hmaxSize : withBackup.maxSize = gMinFileSize := rfl
  have hsize : withBackup.currentSize = 1 := currentSize_create _ _ _ _
  rw [sinkIt, hsame, hopen.sinkChecked_throws_iff]
  refine ⟨⟨Nat.zero_lt_one, ?_⟩, 0, Nat.zero_lt_one, hexists, hthrows⟩
  omega

/-- The backup cannot be removed. -/
theorem throws_silences_withBackup :
    ((withBackup.sinkIt (fun _ op => op = .remove) ⟨2024, 1, 1⟩
      (List.replicate gMinFileSize 0)).1 = .rotateThrows) ∧
    (withBackup.sinkIt (fun _ op => op = .remove) ⟨2024, 1, 1⟩
      (List.replicate gMinFileSize 0)).2.fileHelper.opened = none ∧
    ¬ (withBackup.sinkIt (fun _ op => op = .remove) ⟨2024, 1, 1⟩
      (List.replicate gMinFileSize 0)).2.WritesLater := by
  have hthrows := withBackup_throws (fun _ op => op = .remove) (Or.inl rfl)
    (List.length_replicate (n := gMinFileSize) (a := 0))
  exact ⟨hthrows, throws_silences hthrows⟩

/-- The file cannot be renamed. A message of the maximal size does not fit behind the one byte, and
no message is written after it. -/
theorem rename_throws_withBackup :
    ((withBackup.sinkIt (fun _ op => op = .rename) ⟨2024, 1, 1⟩
      (List.replicate gMinFileSize 0)).1 = .rotateThrows) ∧
    (withBackup.sinkIt (fun _ op => op = .rename) ⟨2024, 1, 1⟩
      (List.replicate gMinFileSize 0)).2.fileHelper.opened = none ∧
    ¬ (withBackup.sinkIt (fun _ op => op = .rename) ⟨2024, 1, 1⟩
      (List.replicate gMinFileSize 0)).2.WritesLater := by
  have hthrows := withBackup_throws (fun _ op => op = .rename) (Or.inr rfl)
    (List.length_replicate (n := gMinFileSize) (a := 0))
  have hsilenced := silenced_of_throws hthrows
  exact ⟨hthrows, hsilenced.closed,
    fun hwrites => hsilenced.not_writes (hwrites [] _ rfl ⟨2024, 1, 1⟩ _)⟩

end DateRotatingFileSink

end WasmHot
