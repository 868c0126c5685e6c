import WasmHot.Core.LogRotation

/-!
# The size that the sink believes its file to have

`current_size_` is set from the file where the sink is constructed and where the day changes, and is
counted up with each message. `Rotate` sets it to 0, whether or not it has moved the file away. With
`max_files_ = 0` the loop does nothing, and the file is opened for appending again, with all that it
holds.

So the sink knows the size of its file, and keeps it below the maximum, exactly as long as it keeps
backups or does not have to rotate (`sizes_iff`).
-/

namespace WasmHot

namespace DateRotatingFileSink

variable {s : DateRotatingFileSink} {content formatted : List UInt8} {now : LocalDate}

/-- The base file is open and holds this. -/
structure Holds (s : DateRotatingFileSink) (content : List UInt8) : Prop where
  opened : ∃ pending, s.fileHelper.opened = some ⟨s.baseFilename, pending⟩
  lookup : s.contents.lookup s.baseFilename = some content

/-- What the file of a day holds. -/
def fileOf (s : DateRotatingFileSink) (now : LocalDate) : List UInt8 :=
  (s.contents.lookup (getLogFilename now)).getD []

theorem holds_openFile (h : FileHelper) (baseFilename : String) (maxSize maxFiles currentSize : ℕ) :
    (DateRotatingFileSink.mk baseFilename maxSize maxFiles currentSize
      (h.openFile baseFilename)).Holds ((h.contents.lookup baseFilename).getD []) := by
  refine ⟨⟨[], rfl⟩, ?_⟩
  rw [contents, FileHelper.contents_openFile, Directory.lookup_create, if_pos rfl]

theorem holds_create (files : Directory) (baseFilename : String) (maxSize maxFiles : ℕ) :
    (create files baseFilename maxSize maxFiles).Holds ((files.lookup baseFilename).getD []) :=
  holds_openFile ⟨none, files⟩ baseFilename _ _ _

theorem currentSize_create (files : Directory) (baseFilename : String) (maxSize maxFiles : ℕ) :
    (create files baseFilename maxSize maxFiles).currentSize =
      ((files.lookup baseFilename).getD []).length := by
  rw [create]
  dsimp only
  rw [FileHelper.size_openFile, Option.getD_some, FileHelper.contents_closed]

theorem checkDateAndRotate_of_eq (hday : getLogFilename now = s.baseFilename) :
    s.checkDateAndRotate now = s :=
  if_pos hday

/-- On another day the file of that day is opened. -/
theorem holds_checkDateAndRotate_of_ne (hday : getLogFilename now ≠ s.baseFilename) :
    (s.checkDateAndRotate now).Holds (s.fileOf now) := by
  have hopen := holds_openFile s.fileHelper.flush.close (getLogFilename now) s.maxSize s.maxFiles
    ((s.fileHelper.flush.close.openFile (getLogFilename now)).size.getD 0)
  rw [FileHelper.contents_close, FileHelper.contents_flush] at hopen
  rw [checkDateAndRotate]
  dsimp only
  rw [if_neg hday]
  exact hopen

/-- Once the date has been checked, the file of the day is open, -/
theorem Holds.checkDateAndRotate (h : s.Holds content) (now : LocalDate) :
    (s.checkDateAndRotate now).Holds (s.fileOf now) := by
  by_cases hday : getLogFilename now = s.baseFilename
  · rw [checkDateAndRotate_of_eq hday, fileOf, hday, h.lookup]
    exact h
  · exact holds_checkDateAndRotate_of_ne hday

/-- and the sink knows its size, if it knew the size of the file before. -/
theorem Holds.currentSize_checkDateAndRotate (h : s.Holds content)
    (hsize : s.currentSize = content.length) (now : LocalDate) :
    (s.checkDateAndRotate now).currentSize = (s.fileOf now).length := by
  by_cases hday : getLogFilename now = s.baseFilename
  · rw [checkDateAndRotate_of_eq hday, fileOf, hday, h.lookup]
    exact hsize
  · rw [DateRotatingFileSink.checkDateAndRotate]
    dsimp only
    rw [if_neg hday, FileHelper.size_openFile, FileHelper.contents_close, FileHelper.contents_flush]
    rfl

theorem baseFilename_checkDateAndRotate (s : DateRotatingFileSink) (now : LocalDate) :
    (s.checkDateAndRotate now).baseFilename = getLogFilename now := by
  unfold DateRotatingFileSink.checkDateAndRotate
  dsimp only
  split
  · next hsame => exact hsame.symm
  · rfl

theorem maxSize_checkDateAndRotate (s : DateRotatingFileSink) (now : LocalDate) :
    (s.checkDateAndRotate now).maxSize = s.maxSize := by
  unfold DateRotatingFileSink.checkDateAndRotate
  dsimp only
  split <;> rfl

theorem maxFiles_checkDateAndRotate (s : DateRotatingFileSink) (now : LocalDate) :
    (s.checkDateAndRotate now).maxFiles = s.maxFiles := by
  unfold DateRotatingFileSink.checkDateAndRotate
  dsimp only
  split <;> rfl

theorem baseFilename_flush (s : DateRotatingFileSink) : s.flush.baseFilename = s.baseFilename := rfl

theorem Holds.flush (h : s.Holds content) : s.flush.Holds content := by
  obtain ⟨⟨pending, hopened⟩, hlookup⟩ := h
  refine ⟨⟨[], ?_⟩, ?_⟩
  · simp only [DateRotatingFileSink.flush, FileHelper.flush, hopened]
  · exact (congrArg (Finmap.lookup s.baseFilename) FileHelper.contents_flush).trans hlookup

theorem Holds.put (h : s.Holds content) (formatted : List UInt8) (newSize : ℕ) :
    (s.put formatted newSize).Holds (content ++ formatted) := by
  obtain ⟨⟨pending, hopened⟩, hlookup⟩ := h
  refine ⟨⟨pending ++ formatted, ?_⟩, ?_⟩
  · simp only [DateRotatingFileSink.put, FileHelper.write, hopened]
  · show (s.fileHelper.write formatted).contents.lookup s.baseFilename = _
    rw [FileHelper.contents_write hopened, Directory.lookup_append, if_pos rfl]
    exact congrArg (Option.map _) hlookup

/-- The size that the sink asks for is that of the file. -/
theorem Holds.size_flush (h : s.Holds content) :
    s.fileHelper.flush.size = some content.length := by
  obtain ⟨⟨pending, hopened⟩, hlookup⟩ := h
  have hlookup : s.fileHelper.contents.lookup s.baseFilename = some content := hlookup
  rw [FileHelper.size_flush hopened, hlookup, Option.getD_some]

/-- A rotation without backups leaves the file as it is. -/
def rotatedFile (maxFiles : ℕ) (content : List UInt8) : List UInt8 :=
  if maxFiles = 0 then content else []

theorem Holds.rotate (h : s.Holds content) :
    ∃ s', s.rotate noFailures = (true, s') ∧ s'.Holds (rotatedFile s.maxFiles content) ∧
      s'.maxSize = s.maxSize ∧ s'.baseFilename = s.baseFilename := by
  refine ⟨_, rotate_returns (rotateLoop_noFailures _ _), ?_, rfl, rfl⟩
  have hlookup : (UnorderedMap.shiftUp (calcFilename s.baseFilename) s.maxFiles s.contents).lookup
      s.baseFilename = if s.maxFiles = 0 then some content else none := by
    split
    · next hnone =>
      rw [hnone]
      exact h.lookup
    · next hsome =>
      exact UnorderedMap.lookup_shiftUp_zero hsome (calcFilename_injective s.baseFilename) _
  have hopen := holds_openFile ⟨none, UnorderedMap.shiftUp (calcFilename s.baseFilename) s.maxFiles
    s.contents⟩ s.baseFilename s.maxSize s.maxFiles 0
  rw [FileHelper.contents_closed, hlookup] at hopen
  have hfile : (if s.maxFiles = 0 then some content else none).getD [] =
      rotatedFile s.maxFiles content := by
    unfold rotatedFile
    split <;> rfl
  rw [hfile] at hopen
  exact hopen

/-- The sink believes that the message does not fit in its file, and the file is not empty. -/
def Overflows (s : DateRotatingFileSink) (content formatted : List UInt8) : Prop :=
  0 < content.length ∧ s.maxSize < s.currentSize + formatted.length

/-- What the sink does with a message that it believes not to fit. -/
theorem sinkChecked_rotates {throws : Failures} {size : ℕ}
    (hlarge : s.maxSize < s.currentSize + formatted.length)
    (hask : s.flush.fileHelper.size = some size) (hpos : 0 < size) :
    s.sinkChecked throws formatted =
      if (s.flush.rotate throws).1 then
        (.returned, (s.flush.rotate throws).2.put formatted formatted.length)
      else (.rotateThrows, (s.flush.rotate throws).2) := by
  rw [sinkChecked]
  dsimp only
  rw [if_pos hlarge, hask]
  exact if_pos hpos

/-- A message that does not fit makes the sink rotate. -/
theorem Holds.sinkChecked_overflows (h : s.Holds content)
    (hoverflows : s.Overflows content formatted) :
    ∃ s', s.sinkChecked noFailures formatted = (.returned, s') ∧
      s'.Holds (rotatedFile s.maxFiles content ++ formatted) ∧
      s'.currentSize = formatted.length ∧ s'.maxSize = s.maxSize ∧
      s'.baseFilename = s.baseFilename := by
  obtain ⟨rotated, hrotate, hholds, hmax, hname⟩ := h.flush.rotate
  refine ⟨rotated.put formatted formatted.length, ?_, hholds.put _ _, rfl, hmax, hname⟩
  rw [sinkChecked_rotates hoverflows.2 h.size_flush hoverflows.1, hrotate]
  rfl

/-- Any other message is written behind what is there. -/
theorem Holds.sinkChecked_fits (h : s.Holds content) (hfits : ¬ s.Overflows content formatted) :
    ∃ s', s.sinkChecked noFailures formatted = (.returned, s') ∧
      s'.Holds (content ++ formatted) ∧ s'.currentSize = s.currentSize + formatted.length ∧
      s'.maxSize = s.maxSize ∧ s'.baseFilename = s.baseFilename := by
  rw [sinkChecked]
  dsimp only
  split
  · next hlarge =>
    -- The file is empty, and only flushed.
    have hempty : ¬ content.length > 0 := fun hpos => hfits ⟨hpos, hlarge⟩
    have hask : s.flush.fileHelper.size = some content.length := h.size_flush
    rw [hask]
    dsimp only
    rw [if_neg hempty]
    exact ⟨_, rfl, h.flush.put _ _, rfl, rfl, rfl⟩
  · exact ⟨_, rfl, h.put _ _, rfl, rfl, rfl⟩

/-- Whatever the sink believes of the size of its file, the message ends up behind what the file
held, or in a new one. -/
theorem Holds.sinkChecked (h : s.Holds content) (formatted : List UInt8) :
    ∃ s' kept, s.sinkChecked noFailures formatted = (.returned, s') ∧
      (kept = [] ∨ kept = content) ∧ s'.Holds (kept ++ formatted) ∧
      s'.baseFilename = s.baseFilename := by
  by_cases hoverflows : s.Overflows content formatted
  · obtain ⟨s', hsink, hholds, -, -, hname⟩ := h.sinkChecked_overflows hoverflows
    refine ⟨s', rotatedFile s.maxFiles content, hsink, ?_, hholds, hname⟩
    unfold rotatedFile
    split
    · exact Or.inr rfl
    · exact Or.inl rfl
  · obtain ⟨s', hsink, hholds, -, -, hname⟩ := h.sinkChecked_fits hoverflows
    exact ⟨s', content, hsink, Or.inr rfl, hholds, hname⟩

end DateRotatingFileSink

/-! ## Runs -/

/-- The size of the message that was written last, if there is one. -/
def lastSize (last : Option ℕ) (_ : DateRotatingFileSink) : LogAction → Option ℕ
  | .log _ formatted => some formatted.length
  | .flush => last

/-- The sink with the size of the last message. -/
def logSizes : TransitionSystem (DateRotatingFileSink × Option ℕ) LogAction :=
  logSink.withHistory (fun _ => none) lastSize

namespace DateRotatingFileSink

/-- The sink knows the real size of its base file, and the file is no larger than the maximum or the
last message. -/
def SizeTracked (s : DateRotatingFileSink) (last : Option ℕ) : Prop :=
  ∃ content, s.contents.lookup s.baseFilename = some content ∧ s.currentSize = content.length ∧
    ∀ size, last = some size → content.length ≤ max s.maxSize size

/-- The sink keeps backups, or the file of the day is empty or has room for the message. -/
def CanRotate (s : DateRotatingFileSink) : LogAction → Prop
  | .log now formatted =>
      s.maxFiles ≠ 0 ∨ (s.fileOf now).length = 0 ∨
        (s.fileOf now).length + formatted.length ≤ s.maxSize
  | .flush => True

variable {s : DateRotatingFileSink} {content : List UInt8} {last : Option ℕ}

theorem Holds.sizeTracked_iff (h : s.Holds content) :
    s.SizeTracked last ↔ s.currentSize = content.length ∧
      ∀ size, last = some size → content.length ≤ max s.maxSize size := by
  unfold SizeTracked
  rw [h.lookup]
  simp only [Option.some.injEq, exists_eq_left']

/-- A message keeps the size right exactly if it does not make a sink rotate that keeps no
backups. -/
theorem Holds.sizeTracked_sinkIt_iff (h : s.Holds content) (hsize : s.currentSize = content.length)
    (now : LocalDate) (formatted : List UInt8) :
    (s.sinkIt noFailures now formatted).2.SizeTracked (some formatted.length) ↔
      s.CanRotate (.log now formatted) := by
  have htoday := h.checkDateAndRotate now
  have hsizeToday := h.currentSize_checkDateAndRotate hsize now
  have hmaxSize := maxSize_checkDateAndRotate s now
  have hmaxFiles := maxFiles_checkDateAndRotate s now
  rw [sinkIt, CanRotate]
  by_cases hoverflows : (s.checkDateAndRotate now).Overflows (s.fileOf now) formatted
  · obtain ⟨s', hsink, hholds, hcurrent, hmax, -⟩ := htoday.sinkChecked_overflows hoverflows
    rw [Overflows, hsizeToday, hmaxSize] at hoverflows
    rw [hsink, hholds.sizeTracked_iff, hcurrent, hmax, hmaxFiles, hmaxSize]
    simp only [Option.some.injEq, forall_eq', List.length_append]
    by_cases hnone : s.maxFiles = 0
    · rw [rotatedFile, if_pos hnone]
      refine iff_of_false (fun htracked => ?_) (fun hcan => ?_)
      · omega
      · omega
    · rw [rotatedFile, if_neg hnone, List.length_nil, Nat.zero_add]
      exact iff_of_true ⟨rfl, le_max_right _ _⟩ (Or.inl hnone)
  · obtain ⟨s', hsink, hholds, hcurrent, hmax, -⟩ := htoday.sinkChecked_fits hoverflows
    rw [Overflows, hsizeToday, hmaxSize] at hoverflows
    rw [hsink, hholds.sizeTracked_iff, hcurrent, hmax, hmaxSize, hsizeToday]
    simp only [Option.some.injEq, forall_eq', List.length_append, true_and]
    refine iff_of_true (le_max_iff.mpr ?_) (Or.inr ?_)
    · omega
    · omega

/-- To flush changes nothing about it. -/
theorem Holds.sizeTracked_flush_iff (h : s.Holds content) :
    s.flush.SizeTracked last ↔ s.SizeTracked last := by
  rw [h.flush.sizeTracked_iff, h.sizeTracked_iff]
  rfl

/-- The base file stays open. -/
theorem Holds.sinkIt (h : s.Holds content) (now : LocalDate) (formatted : List UInt8) :
    ∃ content', (s.sinkIt noFailures now formatted).2.Holds content' := by
  obtain ⟨s', kept, hsink, -, hholds, -⟩ := (h.checkDateAndRotate now).sinkChecked formatted
  rw [DateRotatingFileSink.sinkIt, hsink]
  exact ⟨_, hholds⟩

/-- A step of the sink keeps its base file open. -/
theorem Holds.step {s' : DateRotatingFileSink} {a : LogAction} (h : s.Holds content)
    (hstep : logSink.step s a = some s') : ∃ content', s'.Holds content' := by
  cases a with
  | log now formatted =>
    cases hstep
    exact h.sinkIt now formatted
  | flush =>
    cases hstep
    exact ⟨content, h.flush⟩

/-- A step keeps the size right exactly if the sink can rotate where it has to. -/
theorem sizeTracked_step_iff {p p' : DateRotatingFileSink × Option ℕ} {a : LogAction}
    (hopen : ∃ content, p.1.Holds content) (htracked : p.1.SizeTracked p.2)
    (hstep : logSizes.step p a = some p') : p'.1.SizeTracked p'.2 ↔ p.1.CanRotate a := by
  obtain ⟨content, hholds⟩ := hopen
  have hsize := (hholds.sizeTracked_iff.mp htracked).1
  obtain ⟨s, last⟩ := p
  cases a with
  | log now formatted =>
    cases hstep
    exact hholds.sizeTracked_sinkIt_iff hsize now formatted
  | flush =>
    cases hstep
    exact hholds.sizeTracked_flush_iff.trans (iff_of_true htracked trivial)

end DateRotatingFileSink

open DateRotatingFileSink in
/-- In every run, from any files and with any configuration, the sink knows the size of its file and
keeps it bounded at all times exactly if no message makes it rotate without backups. -/
theorem sizes_iff (files : Directory) (baseFilename : String) (maxSize maxFiles : ℕ)
    (acts : List LogAction) :
    logSizes.AlwaysOn (fun p => p.1.SizeTracked p.2)
        (create files baseFilename maxSize maxFiles, none) acts ↔
      logSizes.EachStep (fun p a => p.1.CanRotate a)
        (create files baseFilename maxSize maxFiles, none) acts := by
  have hopen := holds_create files baseFilename maxSize maxFiles
  have htracked : (create files baseFilename maxSize maxFiles).SizeTracked none := by
    rw [hopen.sizeTracked_iff]
    refine ⟨currentSize_create files baseFilename maxSize maxFiles, fun size hsize => ?_⟩
    cases hsize
  refine TransitionSystem.alwaysOn_iff_eachStep_of_inv
    (J := fun p : DateRotatingFileSink × Option ℕ => ∃ content, p.1.Holds content) ?_ ?_
    ⟨_, hopen⟩ htracked acts
  · rintro p a p' ⟨content, hholds⟩ hstep
    exact hholds.step (TransitionSystem.withHistory_step.mp hstep).1
  · intro p a p' hopen htracked hstep
    exact sizeTracked_step_iff hopen htracked hstep

/-- A sink without backups on a file of one byte. -/
def withoutBackups : DateRotatingFileSink :=
  .create (Finmap.insert "20240101.log" [0] ∅) "20240101.log" 0 0

open DateRotatingFileSink in
/-- A message of the maximal size, on the same day. The file then has one byte more than the sink
believes. -/
theorem not_sizeTracked_withoutBackups {formatted : List UInt8}
    (hlength : formatted.length = gMinFileSize) :
    ¬ (withoutBackups.sinkIt noFailures ⟨2024, 1, 1⟩ formatted).2.SizeTracked
      (some formatted.length) := by
  have hopen : withoutBackups.Holds [0] := holds_create _ _ _ _
  have hsize : withoutBackups.currentSize = [(0 : UInt8)].length := currentSize_create _ _ _ _
  have hname : getLogFilename ⟨2024, 1, 1⟩ = "20240101.log" := by decide
  have hfile : withoutBackups.fileOf ⟨2024, 1, 1⟩ = [0] := by
    rw [fileOf, hname]
    exact congrArg (Option.getD · []) hopen.lookup
  have hmaxSize : withoutBackups.maxSize = gMinFileSize := rfl
  rw [hopen.sizeTracked_sinkIt_iff hsize, CanRotate, hfile, hlength, hmaxSize]
  rintro (hmaxFiles | hempty | hroom)
  · exact hmaxFiles rfl
  · cases hempty
  · rw [List.length_singleton] at hroom
    omega

theorem not_alwaysOn_withoutBackups {formatted : List UInt8}
    (hlength : formatted.length = gMinFileSize) :
    ¬ logSizes.AlwaysOn (fun p => p.1.SizeTracked p.2) (withoutBackups, none)
      [.log ⟨2024, 1, 1⟩ formatted] :=
  fun hall => not_sizeTracked_withoutBackups hlength (hall.2 _ rfl)

/-- 100 MiB of zeros are such a message. -/
theorem sizes_without_backups :
    ¬ logSizes.AlwaysOn (fun p => p.1.SizeTracked p.2) (withoutBackups, none)
      [.log ⟨2024, 1, 1⟩ (List.replicate gMinFileSize 0)] :=
  not_alwaysOn_withoutBackups List.length_replicate

end WasmHot
