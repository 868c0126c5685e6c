import WasmHot.Lib.Cascade
import WasmHot.Lib.Transition

/-!
# DateRotatingFileSink

The log sink writes to the file of the day through spdlog's `file_helper`. When a message would make
the file larger than `max_size_`, the files of the day move up by one, and the sink starts a new
file.

Of `file_helper` the sink uses what is modelled here: `open` closes first, creates the file if there
is none and appends to it otherwise; what is written may wait in the stream until it is flushed or
closed; a closed helper writes nothing, and its `size` throws. `contents` is what the directory
holds once the stream is flushed.

`std::filesystem::remove` and `rename` may throw, and which of them do is an argument. An exception
leaves `sink_it_` with the sink as it is then.
-/

namespace WasmHot

/-! ## File names -/

/-- A local date. -/
structure LocalDate where
  year : ℕ
  month : ℕ
  day : ℕ
  deriving DecidableEq

/-- A number with a leading zero if it has one digit. -/
def twoDigits (n : ℕ) : String :=
  if n < 10 then "0" ++ toString n else toString n

/-- `GetLogFilename`. -/
def getLogFilename (now : LocalDate) : String :=
  toString now.year ++ twoDigits now.month ++ twoDigits now.day ++ ".log"

/-- `CalcFilename`. -/
def calcFilename (filename : String) (index : ℕ) : String :=
  if index = 0 then filename else filename ++ "." ++ toString index

theorem toString_nat_injective : Function.Injective (fun n : ℕ => toString n) := by
  intro n n' heq
  have hdigits : Nat.toDigits 10 n = Nat.toDigits 10 n' := by
    rw [← Nat.toList_repr, ← Nat.toList_repr]
    exact congrArg String.toList heq
  calc n = Nat.ofDigitChars 10 (Nat.toDigits 10 n) 0 := Nat.ofDigitChars_ten_toDigits.symm
    _ = Nat.ofDigitChars 10 (Nat.toDigits 10 n') 0 := by rw [hdigits]
    _ = n' := Nat.ofDigitChars_ten_toDigits

/-- No two backups have the same name. -/
theorem calcFilename_injective (filename : String) :
    Function.Injective (calcFilename filename) := by
  have hbackup : ∀ i, i ≠ 0 → filename ≠ filename ++ "." ++ toString i := by
    intro i _ heq
    have hlength := congrArg String.length heq
    rw [String.length_append, String.length_append] at hlength
    have hdot : String.length "." = 1 := rfl
    omega
  intro i j heq
  by_cases hi : i = 0
  · by_cases hj : j = 0
    · rw [hi, hj]
    · rw [calcFilename, calcFilename, if_pos hi, if_neg hj] at heq
      exact absurd heq (hbackup j hj)
  · by_cases hj : j = 0
    · rw [calcFilename, calcFilename, if_neg hi, if_pos hj] at heq
      exact absurd heq.symm (hbackup i hi)
    · rw [calcFilename, calcFilename, if_neg hi, if_neg hj] at heq
      exact toString_nat_injective ((String.append_right_inj _).mp heq)

/-! ## The directory and the file helper -/

/-- The files by their names. -/
abbrev Directory := UnorderedMap String (List UInt8)

namespace Directory

/-- `std::filesystem::exists`. -/
def fileExists (files : Directory) (filename : String) : Bool := (files.lookup filename).isSome

/-- `std::filesystem::remove`, which does nothing where there is no file. -/
def remove (files : Directory) (filename : String) : Directory := files.erase filename

/-- `std::filesystem::rename`. -/
def rename (files : Directory) (source target : String) : Directory :=
  UnorderedMap.moveTo source target files

/-- Bytes are written to the end of a file. -/
def append (files : Directory) (filename : String) (bytes : List UInt8) : Directory :=
  match files.lookup filename with
  | none => files
  | some content => files.insert filename (content ++ bytes)

/-- A file is opened for appending. -/
def create (files : Directory) (filename : String) : Directory :=
  if files.fileExists filename then files else files.insert filename []

theorem lookup_append (files : Directory) (filename filename' : String) (bytes : List UInt8) :
    (files.append filename bytes).lookup filename' =
      if filename' = filename then (files.lookup filename).map (· ++ bytes)
      else files.lookup filename' := by
  unfold append
  cases hfile : files.lookup filename with
  | none =>
    by_cases hname : filename' = filename
    · rw [if_pos hname, hname, hfile]
      rfl
    · rw [if_neg hname]
  | some content => exact UnorderedMap.lookup_insert _ _ _ _

theorem append_append (files : Directory) (filename : String) (bytes bytes' : List UInt8) :
    (files.append filename bytes).append filename bytes' =
      files.append filename (bytes ++ bytes') := by
  apply Finmap.ext_lookup
  intro filename'
  simp only [lookup_append, if_true]
  split
  · rw [Option.map_map]
    exact congrArg (Option.map · _) (funext fun content => List.append_assoc content bytes bytes')
  · rfl

theorem append_nil (files : Directory) (filename : String) : files.append filename [] = files := by
  apply Finmap.ext_lookup
  intro filename'
  rw [lookup_append]
  split
  · next hname =>
    rw [hname]
    cases files.lookup filename with
    | none => rfl
    | some content => exact congrArg some (List.append_nil content)
  · rfl

/-- The file is there, with what it held before or empty. -/
theorem lookup_create (files : Directory) (filename filename' : String) :
    (files.create filename).lookup filename' =
      if filename' = filename then some ((files.lookup filename).getD [])
      else files.lookup filename' := by
  unfold create fileExists
  cases hfile : files.lookup filename with
  | none => exact UnorderedMap.lookup_insert _ _ _ _
  | some content =>
    dsimp only [Option.isSome_some]
    rw [if_pos rfl]
    split
    · next hname => rw [hname, hfile, Option.getD_some]
    · rfl

end Directory

/-- An open file, with the bytes that wait in its stream. -/
structure OpenFile where
  filename : String
  pending : List UInt8

/-- A `file_helper` and the directory. -/
structure FileHelper where
  opened : Option OpenFile
  files : Directory

namespace FileHelper

/-- `file_helper::flush`. -/
def flush (h : FileHelper) : FileHelper :=
  match h.opened with
  | none => h
  | some file => ⟨some ⟨file.filename, []⟩, h.files.append file.filename file.pending⟩

/-- `file_helper::close`. -/
def close (h : FileHelper) : FileHelper := ⟨none, h.flush.files⟩

/-- `file_helper::open`. -/
def openFile (h : FileHelper) (filename : String) : FileHelper :=
  ⟨some ⟨filename, []⟩, h.close.files.create filename⟩

/-- `file_helper::write`. -/
def write (h : FileHelper) (bytes : List UInt8) : FileHelper :=
  match h.opened with
  | none => h
  | some file => { h with opened := some ⟨file.filename, file.pending ++ bytes⟩ }

/-- `file_helper::size`, which throws if no file is open. -/
def size (h : FileHelper) : Option ℕ :=
  h.opened.map fun file => ((h.files.lookup file.filename).getD []).length

/-- The directory once the stream is flushed. -/
def contents (h : FileHelper) : Directory := h.flush.files

variable {h : FileHelper} {file : OpenFile}

theorem contents_closed (files : Directory) : contents ⟨none, files⟩ = files := rfl

theorem contents_opened (filename : String) (files : Directory) :
    contents ⟨some ⟨filename, []⟩, files⟩ = files :=
  Directory.append_nil files filename

theorem contents_flush : h.flush.contents = h.contents := by
  obtain ⟨opened, files⟩ := h
  cases opened with
  | none => rfl
  | some file => exact contents_opened _ _

theorem contents_close : h.close.contents = h.contents := rfl

theorem contents_openFile (filename : String) :
    (h.openFile filename).contents = h.contents.create filename :=
  contents_opened _ _

theorem contents_write (hopened : h.opened = some file) (bytes : List UInt8) :
    (h.write bytes).contents = h.contents.append file.filename bytes := by
  obtain ⟨opened, files⟩ := h
  cases hopened
  exact (Directory.append_append _ _ _ _).symm

theorem size_flush (hopened : h.opened = some file) :
    h.flush.size = some ((h.contents.lookup file.filename).getD []).length := by
  obtain ⟨opened, files⟩ := h
  cases hopened
  rfl

theorem size_openFile (filename : String) :
    (h.openFile filename).size = some ((h.contents.lookup filename).getD []).length := by
  show some (((h.contents.create filename).lookup filename).getD []).length = _
  rw [Directory.lookup_create, if_pos rfl, Option.getD_some]

end FileHelper

/-! ## The sink -/

/-- `g_min_file_size`. -/
def gMinFileSize : ℕ := 100 * 1024 * 1024

/-- `g_max_file_num`. -/
def gMaxFileNum : ℕ := 1000

/-- `DateRotatingFileSink`, with the directory that its file helper works on. -/
structure DateRotatingFileSink where
  baseFilename : String
  maxSize : ℕ
  maxFiles : ℕ
  currentSize : ℕ
  fileHelper : FileHelper

/-- The two operations of a rotation that may throw. -/
inductive FileOp
  | remove
  | rename
  deriving DecidableEq

/-- Which operations throw that are to put a file in the place of the backup with this index. -/
abbrev Failures := ℕ → FileOp → Bool

/-- No operation throws. -/
def noFailures : Failures := fun _ _ => false

/-- How `sink_it_` is left. -/
inductive SinkExit
  | returned
  /-- `file_helper_.size()` has thrown. -/
  | sizeThrows
  /-- `remove` or `rename` has thrown. -/
  | rotateThrows
  deriving DecidableEq

namespace DateRotatingFileSink

/-- `DateRotatingFileSink::DateRotatingFileSink`, on a directory. -/
def create (files : Directory) (baseFilename : String) (maxSize maxFiles : ℕ) :
    DateRotatingFileSink :=
  let helper := (FileHelper.mk none files).openFile baseFilename
  { baseFilename
    maxSize := max maxSize gMinFileSize
    maxFiles := min maxFiles gMaxFileNum
    -- The file has just been opened.
    currentSize := helper.size.getD 0
    fileHelper := helper }

/-- The directory once the stream is flushed. -/
def contents (s : DateRotatingFileSink) : Directory := s.fileHelper.contents

/-- `flush_`. -/
def flush (s : DateRotatingFileSink) : DateRotatingFileSink :=
  { s with fileHelper := s.fileHelper.flush }

/-- `CheckDateAndRotate`. -/
def checkDateAndRotate (s : DateRotatingFileSink) (now : LocalDate) : DateRotatingFileSink :=
  let newFilename := getLogFilename now
  if newFilename = s.baseFilename then s
  else
    let helper := s.fileHelper.flush.close.openFile newFilename
    { s with
      baseFilename := newFilename
      currentSize := helper.size.getD 0
      fileHelper := helper }

/-- The loop of `Rotate`, with whether it comes to its end. -/
def rotateLoop (throws : Failures) (baseFilename : String) : ℕ → Directory → Bool × Directory
  | 0, files => (true, files)
  | i + 1, files =>
      let src := calcFilename baseFilename i
      if files.fileExists src = false then rotateLoop throws baseFilename i files
      else
        let target := calcFilename baseFilename (i + 1)
        if throws (i + 1) .remove then (false, files)
        else if throws (i + 1) .rename then (false, files.remove target)
        else rotateLoop throws baseFilename i ((files.remove target).rename src target)

/-- `Rotate`, with whether it returns. -/
def rotate (s : DateRotatingFileSink) (throws : Failures) : Bool × DateRotatingFileSink :=
  let helper := s.fileHelper.close
  let loop := rotateLoop throws s.baseFilename s.maxFiles helper.files
  if loop.1 then
    (true,
      { s with
        currentSize := 0
        fileHelper := { helper with files := loop.2 }.openFile s.baseFilename })
  else (false, { s with fileHelper := { helper with files := loop.2 } })

/-- The message is written, and the size of the file is taken to be this. -/
def put (s : DateRotatingFileSink) (formatted : List UInt8) (newSize : ℕ) : DateRotatingFileSink :=
  { s with currentSize := newSize, fileHelper := s.fileHelper.write formatted }

/-- `sink_it_` after the date has been checked. -/
def sinkChecked (s : DateRotatingFileSink) (throws : Failures) (formatted : List UInt8) :
    SinkExit × DateRotatingFileSink :=
  let newSize := s.currentSize + formatted.length
  if newSize > s.maxSize then
    let s := s.flush
    match s.fileHelper.size with
    | none => (.sizeThrows, s)
    | some size =>
        if size > 0 then
          let rotated := s.rotate throws
          if rotated.1 then (.returned, rotated.2.put formatted formatted.length)
          else (.rotateThrows, rotated.2)
        else (.returned, s.put formatted newSize)
  else (.returned, s.put formatted newSize)

/-- `sink_it_`, on the formatted message. -/
def sinkIt (s : DateRotatingFileSink) (throws : Failures) (now : LocalDate)
    (formatted : List UInt8) : SinkExit × DateRotatingFileSink :=
  (s.checkDateAndRotate now).sinkChecked throws formatted

end DateRotatingFileSink

/-- What the logger asks of the sink. -/
inductive LogAction
  | log (now : LocalDate) (formatted : List UInt8)
  | flush

/-- The sink as the logger uses it, on any directory, while file operations succeed. The logger
swallows exceptions. -/
def logSink : TransitionSystem DateRotatingFileSink LogAction where
  Init s := ∃ files baseFilename maxSize maxFiles,
    s = DateRotatingFileSink.create files baseFilename maxSize maxFiles
  step s
    | .log now formatted => some (s.sinkIt noFailures now formatted).2
    | .flush => some s.flush

end WasmHot
