import Minotaur.Base.Disk
import Minotaur.Base.Interruptible
import Minotaur.Config

/-!
The rotating file sink, one interruptible operation per await of the source.
The open handle is always one of `path` itself, so the buffered writer is the
list of bytes it has not handed to the file yet. A transfer may stop anywhere:
`reached` bytes are in the file and the rest is still buffered. The lock file
is opened but what it locks is not modelled; there is one writer.

`appended`, `rotations` and `overwritten` are not in the program. They record
the bytes that reached the active file, the content of `path.N` at the start
of each rotation, and every existing file that was the target of a rename.
-/

namespace Minotaur

open Disk Interruptible

structure FileSink where
  path : String
  file : Option (List UInt8)
  size : Nat
  maxBytes : Nat
  maxFiles : Nat

structure SinkState where
  disk : Dir
  sink : FileSink
  appended : List UInt8 := []
  rotations : List (List UInt8) := []
  overwritten : List String := []

abbrev SinkIo := Op SinkState String

/-- The text of an I/O error that no context was added to. -/
def ioError : String := "I/O error"

def newline : UInt8 := 10

def suffixed (path suffix : String) : String := path ++ suffix

def archive (path : String) (index : Nat) : String := suffixed path ("." ++ toString index)

namespace SinkState

/-- Bytes arrive in the active file. -/
def reach (s : SinkState) (bytes : List UInt8) : SinkState :=
  { s with disk := append s.disk s.sink.path bytes, appended := s.appended ++ bytes }

def keep (s : SinkState) (file : Option (List UInt8)) : SinkState :=
  { s with sink := { s.sink with file := file } }

/-- The first `reached` bytes of `pending` arrive, the others stay buffered. -/
def transfer (s : SinkState) (pending : List UInt8) (reached : Nat) : SinkState :=
  (s.reach (pending.take reached)).keep (some (pending.drop reached))

def buffered (s : SinkState) : List UInt8 := s.sink.file.getD []

def created (s : SinkState) (path : String) : SinkState := { s with disk := create s.disk path }

def removed (s : SinkState) (path : String) : SinkState := { s with disk := unlink s.disk path }

def renamed (s : SinkState) (source destination : String) : SinkState :=
  { s with
    disk := rename s.disk source destination
    overwritten := s.overwritten ++ if (s.disk destination).isSome then [destination] else [] }

def opened (s : SinkState) (size : Nat) : SinkState :=
  { s with sink := { s.sink with file := some [], size := size } }

end SinkState

def ensureIo (cond : Bool) (msg : String) : SinkIo PUnit := if cond then pure ⟨⟩ else throw msg

/-! ### File operations -/

def symlinkMetadata (path failure : String) : SinkIo (Option Node) :=
  atomic (fun s => (.ok (s.disk path), s)) failure

/-- An operation on an open file or on its metadata that changes no content. -/
def inspect {α : Type} (look : SinkState → α) : SinkIo α :=
  atomic (fun s => (.ok (look s), s)) ioError

/-- `create(true)` without following a symbolic link. -/
def openFile (path failure : String) : SinkIo PUnit :=
  atomic (fun s => match s.disk path with
    | some .Other => (.error failure, s)
    | _ => (.ok ⟨⟩, s.created path)) failure

def removeFile (path : String) : SinkIo PUnit :=
  atomic (fun s => (.ok ⟨⟩, s.removed path)) ioError

def renameFile (source destination failure : String) : SinkIo PUnit :=
  atomic (fun s => match s.disk source with
    | none => (.error failure, s)
    | some _ => (.ok ⟨⟩, s.renamed source destination)) failure

/-- `file.write_all(line)` through the buffered writer of the sink. -/
def writeAll (line : List UInt8) : SinkIo PUnit :=
  operation (fun reached s => (.ok ⟨⟩, s.transfer (s.buffered ++ line) reached))
    (fun taken reached s => s.transfer (s.buffered ++ line.take taken) reached)
    "cannot write JSONL file"

def flush : SinkIo PUnit :=
  operation (fun _ s => (.ok ⟨⟩, (s.reach s.buffered).keep (some [])))
    (fun _ reached s => s.transfer s.buffered reached) "cannot flush JSONL file"

/-- Flushes the writer that `take` moved out of the sink. -/
def flushTaken (buffered : List UInt8) : SinkIo PUnit :=
  operation (fun _ s => (.ok ⟨⟩, s.reach buffered))
    (fun _ reached s => s.reach (buffered.take reached)) ioError

def regularExists (path : String) : SinkIo Bool := do
  match ← symlinkMetadata path ("cannot inspect log path " ++ path) with
  | some (.Regular _) => pure true
  | some .Other => throw ("refusing non-regular log path " ++ path)
  | none => pure false

/-! ### Opening -/

def checkLastByte (path : String) (size : Nat) : SinkIo PUnit :=
  if 0 < size then do
    inspect fun _ => PUnit.unit
    let last ← inspect fun s => (content s.disk path).getLast?
    ensureIo (last = some newline)
      "log ends with an incomplete line; isolate or repair it before restarting"
  else pure ⟨⟩

/-- The size of the opened log. -/
def openLog (path : String) : SinkIo Nat := do
  let _ ← regularExists path
  openFile path ("cannot open log " ++ path)
  let metadata ← inspect fun s => s.disk path
  ensureIo (metadata.isSome && metadata != some .Other) "log output must be a regular file"
  inspect fun _ => PUnit.unit
  let size ← inspect fun s => (content s.disk path).length
  checkLastByte path size
  pure size

def acquireLock (path : String) : SinkIo PUnit := do
  let metadata ← symlinkMetadata path "cannot inspect log lock"
  ensureIo (metadata != some .Other) "log lock must not be a symlink or special file"
  openFile path ("cannot open log lock " ++ path)
  inspect fun _ => PUnit.unit

/-- `FileSink::open`; the sink it returns becomes the sink of the state. -/
def FileSink.open (path : String) (maxBytes maxFiles : Nat) : SinkIo PUnit := do
  ensureIo (decide (0 < maxBytes ∧ 0 < maxFiles)) "rotation limits must be positive"
  acquireLock (suffixed path ".lock")
  let size ← openLog path
  update fun s => { s with sink := ⟨path, some [], size, maxBytes, maxFiles⟩ }

/-! ### Rotation -/

/-- `self.file.take()`, where a rotation starts. -/
def takeFile (s : SinkState) : SinkState :=
  { s.keep none with
    rotations := s.rotations ++ [content s.disk (archive s.sink.path s.sink.maxFiles)] }

def flushOld (file : Option (List UInt8)) : SinkIo PUnit :=
  match file with
  | some buffered => flushTaken buffered
  | none => pure ⟨⟩

def removeOldest (oldest : String) : SinkIo PUnit := do
  if ← regularExists oldest then removeFile oldest else pure ⟨⟩

def shiftOne (path : String) (index : Nat) : SinkIo PUnit := do
  if ← regularExists (archive path index) then
    renameFile (archive path index) (archive path (index + 1)) ioError
  else pure ⟨⟩

/-- `for index in (1..max_files).rev()`, from `index` down to 1. -/
def shift (path : String) : Nat → SinkIo PUnit
  | 0 => pure ⟨⟩
  | index + 1 => do
      shiftOne path (index + 1)
      shift path index

def rotate : SinkIo PUnit := do
  let self := (← state).sink
  update takeFile
  flushOld self.file
  removeOldest (archive self.path self.maxFiles)
  shift self.path (self.maxFiles - 1)
  let active ← regularExists self.path
  ensureIo active "active log disappeared before rotation"
  renameFile self.path (suffixed self.path ".1") "cannot rotate active log"
  let size ← openLog self.path
  update fun s => s.opened size

/-! ### Writing -/

def rotateIfFull (length : Nat) : SinkIo PUnit := do
  let self := (← state).sink
  if self.maxBytes < min (self.size + length) u64Max then rotate else pure ⟨⟩

def appendLine (line : List UInt8) : SinkIo PUnit := do
  match (← state).sink.file with
  | none => throw "log file unavailable after rotation"
  | some _ => do
      writeAll line
      flush
      update fun s => { s with sink := { s.sink with size := s.sink.size + line.length } }

def FileSink.write (line : List UInt8) : SinkIo PUnit := do
  let self := (← state).sink
  ensureIo (decide (line.length ≤ self.maxBytes)) "one JSONL record exceeds max_file_bytes"
  rotateIfFull line.length
  appendLine line

/-! ### What each operation can leave behind -/

section Specifications

variable {stop : SinkState → Prop} {s : SinkState}

theorem meets_ensureIo {ok : PUnit → SinkState → Prop} {cond : Bool} (msg : String)
    (hstop : stop s) (hok : cond = true → ok ⟨⟩ s) : Meets (ensureIo cond msg) ok stop s := by
  unfold ensureIo
  split_ifs with hcond
  · exact (meets_pure _).mpr (hok hcond)
  · exact (meets_throw _).mpr hstop

theorem meets_inspect {α : Type} {ok : α → SinkState → Prop} {look : SinkState → α}
    (hstop : stop s) (hok : ok (look s) s) : Meets (inspect look) ok stop s := by
  refine meets_atomic hstop hstop ?_
  rintro value hvalue
  obtain rfl := Except.ok.inj hvalue
  exact hok

theorem meets_symlinkMetadata {ok : Option Node → SinkState → Prop} (path failure : String)
    (hstop : stop s) (hok : ok (s.disk path) s) :
    Meets (symlinkMetadata path failure) ok stop s := by
  refine meets_atomic hstop hstop ?_
  rintro value hvalue
  obtain rfl := Except.ok.inj hvalue
  exact hok

theorem meets_regularExists {ok : Bool → SinkState → Prop} (path : String) (hstop : stop s)
    (hpresent : ∀ content, s.disk path = some (.Regular content) → ok true s)
    (habsent : s.disk path = none → ok false s) : Meets (regularExists path) ok stop s := by
  unfold regularExists
  refine meets_bind (meets_symlinkMetadata _ _ hstop ?_)
  cases hnode : s.disk path with
  | none => exact (meets_pure _).mpr (habsent hnode)
  | some node =>
      cases node with
      | Regular content => exact (meets_pure _).mpr (hpresent content hnode)
      | Other => exact (meets_throw _).mpr hstop

theorem meets_openFile {ok : PUnit → SinkState → Prop} (path failure : String) (hstop : stop s)
    (hcreated : stop (s.created path))
    (hok : s.disk path ≠ some .Other → ok ⟨⟩ (s.created path)) :
    Meets (openFile path failure) ok stop s := by
  by_cases hother : s.disk path = some .Other
  · have hperform : (match s.disk path with
        | some .Other => ((.error failure, s) : Except String PUnit × SinkState)
        | _ => (.ok ⟨⟩, (s.created path))) = (.error failure, s) := by
      rw [hother]
    refine meets_atomic hstop (by rw [hperform]; exact hstop) ?_
    rintro value hvalue
    rw [hperform] at hvalue
    cases hvalue
  · have hperform : (match s.disk path with
        | some .Other => ((.error failure, s) : Except String PUnit × SinkState)
        | _ => (.ok ⟨⟩, (s.created path))) =
          (.ok ⟨⟩, (s.created path)) := by
      split
      · exact absurd ‹_› hother
      · rfl
    refine meets_atomic hstop (by rw [hperform]; exact hcreated) ?_
    rintro value _
    rw [hperform]
    exact hok hother

/-- A log opens when it is missing, empty, or ends with a newline. -/
theorem meets_openLog {ok : Nat → SinkState → Prop} (path : String) (hstop : stop s)
    (hcreated : stop (s.created path))
    (hok : ∀ old, (s.created path).disk path = some (.Regular old) →
      (old = [] ∨ old.getLast? = some newline) →
      ok old.length (s.created path)) :
    Meets (openLog path) ok stop s := by
  unfold openLog
  refine meets_bind (meets_regularExists path hstop ?_ ?_) <;> intros <;>
    refine meets_bind (meets_openFile path _ hstop hcreated (fun hother => ?_)) <;>
    refine meets_bind (meets_inspect hcreated (meets_bind (meets_ensureIo _ hcreated ?_))) <;>
    intro hregular
  all_goals
    obtain ⟨old, hold⟩ : ∃ old, (s.created path).disk path = some (.Regular old) := by
      cases hnode : (s.created path).disk path with
      | none => simp [hnode] at hregular
      | some node =>
          cases node with
          | Regular old => exact ⟨old, rfl⟩
          | Other => simp [hnode] at hregular
    have hcontent : content (s.created path).disk path = old := by simp [content, hold]
    refine meets_bind (meets_inspect hcreated (meets_bind (meets_inspect hcreated ?_)))
    refine meets_bind ?_
    unfold checkLastByte
    rw [hcontent]
    split_ifs with hsize
    · refine meets_bind (meets_inspect hcreated (meets_bind (meets_inspect hcreated ?_)))
      rw [hcontent]
      refine meets_ensureIo _ hcreated (fun hlast => (meets_pure _).mpr ?_)
      exact hok old hold (Or.inr (by simpa using hlast))
    · refine (meets_pure _).mpr ((meets_pure _).mpr (hok old hold (Or.inl ?_)))
      exact List.length_eq_zero_iff.mp (by omega)

theorem meets_renameFile {ok : PUnit → SinkState → Prop} {source destination : String}
    (failure : String) (hstop : stop s) {old : List UInt8}
    (hpresent : s.disk source = some (.Regular old)) (hrenamed : stop (s.renamed source destination))
    (hok : ok ⟨⟩ (s.renamed source destination)) :
    Meets (renameFile source destination failure) ok stop s := by
  unfold renameFile
  refine meets_atomic hstop ?_ ?_
  · simp only [hpresent]
    exact hrenamed
  · rintro value _
    simp only [hpresent]
    exact hok

end Specifications

/-! ### The rotation rule -/

/-- What a property has to satisfy to follow a rotation through: `flushed`
holds once the old handle is gone, `free index` whenever the archive `index`
is the next destination, and `moved` after the active file became an archive.
Every one of them implies `stop`. -/
structure RotationRule (path : String) (maxFiles : Nat) (stop : SinkState → Prop) where
  flushed : SinkState → Prop
  free : Nat → SinkState → Prop
  moved : SinkState → Prop
  stop_of_flushed : ∀ s, flushed s → stop s
  stop_of_free : ∀ index s, free index s → stop s
  stop_of_moved : ∀ s, moved s → stop s
  remove : ∀ s old, flushed s → s.disk (archive path maxFiles) = some (.Regular old) →
    free maxFiles (s.removed (archive path maxFiles))
  none_to_remove : ∀ s, flushed s → s.disk (archive path maxFiles) = none → free maxFiles s
  rename : ∀ index s old, index + 2 ≤ maxFiles → free (index + 2) s →
    s.disk (archive path (index + 1)) = some (.Regular old) →
    free (index + 1) (s.renamed (archive path (index + 1)) (archive path (index + 2)))
  none_to_rename : ∀ index s, free (index + 2) s → s.disk (archive path (index + 1)) = none →
    free (index + 1) s
  archive_active : ∀ s old, free 1 s → s.disk path = some (.Regular old) →
    moved (s.renamed path (suffixed path ".1"))
  create : ∀ s, moved s → moved (s.created path)

namespace RotationRule

variable {path : String} {maxFiles : Nat} {stop : SinkState → Prop} {s : SinkState}

theorem meets_removeOldest (rule : RotationRule path maxFiles stop) (h : rule.flushed s) :
    Meets (removeOldest (archive path maxFiles)) (fun _ => rule.free maxFiles) stop s := by
  have hstop := rule.stop_of_flushed s h
  unfold removeOldest
  refine meets_bind (meets_regularExists _ hstop (fun old hold => ?_) (fun hmissing => ?_))
  · have hfree := rule.remove s old h hold
    unfold removeFile
    exact meets_atomic hstop (rule.stop_of_free _ _ hfree) (fun _ _ => hfree)
  · exact (meets_pure _).mpr (rule.none_to_remove s h hmissing)

theorem meets_shiftOne (rule : RotationRule path maxFiles stop) {index : Nat}
    (hle : index + 2 ≤ maxFiles) (h : rule.free (index + 2) s) :
    Meets (shiftOne path (index + 1)) (fun _ => rule.free (index + 1)) stop s := by
  have hstop := rule.stop_of_free _ s h
  unfold shiftOne
  refine meets_bind (meets_regularExists _ hstop (fun old hold => ?_) (fun hmissing => ?_))
  · have hfree := rule.rename index s old hle h hold
    exact meets_renameFile _ hstop hold (rule.stop_of_free _ _ hfree) hfree
  · exact (meets_pure _).mpr (rule.none_to_rename index s h hmissing)

/-- The loop runs towards the new end, so every destination is the name the
turn before it freed. -/
theorem meets_shift (rule : RotationRule path maxFiles stop) {index : Nat}
    (hle : index + 1 ≤ maxFiles) (h : rule.free (index + 1) s) :
    Meets (shift path index) (fun _ => rule.free 1) stop s := by
  induction index generalizing s with
  | zero => exact (meets_pure _).mpr h
  | succ index ih =>
      refine meets_bind (meets_mono (rule.meets_shiftOne hle h) ?_ (fun _ hs => hs))
      rintro _ next hnext
      exact ih (by omega) hnext

theorem meets_rotate {ok : PUnit → SinkState → Prop} (rule : RotationRule path maxFiles stop)
    (hfiles : 1 ≤ maxFiles) (hpath : s.sink.path = path) (hmaxFiles : s.sink.maxFiles = maxFiles)
    (hflush : Meets (flushOld s.sink.file) (fun _ => rule.flushed) stop (takeFile s))
    (hok : ∀ next old, rule.moved next → next.disk path = some (.Regular old) →
      (old = [] ∨ old.getLast? = some newline) → ok ⟨⟩ (next.opened old.length)) :
    Meets rotate ok stop s := by
  unfold rotate
  refine meets_bind (meets_state.mpr (meets_bind ((meets_update _).mpr ?_)))
  simp only [hpath, hmaxFiles]
  refine meets_bind (meets_mono hflush ?_ (fun _ hs => hs))
  rintro _ flushed hflushed
  refine meets_bind (meets_mono (rule.meets_removeOldest hflushed) ?_ (fun _ hs => hs))
  rintro _ removed hremoved
  obtain ⟨index, rfl⟩ : ∃ index, maxFiles = index + 1 := ⟨maxFiles - 1, by omega⟩
  refine meets_bind (meets_mono (rule.meets_shift (Nat.le_refl _) hremoved) ?_ (fun _ hs => hs))
  rintro _ shifted hshifted
  have hstop := rule.stop_of_free 1 shifted hshifted
  refine meets_bind (meets_regularExists path hstop (fun old hold => ?_) (fun _ => ?_))
  · refine meets_bind (meets_ensureIo _ hstop (fun _ => ?_))
    have hmoved := rule.archive_active shifted old hshifted hold
    refine meets_bind (meets_renameFile _ hstop hold (rule.stop_of_moved _ hmoved) ?_)
    have hcreated := rule.create _ hmoved
    refine meets_bind (meets_openLog path (rule.stop_of_moved _ hmoved)
      (rule.stop_of_moved _ hcreated) (fun size hsize hlast => ?_))
    exact (meets_update _).mpr (hok _ size hcreated hsize hlast)
  · refine meets_bind (meets_ensureIo _ hstop (fun hactive => ?_))
    cases hactive

end RotationRule

end Minotaur
