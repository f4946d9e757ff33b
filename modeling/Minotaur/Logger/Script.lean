import Minotaur.Base.Script
import Minotaur.Logger.FileSink

/-!
The text of the file sink's calls, operation by operation. Each script is the
sink's computation of the same name when nobody else runs, and the directory is
what other processes see of the state.
-/

namespace Minotaur

open Disk Interruptible

abbrev SinkScript (α : Type) := Script SinkState.disk String α

namespace SinkScript

def ensureIo (cond : Bool) (msg : String) : SinkScript PUnit :=
  if cond then pure ⟨⟩ else Script.throw msg

def symlinkMetadata (path failure : String) : SinkScript (Option Node) :=
  .atomic (fun s => (.ok (s.disk path), s)) failure

def inspect {α : Type} (look : SinkState → α) : SinkScript α :=
  .atomic (fun s => (.ok (look s), s)) ioError

def openFile (path failure : String) : SinkScript PUnit :=
  .atomic (fun s => match s.disk path with
    | some .Other => (.error failure, s)
    | _ => (.ok ⟨⟩, s.created path)) failure

def removeFile (path : String) : SinkScript PUnit :=
  .atomic (fun s => (.ok ⟨⟩, s.removed path)) ioError

def renameFile (source destination failure : String) : SinkScript PUnit :=
  .atomic (fun s => match s.disk source with
    | none => (.error failure, s)
    | some _ => (.ok ⟨⟩, s.renamed source destination)) failure

def writeAll (line : List UInt8) : SinkScript PUnit :=
  .operation (fun reached s => (.ok ⟨⟩, s.transfer (s.buffered ++ line) reached))
    (fun taken reached s => s.transfer (s.buffered ++ line.take taken) reached)
    "cannot write JSONL file"

def flush : SinkScript PUnit :=
  .operation (fun _ s => (.ok ⟨⟩, (s.reach s.buffered).keep (some [])))
    (fun _ reached s => s.transfer s.buffered reached) "cannot flush JSONL file"

def flushTaken (buffered : List UInt8) : SinkScript PUnit :=
  .operation (fun _ s => (.ok ⟨⟩, s.reach buffered))
    (fun _ reached s => s.reach (buffered.take reached)) ioError

def regularExists (path : String) : SinkScript Bool := do
  match ← symlinkMetadata path ("cannot inspect log path " ++ path) with
  | some (.Regular _) => pure true
  | some .Other => Script.throw ("refusing non-regular log path " ++ path)
  | none => pure false

def checkLastByte (path : String) (size : Nat) : SinkScript PUnit :=
  if 0 < size then do
    inspect fun _ => PUnit.unit
    let last ← inspect fun s => (content s.disk path).getLast?
    ensureIo (last = some newline)
      "log ends with an incomplete line; isolate or repair it before restarting"
  else pure ⟨⟩

def openLog (path : String) : SinkScript Nat := do
  let _ ← regularExists path
  openFile path ("cannot open log " ++ path)
  let metadata ← inspect fun s => s.disk path
  ensureIo (metadata.isSome && metadata != some .Other) "log output must be a regular file"
  inspect fun _ => PUnit.unit
  let size ← inspect fun s => (content s.disk path).length
  checkLastByte path size
  pure size

def flushOld (file : Option (List UInt8)) : SinkScript PUnit :=
  match file with
  | some buffered => flushTaken buffered
  | none => pure ⟨⟩

def removeOldest (oldest : String) : SinkScript PUnit := do
  if ← regularExists oldest then removeFile oldest else pure ⟨⟩

def shiftOne (path : String) (index : Nat) : SinkScript PUnit := do
  if ← regularExists (archive path index) then
    renameFile (archive path index) (archive path (index + 1)) ioError
  else pure ⟨⟩

def shift (path : String) : Nat → SinkScript PUnit
  | 0 => pure ⟨⟩
  | index + 1 => do
      shiftOne path (index + 1)
      shift path index

def rotate : SinkScript PUnit := do
  let self := (← Script.state).sink
  Script.update takeFile fun _ => rfl
  flushOld self.file
  removeOldest (archive self.path self.maxFiles)
  shift self.path (self.maxFiles - 1)
  let active ← regularExists self.path
  ensureIo active "active log disappeared before rotation"
  renameFile self.path (suffixed self.path ".1") "cannot rotate active log"
  let size ← openLog self.path
  Script.update (fun s => s.opened size) fun _ => rfl

def rotateIfFull (length : Nat) : SinkScript PUnit := do
  let self := (← Script.state).sink
  if self.maxBytes < min (self.size + length) u64Max then rotate else pure ⟨⟩

def appendLine (line : List UInt8) : SinkScript PUnit := do
  match (← Script.state).sink.file with
  | none => Script.throw "log file unavailable after rotation"
  | some _ => do
      writeAll line
      flush
      Script.update (fun s => { s with sink := { s.sink with size := s.sink.size + line.length } })
        fun _ => rfl

def write (line : List UInt8) : SinkScript PUnit := do
  let self := (← Script.state).sink
  ensureIo (decide (line.length ≤ self.maxBytes)) "one JSONL record exceeds max_file_bytes"
  rotateIfFull line.length
  appendLine line

/-- `FileSink::open` once it has the lock. -/
def openSink (path : String) (maxBytes maxFiles : Nat) : SinkScript PUnit := do
  let size ← openLog path
  Script.update (fun s => { s with sink := ⟨path, some [], size, maxBytes, maxFiles⟩ }) fun _ => rfl

end SinkScript

/-- `FileSink::open` once it has the lock. -/
def openSink (path : String) (maxBytes maxFiles : Nat) : SinkIo PUnit := do
  let size ← openLog path
  update fun s => { s with sink := ⟨path, some [], size, maxBytes, maxFiles⟩ }

theorem open_eq (path : String) (maxBytes maxFiles : Nat) :
    FileSink.open path maxBytes maxFiles = (do
      ensureIo (decide (0 < maxBytes ∧ 0 < maxFiles)) "rotation limits must be positive"
      acquireLock (suffixed path ".lock")
      openSink path maxBytes maxFiles) := rfl

namespace SinkScript

/-! ### Alone -/

@[simp] theorem toOp_ensureIo (cond : Bool) (msg : String) :
    (ensureIo cond msg).toOp = Minotaur.ensureIo cond msg := by
  cases cond <;> rfl

@[simp] theorem toOp_symlinkMetadata (path failure : String) :
    (symlinkMetadata path failure).toOp = Minotaur.symlinkMetadata path failure :=
  Script.toOp_atomic _ _

@[simp] theorem toOp_inspect {α : Type} (look : SinkState → α) :
    (inspect look).toOp = Minotaur.inspect look := Script.toOp_atomic _ _

@[simp] theorem toOp_openFile (path failure : String) :
    (openFile path failure).toOp = Minotaur.openFile path failure := Script.toOp_atomic _ _

@[simp] theorem toOp_removeFile (path : String) :
    (removeFile path).toOp = Minotaur.removeFile path := Script.toOp_atomic _ _

@[simp] theorem toOp_renameFile (source destination failure : String) :
    (renameFile source destination failure).toOp =
      Minotaur.renameFile source destination failure := Script.toOp_atomic _ _

@[simp] theorem toOp_writeAll (line : List UInt8) :
    (writeAll line).toOp = Minotaur.writeAll line := Script.toOp_operation _ _ _

@[simp] theorem toOp_flush : flush.toOp = Minotaur.flush := Script.toOp_operation _ _ _

@[simp] theorem toOp_flushTaken (buffered : List UInt8) :
    (flushTaken buffered).toOp = Minotaur.flushTaken buffered := Script.toOp_operation _ _ _

@[simp] theorem toOp_regularExists (path : String) :
    (regularExists path).toOp = Minotaur.regularExists path := by
  unfold regularExists Minotaur.regularExists
  rw [Script.toOp_bind, toOp_symlinkMetadata]
  congr 1
  funext node
  cases node with
  | none => rfl
  | some node => cases node <;> rfl

@[simp] theorem toOp_checkLastByte (path : String) (size : Nat) :
    (checkLastByte path size).toOp = Minotaur.checkLastByte path size := by
  unfold checkLastByte Minotaur.checkLastByte
  split_ifs
  · simp only [Script.toOp_bind, toOp_inspect, toOp_ensureIo]
  · rfl

@[simp] theorem toOp_openLog (path : String) : (openLog path).toOp = Minotaur.openLog path := by
  simp only [openLog, Minotaur.openLog, Script.toOp_bind, toOp_regularExists, toOp_openFile,
    toOp_inspect, toOp_ensureIo, toOp_checkLastByte, Script.toOp_pure]

@[simp] theorem toOp_flushOld (file : Option (List UInt8)) :
    (flushOld file).toOp = Minotaur.flushOld file := by
  cases file with
  | none => rfl
  | some buffered => exact toOp_flushTaken buffered

@[simp] theorem toOp_removeOldest (oldest : String) :
    (removeOldest oldest).toOp = Minotaur.removeOldest oldest := by
  unfold removeOldest Minotaur.removeOldest
  rw [Script.toOp_bind, toOp_regularExists]
  congr 1
  funext present
  cases present with
  | false => rfl
  | true => exact toOp_removeFile oldest

@[simp] theorem toOp_shiftOne (path : String) (index : Nat) :
    (shiftOne path index).toOp = Minotaur.shiftOne path index := by
  unfold shiftOne Minotaur.shiftOne
  rw [Script.toOp_bind, toOp_regularExists]
  congr 1
  funext present
  cases present with
  | false => rfl
  | true => exact toOp_renameFile _ _ _

@[simp] theorem toOp_shift (path : String) (index : Nat) :
    (shift path index).toOp = Minotaur.shift path index := by
  induction index with
  | zero => rfl
  | succ index ih => simp only [shift, Minotaur.shift, Script.toOp_bind, toOp_shiftOne, ih]

@[simp] theorem toOp_rotate : rotate.toOp = Minotaur.rotate := by
  simp only [rotate, Minotaur.rotate, Script.toOp_bind, Script.toOp_state, toOp_flushOld,
    toOp_removeOldest, toOp_shift, toOp_regularExists, toOp_ensureIo, toOp_renameFile,
    toOp_openLog]
  rfl

@[simp] theorem toOp_rotateIfFull (length : Nat) :
    (rotateIfFull length).toOp = Minotaur.rotateIfFull length := by
  unfold rotateIfFull Minotaur.rotateIfFull
  rw [Script.toOp_bind, Script.toOp_state]
  congr 1
  funext s
  dsimp only
  split_ifs
  · exact toOp_rotate
  · rfl

@[simp] theorem toOp_appendLine (line : List UInt8) :
    (appendLine line).toOp = Minotaur.appendLine line := by
  unfold appendLine Minotaur.appendLine
  rw [Script.toOp_bind, Script.toOp_state]
  congr 1
  funext s
  cases s.sink.file with
  | none => rfl
  | some buffered =>
      simp only [Script.toOp_bind, toOp_writeAll, toOp_flush, Script.toOp_update]

theorem toOp_write (line : List UInt8) : (write line).toOp = FileSink.write line := by
  simp only [write, FileSink.write, Script.toOp_bind, Script.toOp_state, toOp_ensureIo,
    toOp_rotateIfFull, toOp_appendLine]

theorem toOp_openSink (path : String) (maxBytes maxFiles : Nat) :
    (openSink path maxBytes maxFiles).toOp = Minotaur.openSink path maxBytes maxFiles := by
  simp only [openSink, Minotaur.openSink, Script.toOp_bind, toOp_openLog, Script.toOp_update]

end SinkScript

end Minotaur
