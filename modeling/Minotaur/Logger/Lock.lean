import Minotaur.Logger.Script
import Minotaur.Logger.Lines
import Minotaur.Logger.Retention

/-!
Any number of processes on one log. Each opens the lock file and tries to lock
it; who gets the lock opens the log, writes lines and rotates, one operation
at a time, and in between the others take their steps. Whoever ends, is killed
or gives up drops its lock. An operation that is dropped has happened by then,
never will, or outlives its call: the runtime cannot take a blocking operation
back, so it may happen when the lock is already somebody else's (`detach`). A
step is `settled` if it takes no lock while such an operation is outstanding.

The lock is one of the file at the lock's path: nobody ever moves or replaces
that file (`lockRule`).
-/

namespace Minotaur

open Disk Interruptible

def lockPath (path : String) : String := suffixed path ".lock"

/-- Where a process is with its sink. -/
inductive SinkPhase where
  /-- `symlink_metadata`, the first of `acquire_lock`. -/
  | Inspecting
  | OpeningLock
  /-- Looks at the file it has opened. -/
  | CheckingLock
  /-- `try_lock` next. -/
  | Locking
  /-- Holds the lock and sets the permissions of its file next. -/
  | Securing
  /-- Inside the rest of `open`, or inside a write. -/
  | Calling (script : SinkScript PUnit)
  /-- Between two calls. -/
  | Live
  /-- The call is dropped, and the lock with it, but not the operation the call
  was in. -/
  | Dropped (script : SinkScript PUnit)
  | Over

/-- The directory in `sink` is the one of its last operation. -/
structure SinkTask where
  maxBytes : Nat
  maxFiles : Nat
  phase : SinkPhase
  sink : SinkState

/-- The sink of a task, with the directory as it is now. -/
def SinkTask.now (task : SinkTask) (disk : Dir) : SinkState := { task.sink with disk := disk }

structure LogHost where
  disk : Dir
  lock : Option Nat
  tasks : List SinkTask

inductive HostLabel (Record : List UInt8 → Prop) where
  | spawn (maxBytes maxFiles : Nat)
  | advance (task : Nat) (verdict : Verdict)
  | write (task : Nat) (body : Subtype Record)
  /-- The process drops its sink in a call whose operation is running on. -/
  | detach (task : Nat)
  /-- The process drops its sink, or dies. -/
  | stop (task : Nat)

def SinkPhase.holds : SinkPhase → Bool
  | .Securing | .Calling _ | .Live => true
  | .Inspecting | .OpeningLock | .CheckingLock | .Locking | .Dropped _ | .Over => false

/-- Calls `try_lock` next. -/
def SinkPhase.locks : SinkPhase → Bool
  | .Locking => true
  | _ => false

/-- An operation of the task is outstanding that nobody waits for. -/
def SinkPhase.outlives : SinkPhase → Bool
  | .Dropped _ => true
  | .Inspecting | .OpeningLock | .CheckingLock | .Locking | .Securing | .Calling _ | .Live
  | .Over => false

/-- The log may change under the task. -/
def SinkPhase.touches (phase : SinkPhase) : Bool := phase.holds || phase.outlives

/-- Has opened the lock file. -/
def SinkPhase.opened : SinkPhase → Bool
  | .CheckingLock | .Locking | .Securing | .Calling _ | .Live | .Dropped _ => true
  | .Inspecting | .OpeningLock | .Over => false

/-- What a call turns into after one of its operations. -/
def SinkPhase.after : Option (SinkScript PUnit) → SinkPhase
  | none => .Over
  | some (.done (.ok _)) => .Live
  | some (.done (.error _)) => .Over
  | some script => .Calling script

namespace LogHost

variable {Record : List UInt8 → Prop} (path : String) (host : LogHost)

def isRegular (disk : Dir) (path : String) : Bool :=
  match disk path with
  | some (.Regular _) => true
  | _ => false

/-- A task that does not hold the lock any more has dropped it. -/
def setTask (index : Nat) (task : SinkTask) : LogHost :=
  { host with
    lock := if task.phase.holds = false ∧ host.lock = some index then none else host.lock
    tasks := host.tasks.set index task }

def advance (index : Nat) (task : SinkTask) (verdict : Verdict) : Option LogHost :=
  let go (phase : SinkPhase) : SinkTask :=
    { task with phase := if verdict.goes then phase else .Over }
  match task.phase with
  | .Inspecting =>
      -- "log lock must not be a symlink or special file"
      some (host.setTask index
        (go (if host.disk (lockPath path) = some .Other then .Over else .OpeningLock)))
  | .OpeningLock =>
      if host.disk (lockPath path) = some .Other then some (host.setTask index (go .Over))
      else
        some ({ host with
            disk := if verdict.takesEffect then create host.disk (lockPath path) else host.disk
          }.setTask index (go .CheckingLock))
  | .CheckingLock =>
      -- "log lock must be a regular file"
      some (host.setTask index
        (go (if isRegular host.disk (lockPath path) then .Locking else .Over)))
  | .Locking =>
      if host.lock.isSome || !verdict.goes then
        -- "cannot lock log output; another writer may be running"
        some (host.setTask index (go .Over))
      else some ({ host with lock := some index }.setTask index (go .Securing))
  | .Securing =>
      some (host.setTask index
        (go (.Calling (SinkScript.openSink path task.maxBytes task.maxFiles))))
  | .Calling script =>
      let (left, sink) := script.step verdict (task.now host.disk)
      some ({ host with disk := sink.disk }.setTask index
        { task with phase := .after left, sink := sink })
  | .Dropped script =>
      -- Has its effect on the directory as it is by now, whoever holds the lock.
      let (_, sink) := script.step verdict (task.now host.disk)
      some ({ host with disk := sink.disk }.setTask index
        { task with phase := .Over, sink := sink })
  | .Live | .Over => none

/-- A process begins `FileSink::open`. -/
def spawn (maxBytes maxFiles : Nat) : LogHost :=
  { host with
    tasks := host.tasks ++ [{
      maxBytes := maxBytes
      maxFiles := maxFiles
      phase := if 0 < maxBytes ∧ 0 < maxFiles then .Inspecting else .Over
      sink := .boot path maxBytes maxFiles host.disk }] }

def step : HostLabel Record → Option LogHost
  | .spawn maxBytes maxFiles => some (host.spawn path maxBytes maxFiles)
  | .advance index verdict =>
      host.tasks[index]?.bind fun task => host.advance path index task verdict
  | .write index body =>
      host.tasks[index]?.bind fun task => match task.phase with
        | .Live =>
            some (host.setTask index
              { task with phase := .Calling (SinkScript.write (terminated body.1)) })
        | _ => none
  | .detach index =>
      host.tasks[index]?.bind fun task => match task.phase with
        | .Calling script => some (host.setTask index { task with phase := .Dropped script })
        | _ => none
  | .stop index =>
      host.tasks[index]?.map fun task => host.setTask index { task with phase := .Over }

/-- Nobody takes the lock while an operation of an earlier holder is
outstanding. -/
def settled : HostLabel Record → Bool
  | .advance index (.Go _) =>
      !host.tasks[index]?.any (fun task => task.phase.locks) ||
        host.tasks.all fun task => !task.phase.outlives
  | _ => true

end LogHost

/-- Before the first process. -/
def LogHost.new (disk : Dir) : LogHost := ⟨disk, none, []⟩

/-! ### The file of the lock -/

/-- The sink's own files are beside the lock file. -/
structure Beside (path : String) (node : Option Node) (s : SinkState) : Prop where
  path_eq : s.sink.path = path
  node_eq : s.disk (lockPath path) = node

section Beside

variable {path : String} {node : Option Node} {s : SinkState}

theorem lockPath_ne_path (path : String) : lockPath path ≠ path := suffixed_ne (by decide)

theorem lockPath_ne_archive (path : String) (index : Nat) : lockPath path ≠ archive path index :=
  (archive_ne_lock path index).symm

theorem Beside.reach (h : Beside path node s) (bytes : List UInt8) :
    Beside path node (s.reach bytes) where
  path_eq := h.path_eq
  node_eq := by
    refine (append_other s.disk ?_ bytes).trans h.node_eq
    rw [h.path_eq]
    exact lockPath_ne_path path

theorem Beside.renamed (h : Beside path node s) {source destination : String}
    (hsource : lockPath path ≠ source) (hdestination : lockPath path ≠ destination) :
    Beside path node (s.renamed source destination) where
  path_eq := h.path_eq
  node_eq := (rename_other s.disk hsource hdestination).trans h.node_eq

theorem Beside.created (h : Beside path node s) : Beside path node (s.created path) where
  path_eq := h.path_eq
  node_eq := (create_other s.disk (lockPath_ne_path path)).trans h.node_eq

/-- A rotation has nothing to do with the lock file. -/
def lockRule (path : String) (maxFiles : Nat) (node : Option Node) :
    RotationRule path maxFiles (Beside path node) where
  flushed := Beside path node
  free _ := Beside path node
  moved := Beside path node
  stop_of_flushed _ h := h
  stop_of_free _ _ h := h
  stop_of_moved _ h := h
  remove _ _ h _ := ⟨h.path_eq, (set_other _ (lockPath_ne_archive path _) _).trans h.node_eq⟩
  none_to_remove _ h _ := h
  rename _ _ _ _ h _ := h.renamed (lockPath_ne_archive path _) (lockPath_ne_archive path _)
  none_to_rename _ _ h _ := h
  archive_active _ _ h _ := h.renamed (lockPath_ne_path path) (lockPath_ne_archive path 1)
  create _ h := h.created

theorem meets_rotate_beside (h : Beside path node s) (hfiles : 1 ≤ s.sink.maxFiles) :
    Meets rotate (fun _ => Beside path node) (Beside path node) s := by
  refine (lockRule path s.sink.maxFiles node).meets_rotate hfiles h.path_eq rfl ?_ ?_
  · have htaken : Beside path node (takeFile s) := ⟨h.path_eq, h.node_eq⟩
    cases s.sink.file with
    | none => exact (meets_pure _).mpr htaken
    | some buffered =>
        unfold flushOld flushTaken
        exact meets_operation (fun _ => ⟨htaken.reach _, fun _ _ => htaken.reach _⟩)
          (fun _ _ => htaken.reach _)
  · intro next old hmoved _ _
    exact ⟨hmoved.path_eq, hmoved.node_eq⟩

theorem meets_appendLine_beside (h : Beside path node s) (line : List UInt8) :
    Meets (appendLine line) (fun _ => Beside path node) (Beside path node) s := by
  have htransfer : ∀ {s}, Beside path node s → ∀ pending reached,
      Beside path node (s.transfer pending reached) := by
    intro s h pending reached
    exact ⟨(h.reach (pending.take reached)).path_eq, (h.reach (pending.take reached)).node_eq⟩
  unfold appendLine
  refine meets_bind (meets_state.mpr ?_)
  cases s.sink.file with
  | none => exact (meets_throw _).mpr h
  | some buffered =>
      refine meets_bind (meets_operation (fun reached => ⟨htransfer h _ _, fun _ _ => ?_⟩)
        (fun _ _ => htransfer h _ _))
      have hwritten := htransfer h (s.buffered ++ line) reached
      refine meets_bind (meets_operation (fun _ => ?_) (fun _ _ => htransfer hwritten _ _))
      have hflushed := hwritten.reach (s.transfer (s.buffered ++ line) reached).buffered
      refine ⟨⟨hflushed.path_eq, hflushed.node_eq⟩, fun _ _ => (meets_update _).mpr ?_⟩
      exact ⟨hflushed.path_eq, hflushed.node_eq⟩

theorem meets_write_beside (h : Beside path node s) (hfiles : 1 ≤ s.sink.maxFiles)
    (line : List UInt8) :
    Meets (FileSink.write line) (fun _ => Beside path node) (Beside path node) s := by
  unfold FileSink.write rotateIfFull
  refine meets_bind (meets_state.mpr (meets_bind (meets_ensureIo _ h fun _ => ?_)))
  refine meets_bind (meets_bind (meets_state.mpr ?_))
  dsimp only
  split_ifs
  · refine meets_mono (meets_rotate_beside h hfiles) ?_ (fun _ hs => hs)
    exact fun _ next hnext => meets_appendLine_beside hnext line
  · exact (meets_pure _).mpr (meets_appendLine_beside h line)

theorem meets_openSink_beside (h : Beside path node s) (maxBytes maxFiles : Nat) :
    Meets (openSink path maxBytes maxFiles) (fun _ => Beside path node) (Beside path node) s := by
  unfold openSink
  refine meets_bind (meets_openLog path h h.created fun old _ _ => (meets_update _).mpr ?_)
  exact ⟨rfl, h.created.node_eq⟩

end Beside

end Minotaur
