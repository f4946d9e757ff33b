import Minotaur.Server

/-!
`metrics::serve`: the accept loop of the management endpoint and the handlers
it spawns. The token is shared with the rest of the process, so a step takes
its value and says what it is afterwards. What a handler answers is not looked
at here, only how it ends; its deadline may expire at any time.

`accepted` is not in the program. It counts the connections taken.
-/

namespace Minotaur

inductive HandlerPhase where
  /-- Spawned, not polled yet. -/
  | Spawned
  /-- Holds its `ActiveGuard`. -/
  | Active
  | Ended
  | Panicked
deriving DecidableEq, Repr

structure HandlerTask where
  phase : HandlerPhase
  joined : Bool
deriving DecidableEq, Repr

inductive ServePhase where
  /-- Polls the token next. -/
  | Selecting
  /-- Polls `join_next` next. -/
  | Joining
  /-- Polls the listener next. -/
  | Accepting
  /-- Looks at the size of its `JoinSet` next. -/
  | Accepted
  /-- Has dropped the listener and waits for its handlers. -/
  | Draining (failure : Option RunError)
  | Returned (result : Except RunError Unit)
  /-- The task panicked or was aborted. -/
  | Crashed

structure ManagementMetrics where
  metricsRejectedTotal : Nat := 0
  metricsActiveConnections : Int := 0

structure ServeState where
  config : MetricsConfig
  phase : ServePhase
  tasks : List HandlerTask
  metrics : ManagementMetrics
  accepted : Nat

/-- How the select of a handler ends. -/
inductive HandlerEnd where
  | Cancelled
  | Closed
  | DeadlineExceeded
deriving DecidableEq, Repr

inductive ServeLabel where
  | pollShutdown
  | join (task : Nat)
  | joinPending
  | accept
  | acceptFailed
  | acceptPending
  | place
  | finish
  | crash
  | startTask (task : Nat)
  | endTask (task : Nat) (reason : HandlerEnd)
  | panicTask (task : Nat)
  | abortTask (task : Nat)
deriving DecidableEq, Repr

/-- `join_next` can return the task. -/
def HandlerPhase.finished : HandlerPhase → Bool
  | .Ended | .Panicked => true
  | .Spawned | .Active => false

/-- The `JoinError` of a task. -/
def HandlerPhase.failure : HandlerPhase → Option RunError
  | .Panicked => some .ManagementFailed
  | _ => none

@[simp] def ServePhase.over : ServePhase → Bool
  | .Returned _ | .Crashed => true
  | _ => false

/-- `serve` has failed or is bound to. -/
@[simp] def ServePhase.failing : ServePhase → Bool
  | .Draining (some _) | .Returned (.error _) | .Crashed => true
  | _ => false

/-- `serve` has left its select. -/
@[simp] def ServePhase.leaving : ServePhase → Bool
  | .Draining _ | .Returned _ => true
  | _ => false

namespace ServeState

variable (state : ServeState)

def setPhase (phase : ServePhase) : ServeState := { state with phase := phase }

def setTask (index : Nat) (task : HandlerTask) : ServeState :=
  { state with tasks := state.tasks.set index task }

@[simp] theorem phase_setPhase (phase : ServePhase) : (state.setPhase phase).phase = phase := rfl

@[simp] theorem tasks_setPhase (phase : ServePhase) :
    (state.setPhase phase).tasks = state.tasks := rfl

@[simp] theorem phase_setTask (index : Nat) (task : HandlerTask) :
    (state.setTask index task).phase = state.phase := rfl

@[simp] theorem tasks_setTask (index : Nat) (task : HandlerTask) :
    (state.setTask index task).tasks = state.tasks.set index task := rfl

/-- `tasks.len()`, which also counts the tasks that are finished. -/
def len : Nat := state.tasks.countP (!·.joined)

/-- `tasks.join_next()` returns the task of this index. -/
def joinable (index : Nat) : Option HandlerTask :=
  state.tasks[index]?.filter fun task => !task.joined && task.phase.finished

def drained : Bool := state.tasks.all (·.joined)

def reject : ServeState :=
  { state with metrics := { state.metrics with
      metricsRejectedTotal := state.metrics.metricsRejectedTotal + 1 } }

def spawn : ServeState := { state with tasks := state.tasks ++ [⟨.Spawned, false⟩] }

/-- The `ActiveGuard` of a handler. -/
def addActive (count : Int) : ServeState :=
  { state with metrics := { state.metrics with
      metricsActiveConnections := state.metrics.metricsActiveConnections + count } }

/-- The handler of this index is over; a guard it holds is dropped. -/
def endTask (index : Nat) (task : HandlerTask) (phase : HandlerPhase) : ServeState :=
  (if task.phase = .Active then state.addActive (-1) else state).setTask index
    { task with phase := phase }

/-- The steps of `serve`, with the token before and after. -/
def loopStep (shutdown : Bool) (label : ServeLabel) : Option (ServeState × Bool) :=
  match label, state.phase with
  | .pollShutdown, .Selecting =>
      some (state.setPhase (if shutdown then .Draining none else .Joining), shutdown)
  | .join index, .Joining =>
      (state.joinable index).map fun task =>
        let state := state.setTask index { task with joined := true }
        if task.phase = .Panicked then
          (state.setPhase (.Draining (some .ManagementFailed)), true)
        else (state.setPhase .Selecting, shutdown)
  -- Also when the set is empty, or a poll misses a task that has just ended.
  | .joinPending, .Joining => some (state.setPhase .Accepting, shutdown)
  | .accept, .Accepting =>
      some ({ state with accepted := state.accepted + 1 }.setPhase .Accepted, shutdown)
  | .acceptFailed, .Accepting => some (state.setPhase (.Draining (some .ManagementFailed)), true)
  | .acceptPending, .Accepting => some (state.setPhase .Selecting, shutdown)
  | .place, .Accepted =>
      if state.config.maxConnections ≤ state.len then
        some (state.reject.setPhase .Selecting, shutdown)
      else some (state.spawn.setPhase .Selecting, shutdown)
  | .join index, .Draining failure =>
      (state.joinable index).map fun task =>
        ((state.setTask index { task with joined := true }).setPhase
          (.Draining (failure.or task.phase.failure)), shutdown)
  | .finish, .Draining failure =>
      if state.drained then
        some (state.setPhase (.Returned (ServerState.outcome failure)), shutdown)
      else none
  | .crash, phase => if phase.over then none else some (state.setPhase .Crashed, shutdown)
  | _, _ => none

/-- The steps of one handler. -/
def taskStep (shutdown : Bool) (index : Nat) (task : HandlerTask) (label : ServeLabel) :
    Option ServeState :=
  match label, task.phase with
  | .startTask _, .Spawned =>
      some ((state.addActive 1).setTask index { task with phase := .Active })
  | .endTask _ reason, .Active =>
      if reason = .Cancelled ∧ shutdown = false then none
      else some (state.endTask index task .Ended)
  | .panicTask _, phase =>
      if phase.finished then none else some (state.endTask index task .Panicked)
  -- Only the tasks of a dropped `JoinSet` are aborted.
  | .abortTask _, phase =>
      if phase.finished then none
      else match state.phase with
        | .Crashed => some (state.endTask index task .Panicked)
        | _ => none
  | _, _ => none

def step (shutdown : Bool) (label : ServeLabel) : Option (ServeState × Bool) :=
  match label with
  | .startTask index | .endTask index _ | .panicTask index | .abortTask index =>
      state.tasks[index]?.bind fun task =>
        (state.taskStep shutdown index task label).map fun state => (state, shutdown)
  | _ => state.loopStep shutdown label

end ServeState

/-- `metrics::serve` on its bound listener. -/
def ServeState.new (config : MetricsConfig) : ServeState := ⟨config, .Selecting, [], {}, 0⟩

end Minotaur
