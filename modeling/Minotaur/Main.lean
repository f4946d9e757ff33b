import Minotaur.Server

/-!
The process from the moment `main::run` has spawned the server and the writer:
the select of `run`, its two timed waits, the supervisor of `BoundServer::run`
with its workers, and the loops, sessions and writer below them. A task that
panics or is aborted crashes; a crash is a step that is possible at any time.
What `metrics::serve` does with its connections is not looked at here, only how
it ends. The grace periods are steps too, so they may expire at any time.
-/

namespace Minotaur

/-- `metrics::serve`. -/
inductive ManagementPhase where
  | Running
  | Draining (failure : Option RunError)
  | Returned (result : Except RunError Unit)
  | Crashed

/-- The task that evicts idle addresses. -/
inductive MaintenancePhase where
  | Running
  | Returned
  | Crashed
deriving DecidableEq, Repr

inductive Worker where
  | endpoint (index : Nat)
  | management
  | maintenance
deriving DecidableEq, Repr

/-- Where `BoundServer::run` is. -/
inductive SupervisorPhase where
  /-- Spawns its workers. -/
  | Starting
  /-- Polls the token next. -/
  | Selecting
  /-- Polls `join_next` next. -/
  | Joining
  | Draining (failure : Option RunError)
  | Returned (result : Except RunError Unit)
  | Crashed
deriving DecidableEq

/-- Where `main::run` is. -/
inductive MainPhase where
  | Selecting
  | FinishingServer (outcome : Except RunError Unit) (loggerFinished : Bool)
  /-- Its `AppState` is dropped. -/
  | FinishingLogger (outcome : Except RunError Unit)
  | Returned (outcome : Except RunError Unit)
deriving DecidableEq

structure SensorState where
  server : ServerState
  management : Option ManagementPhase
  maintenance : MaintenancePhase
  supervisor : SupervisorPhase
  joined : List Worker
  writerCrashed : Bool
  main : MainPhase

inductive ManagementLabel where
  | stop
  | fail
  | taskFailed
  | finish
  | crash
deriving DecidableEq, Repr

inductive SupervisorLabel where
  | start
  | startFailed
  | pollShutdown
  | join (worker : Worker)
  | joinPending
  | finish
  | crash
deriving DecidableEq, Repr

inductive MainLabel where
  | signal (result : Except RunError Unit)
  | serverDone
  | loggerDone
  | graceExpired

inductive SensorLabel where
  | server (label : ServerLabel)
  | management (label : ManagementLabel)
  | stopMaintenance
  | crashMaintenance
  | crashWriter
  | supervisor (label : SupervisorLabel)
  /-- The last `Arc<AppState>` goes away, and the sender in it. -/
  | dropState
  | main (label : MainLabel)

/-- No session task panics. -/
def SensorLabel.noPanic : SensorLabel → Bool
  | .server (.session _ .panic) => false
  | _ => true

/-- `merge` keeps the first error. -/
def merge (outcome next : Except RunError Unit) : Except RunError Unit :=
  match outcome with
  | .ok _ => next
  | .error error => .error error

def errorOf : Except RunError Unit → Option RunError
  | .ok _ => none
  | .error error => some error

def SupervisorPhase.over : SupervisorPhase → Bool
  | .Returned _ | .Crashed => true
  | _ => false

def LoopPhase.result : LoopPhase → Option (Except RunError Unit)
  | .Returned result => some result
  | .Crashed => some (.error .WorkerPanicked)
  | _ => none

def ManagementPhase.result : ManagementPhase → Option (Except RunError Unit)
  | .Returned result => some result
  | .Crashed => some (.error .WorkerPanicked)
  | _ => none

def MaintenancePhase.result : MaintenancePhase → Option (Except RunError Unit)
  | .Returned => some (.ok ())
  | .Crashed => some (.error .WorkerPanicked)
  | .Running => none

/-- `handle_session` has returned or unwound, so it holds no `Arc<AppState>`. -/
def SessionPhase.left : SessionPhase → Bool
  | .Released | .Ended | .Unwound => true
  | _ => false

def MainPhase.holdsState : MainPhase → Bool
  | .Selecting | .FinishingServer _ _ => true
  | _ => false

namespace SensorState

variable (canonicalReason : UInt16 → Option String) (state : SensorState)

def cancel : SensorState := { state with server := { state.server with shutdown := true } }

def setReady (ready : Nat) : SensorState :=
  { state with server := { state.server with
      logger := { state.server.logger with
        metrics := { state.server.logger.metrics with ready := ready } } } }

/-! ### Workers -/

def workers : List Worker :=
  (List.range state.server.loops.length).map .endpoint ++
    (if state.management.isSome then [.management] else []) ++ [.maintenance]

/-- What `join_next` says of a worker that is complete. -/
def result : Worker → Option (Except RunError Unit)
  | .endpoint index => state.server.loops[index]?.bind (·.phase.result)
  | .management => state.management.bind ManagementPhase.result
  | .maintenance => state.maintenance.result

def managementStep (phase : ManagementPhase) : ManagementLabel → Option SensorState
  | .stop =>
      match phase with
      | .Running =>
          if state.server.shutdown then
            some { state with management := some (.Draining none) }
          else none
      | _ => none
  | .fail =>
      match phase with
      | .Running =>
          some { state with management := some (.Draining (some .ManagementFailed)) }.cancel
      | _ => none
  | .taskFailed =>
      match phase with
      | .Draining failure =>
          some { state with
            management := some (.Draining (failure.or (some .ManagementFailed))) }
      | _ => none
  | .finish =>
      match phase with
      | .Draining failure =>
          some { state with management := some (.Returned (ServerState.outcome failure)) }
      | _ => none
  | .crash =>
      match phase with
      | .Returned _ | .Crashed => none
      | _ => some { state with management := some .Crashed }

/-! ### The supervisor -/

/-- Both branches of its select end the same way. -/
def supervisorStops (failure : Option RunError) : SensorState :=
  ({ state with supervisor := .Draining failure }.setReady 0).cancel

/-- `workers.join_next()` returns this worker. -/
def joinable (worker : Worker) : Option (Except RunError Unit) :=
  if worker ∈ state.workers ∧ worker ∉ state.joined then state.result worker else none

def supervisorStep : SupervisorLabel → Option SensorState
  | .start =>
      match state.supervisor with
      | .Starting =>
          let started := { state with supervisor := .Selecting }
          some (if state.server.shutdown then started else started.setReady 1)
      | _ => none
  | .startFailed =>
      match state.supervisor with
      | .Starting => some { state with supervisor := .Returned (.error .StartFailed) }
      | _ => none
  | .pollShutdown =>
      match state.supervisor with
      | .Selecting =>
          some (if state.server.shutdown then state.supervisorStops none
            else { state with supervisor := .Joining })
      | _ => none
  | .join worker =>
      match state.supervisor with
      | .Joining =>
          (state.joinable worker).map fun result =>
            { state with joined := worker :: state.joined }.supervisorStops
              (some ((errorOf result).getD .WorkerStopped))
      | .Draining failure =>
          (state.joinable worker).map fun result =>
            { state with
              joined := worker :: state.joined
              supervisor := .Draining (failure.or (errorOf result)) }
      | _ => none
  | .joinPending =>
      match state.supervisor with
      | .Joining => some { state with supervisor := .Selecting }
      | _ => none
  | .finish =>
      match state.supervisor with
      | .Draining failure =>
          if state.workers.all (· ∈ state.joined) then
            some { state with supervisor := .Returned (ServerState.outcome failure) }
          else none
      | _ => none
  | .crash =>
      if state.supervisor.over then none else some { state with supervisor := .Crashed }

/-! ### `main::run` -/

/-- `joined(result, "server")`, once the task is complete. -/
def serverResult : Option (Except RunError Unit) :=
  match state.supervisor with
  | .Returned result => some result
  | .Crashed => some (.error .ServerPanicked)
  | _ => none

/-- `joined(result, "logger")`, once the task is complete. -/
def loggerResult : Option (Except RunError Unit) :=
  if state.writerCrashed then some (.error .LoggerPanicked)
  else match state.server.logger.writer with
    | .Returned true => some (.ok ())
    | .Returned false => some (.error .LoggerFailed)
    | _ => none

/-- The writer is gone, and its receiver with everything in it. -/
def crashWriter : SensorState :=
  { state with
    writerCrashed := true
    server := { state.server with
      logger := { state.server.logger with
        channel := state.server.logger.channel.dropReceiver } } }

/-- After the select: everybody is told to stop. -/
def mainStops (main : MainPhase) : SensorState := ({ state with main := main }.cancel).setReady 0

/-- The server is over: drops the state and turns to the logger. -/
def afterServer (outcome : Except RunError Unit) (loggerFinished : Bool) : SensorState :=
  { state with main := if loggerFinished then .Returned outcome else .FinishingLogger outcome }

def mainStep : MainLabel → Option SensorState
  | .signal result =>
      match state.main with
      | .Selecting => some (state.mainStops (.FinishingServer result false))
      | _ => none
  | .serverDone =>
      match state.main with
      | .Selecting =>
          state.serverResult.map fun result => state.mainStops (.FinishingLogger result)
      | .FinishingServer outcome loggerFinished =>
          state.serverResult.map fun result =>
            state.afterServer (merge outcome result) loggerFinished
      | _ => none
  | .loggerDone =>
      match state.main with
      | .Selecting =>
          state.loggerResult.map fun result =>
            state.mainStops
              (.FinishingServer (.error ((errorOf result).getD .ProducersAlive)) true)
      | .FinishingLogger outcome =>
          state.loggerResult.map fun result =>
            { state with main := .Returned (merge outcome result) }
      | _ => none
  | .graceExpired =>
      match state.main with
      | .FinishingServer outcome loggerFinished =>
          -- Aborts the task unless it has just completed; its result is not looked at.
          let aborted := if state.supervisor.over then state
            else { state with supervisor := .Crashed }
          some (aborted.afterServer (merge outcome (.error .GraceExceeded)) loggerFinished)
      | .FinishingLogger outcome =>
          let aborted := if state.loggerResult.isSome then state else state.crashWriter
          some { aborted with main := .Returned (merge outcome (.error .GraceExceeded)) }
      | _ => none

/-- Nobody holds the `AppState` any more. -/
def unheld : Bool :=
  !state.main.holdsState && state.supervisor.over &&
    state.server.loops.all (·.phase.over) && state.server.sessions.all (·.phase.left)

/-- The steps of the server that are possible in the process: nobody else holds
the token, a crashed writer takes no step, and ticks end with their task. -/
def serverAllows : ServerLabel → Bool
  | .cancel => false
  | .evict _ => state.maintenance = .Running
  | .writer _ => !state.writerCrashed
  | .endpoint _ _ | .session _ _ => true

def step : SensorLabel → Option SensorState
  | .server label =>
      if state.serverAllows label then
        (state.server.step canonicalReason label).map fun server => { state with server := server }
      else none
  | .management label => state.management.bind fun phase => state.managementStep phase label
  | .stopMaintenance =>
      if state.maintenance = .Running ∧ state.server.shutdown = true then
        some { state with maintenance := .Returned }
      else none
  | .crashMaintenance =>
      if state.maintenance = .Running then some { state with maintenance := .Crashed } else none
  | .crashWriter => if state.loggerResult.isSome then none else some state.crashWriter
  | .supervisor label => state.supervisorStep label
  | .dropState =>
      if state.unheld then
        (state.server.logger.step .dropSender).map fun logger =>
          { state with server := { state.server with logger := logger } }
      else none
  | .main label => state.mainStep label

end SensorState

/-- `main::run` once both tasks are spawned. -/
def SensorState.new (config : Config) (endpoints : List EndpointConfig) : SensorState where
  server := .new config endpoints
  management := if config.metrics.enabled then some .Running else none
  maintenance := .Running
  supervisor := .Starting
  joined := []
  writerCrashed := false
  main := .Selecting

end Minotaur
