import Minotaur.Base.Ledger
import Minotaur.Connection
import Minotaur.Logger.Queue
import Minotaur.RateLimit

/-!
Any number of endpoint loops over one `AppState`, and the sessions they spawn.
A label is one atomic step of some task: a poll of one branch of the biased
select, one critical section of the limiter, one operation on the semaphore or
the token, one call of `Logger::log`. What a session does between two of its
awaits to counters nobody waits for is one step. Tasks of other threads come
in between any two steps.

A session is its connection and where its task is; the connection also knows
how the session ends, so a record is a function of it. `accepted`, `settled`
and `logged` are not in the program. They are the history the counters are
compared with.
-/

namespace Minotaur

open Net

/-! ### Metrics -/

/-- The counters and the gauge of the sessions, by their labels. -/
@[ext] structure ServerMetrics where
  connectionsTotal : Counters Protocol := 0
  rejectedTotal : Counters (Protocol × String) := 0
  activeSessions : Int := 0
  bytesReceivedTotal : Counters Protocol := 0
  closedSessionsTotal : Counters (Protocol × CloseReason) := 0
  eventsTotal : Counters (Protocol × String) := 0

namespace ServerMetrics

def reject (metrics : ServerMetrics) (endpoint : EndpointConfig) (reason : String) :
    ServerMetrics :=
  { metrics with rejectedTotal := metrics.rejectedTotal.inc (endpoint.protocol, reason) }

/-- What a session counts when it starts: itself, and its `ActiveGuard`. -/
def start (metrics : ServerMetrics) (endpoint : EndpointConfig) : ServerMetrics :=
  { metrics with
    connectionsTotal := metrics.connectionsTotal.inc endpoint.protocol
    activeSessions := metrics.activeSessions + 1 }

/-- What a session counts when it is over. -/
def settle (metrics : ServerMetrics) (endpoint : EndpointConfig) (record : SessionRecord) :
    ServerMetrics :=
  { metrics with
    bytesReceivedTotal :=
      metrics.bytesReceivedTotal.incBy endpoint.protocol record.bytesReceived
    closedSessionsTotal :=
      metrics.closedSessionsTotal.inc (endpoint.protocol, record.closeReason)
    eventsTotal := record.events.foldl
      (fun counters event => counters.inc (endpoint.protocol, event.kind)) metrics.eventsTotal }

/-- `ActiveGuard::drop`. -/
def dropGuard (metrics : ServerMetrics) : ServerMetrics :=
  { metrics with activeSessions := metrics.activeSessions - 1 }

end ServerMetrics

/-! ### Tasks -/

structure Arrival where
  endpoint : EndpointConfig
  conn : Connection

inductive Fate where
  | Rejected (reason : String)
  | Spawned
deriving DecidableEq, Repr

structure Settled where
  arrival : Arrival
  fate : Fate

inductive SessionPhase where
  /-- Spawned with a permit, not polled yet. -/
  | Spawned
  /-- Inside the supervising select. -/
  | Active
  /-- The closing counters are updated. -/
  | Counted
  /-- `Logger::log` has returned. -/
  | Logged
  /-- `handle_session` has returned, and its guard is dropped. -/
  | Released
  /-- The task is complete, and its permit is free. -/
  | Ended
  /-- The task panicked or was aborted. -/
  | Unwound
deriving DecidableEq, Repr

/-- The owner is the loop whose `JoinSet` holds the task. -/
structure SessionTask where
  owner : Nat
  arrival : Arrival
  phase : SessionPhase
  joined : Bool

/-- The errors a task of the process can end with. -/
inductive RunError where
  | AcceptFailed
  | SessionPanicked
  | ManagementFailed
  | WorkerPanicked
  | WorkerStopped
  | StartFailed
  | ServerPanicked
  | LoggerFailed
  | LoggerPanicked
  | ProducersAlive
  | SignalFailed
  | GraceExceeded
deriving DecidableEq, Repr

inductive LoopPhase where
  /-- Polls the token next. -/
  | Selecting
  /-- Polls `join_next` next. -/
  | Joining
  /-- Polls the listener next. -/
  | Accepting
  /-- Looks at the ignored addresses next. -/
  | Accepted (arrival : Arrival)
  /-- Enters the limiter next. -/
  | Checking (arrival : Arrival)
  /-- Tries the semaphore next. -/
  | Acquiring (arrival : Arrival)
  /-- Holds a permit and spawns the session next. -/
  | Spawning (arrival : Arrival)
  /-- Has dropped the listener and waits for its sessions. -/
  | Draining (failure : Option RunError)
  | Returned (result : Except RunError Unit)
  /-- The task panicked or was aborted. -/
  | Crashed

structure EndpointLoop where
  endpoint : EndpointConfig
  phase : LoopPhase

structure ServerState where
  config : Config
  loops : List EndpointLoop
  sessions : List SessionTask
  rateLimiter : RateLimiter
  permits : Nat
  shutdown : Bool
  metrics : ServerMetrics
  logger : LoggerState SessionRecord
  accepted : List Arrival
  settled : List Settled
  logged : List SessionRecord

inductive LoopLabel where
  | pollShutdown
  | join (session : Nat)
  | joinPending
  | accept (conn : Connection)
  | acceptFailed
  | acceptPending
  | checkIgnored
  | checkLimiter (now : Nat)
  | acquire
  | spawn
  | finish
  | crash

inductive SessionLabel where
  | start
  | close
  | log
  | dropGuard
  | finish
  | panic
  | abort
deriving DecidableEq, Repr

inductive ServerLabel where
  /-- Somebody else cancels the token. -/
  | cancel
  /-- A tick of the maintenance task. -/
  | evict (now : Nat)
  | writer (label : LoggerLabel SessionRecord)
  | endpoint (index : Nat) (label : LoopLabel)
  | session (index : Nat) (label : SessionLabel)

/-- The step unwinds no task. -/
def LoopLabel.orderly : LoopLabel → Bool
  | .crash => false
  | _ => true

def SessionLabel.orderly : SessionLabel → Bool
  | .panic | .abort => false
  | _ => true

def ServerLabel.orderly : ServerLabel → Bool
  | .endpoint _ label => label.orderly
  | .session _ label => label.orderly
  | _ => true

/-! ### Sessions -/

/-- `join_next` can return the task. -/
def SessionPhase.finished : SessionPhase → Bool
  | .Ended | .Unwound => true
  | _ => false

def SessionPhase.holdsPermit : SessionPhase → Bool
  | .Ended | .Unwound => false
  | _ => true

def SessionPhase.holdsGuard : SessionPhase → Bool
  | .Active | .Counted | .Logged => true
  | _ => false

/-- The `JoinError` of a task. -/
def SessionPhase.failure : SessionPhase → Option RunError
  | .Unwound => some .SessionPanicked
  | _ => none

/-- The task is not running between two of its awaits. -/
def SessionPhase.awaits : SessionPhase → Bool
  | .Spawned | .Active => true
  | _ => false

@[simp] def LoopPhase.crashed : LoopPhase → Bool
  | .Crashed => true
  | _ => false

/-- The task is complete. -/
@[simp] def LoopPhase.over : LoopPhase → Bool
  | .Returned _ | .Crashed => true
  | _ => false

/-- The permits a loop holds. -/
@[simp] def LoopPhase.permits : LoopPhase → Nat
  | .Spawning _ => 1
  | _ => 0

section Sessions

variable (canonicalReason : UInt16 → Option String)

def Arrival.record (config : Config) (arrival : Arrival) : SessionRecord :=
  arrival.conn.record canonicalReason config arrival.endpoint

/-- The cancellation branch of the select wins only once the token is
cancelled. -/
def Arrival.mayClose (config : Config) (shutdown : Bool) (arrival : Arrival) : Bool :=
  match arrival.conn.run canonicalReason config arrival.endpoint with
  | .done _ _ => true
  | .dropped _ => shutdown || arrival.conn.interrupt != .Shutdown

end Sessions

namespace ServerState

variable (canonicalReason : UInt16 → Option String) (state : ServerState)

def setLoop (index : Nat) (endpoint : EndpointConfig) (phase : LoopPhase) : ServerState :=
  { state with loops := state.loops.set index ⟨endpoint, phase⟩ }

def setSession (index : Nat) (task : SessionTask) : ServerState :=
  { state with sessions := state.sessions.set index task }

@[simp] theorem loops_setLoop (index : Nat) (endpoint : EndpointConfig) (phase : LoopPhase) :
    (state.setLoop index endpoint phase).loops = state.loops.set index ⟨endpoint, phase⟩ := rfl

@[simp] theorem sessions_setSession (index : Nat) (task : SessionTask) :
    (state.setSession index task).sessions = state.sessions.set index task := rfl

/-- `state.logger.log(record)`. -/
def log (record : SessionRecord) : ServerState :=
  { state with logger := state.logger.offer record, logged := state.logged ++ [record] }

/-- Unwinding runs the destructors. -/
def unwind (index : Nat) (task : SessionTask) : ServerState :=
  { state with
    metrics := if task.phase.holdsGuard then state.metrics.dropGuard else state.metrics
    permits := state.permits + 1 }.setSession index { task with phase := .Unwound }

def sessionStep (index : Nat) (task : SessionTask) (label : SessionLabel) : Option ServerState :=
  let arrival := task.arrival
  let record := arrival.record canonicalReason state.config
  match label, task.phase with
  | .start, .Spawned =>
      some ({ state with metrics := state.metrics.start arrival.endpoint }.setSession index
        { task with phase := .Active })
  | .close, .Active =>
      if arrival.mayClose canonicalReason state.config state.shutdown then
        some ({ state with metrics := state.metrics.settle arrival.endpoint record }.setSession
          index { task with phase := .Counted })
      else none
  | .log, .Counted => some ((state.log record).setSession index { task with phase := .Logged })
  | .dropGuard, .Logged =>
      some ({ state with metrics := state.metrics.dropGuard }.setSession index
        { task with phase := .Released })
  | .finish, .Released =>
      some ({ state with permits := state.permits + 1 }.setSession index
        { task with phase := .Ended })
  | .panic, phase => if phase.finished then none else some (state.unwind index task)
  -- Only the tasks of a dropped `JoinSet` are aborted, and only at an await.
  | .abort, phase =>
      if phase.awaits && state.loops[task.owner]?.any (·.phase.crashed) then
        some (state.unwind index task)
      else none
  | _, _ => none

/-! ### Endpoint loops -/

def ignores (arrival : Arrival) : Bool :=
  (state.config.server.ignoreSourceIps.map canonicalIp).contains (canonicalIp arrival.conn.peer.ip)

/-- Leaves the loop with a failure and takes everybody else along. -/
def failed (index : Nat) (endpoint : EndpointConfig) (failure : RunError) : ServerState :=
  { state with shutdown := true }.setLoop index endpoint (.Draining (some failure))

def accept (index : Nat) (endpoint : EndpointConfig) (conn : Connection) : ServerState :=
  let arrival : Arrival := ⟨endpoint, conn⟩
  { state with accepted := state.accepted ++ [arrival] }.setLoop index endpoint
    (.Accepted arrival)

def reject (arrival : Arrival) (reason : String) : ServerState :=
  { state with
    metrics := state.metrics.reject arrival.endpoint reason
    settled := state.settled ++ [⟨arrival, .Rejected reason⟩] }

def spawn (owner : Nat) (arrival : Arrival) : ServerState :=
  { state with
    sessions := state.sessions ++ [⟨owner, arrival, .Spawned, false⟩]
    settled := state.settled ++ [⟨arrival, .Spawned⟩] }

/-- `sessions.join_next()` returns the task of this index. -/
def joinable (owner index : Nat) : Option SessionTask :=
  state.sessions[index]?.filter fun task =>
    task.owner = owner && !task.joined && task.phase.finished

/-- `match failure`, at the end of a worker. -/
def outcome : Option RunError → Except RunError Unit
  | some error => .error error
  | none => .ok ()

/-- The `JoinSet` of a loop is empty. -/
def drained (owner : Nat) : Bool :=
  state.sessions.all fun task => task.owner != owner || task.joined

def loopStep (index : Nat) (loop : EndpointLoop) (label : LoopLabel) : Option ServerState :=
  let endpoint := loop.endpoint
  match label, loop.phase with
  | .pollShutdown, .Selecting =>
      some (state.setLoop index endpoint (if state.shutdown then .Draining none else .Joining))
  | .join session, .Joining =>
      (state.joinable index session).map fun task =>
        let state := state.setSession session { task with joined := true }
        if task.phase = .Unwound then state.failed index endpoint .SessionPanicked
        else state.setLoop index endpoint .Selecting
  -- Also when the set is empty, or a poll misses a task that has just ended.
  | .joinPending, .Joining => some (state.setLoop index endpoint .Accepting)
  | .accept conn, .Accepting => some (state.accept index endpoint conn)
  | .acceptFailed, .Accepting => some (state.failed index endpoint .AcceptFailed)
  | .acceptPending, .Accepting => some (state.setLoop index endpoint .Selecting)
  | .checkIgnored, .Accepted arrival =>
      if state.ignores arrival then
        some ((state.reject arrival "ignored_ip").setLoop index endpoint .Selecting)
      else some (state.setLoop index endpoint (.Checking arrival))
  | .checkLimiter now, .Checking arrival =>
      let (decision, limiter) := state.rateLimiter.checkAt (canonicalIp arrival.conn.peer.ip) now
      let state := { state with rateLimiter := limiter }
      if decision ≠ .Allowed then
        some ((state.reject arrival decision.reason).setLoop index endpoint .Selecting)
      else some (state.setLoop index endpoint (.Acquiring arrival))
  | .acquire, .Acquiring arrival =>
      if state.permits = 0 then
        some ((state.reject arrival "max_sessions").setLoop index endpoint .Selecting)
      else
        some ({ state with permits := state.permits - 1 }.setLoop index endpoint
          (.Spawning arrival))
  | .spawn, .Spawning arrival =>
      some ((state.spawn index arrival).setLoop index endpoint .Selecting)
  | .join session, .Draining failure =>
      (state.joinable index session).map fun task =>
        (state.setSession session { task with joined := true }).setLoop index endpoint
          (.Draining (failure.or task.phase.failure))
  | .finish, .Draining failure =>
      if state.drained index then
        some (state.setLoop index endpoint (.Returned (outcome failure)))
      else none
  | .crash, phase =>
      if phase.over then none
      else
        some ({ state with permits := state.permits + phase.permits }.setLoop index endpoint
          .Crashed)
  | _, _ => none

/-- The steps of `run_writer`. -/
def writes : LoggerLabel SessionRecord → Bool
  | .recv | .written | .writeFailed | .report | .countLost => true
  | .clone | .dropSender | .log _ => false

def step : ServerLabel → Option ServerState
  | .cancel => some { state with shutdown := true }
  | .evict now => some { state with rateLimiter := state.rateLimiter.evictAt now }
  | .writer label =>
      if writes label then
        (state.logger.step label).map fun logger => { state with logger := logger }
      else none
  | .endpoint index label => state.loops[index]?.bind fun loop => state.loopStep index loop label
  | .session index label =>
      state.sessions[index]?.bind fun task => state.sessionStep canonicalReason index task label

end ServerState

/-- `AppState::new` and the loops `BoundServer::run` spawns on the bound
endpoints. -/
def ServerState.new (config : Config) (endpoints : List EndpointConfig) : ServerState where
  config := config
  loops := endpoints.map fun endpoint => ⟨endpoint, .Selecting⟩
  sessions := []
  rateLimiter := .new config.server.rateLimitPerIpPerMin config.server.maxTrackedIps
  permits := config.server.maxConcurrentSessions
  shutdown := false
  metrics := {}
  logger := .spawn SessionRecord config.logging.bufferSize
  accepted := []
  settled := []
  logged := []

end Minotaur
