import Minotaur.Connection.Secrecy
import Minotaur.Main.Delivery
import Minotaur.Main.Failures
import Minotaur.Server.Disguise
import Minotaur.Server.Mapped

/-!
Metadata mode keeps secrets in the whole process. Two sets of clients that
behave alike, and whose inputs differ only in what the decoys keep secret, can
lead the process along the same run; and then not only the records are the
same but everything that leaves the process or decides about others: the log
files and standard output, byte by byte, the counters, the limiter, the queue
and the outcome.
-/

namespace Minotaur

open Net
open Interruptible (Verdict)

/-! ### Clients -/

/-- A client that behaves like another one, to whom the sensor gave the same
identifier at the same times. -/
structure SameConnection (left right : Connection) : Prop extends SameVisit left right where
  id : left.id = right.id
  startedAt : left.startedAt = right.startedAt
  finishedAt : left.finishedAt = right.finishedAt
  ts : left.ts = right.ts

/-- The other client kept different secrets only. -/
def SameButSecretsAt (config : Config) (ep : EndpointConfig) (left right : Connection) : Prop :=
  SameConnection left right ∧
    SameButSecrets config.privacy ep.protocol left.wire.incoming right.wire.incoming

section Clients

variable (canonicalReason : UInt16 → Option String) {config : Config} {ep : EndpointConfig}

theorem SessionState.eq_of_unlabelled {self other : SessionState}
    (h : self.unlabelled = other.unlabelled) (hid : self.id = other.id)
    (hstarted : self.startedAt = other.startedAt) (hts : self.ts = other.ts) : self = other := by
  cases self
  cases other
  simp_all [SessionState.unlabelled]

/-- A session keeps the identifier and the times it was opened with. -/
theorem Connection.labels_run (hcfg : config.Accepted) (conn : Connection) :
    (conn.run canonicalReason config ep).world.session.id = conn.id ∧
      (conn.run canonicalReason config ep).world.session.startedAt = conn.startedAt ∧
      (conn.run canonicalReason config ep).world.session.ts = conn.ts := by
  obtain ⟨received, pushed, hprogress, hcount, _⟩ :=
    @Connection.recorded canonicalReason conn config ep hcfg
  have hroom : pushed.length ≤ maxEvents := hcount.trans (by decide)
  rw [hprogress.session, SessionState.capture_eq hprogress.fresh received hroom]
  exact ⟨rfl, rfl, rfl⟩

theorem SameButSecretsAt.run_cases {left right : Connection} (hcfg : config.Accepted)
    (hmode : config.privacy.mode = .Metadata) (h : SameButSecretsAt config ep left right) :
    (∃ reason world world', left.run canonicalReason config ep = .done reason world ∧
        right.run canonicalReason config ep = .done reason world' ∧
        world.session = world'.session) ∨
      ∃ world world', left.run canonicalReason config ep = .dropped world ∧
        right.run canonicalReason config ep = .dropped world' ∧ world.session = world'.session := by
  obtain ⟨hsame, hinput⟩ := h
  have hrun := together_run canonicalReason hmode hsame.toSameVisit hinput
  have hleft := @Connection.labels_run canonicalReason config ep hcfg left
  have hright := @Connection.labels_run canonicalReason config ep hcfg right
  have hsession : ∀ world world' : SessionWorld, Alike world world' →
      world = (left.run canonicalReason config ep).world →
      world' = (right.run canonicalReason config ep).world → world.session = world'.session := by
    rintro _ _ halike rfl rfl
    apply SessionState.eq_of_unlabelled halike.session
    · rw [hleft.1, hright.1, hsame.id]
    · rw [hleft.2.1, hright.2.1, hsame.startedAt]
    · rw [hleft.2.2, hright.2.2, hsame.ts]
  have hrunLeft : supervised canonicalReason ep (left.world config ep) =
      left.run canonicalReason config ep := rfl
  have hrunRight : supervised canonicalReason ep (right.world config ep) =
      right.run canonicalReason config ep := rfl
  unfold Future.Together at hrun
  rw [hrunLeft, hrunRight] at hrun
  cases hends : left.run canonicalReason config ep with
  | done reason world =>
      cases hends' : right.run canonicalReason config ep with
      | done reason' world' =>
          rw [hends, hends'] at hrun
          obtain ⟨rfl, halike⟩ := hrun
          exact Or.inl ⟨reason, world, world', rfl, rfl,
            hsession _ _ halike (by rw [hends]; rfl) (by rw [hends']; rfl)⟩
      | dropped world' =>
          rw [hends, hends'] at hrun
          exact hrun.elim
  | dropped world =>
      cases hends' : right.run canonicalReason config ep with
      | done reason' world' =>
          rw [hends, hends'] at hrun
          exact hrun.elim
      | dropped world' =>
          rw [hends, hends'] at hrun
          exact Or.inr ⟨world, world', rfl, rfl,
            hsession _ _ hrun (by rw [hends]; rfl) (by rw [hends']; rfl)⟩

end Clients

/-! ### Typical clients -/

section Typical

variable (canonicalReason : UInt16 → Option String) (config : Config)

/-- All the server asks of a connection. -/
def Arrival.answers (arrival : Arrival) : EndpointConfig × SocketAddr × SessionRecord × Bool :=
  (arrival.endpoint, arrival.conn.peer, arrival.record canonicalReason config,
    arrival.mayClose canonicalReason config false)

variable {config} in
/-- The server cannot tell clients apart that differ in their secrets. -/
theorem SameButSecretsAt.answers_eq {ep : EndpointConfig} {left right : Connection}
    (hcfg : config.Accepted) (hmode : config.privacy.mode = .Metadata)
    (h : SameButSecretsAt config ep left right) :
    Arrival.answers canonicalReason config ⟨ep, left⟩ =
      Arrival.answers canonicalReason config ⟨ep, right⟩ := by
  have hinterrupt := h.1.interrupt
  have hfinished := h.1.finishedAt
  have hpeer := h.1.peer
  unfold Arrival.answers Arrival.record Arrival.mayClose Connection.record Connection.reason
  obtain ⟨reason, world, world', hleft, hright, hsession⟩ | ⟨world, world', hleft, hright, hsession⟩ :=
    h.run_cases canonicalReason hcfg hmode
  · simp only [hleft, hright, Outcome.world, hsession, hfinished, hpeer]
  · simp only [hleft, hright, Outcome.world, hsession, hfinished, hpeer, hinterrupt]

instance : Nonempty Arrival := ⟨⟨decoy .Raw, client "" none⟩⟩

/-- One arrival for all that give the same answers. -/
noncomputable def Arrival.typical (arrival : Arrival) : Arrival :=
  Function.invFun (Arrival.answers canonicalReason config)
    (arrival.answers canonicalReason config)

theorem Arrival.answers_typical (arrival : Arrival) :
    (arrival.typical canonicalReason config).answers canonicalReason config =
      arrival.answers canonicalReason config :=
  Function.invFun_eq ⟨arrival, rfl⟩

theorem Arrival.endpoint_typical (arrival : Arrival) :
    (arrival.typical canonicalReason config).endpoint = arrival.endpoint :=
  congrArg Prod.fst (arrival.answers_typical canonicalReason config)

/-- Everybody comes as the typical client with his answers. -/
noncomputable def Disguise.typical : Disguise canonicalReason config where
  conn ep conn := (Arrival.typical canonicalReason config ⟨ep, conn⟩).conn
  peer ep conn :=
    congrArg (fun answers => answers.2.1) (Arrival.answers_typical canonicalReason config ⟨ep, conn⟩)
  record ep conn := by
    have hendpoint := Arrival.endpoint_typical canonicalReason config ⟨ep, conn⟩
    have hrecord := congrArg (fun answers => answers.2.2.1)
      (Arrival.answers_typical canonicalReason config ⟨ep, conn⟩)
    unfold Arrival.answers Arrival.record at hrecord
    dsimp only at hrecord
    rwa [hendpoint] at hrecord
  mayClose ep conn shutdown := by
    have hendpoint := Arrival.endpoint_typical canonicalReason config ⟨ep, conn⟩
    have hclose := congrArg (fun answers => answers.2.2.2)
      (Arrival.answers_typical canonicalReason config ⟨ep, conn⟩)
    unfold Arrival.answers Arrival.mayClose at hclose
    dsimp only at hclose hendpoint
    rw [hendpoint] at hclose
    unfold Arrival.mayClose
    dsimp only
    cases shutdown with
    | false => exact hclose
    | true =>
        cases Connection.run canonicalReason
            (Arrival.typical canonicalReason config ⟨ep, conn⟩).conn config ep <;>
          cases conn.run canonicalReason config ep <;> rfl

end Typical

/-! ### The process under a disguise -/

namespace Disguise

variable {canonicalReason : UInt16 → Option String} {config : Config}
  {endpoints : List EndpointConfig} (d : Disguise canonicalReason config)

def sensorLabel (endpoints : List EndpointConfig) : SensorLabel → SensorLabel
  | .server label => .server (d.label endpoints label)
  | label => label

def sensor (state : SensorState) : SensorState := { state with server := d.server state.server }

variable (state : SensorState)

theorem workers_sensor : (d.sensor state).workers = state.workers :=
  SensorState.workers_congr (List.length_map _) rfl

theorem result_sensor (worker : Worker) : (d.sensor state).result worker = state.result worker := by
  cases worker with
  | endpoint index =>
      change (state.server.loops.map d.loop)[index]?.bind _ = _
      rw [List.getElem?_map, Option.bind_map]
      congr 1
      funext loop
      obtain ⟨endpoint, phase⟩ := loop
      cases phase <;> rfl
  | management | maintenance => rfl

theorem joinable_sensor (worker : Worker) :
    (d.sensor state).joinable worker = state.joinable worker := by
  unfold SensorState.joinable
  rw [d.workers_sensor, d.result_sensor]
  rfl

theorem supervisorStep_sensor (label : SupervisorLabel) :
    (d.sensor state).supervisorStep label = (state.supervisorStep label).map d.sensor := by
  have hjoinable := d.joinable_sensor state
  have hworkers := d.workers_sensor state
  obtain ⟨server, management, maintenance, supervisor, joined, writerCrashed, main⟩ := state
  cases label with
  | start | pollShutdown =>
      cases supervisor with
      | Starting | Selecting =>
          cases hshutdown : server.shutdown <;>
            simp [SensorState.supervisorStep, sensor, hshutdown] <;> rfl
      | _ => rfl
  | startFailed | joinPending | crash => cases supervisor <;> rfl
  | join worker =>
      cases supervisor with
      | Joining | Draining =>
          simp only [SensorState.supervisorStep, hjoinable, Option.map_map]
          rfl
      | _ => rfl
  | finish =>
      cases supervisor with
      | Draining failure =>
          simp only [SensorState.supervisorStep, hworkers, apply_ite (Option.map d.sensor)]
          rfl
      | _ => rfl

theorem managementStep_sensor (phase : ManagementPhase) (label : ManagementLabel) :
    (d.sensor state).managementStep phase label = (state.managementStep phase label).map d.sensor := by
  cases label with
  | stop =>
      cases phase with
      | Running =>
          simp only [SensorState.managementStep, apply_ite (Option.map d.sensor)]
          rfl
      | _ => rfl
  | fail | taskFailed | finish | crash => cases phase <;> rfl

theorem mainStep_sensor (label : MainLabel) :
    (d.sensor state).mainStep label = (state.mainStep label).map d.sensor := by
  have hserver : (d.sensor state).serverResult = state.serverResult := rfl
  have hlogger : (d.sensor state).loggerResult = state.loggerResult := rfl
  have hmain : (d.sensor state).main = state.main := rfl
  cases label with
  | signal result =>
      simp only [SensorState.mainStep, hmain]
      cases state.main <;> rfl
  | serverDone =>
      simp only [SensorState.mainStep, hmain, hserver]
      cases state.main <;> simp only [Option.map_map, Option.map_none] <;> rfl
  | loggerDone =>
      simp only [SensorState.mainStep, hmain, hlogger]
      cases state.main <;> simp only [Option.map_map, Option.map_none] <;> rfl
  | graceExpired =>
      simp only [SensorState.mainStep, hmain, hlogger]
      cases state.main with
      | FinishingServer outcome loggerFinished =>
          change some (SensorState.afterServer (if state.supervisor.over then _ else _) _ _) = _
          cases state.supervisor.over <;> rfl
      | FinishingLogger outcome =>
          simp only [Option.map_some]
          cases state.loggerResult <;> rfl
      | _ => rfl

theorem unheld_sensor : (d.sensor state).unheld = state.unheld := by
  unfold SensorState.unheld
  change (_ && _ && (state.server.loops.map d.loop).all _ &&
    (state.server.sessions.map d.task).all _) = _
  rw [List.all_map, List.all_map]
  congr 2
  congr 1
  funext loop
  exact d.over_loopPhase loop.phase

theorem step_sensor (h : state.server.StartedWith config endpoints) (label : SensorLabel) :
    (d.sensor state).step canonicalReason (d.sensorLabel endpoints label) =
      (state.step canonicalReason label).map d.sensor := by
  cases label with
  | server label =>
      have hallows : (d.sensor state).serverAllows (d.label endpoints label) =
          state.serverAllows label := by
        cases label <;> rfl
      simp only [SensorState.step, sensorLabel, hallows, apply_ite (Option.map d.sensor),
        Option.map_none, Option.map_map]
      change (if state.serverAllows label then ((d.server state.server).step _ _).map _ else _) = _
      rw [d.step_server h, Option.map_map]
      rfl
  | management label =>
      simp only [SensorState.step, sensorLabel, Option.map_bind]
      change state.management.bind _ = _
      congr 1
      funext phase
      exact d.managementStep_sensor state phase label
  | stopMaintenance | crashMaintenance | crashWriter =>
      simp only [SensorState.step, sensorLabel, apply_ite (Option.map d.sensor), Option.map_none,
        Option.map_some]
      rfl
  | supervisor label => exact d.supervisorStep_sensor state label
  | dropState =>
      simp only [SensorState.step, sensorLabel, d.unheld_sensor, apply_ite (Option.map d.sensor),
        Option.map_none, Option.map_map]
      rfl
  | main label => exact d.mainStep_sensor state label

/-- The disguised process writes what the process writes. -/
def logged (state : LoggedState) : LoggedState := { state with sensor := d.sensor state.sensor }

def loggedLabel (endpoints : List EndpointConfig) (label : SensorLabel × List Verdict) :
    SensorLabel × List Verdict := (d.sensorLabel endpoints label.1, label.2)

theorem step_logged (timestamp : Int → String) (state : LoggedState)
    (h : state.sensor.server.StartedWith config endpoints) (label : SensorLabel × List Verdict) :
    (d.logged state).step canonicalReason timestamp (d.loggedLabel endpoints label) =
      (state.step canonicalReason timestamp label).map d.logged := by
  have hend : (d.sensor state.sensor).writeEnd (d.sensorLabel endpoints label.1) =
      state.sensor.writeEnd label.1 := by
    obtain ⟨label, schedule⟩ := label
    cases label with
    | server label => cases label <;> rfl
    | management | stopMaintenance | crashMaintenance | crashWriter | supervisor | dropState | main =>
        rfl
  have hwriting : (d.sensor state.sensor).writing = state.sensor.writing := rfl
  unfold LoggedState.step logged loggedLabel
  dsimp only
  rw [d.step_sensor state.sensor h, hend, hwriting, Option.bind_map, Option.map_bind]
  congr 1
  funext sensor
  simp only [Function.comp_apply]
  cases state.sensor.writeEnd label.1 with
  | none => rfl
  | some ending =>
      cases state.sensor.writing with
      | none => rfl
      | some record =>
          simp only [apply_ite (Option.map _), Option.map_some, Option.map_none]

end Disguise

theorem SensorState.startedWith_of_step {canonicalReason : UInt16 → Option String} {config : Config}
    {endpoints : List EndpointConfig} {state next : SensorState} {label : SensorLabel}
    (h : state.server.StartedWith config endpoints)
    (hstep : state.step canonicalReason label = some next) :
    next.server.StartedWith config endpoints := by
  cases SensorState.move_of_step hstep with
  | server _ hserver => exact h.step hserver
  | management hmove => cases hmove <;> exact ⟨h.config, h.endpoints⟩
  | stopMaintenance | crashMaintenance | crashWriter | dropState => exact ⟨h.config, h.endpoints⟩
  | supervisor hmove => cases hmove <;> exact ⟨h.config, h.endpoints⟩
  | main hmove => cases hmove <;> exact ⟨h.config, h.endpoints⟩

/-! ### Noninterference -/

/-- The second label is the first, up to the secrets of a client that comes. -/
inductive SameLabel (config : Config) (endpoints : List EndpointConfig) :
    SensorLabel × List Verdict → SensorLabel × List Verdict → Prop
  | same (label : SensorLabel × List Verdict) : SameLabel config endpoints label label
  | accept {index : Nat} {ep : EndpointConfig} (hep : endpoints[index]? = some ep)
      {left right : Connection} (h : SameButSecretsAt config ep left right)
      (schedule : List Verdict) :
      SameLabel config endpoints (.server (.endpoint index (.accept left)), schedule)
        (.server (.endpoint index (.accept right)), schedule)

theorem SameLabel.typical_eq {canonicalReason : UInt16 → Option String} {config : Config}
    {endpoints : List EndpointConfig} (hcfg : config.Accepted)
    (hmode : config.privacy.mode = .Metadata) {label label' : SensorLabel × List Verdict}
    (h : SameLabel config endpoints label label') :
    (Disguise.typical canonicalReason config).loggedLabel endpoints label' =
      (Disguise.typical canonicalReason config).loggedLabel endpoints label := by
  cases h with
  | same => rfl
  | accept hep h schedule =>
      have hanswers := h.answers_eq canonicalReason hcfg hmode
      simp only [Disguise.loggedLabel, Disguise.sensorLabel, Disguise.label, hep, Option.map_some,
        Option.getD_some, Disguise.loopLabel, Disguise.typical, Arrival.typical, hanswers]

/-- What leaves the process, and what decides about others. -/
structure Exposed where
  output : Output
  logger : LoggerState SessionRecord
  metrics : ServerMetrics
  rateLimiter : RateLimiter
  permits : Nat
  fates : List (EndpointConfig × Fate)
  main : MainPhase

def LoggedState.exposed (state : LoggedState) : Exposed where
  output := state.output
  logger := state.sensor.server.logger
  metrics := state.sensor.server.metrics
  rateLimiter := state.sensor.server.rateLimiter
  permits := state.sensor.server.permits
  fates := state.sensor.server.settled.map fun settled => (settled.arrival.endpoint, settled.fate)
  main := state.sensor.main

theorem Disguise.exposed_logged {canonicalReason : UInt16 → Option String} {config : Config}
    (d : Disguise canonicalReason config) (state : LoggedState) :
    (d.logged state).exposed = state.exposed := by
  unfold LoggedState.exposed Disguise.logged Disguise.sensor Disguise.server
  simp only [List.map_map]
  rfl

/-- In metadata mode, clients that differ in their secrets can lead the process
along the same runs, and these leave the same files and standard output, the
same counters, the same limiter and the same outcome. -/
theorem process_noninterference (canonicalReason : UInt16 → Option String)
    (timestamp : Int → String) {config : Config} (hvalid : config.validate = .ok ())
    (hmode : config.privacy.mode = .Metadata) (endpoints : List EndpointConfig) (output : Output)
    {labels labels' : List (SensorLabel × List Verdict)}
    (hlabels : List.Forall₂ (SameLabel config endpoints) labels labels') :
    (Steps.run (LoggedState.step canonicalReason timestamp) ⟨.new config endpoints, output⟩
        labels').map LoggedState.exposed =
      (Steps.run (LoggedState.step canonicalReason timestamp) ⟨.new config endpoints, output⟩
        labels).map LoggedState.exposed := by
  have hcfg := (validate_ok_iff config).mp hvalid
  let d : Disguise canonicalReason config := .typical canonicalReason config
  let start : LoggedState := ⟨.new config endpoints, output⟩
  have hrun : ∀ labels : List (SensorLabel × List Verdict),
      Steps.run (LoggedState.step canonicalReason timestamp) (d.logged start)
        (labels.map (d.loggedLabel endpoints)) =
        (Steps.run (LoggedState.step canonicalReason timestamp) start labels).map d.logged := by
    refine @Steps.run_map_of _ _ _ _ (LoggedState.step canonicalReason timestamp)
      (LoggedState.step canonicalReason timestamp) d.logged (d.loggedLabel endpoints)
      (fun state => state.sensor.server.StartedWith config endpoints) ?_ ?_ start
      ServerState.startedWith_new
    · intro state label next h hstep
      obtain ⟨hsensor, _⟩ := LoggedState.step_cases hstep
      exact SensorState.startedWith_of_step h hsensor
    · intro state label h
      exact d.step_logged timestamp state h label
  have hsame := map_eq_of_forall₂
    (fun _ _ h => @SameLabel.typical_eq canonicalReason _ _ hcfg hmode _ _ h) hlabels
  have hview : LoggedState.exposed = LoggedState.exposed ∘ d.logged := by
    funext state
    exact (d.exposed_logged state).symm
  rw [hview, ← Option.map_map, ← Option.map_map]
  exact congrArg (Option.map LoggedState.exposed)
    ((hrun labels').symm.trans ((congrArg _ hsame).trans (hrun labels)))

/-- One session that sends `text`, up to the line of its record. -/
def oneLogin (text : String) : List (SensorLabel × List Verdict) :=
  [(.supervisor .start, []), (.server (.endpoint 0 .pollShutdown), []),
    (.server (.endpoint 0 .joinPending), []),
    (.server (.endpoint 0 (.accept (client text none))), []),
    (.server (.endpoint 0 .checkIgnored), []), (.server (.endpoint 0 (.checkLimiter 0)), []),
    (.server (.endpoint 0 .acquire), []), (.server (.endpoint 0 .spawn), []),
    (.server (.session 0 .start), []), (.server (.session 0 .close), []),
    (.server (.session 0 .log), []), (.server (.writer .recv), []),
    (.server (.writer .written), [])]

/-- Names and passwords of the same lengths leave the same line. -/
theorem process_noninterference_login :
    ∃ state state', Steps.run (LoggedState.step (fun _ => none) fun _ => "1970-01-01T00:00:00Z")
        ⟨.new (sensorOf .Telnet) [decoy .Telnet], ⟨none, some {}⟩⟩
        (oneLogin "admin\r\nhunter2\r\n") = some state ∧
      Steps.run (LoggedState.step (fun _ => none) fun _ => "1970-01-01T00:00:00Z")
        ⟨.new (sensorOf .Telnet) [decoy .Telnet], ⟨none, some {}⟩⟩
        (oneLogin "guest\r\nletmein\r\n") = some state' ∧
      state'.output = state.output := by
  have hsame : SameButSecretsAt (sensorOf .Telnet) (decoy .Telnet)
      (client "admin\r\nhunter2\r\n" none) (client "guest\r\nletmein\r\n" none) := by
    refine ⟨⟨⟨rfl, rfl, by decide, rfl, rfl, rfl, rfl, rfl⟩, rfl, rfl, rfl, rfl⟩, ?_⟩
    change Telnet.Blurred {} _ _
    decide
  have haccept : SameLabel (sensorOf .Telnet) [decoy .Telnet]
      (.server (.endpoint 0 (.accept (client "admin\r\nhunter2\r\n" none))), [])
      (.server (.endpoint 0 (.accept (client "guest\r\nletmein\r\n" none))), []) :=
    .accept rfl hsame []
  have hlabels : List.Forall₂ (SameLabel (sensorOf .Telnet) [decoy .Telnet])
      (oneLogin "admin\r\nhunter2\r\n") (oneLogin "guest\r\nletmein\r\n") :=
    .cons (.same _) (.cons (.same _) (.cons (.same _) (.cons haccept
      (List.forall₂_same.mpr fun _ _ => .same _))))
  have hvalid : (sensorOf .Telnet).validate = .ok () := by decide +kernel
  have hexposed := process_noninterference (fun _ => none) (fun _ => "1970-01-01T00:00:00Z")
    hvalid rfl [decoy .Telnet] ⟨none, some {}⟩ hlabels
  have hsome : (Steps.run (LoggedState.step (fun _ => none) fun _ => "1970-01-01T00:00:00Z")
      ⟨.new (sensorOf .Telnet) [decoy .Telnet], ⟨none, some {}⟩⟩
      (oneLogin "admin\r\nhunter2\r\n")).isSome = true := by
    decide +kernel
  obtain ⟨state, hstate⟩ := Option.isSome_iff_exists.mp hsome
  rw [hstate] at hexposed
  obtain ⟨state', hstate', hsameOutput⟩ := Option.map_eq_some_iff.mp hexposed
  exact ⟨state, state', hstate, hstate', congrArg Exposed.output hsameOutput⟩

end Minotaur
