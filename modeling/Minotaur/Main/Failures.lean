import Minotaur.Main.Process
import Minotaur.Server.Failures

/-!
No failure is swallowed. A supervisor that returns has joined every worker,
whichever branch of its select won, so an error of one of them is its own
unless it had one already. A worker that ends without an error has seen the
token cancelled, so a worker that is over before that has failed.
-/

namespace Minotaur

/-- The supervisor has left its select, after its start. -/
def SupervisorPhase.leaving : SupervisorPhase → Bool
  | .Draining _ | .Returned _ => true
  | _ => false

def ManagementPhase.leaving : ManagementPhase → Bool
  | .Draining _ | .Returned _ => true
  | _ => false

theorem ServerState.ready_of_step {canonicalReason : UInt16 → Option String}
    {state next : ServerState} {label : ServerLabel}
    (hstep : state.step canonicalReason label = some next) :
    next.logger.metrics.ready = state.logger.metrics.ready ∨ next.logger.metrics.ready = 0 := by
  obtain hsame | ⟨label', _, hlogger⟩ | ⟨_, _, _, record, hoffer⟩ := logger_of_step hstep
  · exact Or.inl (by rw [hsame])
  · exact hlogger.ready
  · exact Or.inl (by rw [hoffer, LoggerState.ready_offer])

namespace SensorState

variable {canonicalReason : UInt16 → Option String} {config : Config}
  {endpoints : List EndpointConfig} {state next : SensorState} {label : SensorLabel}
  {labels : List SensorLabel}

/-! ### Frames -/

/-- Only a supervisor that starts sets the gauge. -/
theorem Move.ready (hmove : Move canonicalReason state label next) :
    next.server.logger.metrics.ready = state.server.logger.metrics.ready ∨
      next.server.logger.metrics.ready = 0 ∨ state.supervisor = .Starting := by
  cases hmove with
  | server _ hserver =>
      exact (ServerState.ready_of_step hserver).imp (fun h => h) Or.inl
  | management hmove => cases hmove <;> exact Or.inl rfl
  | stopMaintenance | crashMaintenance | crashWriter => exact Or.inl rfl
  | supervisor hmove =>
      cases hmove with
      | start hphase _ => exact Or.inr (Or.inr hphase)
      | cancelled | join => exact Or.inr (Or.inl rfl)
      | startFailed | poll | drain | joinPending | finish | crash => exact Or.inl rfl
  | dropState _ hlogger =>
      exact (LoggerState.move_of_step hlogger).ready.imp (fun h => h) Or.inl
  | main hmove =>
      cases hmove with
      | signal | serverFirst | loggerFirst => exact Or.inr (Or.inl rfl)
      | serverDone | loggerDone | serverExpired | loggerExpired | loggerAborted =>
          exact Or.inl rfl

/-- The loops and the sessions take no part in the steps of anybody else. -/
theorem Move.server_cases (hmove : Move canonicalReason state label next) :
    (∃ label', label = .server label' ∧ state.serverAllows label' = true ∧
        state.server.step canonicalReason label' = some next.server ∧
        next.management = state.management ∧ next.maintenance = state.maintenance) ∨
      next.server.loops = state.server.loops ∧ next.server.sessions = state.server.sessions := by
  cases hmove with
  | @server label' _ hallows hserver => exact Or.inl ⟨label', rfl, hallows, hserver, rfl, rfl⟩
  | management hmove => cases hmove <;> exact Or.inr ⟨rfl, rfl⟩
  | stopMaintenance | crashMaintenance | crashWriter | dropState => exact Or.inr ⟨rfl, rfl⟩
  | supervisor hmove => cases hmove <;> exact Or.inr ⟨rfl, rfl⟩
  | main hmove => cases hmove <;> exact Or.inr ⟨rfl, rfl⟩

/-- The supervisor returns from its start only by failing there. -/
theorem startFailed_of_step {label : SupervisorLabel}
    (hstep : state.supervisorStep label = some next) (hstarting : state.supervisor = .Starting)
    (hleaving : next.supervisor.leaving = true) : label = .startFailed := by
  cases label with
  | startFailed => rfl
  | start =>
      simp only [supervisorStep, hstarting] at hstep
      obtain rfl := Option.some.inj hstep
      split_ifs at hleaving <;> cases hleaving
  | crash =>
      simp only [supervisorStep] at hstep
      split_ifs at hstep
      obtain rfl := Option.some.inj hstep
      cases hleaving
  | pollShutdown | join | joinPending | finish => simp [supervisorStep, hstarting] at hstep

/-! ### A worker that is done without an error has seen the token cancelled -/

structure Obedient (state : SensorState) : Prop where
  server : state.server.Sound
  management : ∀ phase, state.management = some phase → phase.leaving = true →
    state.server.shutdown = true
  maintenance : state.maintenance = .Returned → state.server.shutdown = true

theorem obedient_new (config : Config) (endpoints : List EndpointConfig) :
    (SensorState.new config endpoints).Obedient where
  server := ServerState.sound_new config endpoints
  management := by
    intro phase hphase hleaving
    unfold SensorState.new at hphase
    dsimp only at hphase
    split_ifs at hphase
    obtain rfl := Option.some.inj hphase
    cases hleaving
  maintenance := nofun

theorem ManagementMove.obedient (hmove : ManagementMove state next)
    (h : ∀ phase, state.management = some phase → phase.leaving = true →
      state.server.shutdown = true) :
    ∀ phase, next.management = some phase → phase.leaving = true →
      next.server.shutdown = true := by
  rintro phase hphase hleaving
  cases hmove with
  | stop _ hshutdown => exact hshutdown
  | fail _ => rfl
  | taskFailed hbefore => exact h _ hbefore rfl
  | finish hbefore => exact h _ hbefore rfl
  | crash _ _ =>
      obtain rfl := Option.some.inj hphase
      cases hleaving

theorem Move.maintenance (hmove : Move canonicalReason state label next)
    (hreturned : next.maintenance = .Returned) :
    state.maintenance = .Returned ∨ state.server.shutdown = true := by
  cases hmove with
  | server | crashWriter | dropState => exact Or.inl hreturned
  | management hmove => cases hmove <;> exact Or.inl hreturned
  | stopMaintenance _ hshutdown => exact Or.inr hshutdown
  | crashMaintenance => cases hreturned
  | supervisor hmove => cases hmove <;> exact Or.inl hreturned
  | main hmove => cases hmove <;> exact Or.inl hreturned

theorem Obedient.step (h : state.Obedient)
    (hstep : state.step canonicalReason label = some next) : next.Obedient := by
  have hmove := move_of_step hstep
  have hshutdown := hmove.evolves.shutdown
  refine ⟨?_, ?_, ?_⟩
  · obtain ⟨label', _, _, hserver, _⟩ | ⟨hloops, hsessions⟩ := hmove.server_cases
    · exact h.server.step hserver
    · exact h.server.frame hloops hsessions hshutdown
  · by_cases hlabel : ∃ label', label = .management label'
    · obtain ⟨label', rfl⟩ := hlabel
      cases hmove with
      | management hmove => exact hmove.obedient h.management
    · rw [hmove.management_eq (fun label' heq => hlabel ⟨label', heq⟩)]
      exact fun phase hphase hleaving => hshutdown (h.management phase hphase hleaving)
  · intro hreturned
    exact hshutdown ((hmove.maintenance hreturned).elim h.maintenance (fun h => h))

theorem obedient_of_run
    (hrun : Steps.run (SensorState.step canonicalReason) (.new config endpoints) labels =
      some state) : state.Obedient :=
  Steps.run_invariant (fun _ _ _ h hstep => Obedient.step h hstep) (obedient_new config endpoints)
    hrun

theorem Obedient.cancelled (h : state.Obedient) {worker : Worker}
    (hresult : state.result worker = some (.ok ())) : state.server.shutdown = true := by
  cases worker with
  | endpoint index =>
      obtain ⟨loop, hloop, hphase⟩ := result_endpoint.mp hresult
      apply h.server.cancelled loop (List.mem_of_getElem? hloop)
      cases hloopPhase : loop.phase <;> simp_all [LoopPhase.result]
  | management =>
      obtain ⟨phase, hphase, hover⟩ := Option.bind_eq_some_iff.mp hresult
      apply h.management phase hphase
      cases phase with
      | Returned => rfl
      | Running | Draining | Crashed => cases hover
  | maintenance =>
      apply h.maintenance
      unfold SensorState.result at hresult
      cases hmaintenance : state.maintenance <;> simp_all [MaintenancePhase.result]

/-- So a worker that is over before has an error to show. -/
theorem Obedient.error (h : state.Obedient) (hshutdown : state.server.shutdown = false)
    {worker : Worker} {result : Except RunError Unit}
    (hresult : state.result worker = some result) : ∃ error, result = .error error := by
  cases result with
  | error error => exact ⟨error, rfl⟩
  | ok value =>
      have hcancelled := h.cancelled hresult
      rw [hshutdown] at hcancelled
      cases hcancelled

/-! ### The supervisor that returns -/

/-- What holds of a supervisor whose start succeeds. -/
structure Stopped (state : SensorState) : Prop where
  joined : ∀ worker ∈ state.joined, (state.result worker).isSome = true
  complete : ∀ result, state.supervisor = .Returned result →
    ∀ worker ∈ state.workers, worker ∈ state.joined
  cancelled : state.supervisor.leaving = true →
    state.server.shutdown = true ∧ state.server.logger.metrics.ready = 0

theorem stopped_new (config : Config) (endpoints : List EndpointConfig) :
    (SensorState.new config endpoints).Stopped where
  joined := List.forall_mem_nil _
  complete := nofun
  cancelled := nofun

/-- A worker is joined when it is complete. -/
theorem SupervisorMove.joined (hmove : SupervisorMove state next)
    (h : ∀ worker ∈ state.joined, (state.result worker).isSome = true) :
    ∀ worker ∈ next.joined, (state.result worker).isSome = true := by
  cases hmove with
  | join _ hresult | drain _ hresult =>
      exact List.forall_mem_cons.mpr ⟨by rw [result_of_joinable hresult]; rfl, h⟩
  | start | startFailed | cancelled | poll | joinPending | finish | crash => exact h

theorem Stopped.step (h : state.Stopped) (hstep : state.step canonicalReason label = some next)
    (hstart : label ≠ .supervisor .startFailed) : next.Stopped := by
  have hmove := move_of_step hstep
  have hevolves := hmove.evolves
  have hresults : ∀ worker, (state.result worker).isSome = true →
      (next.result worker).isSome = true := by
    intro worker hsome
    obtain ⟨result, hresult⟩ := Option.isSome_iff_exists.mp hsome
    rw [hevolves.results worker result hresult]
    rfl
  -- A supervisor that has left its select before finds the gauge at zero.
  have hready : state.supervisor.leaving = true →
      next.server.shutdown = true ∧ next.server.logger.metrics.ready = 0 := by
    intro hleaving
    obtain ⟨hshutdown, hzero⟩ := h.cancelled hleaving
    refine ⟨hevolves.shutdown hshutdown, ?_⟩
    obtain hsame | hnext | hstarting := hmove.ready
    · rw [hsame, hzero]
    · exact hnext
    · rw [hstarting] at hleaving
      cases hleaving
  obtain ⟨hsupervisor, hjoined, _⟩ | ⟨_, hcrashed, hjoined⟩ | ⟨label', rfl, hsupervisor⟩ :=
    hmove.supervisor_cases
  · refine ⟨?_, ?_, ?_⟩
    · rw [hjoined]
      exact fun worker hworker => hresults worker (h.joined worker hworker)
    · rw [hsupervisor, hevolves.workers, hjoined]
      exact h.complete
    · rw [hsupervisor]
      exact hready
  · refine ⟨?_, ?_, ?_⟩
    · rw [hjoined]
      exact fun worker hworker => hresults worker (h.joined worker hworker)
    · rw [hcrashed]
      nofun
    · rw [hcrashed]
      nofun
  · have hstarted : label' ≠ .startFailed := fun heq => hstart (congrArg _ heq)
    refine ⟨?_, ?_, ?_⟩
    · exact fun worker hworker =>
        hresults worker (hsupervisor.joined h.joined worker hworker)
    · intro result hreturned
      cases hsupervisor with
      | finish _ hall => exact hall
      | startFailed hphase => exact absurd (startFailed_of_step hstep hphase rfl) hstarted
      | start | cancelled | poll | join | drain | joinPending | crash => cases hreturned
    · intro hleaving
      cases hsupervisor with
      | startFailed hphase => exact absurd (startFailed_of_step hstep hphase rfl) hstarted
      | cancelled | join => exact ⟨rfl, rfl⟩
      | drain hphase _ => exact hready (by rw [hphase]; rfl)
      | finish hphase _ => exact hready (by rw [hphase]; rfl)
      | start | poll | joinPending | crash => cases hleaving

theorem stopped_of_run
    (hrun : Steps.run (SensorState.step canonicalReason) (.new config endpoints) labels =
      some state) (hstart : ∀ label ∈ labels, label ≠ .supervisor .startFailed) :
    state.Stopped :=
  @Steps.run_invariant_of _ _ (SensorState.step canonicalReason) Stopped
    (fun label => label ≠ .supervisor .startFailed)
    (fun _ _ _ hlabel h hstep => Stopped.step h hstep hlabel) _ hstart _ _
    (stopped_new config endpoints) hrun

/-- The error of a worker is not lost on the supervisor. -/
theorem Supervised.error (h : state.Supervised) {result : Except RunError Unit}
    (hreturned : state.supervisor = .Returned result) {worker : Worker}
    (hworker : worker ∈ state.workers)
    (herror : ∃ error, state.result worker = some (.error error)) :
    ∃ error, result = .error error := by
  cases result with
  | error error => exact ⟨error, rfl⟩
  | ok value =>
      obtain ⟨error, herror⟩ := herror
      rw [h.results hreturned worker hworker] at herror
      cases herror

/-! ### Failed accepts -/

/-- A loop whose accept failed is failing ever after. -/
def Refused (labels : List SensorLabel) (state : SensorState) : Prop :=
  ∀ index, .server (.endpoint index .acceptFailed) ∈ labels → state.server.shutdown = true ∧
    ∃ loop, state.server.loops[index]? = some loop ∧ loop.phase.failing = true

theorem Move.failing_at (hmove : Move canonicalReason state label next) {index : Nat}
    (hfailing : ∃ loop, state.server.loops[index]? = some loop ∧ loop.phase.failing = true) :
    ∃ loop, next.server.loops[index]? = some loop ∧ loop.phase.failing = true := by
  obtain ⟨label', _, hallows, hserver, _⟩ | ⟨hloops, _⟩ := hmove.server_cases
  · exact (advances_of_allowed hallows hserver).failing_at hfailing
  · rw [hloops]
    exact hfailing

theorem failing_of_acceptFailed {index : Nat}
    (hstep : state.step canonicalReason (.server (.endpoint index .acceptFailed)) = some next) :
    next.server.shutdown = true ∧
      ∃ loop, next.server.loops[index]? = some loop ∧ loop.phase.failing = true := by
  cases move_of_step hstep with
  | server _ hserver =>
      obtain ⟨loop, hloop, hmove⟩ := Option.bind_eq_some_iff.mp hserver
      have hlength := (List.getElem?_eq_some_iff.mp hloop).1
      cases ServerState.loopMove_of_step hmove with
      | acceptFailed _ => exact ⟨rfl, _, List.getElem?_set_self hlength, rfl⟩

theorem Refused.step (h : Refused labels state)
    (hstep : state.step canonicalReason label = some next) : Refused (labels ++ [label]) next := by
  have hmove := move_of_step hstep
  intro index hlabel
  rcases List.mem_append.mp hlabel with hbefore | hnow
  · obtain ⟨hshutdown, hfailing⟩ := h index hbefore
    exact ⟨hmove.evolves.shutdown hshutdown, hmove.failing_at hfailing⟩
  · obtain rfl := List.mem_singleton.mp hnow
    exact failing_of_acceptFailed hstep

theorem refused_of_run
    (hrun : Steps.run (SensorState.step canonicalReason) (.new config endpoints) labels =
      some state) : Refused labels state :=
  Steps.run_history (fun _ h => absurd h List.not_mem_nil)
    (fun _ _ _ _ h hstep => Refused.step h hstep) hrun

end SensorState

namespace ProcessState

variable {canonicalReason : UInt16 → Option String} {config : Config}
  {endpoints : List EndpointConfig} {state next : ProcessState} {labels : List ProcessLabel}

/-- The result of a worker that is complete stays what it is. -/
theorem result_of_run {worker : Worker} {result : Except RunError Unit}
    (hviewed : state.Viewed) (hresult : state.sensor.result worker = some result)
    (hrun : Steps.run (step canonicalReason) state labels = some next) :
    next.sensor.result worker = some result := by
  have hboth : next.Viewed ∧ next.sensor.result worker = some result := by
    refine @Steps.run_invariant _ _ (step canonicalReason)
      (fun state => state.Viewed ∧ state.sensor.result worker = some result) ?_ _ _ _
      ⟨hviewed, hresult⟩ hrun
    rintro state label next ⟨hviewed, hresult⟩ hstep
    obtain ⟨hnext, seen, hseen, _⟩ := sensor_of_step hviewed hstep
    refine ⟨hnext, @Steps.run_invariant _ _ (SensorState.step canonicalReason)
      (fun sensor => sensor.result worker = some result) ?_ _ _ _ hresult hseen⟩
    exact fun _ _ _ hresult hstep =>
      (SensorState.move_of_step hstep).evolves.results worker result hresult
  exact hboth.2

/-- `serve` fails for good when an accept fails. -/
def ServeRefused (labels : List ProcessLabel) (state : ProcessState) : Prop :=
  .serve .acceptFailed ∈ labels → state.sensor.server.shutdown = true ∧
    ∃ serve, state.serve = some serve ∧ serve.phase.failing = true

theorem ServeRefused.step {label : ProcessLabel} (h : ServeRefused labels state)
    (hstep : state.step canonicalReason label = some next) :
    ServeRefused (labels ++ [label]) next := by
  have hshutdown := shutdown_of_step hstep
  intro hlabel
  rcases List.mem_append.mp hlabel with hbefore | hnow
  · obtain ⟨hcancelled, serve, hserve, hfailing⟩ := h hbefore
    refine ⟨hshutdown hcancelled, ?_⟩
    cases label with
    | sensor label =>
        obtain ⟨_, sensor, _, rfl⟩ := sensorStep hstep
        exact ⟨serve, hserve, hfailing⟩
    | serve label =>
        obtain ⟨before, after, token, hsame, hmove, rfl⟩ := serveStep hstep
        rw [hserve] at hsame
        obtain rfl := Option.some.inj hsame
        exact ⟨after, rfl, hmove.failing.2.1 hfailing⟩
  · obtain rfl := List.mem_singleton.mp hnow
    obtain ⟨before, after, token, _, hmove, rfl⟩ := serveStep hstep
    cases hmove with
    | acceptFailed _ => exact ⟨rfl, _, rfl, rfl⟩

theorem serveRefused_of_run
    (hrun : Steps.run (step canonicalReason) (.new config endpoints) labels = some state) :
    ServeRefused labels state :=
  Steps.run_history (fun h => absurd h List.not_mem_nil)
    (fun _ _ _ _ h hstep => ServeRefused.step h hstep) hrun

/-! ### What a failure is -/

/-- The worker was over when nobody had cancelled the token yet. -/
def EndedEarly (canonicalReason : UInt16 → Option String) (config : Config)
    (endpoints : List EndpointConfig) (labels : List ProcessLabel) (worker : Worker) : Prop :=
  ∃ first middle, first <+: labels ∧
    Steps.run (step canonicalReason) (.new config endpoints) first = some middle ∧
    middle.sensor.server.shutdown = false ∧ (middle.sensor.result worker).isSome = true

/-- An accept of the endpoint loop failed or one of its sessions panicked. -/
def EndpointFailed (labels : List ProcessLabel) (state : ProcessState) (index : Nat) : Prop :=
  .sensor (.server (.endpoint index .acceptFailed)) ∈ labels ∨
    ∃ task ∈ state.sensor.server.sessions, task.owner = index ∧ task.phase = .Unwound

/-- An accept of `serve` failed or one of its handlers panicked. -/
def ServeFailed (labels : List ProcessLabel) (serve : ServeState) : Prop :=
  .serve .acceptFailed ∈ labels ∨ ∃ task ∈ serve.tasks, task.phase = .Panicked

theorem error_of_endedEarly {worker : Worker}
    (hearly : EndedEarly canonicalReason config endpoints labels worker)
    (hrun : Steps.run (step canonicalReason) (.new config endpoints) labels = some state) :
    ∃ error, state.sensor.result worker = some (.error error) := by
  obtain ⟨first, middle, ⟨second, rfl⟩, hfirst, hshutdown, hsome⟩ := hearly
  rw [Steps.run_append, hfirst] at hrun
  obtain ⟨hviewed, _, hseen, _⟩ := sensor_of_run hfirst
  obtain ⟨result, hresult⟩ := Option.isSome_iff_exists.mp hsome
  obtain ⟨error, rfl⟩ := (SensorState.obedient_of_run hseen).error hshutdown hresult
  exact ⟨error, result_of_run hviewed hresult hrun⟩

theorem error_of_failing {phase : LoopPhase} (hfailing : phase.failing = true)
    {result : Except RunError Unit} (hresult : phase.result = some result) :
    ∃ error, result = .error error := by
  cases phase with
  | Returned returned =>
      obtain rfl := Option.some.inj hresult
      cases returned with
      | error error => exact ⟨error, rfl⟩
      | ok value => cases hfailing
  | Crashed =>
      obtain rfl := Option.some.inj hresult
      exact ⟨_, rfl⟩
  | Selecting | Joining | Accepting | Accepted | Checking | Acquiring | Spawning | Draining =>
      cases hresult

/-- What a failure does to its endpoint loop. -/
theorem endpoint_failed
    (hrun : Steps.run (step canonicalReason) (.new config endpoints) labels = some state)
    {index : Nat} {loop : EndpointLoop} (hloop : state.sensor.server.loops[index]? = some loop) :
    (∀ result, loop.phase = .Returned result → state.sensor.server.shutdown = true) ∧
    (EndpointFailed labels state index →
      ∀ result, loop.phase.result = some result → ∃ error, result = .error error) ∧
    (.sensor (.server (.endpoint index .acceptFailed)) ∈ labels ∨
        (∃ task ∈ state.sensor.server.sessions, task.owner = index ∧ task.joined = true ∧
          task.phase = .Unwound) →
      loop.phase.failing = true ∧ state.sensor.server.shutdown = true) := by
  obtain ⟨_, seen, hseen, hall, _⟩ := sensor_of_run hrun
  have hsound := (SensorState.obedient_of_run hseen).server
  have hrefused : .sensor (.server (.endpoint index .acceptFailed)) ∈ labels →
      loop.phase.failing = true ∧ state.sensor.server.shutdown = true := by
    intro hlabel
    obtain ⟨hshutdown, other, hother, hfailing⟩ :=
      SensorState.refused_of_run hseen index (hall _ hlabel)
    rw [hloop] at hother
    obtain rfl := Option.some.inj hother
    exact ⟨hfailing, hshutdown⟩
  refine ⟨?_, ?_, ?_⟩
  · intro result hreturned
    exact hsound.cancelled loop (List.mem_of_getElem? hloop) (by rw [hreturned]; rfl)
  · rintro (hlabel | hunwound) result hresult
    · exact error_of_failing (hrefused hlabel).1 hresult
    · cases hphase : loop.phase with
      | Returned returned =>
          rw [hphase] at hresult
          obtain rfl := Option.some.inj hresult
          cases returned with
          | error error => exact ⟨error, rfl⟩
          | ok value => exact absurd rfl (hsound.panicked hloop hphase hunwound)
      | Crashed => exact error_of_failing (by rw [hphase]; rfl) hresult
      | Selecting | Joining | Accepting | Accepted | Checking | Acquiring | Spawning
      | Draining =>
          rw [hphase] at hresult
          cases hresult
  · rintro (hlabel | ⟨task, htask, howner, hjoined, hunwound⟩)
    · exact hrefused hlabel
    · refine ⟨?_, hsound.noticed task htask hjoined hunwound⟩
      by_contra hclean
      have hended := hsound.clean index loop hloop (by simpa using hclean) task htask howner hjoined
      rw [hunwound] at hended
      cases hended

/-- What a failure does to `serve`. -/
theorem serve_failed
    (hrun : Steps.run (step canonicalReason) (.new config endpoints) labels = some state)
    {serve : ServeState} (hserve : state.serve = some serve) :
    (∀ result, serve.phase = .Returned result → state.sensor.server.shutdown = true ∧
      (ServeFailed labels serve → ∃ error, result = .error error)) ∧
    (.serve .acceptFailed ∈ labels ∨
        (∃ task ∈ serve.tasks, task.joined = true ∧ task.phase = .Panicked) →
      serve.phase.failing = true ∧ state.sensor.server.shutdown = true) := by
  have hsound := serveSound_of_run hrun serve hserve
  have hrefused : .serve .acceptFailed ∈ labels →
      serve.phase.failing = true ∧ state.sensor.server.shutdown = true := by
    intro hlabel
    obtain ⟨hshutdown, other, hother, hfailing⟩ := serveRefused_of_run hrun hlabel
    rw [hserve] at hother
    obtain rfl := Option.some.inj hother
    exact ⟨hfailing, hshutdown⟩
  refine ⟨?_, ?_⟩
  · intro result hreturned
    refine ⟨hsound.cancelled (by rw [hreturned]; rfl), ?_⟩
    intro hfailed
    cases result with
    | error error => exact ⟨error, rfl⟩
    | ok value =>
        rcases hfailed with hlabel | hpanicked
        · have hfailing := (hrefused hlabel).1
          rw [hreturned] at hfailing
          cases hfailing
        · exact absurd rfl (hsound.panicked hreturned hpanicked)
  · rintro (hlabel | ⟨task, htask, hjoined, hpanicked⟩)
    · exact hrefused hlabel
    · refine ⟨?_, hsound.noticed task htask hjoined hpanicked⟩
      by_contra hclean
      have hended := hsound.clean (by simpa using hclean) task htask hjoined
      rw [hpanicked] at hended
      cases hended

end ProcessState

open ProcessState in
/-- No failure is swallowed: not by a loop, not by `serve`, and not by the
supervisor above them, whatever comes first. -/
theorem no_failure_swallowed (canonicalReason : UInt16 → Option String) (config : Config)
    (endpoints : List EndpointConfig) (labels : List ProcessLabel) (state : ProcessState)
    (hrun : Steps.run (ProcessState.step canonicalReason) (ProcessState.new config endpoints)
      labels = some state)
    (hstart : .sensor (.supervisor .startFailed) ∉ labels) :
    (∀ result, state.sensor.supervisor = .Returned result →
      ((∀ worker ∈ state.sensor.workers, (state.sensor.result worker).isSome = true) ∧
        state.sensor.server.shutdown = true ∧ state.sensor.server.logger.metrics.ready = 0) ∧
      ((∃ worker ∈ state.sensor.workers,
          (∃ error, state.sensor.result worker = some (.error error)) ∨
            EndedEarly canonicalReason config endpoints labels worker) →
        ∃ error, result = .error error)) ∧
    (∀ index loop, state.sensor.server.loops[index]? = some loop →
      (∀ result, loop.phase = .Returned result → state.sensor.server.shutdown = true) ∧
      (EndpointFailed labels state index →
        ∀ result, loop.phase.result = some result → ∃ error, result = .error error) ∧
      (.sensor (.server (.endpoint index .acceptFailed)) ∈ labels ∨
          (∃ task ∈ state.sensor.server.sessions, task.owner = index ∧ task.joined = true ∧
            task.phase = .Unwound) →
        loop.phase.failing = true ∧ state.sensor.server.shutdown = true)) ∧
    ∀ serve, state.serve = some serve →
      (∀ result, serve.phase = .Returned result → state.sensor.server.shutdown = true ∧
        (ServeFailed labels serve → ∃ error, result = .error error)) ∧
      (.serve .acceptFailed ∈ labels ∨
          (∃ task ∈ serve.tasks, task.joined = true ∧ task.phase = .Panicked) →
        serve.phase.failing = true ∧ state.sensor.server.shutdown = true) := by
  obtain ⟨_, seen, hseen, _, hsource⟩ := sensor_of_run hrun
  have hstarted : ∀ label ∈ seen, label ≠ .supervisor .startFailed := by
    rintro label hlabel rfl
    obtain hlabel | ⟨_, hother⟩ := hsource _ hlabel
    · exact hstart hlabel
    · cases hother
  have hstopped := SensorState.stopped_of_run hseen hstarted
  have hsupervised := SensorState.supervised_of_run hseen
  refine ⟨?_, fun index loop => endpoint_failed hrun, fun serve => serve_failed hrun⟩
  intro result hreturned
  refine ⟨⟨?_, hstopped.cancelled (by rw [hreturned]; rfl)⟩, ?_⟩
  · exact fun worker hworker =>
      hstopped.joined worker (hstopped.complete result hreturned worker hworker)
  · rintro ⟨worker, hworker, herror | hearly⟩
    · exact hsupervised.error hreturned hworker herror
    · exact hsupervised.error hreturned hworker (error_of_endedEarly hearly hrun)

/-- An accept fails after the signal, and the supervisor sees the token first. -/
def failedAccept : List ProcessLabel :=
  [.sensor (.supervisor .start), .sensor (.supervisor .pollShutdown),
    .sensor (.supervisor .joinPending), .sensor (.server (.endpoint 0 .pollShutdown)),
    .sensor (.server (.endpoint 0 .joinPending)), .sensor (.main (.signal (.ok ()))),
    .sensor (.server (.endpoint 0 .acceptFailed)), .sensor (.supervisor .pollShutdown),
    .sensor .stopMaintenance, .sensor (.supervisor (.join .maintenance)),
    .sensor (.server (.endpoint 0 .finish)), .sensor (.supervisor (.join (.endpoint 0))),
    .sensor (.supervisor .finish)]

theorem no_failure_swallowed_accept :
    ∃ state, Steps.run (ProcessState.step fun _ => none)
        (ProcessState.new (sensorOf .Raw) [decoy .Raw]) failedAccept = some state ∧
      ∃ error, state.sensor.supervisor = .Returned (.error error) := by
  have hend : (Steps.run (ProcessState.step fun _ => none)
      (ProcessState.new (sensorOf .Raw) [decoy .Raw]) failedAccept).any (fun state =>
        decide (state.sensor.supervisor = .Returned (.error .AcceptFailed) ∧
          Worker.endpoint 0 ∈ state.sensor.workers ∧
          state.sensor.result (.endpoint 0) = some (.error .AcceptFailed))) = true := by
    decide +kernel
  obtain ⟨state, hrun, hover⟩ := (Option.any_eq_true _ _).mp hend
  obtain ⟨hreturned, hworker, hfailed⟩ := of_decide_eq_true hover
  have hstart : ProcessLabel.sensor (.supervisor .startFailed) ∉ failedAccept := by
    simp [failedAccept]
  have hswallowed := no_failure_swallowed _ _ _ _ state hrun hstart
  obtain ⟨error, herror⟩ :=
    (hswallowed.1 _ hreturned).2 ⟨_, hworker, Or.inl ⟨_, hfailed⟩⟩
  exact ⟨state, hrun, error, hreturned.trans (congrArg _ herror)⟩

end Minotaur
