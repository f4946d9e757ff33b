import Minotaur.Main
import Minotaur.Server.Moves

/-!
What a step of the process above its server can be: one relation for each task,
with one case for each branch of its code.
-/

namespace Minotaur

namespace SensorState

inductive ManagementMove (state : SensorState) : SensorState → Prop where
  | stop (hphase : state.management = some .Running) (hshutdown : state.server.shutdown = true) :
      ManagementMove state { state with management := some (.Draining none) }
  | fail (hphase : state.management = some .Running) :
      ManagementMove state
        { state with management := some (.Draining (some .ManagementFailed)) }.cancel
  | taskFailed {failure : Option RunError} (hphase : state.management = some (.Draining failure)) :
      ManagementMove state
        { state with management := some (.Draining (failure.or (some .ManagementFailed))) }
  | finish {failure : Option RunError} (hphase : state.management = some (.Draining failure)) :
      ManagementMove state
        { state with management := some (.Returned (ServerState.outcome failure)) }
  | crash {phase : ManagementPhase} (hphase : state.management = some phase)
      (hrunning : phase.result = none) :
      ManagementMove state { state with management := some .Crashed }

inductive SupervisorMove (state : SensorState) : SensorState → Prop where
  | start (hphase : state.supervisor = .Starting) (ready : Nat) :
      SupervisorMove state ({ state with supervisor := .Selecting }.setReady ready)
  | startFailed (hphase : state.supervisor = .Starting) :
      SupervisorMove state { state with supervisor := .Returned (.error .StartFailed) }
  | cancelled (hphase : state.supervisor = .Selecting)
      (hshutdown : state.server.shutdown = true) : SupervisorMove state (state.supervisorStops none)
  | poll (hphase : state.supervisor = .Selecting) :
      SupervisorMove state { state with supervisor := .Joining }
  | join {worker : Worker} {result : Except RunError Unit} (hphase : state.supervisor = .Joining)
      (hresult : state.joinable worker = some result) :
      SupervisorMove state
        ({ state with joined := worker :: state.joined }.supervisorStops
          (some ((errorOf result).getD .WorkerStopped)))
  | drain {failure : Option RunError} {worker : Worker} {result : Except RunError Unit}
      (hphase : state.supervisor = .Draining failure)
      (hresult : state.joinable worker = some result) :
      SupervisorMove state
        { state with
          joined := worker :: state.joined
          supervisor := .Draining (failure.or (errorOf result)) }
  | joinPending (hphase : state.supervisor = .Joining) :
      SupervisorMove state { state with supervisor := .Selecting }
  | finish {failure : Option RunError} (hphase : state.supervisor = .Draining failure)
      (hall : ∀ worker ∈ state.workers, worker ∈ state.joined) :
      SupervisorMove state { state with supervisor := .Returned (ServerState.outcome failure) }
  | crash (hover : state.supervisor.over = false) :
      SupervisorMove state { state with supervisor := .Crashed }

inductive MainMove (state : SensorState) : MainLabel → SensorState → Prop where
  | signal (result : Except RunError Unit) (hphase : state.main = .Selecting) :
      MainMove state (.signal result) (state.mainStops (.FinishingServer result false))
  | serverFirst {result : Except RunError Unit} (hphase : state.main = .Selecting)
      (hresult : state.serverResult = some result) :
      MainMove state .serverDone (state.mainStops (.FinishingLogger result))
  | loggerFirst {result : Except RunError Unit} (hphase : state.main = .Selecting)
      (hresult : state.loggerResult = some result) :
      MainMove state .loggerDone (state.mainStops
        (.FinishingServer (.error ((errorOf result).getD .ProducersAlive)) true))
  | serverDone {outcome result : Except RunError Unit} {loggerFinished : Bool}
      (hphase : state.main = .FinishingServer outcome loggerFinished)
      (hresult : state.serverResult = some result) :
      MainMove state .serverDone (state.afterServer (merge outcome result) loggerFinished)
  | loggerDone {outcome result : Except RunError Unit}
      (hphase : state.main = .FinishingLogger outcome)
      (hresult : state.loggerResult = some result) :
      MainMove state .loggerDone { state with main := .Returned (merge outcome result) }
  | serverExpired {outcome : Except RunError Unit} {loggerFinished : Bool}
      (hphase : state.main = .FinishingServer outcome loggerFinished)
      {supervisor : SupervisorPhase} (hover : supervisor.over = true)
      (hkept : state.supervisor.over = true → supervisor = state.supervisor)
      (haborted : state.supervisor.over = false → supervisor = .Crashed) :
      MainMove state .graceExpired
        ({ state with supervisor := supervisor }.afterServer
          (merge outcome (.error .GraceExceeded)) loggerFinished)
  | loggerExpired {outcome : Except RunError Unit}
      (hphase : state.main = .FinishingLogger outcome) (hresult : state.loggerResult.isSome = true) :
      MainMove state .graceExpired
        { state with main := .Returned (merge outcome (.error .GraceExceeded)) }
  | loggerAborted {outcome : Except RunError Unit}
      (hphase : state.main = .FinishingLogger outcome) :
      MainMove state .graceExpired
        { state.crashWriter with main := .Returned (merge outcome (.error .GraceExceeded)) }

/-- One step of the process. -/
inductive Move (canonicalReason : UInt16 → Option String) (state : SensorState) :
    SensorLabel → SensorState → Prop where
  | server {label : ServerLabel} {server : ServerState} (hallows : state.serverAllows label = true)
      (hserver : state.server.step canonicalReason label = some server) :
      Move canonicalReason state (.server label) { state with server := server }
  | management {label : ManagementLabel} {next : SensorState} (hmove : ManagementMove state next) :
      Move canonicalReason state (.management label) next
  | stopMaintenance (hrunning : state.maintenance = .Running)
      (hshutdown : state.server.shutdown = true) :
      Move canonicalReason state .stopMaintenance { state with maintenance := .Returned }
  | crashMaintenance (hrunning : state.maintenance = .Running) :
      Move canonicalReason state .crashMaintenance { state with maintenance := .Crashed }
  | crashWriter (hrunning : state.loggerResult = none) :
      Move canonicalReason state .crashWriter state.crashWriter
  | supervisor {label : SupervisorLabel} {next : SensorState} (hmove : SupervisorMove state next) :
      Move canonicalReason state (.supervisor label) next
  | dropState {logger : LoggerState SessionRecord} (hunheld : state.unheld = true)
      (hlogger : state.server.logger.step .dropSender = some logger) :
      Move canonicalReason state .dropState
        { state with server := { state.server with logger := logger } }
  | main {label : MainLabel} {next : SensorState} (hmove : MainMove state label next) :
      Move canonicalReason state (.main label) next

theorem managementMove_of_step {state next : SensorState} {phase : ManagementPhase}
    {label : ManagementLabel} (hphase : state.management = some phase)
    (hstep : state.managementStep phase label = some next) : ManagementMove state next := by
  cases label with
  | stop =>
      cases phase with
      | Running =>
          simp only [managementStep] at hstep
          split_ifs at hstep with hshutdown
          obtain rfl := Option.some.inj hstep
          exact .stop hphase hshutdown
      | Draining | Returned | Crashed => cases hstep
  | fail =>
      cases phase with
      | Running =>
          obtain rfl := Option.some.inj hstep
          exact .fail hphase
      | Draining | Returned | Crashed => cases hstep
  | taskFailed =>
      cases phase with
      | Draining failure =>
          obtain rfl := Option.some.inj hstep
          exact .taskFailed hphase
      | Running | Returned | Crashed => cases hstep
  | finish =>
      cases phase with
      | Draining failure =>
          obtain rfl := Option.some.inj hstep
          exact .finish hphase
      | Running | Returned | Crashed => cases hstep
  | crash =>
      cases phase with
      | Running =>
          obtain rfl := Option.some.inj hstep
          exact .crash hphase rfl
      | Draining failure =>
          obtain rfl := Option.some.inj hstep
          exact .crash hphase rfl
      | Returned | Crashed => cases hstep

theorem supervisorMove_of_step {state next : SensorState} {label : SupervisorLabel}
    (hstep : state.supervisorStep label = some next) : SupervisorMove state next := by
  cases label with
  | start =>
      simp only [supervisorStep] at hstep
      split at hstep
      · rename_i hphase
        obtain rfl := Option.some.inj hstep
        split_ifs
        · exact .start hphase state.server.logger.metrics.ready
        · exact .start hphase 1
      · cases hstep
  | startFailed =>
      simp only [supervisorStep] at hstep
      split at hstep
      · rename_i hphase
        obtain rfl := Option.some.inj hstep
        exact .startFailed hphase
      · cases hstep
  | pollShutdown =>
      simp only [supervisorStep] at hstep
      split at hstep
      · rename_i hphase
        obtain rfl := Option.some.inj hstep
        split_ifs with hshutdown
        · exact .cancelled hphase hshutdown
        · exact .poll hphase
      · cases hstep
  | join worker =>
      simp only [supervisorStep] at hstep
      split at hstep
      · rename_i hphase
        obtain ⟨result, hresult, rfl⟩ := Option.map_eq_some_iff.mp hstep
        exact .join hphase hresult
      · rename_i failure hphase
        obtain ⟨result, hresult, rfl⟩ := Option.map_eq_some_iff.mp hstep
        exact .drain hphase hresult
      · cases hstep
  | joinPending =>
      simp only [supervisorStep] at hstep
      split at hstep
      · rename_i hphase
        obtain rfl := Option.some.inj hstep
        exact .joinPending hphase
      · cases hstep
  | finish =>
      simp only [supervisorStep] at hstep
      split at hstep
      · rename_i failure hphase
        split_ifs at hstep with hall
        obtain rfl := Option.some.inj hstep
        exact .finish hphase (by simpa using hall)
      · cases hstep
  | crash =>
      simp only [supervisorStep] at hstep
      split_ifs at hstep with hover
      obtain rfl := Option.some.inj hstep
      exact .crash (by simpa using hover)

theorem mainMove_of_step {state next : SensorState} {label : MainLabel}
    (hstep : state.mainStep label = some next) : MainMove state label next := by
  cases label with
  | signal result =>
      simp only [mainStep] at hstep
      split at hstep
      · rename_i hphase
        obtain rfl := Option.some.inj hstep
        exact .signal result hphase
      · cases hstep
  | serverDone =>
      simp only [mainStep] at hstep
      split at hstep
      · rename_i hphase
        obtain ⟨result, hresult, rfl⟩ := Option.map_eq_some_iff.mp hstep
        exact .serverFirst hphase hresult
      · rename_i outcome loggerFinished hphase
        obtain ⟨result, hresult, rfl⟩ := Option.map_eq_some_iff.mp hstep
        exact .serverDone hphase hresult
      · cases hstep
  | loggerDone =>
      simp only [mainStep] at hstep
      split at hstep
      · rename_i hphase
        obtain ⟨result, hresult, rfl⟩ := Option.map_eq_some_iff.mp hstep
        exact .loggerFirst hphase hresult
      · rename_i outcome hphase
        obtain ⟨result, hresult, rfl⟩ := Option.map_eq_some_iff.mp hstep
        exact .loggerDone hphase hresult
      · cases hstep
  | graceExpired =>
      simp only [mainStep] at hstep
      split at hstep
      · rename_i outcome loggerFinished hphase
        obtain rfl := Option.some.inj hstep
        split_ifs with hover
        · exact .serverExpired hphase hover (fun _ => rfl) (by simp [hover])
        · exact .serverExpired hphase rfl (fun h => absurd h hover) (fun _ => rfl)
      · rename_i outcome hphase
        obtain rfl := Option.some.inj hstep
        split_ifs with hresult
        · exact .loggerExpired hphase hresult
        · exact .loggerAborted hphase
      · cases hstep

theorem move_of_step {canonicalReason : UInt16 → Option String} {state next : SensorState}
    {label : SensorLabel} (hstep : state.step canonicalReason label = some next) :
    Move canonicalReason state label next := by
  cases label with
  | server label =>
      simp only [step] at hstep
      split_ifs at hstep with hallows
      obtain ⟨server, hserver, rfl⟩ := Option.map_eq_some_iff.mp hstep
      exact .server hallows hserver
  | management label =>
      obtain ⟨phase, hphase, hmove⟩ := Option.bind_eq_some_iff.mp hstep
      exact .management (managementMove_of_step hphase hmove)
  | stopMaintenance =>
      simp only [step] at hstep
      split_ifs at hstep with hrunning
      obtain rfl := Option.some.inj hstep
      exact .stopMaintenance hrunning.1 hrunning.2
  | crashMaintenance =>
      simp only [step] at hstep
      split_ifs at hstep with hrunning
      obtain rfl := Option.some.inj hstep
      exact .crashMaintenance hrunning
  | crashWriter =>
      simp only [step] at hstep
      split_ifs at hstep with hover
      obtain rfl := Option.some.inj hstep
      exact .crashWriter (by simpa using hover)
  | supervisor label => exact .supervisor (supervisorMove_of_step hstep)
  | dropState =>
      simp only [step] at hstep
      split_ifs at hstep with hunheld
      obtain ⟨logger, hlogger, rfl⟩ := Option.map_eq_some_iff.mp hstep
      exact .dropState hunheld hlogger
  | main label => exact .main (mainMove_of_step hstep)

end SensorState

end Minotaur
