import Minotaur.Main.Process
import Minotaur.Management.Draining
import Minotaur.Server.Draining

/-!
A shutdown comes to its end. Once the token is cancelled, every step of the
process but a tick of the limiter lowers `remaining`, whichever task takes it;
and until `run` has returned some task can go on without a failure, without a
new connection and without a grace period that expires. So nobody waits for
somebody who waits for him, and nobody goes round for ever.
-/

namespace Minotaur

/-! ### Budgets -/

/-- Its select may look for a worker once more before it sees the token. -/
def SupervisorPhase.remaining : SupervisorPhase → Nat
  | .Starting => 4
  | .Joining => 3
  | .Selecting => 2
  | .Draining _ => 1
  | .Returned _ | .Crashed => 0

def MaintenancePhase.remaining : MaintenancePhase → Nat
  | .Running => 1
  | .Returned | .Crashed => 0

def MainPhase.remaining : MainPhase → Nat
  | .Selecting => 3
  | .FinishingServer _ _ => 2
  | .FinishingLogger _ => 1
  | .Returned _ => 0

theorem SupervisorPhase.remaining_of_over {phase : SupervisorPhase} (hover : phase.over = true) :
    phase.remaining = 0 := by
  cases phase with
  | Returned | Crashed => rfl
  | Starting | Joining | Selecting | Draining => cases hover

theorem SupervisorPhase.remaining_pos {phase : SupervisorPhase} (hphase : phase.over = false) :
    0 < phase.remaining := by
  cases phase with
  | Returned | Crashed => cases hphase
  | Starting | Joining | Selecting | Draining => simp [SupervisorPhase.remaining]

/-- The workers the supervisor has not joined yet. -/
def SensorState.unjoined (state : SensorState) : List Worker :=
  state.workers.filter (· ∉ state.joined)

def SensorState.remaining (state : SensorState) : Nat :=
  state.server.remaining + state.maintenance.remaining + state.supervisor.remaining +
    state.unjoined.length + (if state.writerCrashed then 0 else 1) + state.main.remaining

def SensorLabel.ticks : SensorLabel → Bool
  | .server label => label.ticks
  | _ => false

/-- A step to the end: no failure, no new connection, no expired grace period. -/
def SensorLabel.draining : SensorLabel → Bool
  | .server label => label.draining
  | .management _ | .crashMaintenance | .crashWriter => false
  | .supervisor .startFailed | .supervisor .crash => false
  | .main (.signal _) | .main .graceExpired => false
  | .stopMaintenance | .supervisor _ | .dropState | .main _ => true

def ProcessState.remaining (state : ProcessState) : Nat :=
  state.sensor.remaining + (state.serve.map ServeState.remaining).getD 0

def ProcessLabel.ticks : ProcessLabel → Bool
  | .sensor label => label.ticks
  | .serve _ => false

def ProcessLabel.draining : ProcessLabel → Bool
  | .sensor label => label.draining
  | .serve label => label.draining

/-! ### Every step lowers the budget -/

namespace SensorState

variable {canonicalReason : UInt16 → Option String} {state next : SensorState}

theorem unjoined_congr (hworkers : next.workers = state.workers)
    (hjoined : next.joined = state.joined) : next.unjoined = state.unjoined := by
  unfold unjoined
  rw [hworkers, hjoined]

theorem unjoined_join {worker : Worker} {result : Except RunError Unit}
    (hresult : state.joinable worker = some result)
    (hworkers : next.workers = state.workers) (hjoined : next.joined = worker :: state.joined) :
    next.unjoined.length < state.unjoined.length := by
  unfold joinable at hresult
  split_ifs at hresult with hworker
  have hfilter : next.unjoined = state.unjoined.filter (· ≠ worker) := by
    unfold unjoined
    rw [hworkers, hjoined, List.filter_filter]
    simp
  have hmem : worker ∈ state.unjoined :=
    List.mem_filter.mpr ⟨hworker.1, by simpa using hworker.2⟩
  rw [hfilter]
  exact List.length_filter_lt_length_iff_exists.mpr ⟨worker, hmem, by simp⟩

/-- A select that polls the token now does not look for a worker again. -/
theorem not_poll {label : SupervisorLabel} (hshutdown : state.server.shutdown = true)
    (hphase : state.supervisor = .Selecting) (hstep : state.supervisorStep label = some next) :
    next.supervisor ≠ .Joining := by
  cases label with
  | pollShutdown =>
      simp only [supervisorStep, hphase, hshutdown, if_true, Option.some.injEq] at hstep
      rw [← hstep]
      exact fun h => (by cases h)
  | crash =>
      simp only [supervisorStep, hphase] at hstep
      split_ifs at hstep
      rw [← Option.some.inj hstep]
      exact fun h => (by cases h)
  | start | startFailed | join | joinPending | finish => simp [supervisorStep, hphase] at hstep

theorem remaining_of_supervisor {label : SupervisorLabel} (hshutdown : state.server.shutdown = true)
    (hstep : state.supervisorStep label = some next) : next.remaining < state.remaining := by
  have hphases : ∀ phase : SupervisorPhase, phase.remaining < state.supervisor.remaining →
      ({ state with supervisor := phase } : SensorState).remaining < state.remaining := by
    intro phase hless
    have hsame : ({ state with supervisor := phase } : SensorState).unjoined = state.unjoined := rfl
    simp only [remaining, hsame]
    omega
  have hjoins : ∀ worker result (phase : SupervisorPhase),
      state.joinable worker = some result → phase.remaining ≤ state.supervisor.remaining →
      ({ state with joined := worker :: state.joined, supervisor := phase } :
        SensorState).remaining < state.remaining := by
    intro worker result phase hresult hle
    have hless := @unjoined_join state
      { state with joined := worker :: state.joined, supervisor := phase } worker result hresult
      rfl rfl
    simp only [remaining]
    omega
  have hnot := fun hphase => not_poll hshutdown hphase hstep
  cases supervisorMove_of_step hstep with
  | start hphase => exact hphases _ (by simp [hphase, SupervisorPhase.remaining])
  | startFailed hphase => exact hphases _ (by simp [hphase, SupervisorPhase.remaining])
  | cancelled hphase _ => exact hphases (.Draining none) (by simp [hphase, SupervisorPhase.remaining])
  | poll hphase => exact absurd rfl (hnot hphase)
  | join hphase hresult =>
      exact hjoins _ _ (.Draining _) hresult (by simp [hphase, SupervisorPhase.remaining])
  | drain hphase hresult =>
      exact hjoins _ _ (.Draining _) hresult (by simp [hphase, SupervisorPhase.remaining])
  | joinPending hphase => exact hphases _ (by simp [hphase, SupervisorPhase.remaining])
  | finish hphase _ => exact hphases _ (by simp [hphase, SupervisorPhase.remaining])
  | crash hover => exact hphases _ (SupervisorPhase.remaining_pos hover)

theorem remaining_crashWriter (state : SensorState) :
    state.crashWriter.server.remaining ≤ state.server.remaining := by
  simp only [crashWriter, ServerState.remaining, LoggerState.remaining, Channel.dropReceiver,
    List.length_nil]
  omega

theorem remaining_of_main {label : MainLabel} (hmove : MainMove state label next) :
    next.remaining < state.remaining := by
  have hphases : ∀ (supervisor : SupervisorPhase) (main : MainPhase),
      supervisor.remaining ≤ state.supervisor.remaining →
      main.remaining < state.main.remaining →
      ({ state with supervisor := supervisor, main := main } : SensorState).remaining <
        state.remaining := by
    intro supervisor main hle hless
    have hsame : ({ state with supervisor := supervisor, main := main } : SensorState).unjoined =
        state.unjoined := rfl
    simp only [remaining, hsame]
    omega
  have hkept := Nat.le_refl state.supervisor.remaining
  cases hmove with
  | signal result hphase =>
      exact hphases _ (.FinishingServer result false) hkept (by simp [hphase, MainPhase.remaining])
  | @serverFirst result hphase _ =>
      exact hphases _ (.FinishingLogger result) hkept (by simp [hphase, MainPhase.remaining])
  | loggerFirst hphase _ =>
      exact hphases _ (.FinishingServer _ true) hkept (by simp [hphase, MainPhase.remaining])
  | @serverDone _ _ loggerFinished hphase _ =>
      refine hphases _ _ hkept ?_
      cases loggerFinished <;> simp [hphase, MainPhase.remaining]
  | loggerDone hphase _ | loggerExpired hphase _ =>
      exact hphases _ _ hkept (by simp [hphase, MainPhase.remaining])
  | @serverExpired _ loggerFinished hphase _ hover _ _ =>
      refine hphases _ _ ?_ ?_
      · rw [SupervisorPhase.remaining_of_over hover]
        exact Nat.zero_le _
      · cases loggerFinished <;> simp [hphase, MainPhase.remaining]
  | loggerAborted hphase =>
      have hle := remaining_crashWriter state
      have hsame : state.crashWriter.unjoined = state.unjoined := rfl
      have hmain : state.main.remaining = 1 := by rw [hphase]; rfl
      unfold remaining
      rw [hmain]
      change state.crashWriter.server.remaining + state.maintenance.remaining +
        state.supervisor.remaining + state.crashWriter.unjoined.length + 0 + 0 < _
      rw [hsame]
      omega

theorem remaining_of_step (hshutdown : state.server.shutdown = true) {label : SensorLabel}
    (hlabel : ∀ label', label ≠ .management label') (hticks : label.ticks = false)
    (hstep : state.step canonicalReason label = some next) : next.remaining < state.remaining := by
  have hsame : next.joined = state.joined → next.unjoined = state.unjoined :=
    unjoined_congr (move_of_step hstep).evolves.workers
  cases label with
  | server label =>
      cases move_of_step hstep with
      | server hallows hserver =>
          have hcancel : label ≠ .cancel := by
            rintro rfl
            cases hallows
          have hless := ServerState.remaining_of_step hshutdown hcancel hticks hserver
          unfold remaining
          rw [hsame rfl]
          dsimp only
          omega
  | management label => exact absurd rfl (hlabel label)
  | stopMaintenance =>
      cases move_of_step hstep with
      | stopMaintenance hrunning _ =>
          unfold remaining
          rw [hsame rfl, hrunning]
          simp only [MaintenancePhase.remaining]
          omega
  | crashMaintenance =>
      cases move_of_step hstep with
      | crashMaintenance hrunning =>
          unfold remaining
          rw [hsame rfl, hrunning]
          simp only [MaintenancePhase.remaining]
          omega
  | crashWriter =>
      cases move_of_step hstep with
      | crashWriter hrunning =>
          have hnot : state.writerCrashed = false := by
            unfold loggerResult at hrunning
            split_ifs at hrunning with hcrashed
            exact Bool.eq_false_iff.mpr hcrashed
          have hle := remaining_crashWriter state
          unfold remaining
          rw [hsame rfl, hnot]
          simp only [crashWriter, if_true, Bool.false_eq_true, if_false] at hle ⊢
          omega
  | supervisor label => exact remaining_of_supervisor hshutdown hstep
  | dropState =>
      cases move_of_step hstep with
      | dropState _ hlogger =>
          cases LoggerState.move_of_step hlogger with
          | dropSender hsenders =>
              unfold remaining
              rw [hsame rfl]
              simp only [ServerState.remaining, LoggerState.remaining, Channel.dropSender]
              omega
  | main label =>
      cases move_of_step hstep with
      | main hmove => exact remaining_of_main hmove

/-! ### Who can go on -/

/-- Some task of the sensor can go on to its end. -/
def Drains (canonicalReason : UInt16 → Option String) (state : SensorState) : Prop :=
  ∃ label : SensorLabel, label.draining = true ∧ (state.step canonicalReason label).isSome = true

theorem drains_of_server (h : state.server.Drains canonicalReason) :
    state.Drains canonicalReason := by
  obtain ⟨label, htask, hdraining, hsome⟩ := h
  refine ⟨.server label, hdraining, ?_⟩
  cases label with
  | endpoint | session => simpa [step, serverAllows] using hsome
  | cancel | evict | writer => cases htask

/-- The writer can go on, or it waits for a sender that is not dropped. -/
theorem writer_drains (hresult : state.loggerResult = none) :
    state.Drains canonicalReason ∨ state.server.logger.channel.senders ≠ 0 := by
  have hcrashed : state.writerCrashed = false := by
    unfold loggerResult at hresult
    split_ifs at hresult with hcrashed
    exact Bool.eq_false_iff.mpr hcrashed
  have hdrains : ∀ label : LoggerLabel SessionRecord, ServerState.writes label = true →
      ServerLabel.draining (.writer label) = true → (state.server.logger.step label).isSome = true →
      state.Drains canonicalReason := by
    intro label hwrites hdraining hsome
    refine ⟨.server (.writer label), hdraining, ?_⟩
    simp [step, serverAllows, hcrashed, ServerState.step, hwrites, hsome]
  cases hwriter : state.server.logger.writer with
  | Receiving =>
      cases hrecv : state.server.logger.channel.recv with
      | value record rx =>
          exact Or.inl (hdrains .recv rfl rfl (by simp [LoggerState.step, hwriter, hrecv]))
      | finished =>
          exact Or.inl (hdrains .recv rfl rfl (by simp [LoggerState.step, hwriter, hrecv]))
      | pending => exact Or.inr (Channel.recv_pending hrecv).2.2
  | Writing => exact Or.inl (hdrains .written rfl rfl (by simp [LoggerState.step, hwriter]))
  | Closed => exact Or.inl (hdrains .report rfl rfl (by simp [LoggerState.step, hwriter]))
  | Reported => exact Or.inl (hdrains .countLost rfl rfl (by simp [LoggerState.step, hwriter]))
  | Returned ok =>
      unfold loggerResult at hresult
      rw [hcrashed, hwriter] at hresult
      cases ok <;> simp at hresult

/-- While the logger is awaited, the state is dropped once nobody holds it. -/
theorem logger_drains (hshutdown : state.server.shutdown = true)
    (hmain : state.main.holdsState = false) (hover : state.supervisor.over = true)
    (hresult : state.loggerResult = none) : state.Drains canonicalReason := by
  obtain hdrains | hsenders := writer_drains hresult
  · exact hdrains
  by_cases hloops : ∀ loop ∈ state.server.loops, loop.phase.over = true
  · by_cases hsessions : ∀ task ∈ state.server.sessions, task.phase.left = true
    · have hunheld := unheld_iff.mpr ⟨hmain, hover, hloops, hsessions⟩
      exact ⟨.dropState, rfl, by simp [step, hunheld, LoggerState.step, hsenders]⟩
    · push Not at hsessions
      obtain ⟨task, htask, hleft⟩ := hsessions
      obtain ⟨index, hindex⟩ := List.getElem?_of_mem htask
      refine drains_of_server (ServerState.session_drains hshutdown hindex ?_)
      cases hphase : task.phase <;> simp_all [SessionPhase.left, SessionPhase.finished]
  · push Not at hloops
    obtain ⟨loop, hloop, hphase⟩ := hloops
    obtain ⟨index, hindex⟩ := List.getElem?_of_mem hloop
    exact drains_of_server (ServerState.loop_drains hshutdown hindex (by simpa using hphase))

/-- A worker that is not complete can go on, or it is `serve`. -/
theorem worker_drains (hshutdown : state.server.shutdown = true) {worker : Worker}
    (hworker : worker ∈ state.workers) (hresult : state.result worker = none) :
    state.Drains canonicalReason ∨
      ∃ phase, state.management = some phase ∧ phase.result = none := by
  cases worker with
  | endpoint index =>
      have hindex : index < state.server.loops.length := by
        simp only [workers, List.append_assoc, List.mem_append, List.mem_map, List.mem_range,
          List.mem_singleton, reduceCtorEq, or_false] at hworker
        obtain ⟨other, hother, heq⟩ | hmanagement := hworker
        · cases heq
          exact hother
        · split_ifs at hmanagement <;> simp at hmanagement
      have hloop := List.getElem?_eq_getElem hindex
      refine Or.inl (drains_of_server (ServerState.loop_drains hshutdown hloop ?_))
      rw [result, hloop, Option.bind_some] at hresult
      cases hphase : state.server.loops[index].phase <;> simp_all [LoopPhase.result]
  | management =>
      have hsome : state.management.isSome = true := by
        by_contra hnone
        simp [workers, hnone] at hworker
      obtain ⟨phase, hphase⟩ := Option.isSome_iff_exists.mp hsome
      rw [result, hphase, Option.bind_some] at hresult
      exact Or.inr ⟨phase, hphase, hresult⟩
  | maintenance =>
      have hrunning : state.maintenance = .Running := by
        cases hphase : state.maintenance <;> simp_all [result, MaintenancePhase.result]
      exact Or.inl ⟨.stopMaintenance, rfl, by simp [step, hrunning, hshutdown]⟩

/-- The supervisor can go on, or a worker it waits for can. -/
theorem supervisor_drains (hshutdown : state.server.shutdown = true)
    (hover : state.supervisor.over = false) :
    state.Drains canonicalReason ∨
      ∃ phase, state.management = some phase ∧ phase.result = none := by
  cases hphase : state.supervisor with
  | Starting => exact Or.inl ⟨.supervisor .start, rfl, by simp [step, supervisorStep, hphase]⟩
  | Selecting =>
      exact Or.inl ⟨.supervisor .pollShutdown, rfl, by simp [step, supervisorStep, hphase]⟩
  | Joining =>
      exact Or.inl ⟨.supervisor .joinPending, rfl, by simp [step, supervisorStep, hphase]⟩
  | Draining failure =>
      by_cases hall : ∀ worker ∈ state.workers, worker ∈ state.joined
      · exact Or.inl ⟨.supervisor .finish, rfl, by simpa [step, supervisorStep, hphase] using hall⟩
      · push Not at hall
        obtain ⟨worker, hworker, hnot⟩ := hall
        cases hresult : state.result worker with
        | none => exact worker_drains hshutdown hworker hresult
        | some result =>
            exact Or.inl ⟨.supervisor (.join worker), rfl,
              by simp [step, supervisorStep, hphase, joinable, hworker, hnot, hresult]⟩
  | Returned | Crashed =>
      rw [hphase] at hover
      cases hover

theorem serverResult_isSome (state : SensorState) :
    state.serverResult.isSome = state.supervisor.over := by
  unfold serverResult
  cases state.supervisor <;> rfl

/-- Until `run` has returned, it can go on or somebody it waits for can. -/
theorem main_drains (hshutdown : state.server.shutdown = true)
    (hover : state.main.holdsState = false → state.supervisor.over = true)
    (hreturned : ∀ outcome, state.main ≠ .Returned outcome) :
    state.Drains canonicalReason ∨
      ∃ phase, state.management = some phase ∧ phase.result = none := by
  have hserver : ∀ result, state.serverResult = some result → state.main.holdsState = true →
      state.Drains canonicalReason := by
    intro result hresult hholds
    refine ⟨.main .serverDone, rfl, ?_⟩
    cases hmain : state.main <;> simp_all [step, mainStep, MainPhase.holdsState]
  cases hmain : state.main.holdsState with
  | true =>
      cases hresult : state.serverResult with
      | some result => exact Or.inl (hserver result hresult hmain)
      | none =>
          refine supervisor_drains hshutdown ?_
          rw [← serverResult_isSome, hresult]
          rfl
  | false =>
      cases hresult : state.loggerResult with
      | some result =>
          refine Or.inl ⟨.main .loggerDone, rfl, ?_⟩
          cases hphase : state.main <;> simp_all [step, mainStep, MainPhase.holdsState]
      | none => exact Or.inl (logger_drains hshutdown hmain (hover hmain) hresult)

/-! ### Where `run` is -/

theorem SupervisorMove.not_over (hmove : SupervisorMove state next) :
    state.supervisor.over = false := by
  cases hmove with
  | start hphase | startFailed hphase | cancelled hphase _ | poll hphase | join hphase _
  | drain hphase _ | joinPending hphase | finish hphase _ => rw [hphase]; rfl
  | crash hover => exact hover

/-- `run` drops the state when the supervisor is over. -/
theorem Move.released {label : SensorLabel} (hmove : Move canonicalReason state label next)
    (h : state.main.holdsState = false → state.supervisor.over = true) :
    next.main.holdsState = false → next.supervisor.over = true := by
  cases hmove with
  | server | stopMaintenance | crashMaintenance | crashWriter | dropState => exact h
  | management hmove => cases hmove <;> exact h
  | supervisor hmove =>
      intro hmain
      have hrunning := hmove.not_over
      rw [h (by cases hmove <;> exact hmain)] at hrunning
      cases hrunning
  | main hmove =>
      have hresult : ∀ result, state.serverResult = some result →
          state.supervisor.over = true := by
        intro result hresult
        rw [← serverResult_isSome, hresult]
        rfl
      cases hmove with
      | signal | loggerFirst => exact fun h => (by cases h)
      | serverFirst _ hserver | serverDone _ hserver => exact fun _ => hresult _ hserver
      | serverExpired _ hover _ _ => exact fun _ => hover
      | loggerDone hphase _ | loggerExpired hphase _ | loggerAborted hphase =>
          exact fun _ => h (by rw [hphase]; rfl)

end SensorState

namespace ProcessState

variable {canonicalReason : UInt16 → Option String} {state next : ProcessState}

/-- A step that drops the state finds the supervisor over. -/
def Released (state : ProcessState) : Prop :=
  state.sensor.main.holdsState = false → state.sensor.supervisor.over = true

theorem Released.step {label : ProcessLabel} (h : state.Released)
    (hstep : state.step canonicalReason label = some next) : next.Released := by
  cases label with
  | sensor label =>
      obtain ⟨_, sensor, hsensor, rfl⟩ := sensorStep hstep
      exact (SensorState.move_of_step hsensor).released h
  | serve label =>
      obtain ⟨_, _, _, _, _, rfl⟩ := serveStep hstep
      exact h

/-- What holds from the moment the token is cancelled. -/
structure Stopping (state : ProcessState) : Prop where
  shutdown : state.sensor.server.shutdown = true
  viewed : state.Viewed
  released : state.Released

theorem Stopping.step {label : ProcessLabel} (h : state.Stopping)
    (hstep : state.step canonicalReason label = some next) : next.Stopping where
  shutdown := shutdown_of_step hstep h.shutdown
  viewed := (sensor_of_step h.viewed hstep).1
  released := h.released.step hstep

theorem stopping_of_run {config : Config} {endpoints : List EndpointConfig}
    {labels : List ProcessLabel}
    (hrun : Steps.run (step canonicalReason) (.new config endpoints) labels = some state)
    (hshutdown : state.sensor.server.shutdown = true) : state.Stopping where
  shutdown := hshutdown
  viewed := (sensor_of_run hrun).1
  released := @Steps.run_invariant _ _ (step canonicalReason) Released
    (fun _ _ _ h hstep => Released.step h hstep) _ _ _ (fun h => (by cases h)) hrun

theorem Stopping.remaining {label : ProcessLabel} (h : state.Stopping)
    (hticks : label.ticks = false) (hstep : state.step canonicalReason label = some next) :
    next.remaining < state.remaining := by
  cases label with
  | sensor label =>
      obtain ⟨hlabel, sensor, hsensor, rfl⟩ := sensorStep hstep
      exact Nat.add_lt_add_right
        (SensorState.remaining_of_step h.shutdown hlabel hticks hsensor) _
  | serve label =>
      obtain ⟨serve, after, token, hserve, hmove, rfl⟩ := serveStep hstep
      rw [h.shutdown] at hmove
      have hless := hmove.remaining
      have hview : state.sensor.management = some serve.phase.view := by
        rw [h.viewed, hserve]
        rfl
      have hworkers : (state.sensor.serves after token).workers = state.sensor.workers :=
        SensorState.workers_congr rfl (by rw [hview]; rfl)
      have hunjoined : (state.sensor.serves after token).unjoined = state.sensor.unjoined :=
        SensorState.unjoined_congr hworkers rfl
      have hsensor : (state.sensor.serves after token).remaining = state.sensor.remaining := by
        unfold SensorState.remaining
        rw [hunjoined]
        rfl
      unfold ProcessState.remaining
      rw [hsensor, hserve]
      exact Nat.add_lt_add_left hless _

/-- A tick only touches the limiter. -/
theorem remaining_of_tick {label : ProcessLabel} (hticks : label.ticks = true)
    (hstep : state.step canonicalReason label = some next) : next.remaining = state.remaining := by
  cases label with
  | serve label => cases hticks
  | sensor label =>
      obtain ⟨_, sensor, hsensor, rfl⟩ := sensorStep hstep
      cases SensorState.move_of_step hsensor with
      | @server label server _ hserver =>
          cases label with
          | evict now =>
              obtain rfl := Option.some.inj hserver
              rfl
          | cancel | writer | endpoint | session => cases hticks
      | management | stopMaintenance | crashMaintenance | crashWriter | supervisor | dropState
      | main => cases hticks

theorem not_ticks_of_draining {label : ProcessLabel} (hdraining : label.draining = true) :
    label.ticks = false := by
  cases label with
  | serve label => rfl
  | sensor label =>
      cases label with
      | server label =>
          cases label with
          | evict => cases hdraining
          | cancel | writer | endpoint | session => rfl
      | management | stopMaintenance | crashMaintenance | crashWriter | supervisor | dropState
      | main => rfl

/-- Until `run` has returned, some task can go on to its end. -/
theorem Stopping.drains (h : state.Stopping)
    (hreturned : ∀ outcome, state.sensor.main ≠ .Returned outcome) :
    ∃ (label : ProcessLabel) (next : ProcessState), label.draining = true ∧
      state.step canonicalReason label = some next := by
  obtain ⟨label, hdraining, hsome⟩ | ⟨phase, hphase, hresult⟩ :=
    @SensorState.main_drains canonicalReason _ h.shutdown h.released hreturned
  · obtain ⟨sensor, hsensor⟩ := Option.isSome_iff_exists.mp hsome
    refine ⟨.sensor label, { state with sensor := sensor }, hdraining, ?_⟩
    cases label with
    | management => cases hdraining
    | server | stopMaintenance | crashMaintenance | crashWriter | supervisor | dropState | main =>
        simp [ProcessState.step, hsensor]
  · rw [h.viewed] at hphase
    obtain ⟨serve, hserve, rfl⟩ := Option.map_eq_some_iff.mp hphase
    have hrunning : serve.phase.over = false := by
      cases hat : serve.phase <;> simp_all [ServePhase.view, ManagementPhase.result]
    obtain ⟨label, hdraining, hsome⟩ := ServeState.drains_of_running hrunning
    obtain ⟨⟨after, token⟩, hafter⟩ := Option.isSome_iff_exists.mp hsome
    refine ⟨.serve label, ⟨state.sensor.serves after token, some after⟩, hdraining, ?_⟩
    simp [ProcessState.step, hserve, h.shutdown, hafter]

/-- Steps to the end take `run` to its end. -/
theorem Stopping.returns (h : state.Stopping) :
    ∃ labels final, (∀ label ∈ labels, ProcessLabel.draining label = true) ∧
      Steps.run (ProcessState.step canonicalReason) state labels = some final ∧
      ∃ outcome, final.sensor.main = .Returned outcome := by
  refine @Steps.exists_run_to _ _ (ProcessState.step canonicalReason) Stopping
    (fun state => ∃ outcome, state.sensor.main = .Returned outcome)
    (fun label => ProcessLabel.draining label = true) ProcessState.remaining ?_ state h
  intro state h
  by_cases hreturned : ∃ outcome, state.sensor.main = .Returned outcome
  · exact Or.inl hreturned
  · obtain ⟨label, next, hdraining, hstep⟩ :=
      h.drains (fun outcome houtcome => hreturned ⟨outcome, houtcome⟩)
    have hticks := not_ticks_of_draining hdraining
    exact Or.inr ⟨label, next, hdraining, hstep, h.step hstep, h.remaining hticks hstep⟩

end ProcessState

open ProcessState in
/-- Once the token is cancelled, only `remaining` steps other than ticks are
left, whichever they are; and from wherever they lead, ordinary steps alone
take `run` to its end. -/
theorem shutdown_drains (canonicalReason : UInt16 → Option String) (config : Config)
    (endpoints : List EndpointConfig) (labels : List ProcessLabel) (state : ProcessState)
    (hrun : Steps.run (step canonicalReason) (.new config endpoints) labels = some state)
    (hshutdown : state.sensor.server.shutdown = true) (more : List ProcessLabel)
    (later : ProcessState) (hmore : Steps.run (step canonicalReason) state more = some later) :
    more.countP (!·.ticks) + later.remaining ≤ state.remaining ∧
      ∃ rest final, (∀ label ∈ rest, ProcessLabel.draining label = true) ∧
        Steps.run (step canonicalReason) later rest = some final ∧
        ∃ outcome, final.sensor.main = .Returned outcome := by
  have hstopping := stopping_of_run hrun hshutdown
  have hinv : ∀ state label next, Stopping state → step canonicalReason state label = some next →
      Stopping next := fun _ _ _ h hstep => h.step hstep
  refine ⟨Steps.run_measure hinv ?_ ?_ hstopping hmore, ?_⟩
  · intro state label next h hcounts hstep
    exact h.remaining (by simpa using hcounts) hstep
  · intro state label next _ hcounts hstep
    exact Nat.le_of_eq (remaining_of_tick (by simpa using hcounts) hstep)
  · exact (Steps.run_invariant hinv hstopping hmore).returns

/-- The signal comes while a session is active. -/
theorem shutdown_drains_session :
    ∃ state : ProcessState, ∃ rest final,
      Steps.run (ProcessState.step fun _ => none) (.new (sensorOf .Raw) [decoy .Raw])
        ((oneExit.take 10).map .sensor) = some state ∧
      (∀ label ∈ rest, ProcessLabel.draining label = true) ∧
      Steps.run (ProcessState.step fun _ => none) state rest = some final ∧
      ∃ outcome, final.sensor.main = .Returned outcome := by
  have hend : (Steps.run (ProcessState.step fun _ => none)
      (ProcessState.new (sensorOf .Raw) [decoy .Raw]) ((oneExit.take 10).map .sensor)).any
        (fun state => decide (state.sensor.server.shutdown = true)) = true := by
    decide +kernel
  obtain ⟨state, hrun, hover⟩ := (Option.any_eq_true _ _).mp hend
  obtain ⟨_, rest, final, hrest, hfinal, houtcome⟩ :=
    shutdown_drains _ _ _ _ state hrun (of_decide_eq_true hover) [] state rfl
  exact ⟨state, rest, final, hrun, hrest, hfinal, houtcome⟩

end Minotaur
