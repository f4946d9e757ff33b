import Minotaur.Main.Books

/-!
What an `Ok` from `main::run` promises. The outcome keeps the first error, so
an `Ok` has come through every stage: a signal ended the select, both tasks
returned `Ok`, and no grace period expired. Then every loop has drained its
sessions, and the writer ended only after the last sender had gone.
-/

namespace Minotaur

namespace SensorState

variable {canonicalReason : UInt16 → Option String} {config : Config} {state next : SensorState}
  {labels : List SensorLabel} {label : SensorLabel}

theorem serverResult_eq_ok :
    state.serverResult = some (.ok ()) ↔ state.supervisor = .Returned (.ok ()) := by
  unfold serverResult
  cases state.supervisor <;> simp

theorem loggerResult_eq_ok : state.loggerResult = some (.ok ()) ↔
    state.writerCrashed = false ∧ state.server.logger.writer = .Returned true := by
  unfold loggerResult
  cases hcrashed : state.writerCrashed with
  | true => simp
  | false =>
      cases hwriter : state.server.logger.writer with
      | Returned ok => cases ok <;> simp
      | Receiving | Writing | Closed | Reported => simp

/-! ### Results stay -/

theorem Move.serverResult (hmove : Move canonicalReason state label next)
    (hresult : state.serverResult = some (.ok ())) : next.serverResult = some (.ok ()) := by
  rw [serverResult_eq_ok] at hresult ⊢
  obtain ⟨hsupervisor, _⟩ | ⟨hover, _⟩ | ⟨_, _, hmove⟩ := hmove.supervisor_cases
  · rw [hsupervisor, hresult]
  · rw [hresult] at hover
    cases hover
  · cases hmove with
    | start hphase | startFailed hphase | cancelled hphase _ | poll hphase | join hphase _
    | drain hphase _ | joinPending hphase | finish hphase _ =>
        rw [hphase] at hresult
        cases hresult
    | crash hover =>
        rw [hresult] at hover
        cases hover

theorem Move.loggerResult (hmove : Move canonicalReason state label next)
    (hlabel : ∀ label', label ≠ .main label')
    (hresult : state.loggerResult = some (.ok ())) : next.loggerResult = some (.ok ()) := by
  rw [loggerResult_eq_ok] at hresult ⊢
  cases hmove with
  | server _ hserver =>
      refine ⟨hresult.1, ?_⟩
      obtain hsame | ⟨label', hwrites, hlogger⟩ | ⟨_, _, _, record, hoffer⟩ :=
        ServerState.logger_of_step hserver
      · exact hsame ▸ hresult.2
      · exact hlogger.returned hresult.2
      · exact hoffer ▸ ((LoggerState.offer_keeps _ record).2.1.trans hresult.2)
  | management hmove => cases hmove <;> exact hresult
  | stopMaintenance | crashMaintenance => exact hresult
  | crashWriter hrunning =>
      rw [loggerResult_eq_ok.mpr hresult] at hrunning
      cases hrunning
  | supervisor hmove => cases hmove <;> exact hresult
  | dropState _ hlogger =>
      cases LoggerState.move_of_step hlogger with
      | dropSender _ => exact hresult
  | main _ => exact absurd rfl (hlabel _)

/-! ### The stages of `run` -/

/-- A signal was received, and no grace period has expired. -/
def Clean (labels : List SensorLabel) : Prop :=
  .main (.signal (.ok ())) ∈ labels ∧ .main .graceExpired ∉ labels

/-- How the process came to where `run` is. -/
def History (labels : List SensorLabel) (state : SensorState) : Prop :=
  match state.main with
  | .Selecting => .main .graceExpired ∉ labels
  | .FinishingServer (.ok _) loggerFinished => loggerFinished = false ∧ Clean labels
  | .FinishingLogger (.ok _) => Clean labels ∧ state.serverResult = some (.ok ())
  | .Returned (.ok _) =>
      Clean labels ∧ state.serverResult = some (.ok ()) ∧ state.loggerResult = some (.ok ())
  | _ => True

theorem clean_append (hclean : Clean labels) (hlabel : label ≠ .main .graceExpired) :
    Clean (labels ++ [label]) := by
  refine ⟨List.mem_append_left _ hclean.1, ?_⟩
  rw [List.mem_append, List.mem_singleton, not_or]
  exact ⟨hclean.2, hlabel.symm⟩

/-- A step of somebody else. -/
theorem Move.history_other (hmove : Move canonicalReason state label next)
    (hlabel : ∀ label', label ≠ .main label') (hmain : next.main = state.main)
    (h : History labels state) : History (labels ++ [label]) next := by
  unfold History at h ⊢
  rw [hmain]
  cases hphase : state.main with
  | Selecting =>
      rw [hphase] at h
      rw [List.mem_append, List.mem_singleton, not_or]
      exact ⟨h, (hlabel _).symm⟩
  | FinishingServer outcome loggerFinished =>
      cases outcome with
      | error error => trivial
      | ok value =>
          rw [hphase] at h
          exact ⟨h.1, clean_append h.2 (hlabel _)⟩
  | FinishingLogger outcome =>
      cases outcome with
      | error error => trivial
      | ok value =>
          rw [hphase] at h
          exact ⟨clean_append h.1 (hlabel _), hmove.serverResult h.2⟩
  | Returned outcome =>
      cases outcome with
      | error error => trivial
      | ok value =>
          rw [hphase] at h
          exact ⟨clean_append h.1 (hlabel _), hmove.serverResult h.2.1,
            hmove.loggerResult hlabel h.2.2⟩

theorem MainMove.history {label : MainLabel} (hmove : MainMove state label next)
    (hsupervised : state.Supervised) (h : History labels state) :
    History (labels ++ [.main label]) next := by
  unfold History at h
  cases hmove with
  | signal result hphase =>
      cases result with
      | error error => trivial
      | ok value =>
          rw [hphase] at h
          refine ⟨rfl, List.mem_append_right _ List.mem_cons_self, ?_⟩
          rw [List.mem_append, List.mem_singleton, not_or]
          exact ⟨h, nofun⟩
  | @serverFirst result hphase hresult =>
      cases result with
      | error error => trivial
      | ok value =>
          exact absurd (serverResult_eq_ok.mp hresult) (hsupervised.not_alone hphase)
  | loggerFirst hphase hresult => trivial
  | @serverDone outcome result loggerFinished hphase hresult =>
      rw [hphase] at h
      cases outcome with
      | error error => cases loggerFinished <;> trivial
      | ok value =>
          obtain ⟨rfl, hclean⟩ := h
          cases result with
          | error error => trivial
          | ok value => exact ⟨clean_append hclean nofun, hresult⟩
  | @loggerDone outcome result hphase hresult =>
      rw [hphase] at h
      cases outcome with
      | error error => trivial
      | ok value =>
          cases result with
          | error error => trivial
          | ok value => exact ⟨clean_append h.1 nofun, h.2, hresult⟩
  | @serverExpired outcome loggerFinished hphase supervisor hover hkept haborted =>
      cases outcome <;> cases loggerFinished <;> trivial
  | @loggerExpired outcome hphase hresult => cases outcome <;> trivial
  | @loggerAborted outcome hphase => cases outcome <;> trivial

theorem Move.history (hmove : Move canonicalReason state label next)
    (hsupervised : state.Supervised) (h : History labels state) :
    History (labels ++ [label]) next := by
  have hother := hmove
  cases hmove with
  | server | stopMaintenance | crashMaintenance | crashWriter | dropState =>
      exact hother.history_other nofun rfl h
  | management hmove => cases hmove <;> exact hother.history_other nofun rfl h
  | supervisor hmove => cases hmove <;> exact hother.history_other nofun rfl h
  | main hmove => exact hmove.history hsupervised h

theorem history_of_run {endpoints : List EndpointConfig}
    (hrun : Steps.run (SensorState.step canonicalReason) (.new config endpoints) labels =
      some state) : History labels state := by
  have hboth : state.Supervised ∧ History labels state := by
    refine @Steps.run_history _ _ (SensorState.step canonicalReason)
      (fun labels state => state.Supervised ∧ History labels state) _ ?_ ?_ _ _ hrun
    · exact ⟨supervised_new config endpoints, List.not_mem_nil⟩
    · intro labels label middle next h hstep
      exact ⟨h.1.step hstep, (move_of_step hstep).history h.1 h.2⟩
  exact hboth.2

end SensorState

open SensorState in
/-- A successful exit loses no record without counting it: every admitted
session was closed and offered to the logger once, and whatever the writer did
not write had found the queue full. -/
theorem successful_exit_accounted (canonicalReason : UInt16 → Option String) (config : Config)
    (endpoints : List EndpointConfig) (labels : List SensorLabel) (state : SensorState)
    (hrun : Steps.run (SensorState.step canonicalReason) (SensorState.new config endpoints) labels =
      some state)
    (hpanic : ∀ label ∈ labels, label.noPanic = true)
    (hreturned : state.main = .Returned (.ok ())) :
    (.main (.signal (.ok ())) ∈ labels ∧ .main .graceExpired ∉ labels ∧
      state.serverResult = some (.ok ()) ∧ state.loggerResult = some (.ok ())) ∧
    (state.server.sessions.map (·.arrival) = state.server.spawnedArrivals ∧
      (∀ task ∈ state.server.sessions, task.phase = .Ended) ∧
      state.server.logged.Perm (state.server.sessions.map (·.record canonicalReason config)) ∧
      state.server.logger.calls = state.server.sessions.length ∧
      state.server.logger.accepted.Sublist state.server.logged) ∧
    ∑ protocol, state.server.metrics.connectionsTotal protocol = state.server.sessions.length ∧
    ∑ label, state.server.metrics.closedSessionsTotal label = state.server.sessions.length ∧
    state.server.logger.metrics.loggerWrittenTotal +
        state.server.logger.metrics.loggerDroppedTotal .queueFull =
      state.server.sessions.length ∧
    state.server.logger.metrics.loggerDroppedTotal .channelClosed = 0 ∧
    state.server.logger.metrics.loggerDroppedTotal .writerError = 0 := by
  have hhistory := history_of_run hrun
  unfold History at hhistory
  rw [hreturned] at hhistory
  obtain ⟨⟨hsignal, hgrace⟩, hserver, hlogger⟩ := hhistory
  -- The supervisor has joined every loop, and none had crashed.
  have hloops := (supervised_of_run hrun).loops (serverResult_eq_ok.mp hserver)
  have hrunning : ∀ loop ∈ state.server.loops, loop.phase.crashed = false := by
    intro loop hloop
    rw [hloops loop hloop]
    rfl
  have hover : ∀ loop ∈ state.server.loops, loop.phase.over = true := by
    intro loop hloop
    rw [hloops loop hloop]
    rfl
  have hbooks := reconciled_of_run hrun hpanic hrunning
  have hoffered := offered_of_run hrun
  have hended := hbooks.all_ended hover
  have hlogged : state.server.logged.Perm
      (state.server.sessions.map (·.record canonicalReason config)) := by
    have hall : state.server.sessions.filter (·.phase.logged) = state.server.sessions := by
      apply List.filter_eq_self.mpr
      intro task htask
      rw [hended task htask]
      rfl
    have hperm := hbooks.logged_perm
    rw [hall] at hperm
    exact hperm
  have hcalls : state.server.logger.calls = state.server.sessions.length := by
    rw [hoffered.calls, hlogged.length_eq, List.length_map]
  -- The writer has met the end of a queue that nobody closed.
  obtain ⟨hcrashed, hwriter⟩ := loggerResult_eq_ok.mp hlogger
  obtain ⟨hwritten, hrefused, hlost⟩ := (observed_of_run hrun hcrashed).logger.returned hwriter
  exact ⟨⟨hsignal, hgrace, hserver, hlogger⟩,
    ⟨hbooks.spawned, hended, hlogged, hcalls, hoffered.accepted⟩,
    hbooks.connections_returned hover, hbooks.closed_returned hover, hwritten.symm.trans hcalls,
    hrefused, hlost⟩

/-- One session is active when the signal comes; its record is written. -/
def oneExit : List SensorLabel :=
  [.supervisor .start, .server (.endpoint 0 .pollShutdown), .server (.endpoint 0 .joinPending),
    .server (.endpoint 0 (.accept (client "" none))), .server (.endpoint 0 .checkIgnored),
    .server (.endpoint 0 (.checkLimiter 0)), .server (.endpoint 0 .acquire),
    .server (.endpoint 0 .spawn), .server (.session 0 .start), .main (.signal (.ok ())),
    .server (.session 0 .close), .server (.session 0 .log), .server (.session 0 .dropGuard),
    .server (.session 0 .finish), .server (.endpoint 0 .pollShutdown),
    .server (.endpoint 0 (.join 0)), .server (.endpoint 0 .finish), .stopMaintenance,
    .supervisor .pollShutdown, .supervisor (.join (.endpoint 0)), .supervisor (.join .maintenance),
    .supervisor .finish, .main .serverDone, .dropState, .server (.writer .recv),
    .server (.writer .written), .server (.writer .recv), .main .loggerDone]

theorem successful_exit_accounted_session :
    ∃ state, Steps.run (SensorState.step fun _ => none)
        (SensorState.new (sensorOf .Raw) [decoy .Raw]) oneExit = some state ∧
      state.main = .Returned (.ok ()) ∧ state.server.sessions.length = 1 ∧
      state.server.logger.calls = 1 ∧
      ∑ protocol, state.server.metrics.connectionsTotal protocol = 1 ∧
      ∑ label, state.server.metrics.closedSessionsTotal label = 1 ∧
      state.server.logger.metrics.loggerWrittenTotal = 1 ∧
      state.server.logger.metrics.loggerDroppedTotal .queueFull = 0 ∧
      state.server.logger.metrics.loggerDroppedTotal .channelClosed = 0 ∧
      state.server.logger.metrics.loggerDroppedTotal .writerError = 0 := by
  have hend : (Steps.run (SensorState.step fun _ => none)
      (SensorState.new (sensorOf .Raw) [decoy .Raw]) oneExit).any (fun state => decide (
        state.main = .Returned (.ok ()) ∧ state.server.sessions.length = 1 ∧
        state.server.logger.metrics.loggerWrittenTotal = 1)) = true := by
    decide +kernel
  obtain ⟨state, hrun, hfacts⟩ := (Option.any_eq_true _ _).mp hend
  obtain ⟨hreturned, hsessions, hwritten⟩ := of_decide_eq_true hfacts
  have hpanic : ∀ label ∈ oneExit, label.noPanic = true := by decide
  obtain ⟨_, ⟨_, _, _, hcalls, _⟩, hconnections, hclosed, hsum, hrefused, hlost⟩ :=
    successful_exit_accounted _ _ _ _ _ hrun hpanic hreturned
  rw [hsessions] at hcalls hconnections hclosed hsum
  exact ⟨state, hrun, hreturned, hsessions, hcalls, hconnections, hclosed, hwritten, by omega,
    hrefused, hlost⟩

end Minotaur
