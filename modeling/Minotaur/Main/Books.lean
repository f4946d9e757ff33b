import Minotaur.Logger.Closing
import Minotaur.Main.Supervision
import Minotaur.Server.Accounts

/-!
The books of the server and of the logger in the process. As long as no
endpoint loop has crashed every step of the server is orderly, so its books
balance. As long as the writer has not crashed the process drives the logger as
its producers do, and the last sender goes away only after the last session.
-/

namespace Minotaur

namespace ServerState

variable {canonicalReason : UInt16 → Option String} {state next : ServerState}

theorem orderly_of_step {label : ServerLabel}
    (hstep : state.step canonicalReason label = some next)
    (hrunning : ∀ loop ∈ next.loops, loop.phase.crashed = false)
    (hpanic : ∀ index, label ≠ .session index .panic) : label.orderly = true := by
  cases label with
  | cancel | evict | writer => rfl
  | endpoint index label =>
      obtain ⟨loop, hloop, hmove⟩ := Option.bind_eq_some_iff.mp hstep
      cases loopMove_of_step hmove with
      | crash _ =>
          have hlength := (List.getElem?_eq_some_iff.mp hloop).1
          cases hrunning _ (List.mem_set hlength _)
      | cancelled | poll | join | joinPanicked | joinPending | accept | acceptFailed
      | acceptPending | ignored | notIgnored | limited | allowed | full | acquire | spawn
      | drain | finish => rfl
  | session index label =>
      obtain ⟨task, htask, hmove⟩ := Option.bind_eq_some_iff.mp hstep
      cases sessionMove_of_step canonicalReason hmove with
      | panic _ => exact absurd rfl (hpanic index)
      | abort _ howner =>
          obtain ⟨owner, howner, hcrashed⟩ := (Option.any_eq_true _ _).mp howner
          rw [hrunning owner (List.mem_of_getElem? howner)] at hcrashed
          cases hcrashed
      | start | close | log | dropGuard | finish => rfl

/-- Once no loop and no session can act any more nobody does. -/
theorem left_of_step {label : ServerLabel} (hstep : state.step canonicalReason label = some next)
    (hloops : ∀ loop ∈ state.loops, loop.phase.over = true)
    (hsessions : ∀ task ∈ state.sessions, task.phase.left = true) :
    (∀ loop ∈ next.loops, loop.phase.over = true) ∧
      ∀ task ∈ next.sessions, task.phase.left = true := by
  cases label with
  | cancel | evict =>
      obtain rfl := Option.some.inj hstep
      exact ⟨hloops, hsessions⟩
  | writer label =>
      simp only [ServerState.step] at hstep
      split_ifs at hstep
      obtain ⟨logger, _, rfl⟩ := Option.map_eq_some_iff.mp hstep
      exact ⟨hloops, hsessions⟩
  | endpoint index label =>
      obtain ⟨loop, hloop, hmove⟩ := Option.bind_eq_some_iff.mp hstep
      have hover := hloops loop (List.mem_of_getElem? hloop)
      cases loopMove_of_step hmove <;> simp_all
  | session index label =>
      obtain ⟨task, htask, hmove⟩ := Option.bind_eq_some_iff.mp hstep
      have hleft := hsessions task (List.mem_of_getElem? htask)
      cases sessionMove_of_step canonicalReason hmove with
      | finish _ => exact ⟨hloops, Ledger.forall_mem_set hsessions index rfl⟩
      | panic _ => exact ⟨hloops, Ledger.forall_mem_set hsessions index rfl⟩
      | start hphase | close hphase _ | log hphase | dropGuard hphase =>
          rw [hphase] at hleft
          cases hleft
      | abort hphase _ =>
          cases htaskPhase : task.phase <;> simp_all [SessionPhase.left, SessionPhase.awaits]

/-- What a step does to the logger. -/
theorem logger_of_step {label : ServerLabel}
    (hstep : state.step canonicalReason label = some next) :
    next.logger = state.logger ∨
      (∃ label', writes label' = true ∧ state.logger.Move label' next.logger) ∨
      ∃ task ∈ state.sessions, task.phase = .Counted ∧ ∃ record,
        next.logger = state.logger.offer record := by
  obtain ⟨_, hlogger⟩ | ⟨label', hwrites, _, hlogger⟩ |
    ⟨task, htask, hphase, record, _, hlogger⟩ := logged_of_step hstep
  · exact Or.inl hlogger
  · exact Or.inr (Or.inl ⟨label', hwrites, LoggerState.move_of_step hlogger⟩)
  · exact Or.inr (Or.inr ⟨task, htask, hphase, record, hlogger⟩)

end ServerState

namespace SensorState

variable {canonicalReason : UInt16 → Option String} {config : Config} {state next : SensorState}
  {label : SensorLabel}

/-! ### The server -/

/-- A crashed loop stays one. -/
theorem Move.running (hmove : Move canonicalReason state label next)
    (hrunning : ∀ loop ∈ next.server.loops, loop.phase.crashed = false) :
    ∀ loop ∈ state.server.loops, loop.phase.crashed = false := by
  cases hmove with
  | server hallows hserver =>
      intro loop hloop
      by_contra hcrashed
      have hover : loop.phase.over = true := by
        cases hphase : loop.phase <;> simp_all
      obtain ⟨index, hindex⟩ := List.getElem?_of_mem hloop
      have hadvances := advances_of_allowed hallows hserver
      exact hcrashed (hrunning loop (List.mem_of_getElem? (hadvances.over hindex hover)))
  | management hmove => cases hmove <;> exact hrunning
  | stopMaintenance | crashMaintenance | crashWriter | dropState => exact hrunning
  | supervisor hmove => cases hmove <;> exact hrunning
  | main hmove => cases hmove <;> exact hrunning

theorem reconciled_of_same {server next : ServerState}
    (h : server.Reconciled canonicalReason config)
    (hnext : next = { server with logger := next.logger, shutdown := next.shutdown }) :
    next.Reconciled canonicalReason config := by
  rw [hnext]
  exact { h with }

theorem Move.reconciled (hmove : Move canonicalReason state label next)
    (h : state.server.Reconciled canonicalReason config) (hpanic : label.noPanic = true)
    (hrunning : ∀ loop ∈ next.server.loops, loop.phase.crashed = false) :
    next.server.Reconciled canonicalReason config := by
  cases hmove with
  | server _ hserver =>
      apply h.step (ServerState.orderly_of_step hserver hrunning _) hserver
      rintro index rfl
      cases hpanic
  | management hmove => cases hmove <;> exact reconciled_of_same h rfl
  | stopMaintenance | crashMaintenance => exact h
  | crashWriter => exact reconciled_of_same h rfl
  | supervisor hmove => cases hmove <;> exact reconciled_of_same h rfl
  | dropState => exact reconciled_of_same h rfl
  | main hmove => cases hmove <;> exact reconciled_of_same h rfl

theorem reconciled_of_run {endpoints : List EndpointConfig} {labels : List SensorLabel}
    (hrun : Steps.run (SensorState.step canonicalReason) (.new config endpoints) labels =
      some state) (hpanic : ∀ label ∈ labels, label.noPanic = true)
    (hrunning : ∀ loop ∈ state.server.loops, loop.phase.crashed = false) :
    state.server.Reconciled canonicalReason config := by
  refine @Steps.run_invariant_of _ _ (SensorState.step canonicalReason)
    (fun state => (∀ loop ∈ state.server.loops, loop.phase.crashed = false) →
      state.server.Reconciled canonicalReason config) _ ?_ _ hpanic _ _ ?_ hrun hrunning
  · intro state label next hpanic h hstep hrunning
    have hmove := move_of_step hstep
    exact hmove.reconciled (h (hmove.running hrunning)) hpanic hrunning
  · intro _
    exact ServerState.reconciled_new canonicalReason config endpoints

theorem Move.offered (hmove : Move canonicalReason state label next)
    (h : state.server.Offered) : next.server.Offered := by
  cases hmove with
  | server _ hserver => exact h.step hserver
  | management hmove => cases hmove <;> exact ⟨h.calls, h.accepted⟩
  | stopMaintenance | crashMaintenance | crashWriter => exact ⟨h.calls, h.accepted⟩
  | supervisor hmove => cases hmove <;> exact ⟨h.calls, h.accepted⟩
  | dropState _ hlogger =>
      cases LoggerState.move_of_step hlogger with
      | dropSender _ => exact ⟨h.calls, h.accepted⟩
  | main hmove => cases hmove <;> exact ⟨h.calls, h.accepted⟩

/-- The logger was called once for each logged record, and what it accepted is
among them in the same order. -/
theorem offered_of_run {endpoints : List EndpointConfig} {labels : List SensorLabel}
    (hrun : Steps.run (SensorState.step canonicalReason) (.new config endpoints) labels =
      some state) : state.server.Offered :=
  @Steps.run_invariant _ _ (SensorState.step canonicalReason) (fun state => state.server.Offered)
    (fun _ _ _ h hstep => (move_of_step hstep).offered h) _ _ _
    (ServerState.offered_new config endpoints) hrun

/-! ### The logger -/

theorem unheld_iff : state.unheld = true ↔
    state.main.holdsState = false ∧ state.supervisor.over = true ∧
      (∀ loop ∈ state.server.loops, loop.phase.over = true) ∧
      ∀ task ∈ state.server.sessions, task.phase.left = true := by
  simp [unheld, and_assoc]

/-- Nobody gets hold of the state again. -/
theorem Move.unheld (hmove : Move canonicalReason state label next)
    (hunheld : state.unheld = true) : next.unheld = true := by
  obtain ⟨hmain, hsupervisor, hloops, hsessions⟩ := unheld_iff.mp hunheld
  cases hmove with
  | server _ hserver =>
      exact unheld_iff.mpr ⟨hmain, hsupervisor, ServerState.left_of_step hserver hloops hsessions⟩
  | management hmove => cases hmove <;> exact hunheld
  | stopMaintenance | crashMaintenance | crashWriter | dropState => exact hunheld
  | supervisor hmove =>
      cases hmove with
      | start hphase | startFailed hphase | cancelled hphase _ | poll hphase | join hphase _
      | drain hphase _ | joinPending hphase | finish hphase _ =>
          rw [hphase] at hsupervisor
          cases hsupervisor
      | crash hover =>
          rw [hover] at hsupervisor
          cases hsupervisor
  | main hmove =>
      cases hmove with
      | signal _ hphase | serverFirst hphase _ | loggerFirst hphase _ | serverDone hphase _
      | serverExpired hphase _ _ _ =>
          rw [hphase] at hmain
          cases hmain
      | loggerDone | loggerExpired | loggerAborted =>
          exact unheld_iff.mpr ⟨rfl, hsupervisor, hloops, hsessions⟩

structure Observed (bufferSize : Nat) (state : SensorState) : Prop where
  logger : state.server.logger.Undisturbed bufferSize
  held : state.server.logger.channel.senders = 0 → state.unheld = true

/-- A session that calls `log` holds the state. -/
theorem Observed.senders {bufferSize : Nat} (h : state.Observed bufferSize) {task : SessionTask}
    (htask : task ∈ state.server.sessions) (hphase : task.phase = .Counted) :
    state.server.logger.channel.senders ≠ 0 := by
  intro hsenders
  have hleft := (unheld_iff.mp (h.held hsenders)).2.2.2 task htask
  rw [hphase] at hleft
  cases hleft

theorem Move.observed {bufferSize : Nat} (hmove : Move canonicalReason state label next)
    (h : state.Observed bufferSize) (hcrashed : next.writerCrashed = false) :
    next.Observed bufferSize := by
  have hunheld := hmove.unheld
  cases hmove with
  | server _ hserver =>
      obtain hsame | ⟨label', hwrites, hlogger⟩ | ⟨task, htask, hphase, record, hoffer⟩ :=
        ServerState.logger_of_step hserver
      · refine ⟨?_, fun hsenders => hunheld (h.held ?_)⟩
        · exact hsame ▸ h.logger
        · rw [← hsame]
          exact hsenders
      · refine ⟨h.logger.move hlogger, fun hsenders => hunheld (h.held ?_)⟩
        rw [← hlogger.senders]
        · exact hsenders
        · rintro rfl
          cases hwrites
        · rintro rfl
          cases hwrites
      · have hheld := h.senders htask hphase
        refine ⟨?_, fun hsenders => absurd ?_ hheld⟩
        · exact hoffer ▸ h.logger.offer hheld record
        · rw [← LoggerState.senders_offer _ record, ← hoffer]
          exact hsenders
  | management hmove => cases hmove <;> exact ⟨h.logger, h.held⟩
  | stopMaintenance | crashMaintenance => exact ⟨h.logger, h.held⟩
  | crashWriter => cases hcrashed
  | supervisor hmove =>
      cases hmove with
      | start _ ready => exact ⟨h.logger.ready ready, fun hsenders => hunheld (h.held hsenders)⟩
      | cancelled | join =>
          exact ⟨h.logger.ready 0, fun hsenders => hunheld (h.held hsenders)⟩
      | startFailed | poll | drain | joinPending | finish | crash =>
          exact ⟨h.logger, fun hsenders => hunheld (h.held hsenders)⟩
  | dropState hnobody hlogger =>
      exact ⟨h.logger.move (LoggerState.move_of_step hlogger), fun _ => hunheld hnobody⟩
  | main hmove =>
      cases hmove with
      | signal | serverFirst | loggerFirst =>
          exact ⟨h.logger.ready 0, fun hsenders => hunheld (h.held hsenders)⟩
      | serverDone | loggerDone | serverExpired | loggerExpired =>
          exact ⟨h.logger, fun hsenders => hunheld (h.held hsenders)⟩
      | loggerAborted => cases hcrashed

/-- A crashed writer stays one. -/
theorem Move.writerCrashed (hmove : Move canonicalReason state label next)
    (hcrashed : next.writerCrashed = false) : state.writerCrashed = false := by
  cases hmove with
  | server | stopMaintenance | crashMaintenance | dropState => exact hcrashed
  | management hmove => cases hmove <;> exact hcrashed
  | crashWriter => cases hcrashed
  | supervisor hmove => cases hmove <;> exact hcrashed
  | main hmove =>
      cases hmove with
      | loggerAborted => cases hcrashed
      | signal | serverFirst | loggerFirst | serverDone | loggerDone | serverExpired
      | loggerExpired => exact hcrashed

theorem observed_of_run {endpoints : List EndpointConfig} {labels : List SensorLabel}
    (hrun : Steps.run (SensorState.step canonicalReason) (.new config endpoints) labels =
      some state) (hcrashed : state.writerCrashed = false) :
    state.Observed config.logging.bufferSize := by
  refine @Steps.run_invariant _ _ (SensorState.step canonicalReason)
    (fun state => state.writerCrashed = false → state.Observed config.logging.bufferSize)
    ?_ _ _ _ ?_ hrun hcrashed
  · intro state label next h hstep hcrashed
    have hmove := move_of_step hstep
    exact hmove.observed (h (hmove.writerCrashed hcrashed)) hcrashed
  · intro _
    exact ⟨LoggerState.undisturbed_spawn _, nofun⟩

end SensorState

end Minotaur
