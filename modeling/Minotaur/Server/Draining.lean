import Minotaur.Logger.Moves
import Minotaur.Server.Moves

/-!
How much the server still has to do once the token is cancelled. Every phase of
a task has a number of steps that it can take at most, what it spawns or sends
included, and `remaining` adds them up with the queue of the writer. A step
lowers it, whoever takes it and also if it is a failure; only a tick of the
limiter leaves it alone. And a task that is not over can take a step of its own
(`draining`), without a new connection and without a failure.
-/

namespace Minotaur

open Ledger (total total_append total_set_sub)

/-! ### Budgets -/

def Writer.remaining {ρ : Type*} : Writer ρ → Nat
  | .Writing _ => 4
  | .Receiving => 3
  | .Closed _ => 2
  | .Reported _ => 1
  | .Returned _ => 0

/-- A queued record is received and written, and a sender is dropped. -/
def LoggerState.remaining {ρ : Type*} (logger : LoggerState ρ) : Nat :=
  2 * logger.channel.queue.length + logger.channel.senders + logger.writer.remaining

def SessionPhase.remaining : SessionPhase → Nat
  | .Spawned => 7
  | .Active => 6
  | .Counted => 5
  | .Logged => 2
  | .Released => 1
  | .Ended | .Unwound => 0

theorem SessionPhase.remaining_pos {phase : SessionPhase} (hphase : phase.finished = false) :
    0 < phase.remaining := by
  cases phase with
  | Ended | Unwound => cases hphase
  | Spawned | Active | Counted | Logged | Released => simp [SessionPhase.remaining]

def SessionTask.remaining (task : SessionTask) : Nat :=
  task.phase.remaining + if task.joined then 0 else 1

/-- A loop that has not seen the token yet may still spawn a session. -/
def LoopPhase.remaining : LoopPhase → Nat
  | .Joining => 16
  | .Accepting => 15
  | .Accepted _ => 14
  | .Checking _ => 13
  | .Acquiring _ => 12
  | .Spawning _ => 11
  | .Selecting => 2
  | .Draining _ => 1
  | .Returned _ | .Crashed => 0

theorem LoopPhase.remaining_pos {phase : LoopPhase} (hphase : phase.over = false) :
    0 < phase.remaining := by
  cases phase with
  | Returned | Crashed => cases hphase
  | Selecting | Joining | Accepting | Accepted | Checking | Acquiring | Spawning | Draining =>
      simp [LoopPhase.remaining]

def EndpointLoop.remaining (loop : EndpointLoop) : Nat := loop.phase.remaining

def ServerState.remaining (state : ServerState) : Nat :=
  total EndpointLoop.remaining state.loops + total SessionTask.remaining state.sessions +
    state.logger.remaining

/-- A tick of the maintenance task. -/
def ServerLabel.ticks : ServerLabel → Bool
  | .evict _ => true
  | _ => false

/-- A step by which a task goes on to its end: no failure, no new connection. -/
def ServerLabel.draining : ServerLabel → Bool
  | .cancel | .evict _ => false
  | .writer .writeFailed => false
  | .endpoint _ (.accept _) | .endpoint _ .acceptFailed | .endpoint _ .crash => false
  | .session _ .panic | .session _ .abort => false
  | _ => true

/-- A step of a loop or a session. -/
def ServerLabel.ofTask : ServerLabel → Bool
  | .endpoint _ _ | .session _ _ => true
  | _ => false

namespace ServerState

variable {canonicalReason : UInt16 → Option String} {state next : ServerState}

/-! ### Every step lowers the budget -/

theorem remaining_offer (logger : LoggerState SessionRecord) (record : SessionRecord) :
    (logger.offer record).remaining ≤ logger.remaining + 2 := by
  unfold LoggerState.remaining
  obtain ⟨_, tx, hsend, heq⟩ | ⟨_, _, heq⟩ | ⟨_, heq⟩ := logger.offer_cases record
  · obtain ⟨_, hqueue, _, hsenders, _⟩ := Channel.trySend_ok hsend
    rw [heq]
    dsimp only
    rw [hqueue, hsenders, List.length_append, List.length_singleton]
    omega
  · rw [heq]
    dsimp only
    omega
  · rw [heq]
    dsimp only
    omega

theorem remaining_of_write {logger next : LoggerState SessionRecord}
    {label : LoggerLabel SessionRecord} (hwrites : writes label = true)
    (hmove : LoggerState.Move logger label next) : next.remaining < logger.remaining := by
  unfold LoggerState.remaining
  cases hmove with
  | clone | dropSender | log => cases hwrites
  | recv hwriter hrecv =>
      obtain ⟨hqueue, _, hsenders, _⟩ := Channel.recv_value hrecv
      rw [hwriter, hqueue, ← hsenders, List.length_cons]
      simp only [Writer.remaining]
      omega
  | finished hwriter _ =>
      rw [hwriter]
      simp only [Writer.remaining, Channel.dropReceiver, List.length_nil]
      omega
  | written hwriter =>
      rw [hwriter]
      simp only [Writer.remaining]
      omega
  | writeFailed hwriter =>
      rw [hwriter]
      simp only [Writer.remaining, Channel.close]
      omega
  | report hwriter =>
      rw [hwriter]
      simp only [Writer.remaining]
      omega
  | countLost hwriter =>
      rw [hwriter]
      simp only [Writer.remaining, Channel.dropReceiver, List.length_nil]
      omega

/-- A session that moves on by more than what it sends to the queue. -/
theorem remaining_of_set (sent : Nat) {index : Nat} {task after : SessionTask}
    (htask : state.sessions[index]? = some task) (hloops : next.loops = state.loops)
    (hsessions : next.sessions = state.sessions.set index after)
    (hlogger : next.logger.remaining ≤ state.logger.remaining + sent)
    (hless : after.remaining + sent < task.remaining) : next.remaining < state.remaining := by
  have hsplit : task.remaining = after.remaining + (task.remaining - after.remaining) := by omega
  have htotal := total_set_sub htask hsplit
  unfold ServerState.remaining
  rw [hloops, hsessions]
  omega

theorem remaining_of_session {index : Nat} {task : SessionTask} {label : SessionLabel}
    (htask : state.sessions[index]? = some task)
    (hmove : SessionMove canonicalReason state index task label next) :
    next.remaining < state.remaining := by
  cases hmove with
  | start hphase | close hphase _ | dropGuard hphase | finish hphase =>
      refine remaining_of_set 0 htask rfl rfl (Nat.le_refl _) ?_
      simp only [SessionTask.remaining, hphase, SessionPhase.remaining]
      omega
  | log hphase =>
      refine remaining_of_set 2 htask rfl rfl (remaining_offer _ _) ?_
      simp only [SessionTask.remaining, hphase, SessionPhase.remaining]
      omega
  | panic hphase =>
      refine remaining_of_set 0 htask rfl rfl (Nat.le_refl _) ?_
      exact Nat.add_lt_add_right (SessionPhase.remaining_pos hphase) _
  | abort hphase _ =>
      refine remaining_of_set 0 htask rfl rfl (Nat.le_refl _) ?_
      refine Nat.add_lt_add_right (SessionPhase.remaining_pos ?_) _
      cases hat : task.phase with
      | Spawned | Active => rfl
      | Counted | Logged | Released | Ended | Unwound =>
          rw [hat] at hphase
          cases hphase

/-- A loop that moves on by more than what it spawns. -/
theorem remaining_of_setLoop {index : Nat} {loop after : EndpointLoop}
    (hloop : state.loops[index]? = some loop) (hloops : next.loops = state.loops.set index after)
    (hlogger : next.logger = state.logger)
    (hless : total SessionTask.remaining next.sessions + after.remaining <
      total SessionTask.remaining state.sessions + loop.remaining) :
    next.remaining < state.remaining := by
  obtain ⟨rest, hbefore, hafter⟩ := Ledger.exists_rest hloop after
  unfold ServerState.remaining
  rw [hloops, hlogger, Ledger.total_perm _ hbefore, Ledger.total_perm _ hafter, Ledger.total_cons,
    Ledger.total_cons]
  omega

theorem remaining_joined {owner index : Nat} {task : SessionTask}
    (htask : state.joinable owner index = some task) :
    total SessionTask.remaining state.sessions =
      total SessionTask.remaining (state.sessions.set index { task with joined := true }) + 1 := by
  unfold joinable at htask
  obtain ⟨hindex, hready⟩ := Option.filter_eq_some_iff.mp htask
  have hnot : task.joined = false := by
    simp only [Bool.and_eq_true, Bool.not_eq_true'] at hready
    exact hready.1.2
  refine total_set_sub hindex ?_
  simp [SessionTask.remaining, hnot]

theorem remaining_of_loop (hshutdown : state.shutdown = true) {index : Nat} {loop : EndpointLoop}
    {label : LoopLabel} (hloop : state.loops[index]? = some loop)
    (hmove : LoopMove state index loop label next) : next.remaining < state.remaining := by
  have hphases : ∀ phase, (⟨loop.endpoint, phase⟩ : EndpointLoop).remaining = phase.remaining :=
    fun _ => rfl
  have hbefore : loop.remaining = loop.phase.remaining := rfl
  cases hmove with
  | cancelled hphase _ | joinPending hphase | acceptPending hphase | notIgnored hphase _
  | allowed hphase _ | acquire hphase _ | finish hphase _ | ignored hphase _ | limited hphase _ _
  | full hphase _ | accept _ hphase | acceptFailed hphase =>
      refine remaining_of_setLoop hloop rfl rfl (Nat.add_lt_add_left ?_ _)
      rw [hphases, hbefore, hphase]
      simp [LoopPhase.remaining]
  | poll _ hrunning =>
      rw [hshutdown] at hrunning
      cases hrunning
  | join hphase htask _ | joinPanicked hphase htask _ | drain hphase htask =>
      refine remaining_of_setLoop hloop rfl rfl ?_
      rw [remaining_joined htask, hphases, hbefore, hphase]
      simp only [LoopPhase.remaining, setLoop, setSession, failed]
      omega
  | @spawn arrival hphase =>
      refine remaining_of_setLoop hloop rfl rfl ?_
      have hnew : total SessionTask.remaining (state.spawn index arrival).sessions =
          total SessionTask.remaining state.sessions + 8 := total_append _ _ _
      rw [hphases, hbefore, hphase]
      simp only [setLoop, LoopPhase.remaining, hnew]
      omega
  | crash hover =>
      refine remaining_of_setLoop hloop rfl rfl (Nat.add_lt_add_left ?_ _)
      rw [hphases, hbefore]
      exact LoopPhase.remaining_pos hover

theorem remaining_of_step (hshutdown : state.shutdown = true) {label : ServerLabel}
    (hcancel : label ≠ .cancel) (hticks : label.ticks = false)
    (hstep : state.step canonicalReason label = some next) : next.remaining < state.remaining := by
  cases label with
  | cancel => exact absurd rfl hcancel
  | evict => cases hticks
  | writer label =>
      simp only [ServerState.step] at hstep
      split_ifs at hstep with hwrites
      obtain ⟨logger, hlogger, rfl⟩ := Option.map_eq_some_iff.mp hstep
      have hless := remaining_of_write hwrites (LoggerState.move_of_step hlogger)
      unfold ServerState.remaining
      dsimp only
      omega
  | endpoint index label =>
      obtain ⟨loop, hloop, hmove⟩ := Option.bind_eq_some_iff.mp hstep
      exact remaining_of_loop hshutdown hloop (loopMove_of_step hmove)
  | session index label =>
      obtain ⟨task, htask, hmove⟩ := Option.bind_eq_some_iff.mp hstep
      exact remaining_of_session htask (sessionMove_of_step canonicalReason hmove)

/-! ### Nobody is stuck -/

/-- Some loop or session can go on to its end. -/
def Drains (canonicalReason : UInt16 → Option String) (state : ServerState) : Prop :=
  ∃ label : ServerLabel, label.ofTask = true ∧ label.draining = true ∧
    (state.step canonicalReason label).isSome = true

/-- A session that is not over takes its next step. -/
theorem session_drains (hshutdown : state.shutdown = true) {index : Nat} {task : SessionTask}
    (htask : state.sessions[index]? = some task) (hphase : task.phase.finished = false) :
    state.Drains canonicalReason := by
  have hclose : task.arrival.mayClose canonicalReason state.config state.shutdown = true := by
    unfold Arrival.mayClose
    rw [hshutdown]
    split <;> rfl
  have hdrains : ∀ label, ServerLabel.draining (.session index label) = true →
      (state.sessionStep canonicalReason index task label).isSome = true →
      state.Drains canonicalReason := by
    intro label hlabel hsome
    refine ⟨.session index label, rfl, hlabel, ?_⟩
    rwa [step, htask, Option.bind_some]
  cases hat : task.phase with
  | Spawned => exact hdrains .start rfl (by simp only [sessionStep, hat, Option.isSome_some])
  | Active =>
      exact hdrains .close rfl (by simp only [sessionStep, hat, hclose, if_true, Option.isSome_some])
  | Counted => exact hdrains .log rfl (by simp only [sessionStep, hat, Option.isSome_some])
  | Logged => exact hdrains .dropGuard rfl (by simp only [sessionStep, hat, Option.isSome_some])
  | Released => exact hdrains .finish rfl (by simp only [sessionStep, hat, Option.isSome_some])
  | Ended | Unwound =>
      rw [hat] at hphase
      cases hphase

/-- A loop that waits for its sessions joins one, or that one is not over. -/
theorem draining_drains (hshutdown : state.shutdown = true) {index : Nat} {loop : EndpointLoop}
    {failure : Option RunError} (hloop : state.loops[index]? = some loop)
    (hphase : loop.phase = .Draining failure) : state.Drains canonicalReason := by
  have hdrains : ∀ label, ServerLabel.draining (.endpoint index label) = true →
      (state.loopStep index loop label).isSome = true → state.Drains canonicalReason := by
    intro label hlabel hsome
    refine ⟨.endpoint index label, rfl, hlabel, ?_⟩
    rwa [step, hloop, Option.bind_some]
  cases hdrained : state.drained index with
  | true =>
      exact hdrains .finish rfl
        (by simp only [loopStep, hphase, hdrained, if_true, Option.isSome_some])
  | false =>
      obtain ⟨task, htask, howned⟩ := List.all_eq_false.mp hdrained
      obtain ⟨session, hsession⟩ := List.getElem?_of_mem htask
      cases hended : task.phase.finished with
      | true =>
          have hready : state.joinable index session = some task := by
            refine Option.filter_eq_some_iff.mpr ⟨hsession, ?_⟩
            simp_all
          exact hdrains (.join session) rfl
            (by simp only [loopStep, hphase, hready, Option.map_some, Option.isSome_some])
      | false => exact session_drains hshutdown hsession hended

/-- A loop that is not over takes its next step, or one of its sessions does. -/
theorem loop_drains (hshutdown : state.shutdown = true) {index : Nat} {loop : EndpointLoop}
    (hloop : state.loops[index]? = some loop) (hphase : loop.phase.over = false) :
    state.Drains canonicalReason := by
  have hdrains : ∀ label, ServerLabel.draining (.endpoint index label) = true →
      (state.loopStep index loop label).isSome = true → state.Drains canonicalReason := by
    intro label hlabel hsome
    refine ⟨.endpoint index label, rfl, hlabel, ?_⟩
    rwa [step, hloop, Option.bind_some]
  cases hat : loop.phase with
  | Selecting => exact hdrains .pollShutdown rfl (by simp only [loopStep, hat, Option.isSome_some])
  | Joining => exact hdrains .joinPending rfl (by simp only [loopStep, hat, Option.isSome_some])
  | Accepting =>
      exact hdrains .acceptPending rfl (by simp only [loopStep, hat, Option.isSome_some])
  | Accepted => exact hdrains .checkIgnored rfl (by simp only [loopStep, hat]; split <;> rfl)
  | Checking => exact hdrains (.checkLimiter 0) rfl (by simp only [loopStep, hat]; split <;> rfl)
  | Acquiring => exact hdrains .acquire rfl (by simp only [loopStep, hat]; split <;> rfl)
  | Spawning => exact hdrains .spawn rfl (by simp only [loopStep, hat, Option.isSome_some])
  | Draining failure => exact draining_drains hshutdown hloop hat
  | Returned | Crashed =>
      rw [hat] at hphase
      cases hphase

end ServerState

end Minotaur
