import Minotaur.Connection.StringBudget
import Minotaur.Logger.Moves
import Minotaur.Server.Moves
import Minotaur.Server.Shares

/-!
Where queued records come from. Only the sessions of the served endpoints put
records into the queue, whatever tasks panic or are aborted on the way, and
the queue holds at most `buffer_size` of them: what is queued at any time stays
within the budget that validation computed.
-/

namespace Minotaur

namespace ServerState

variable (canonicalReason : UInt16 → Option String)

/-- A record of a session on one of the served endpoints. -/
def Produced (cfg : Config) (record : SessionRecord) : Prop :=
  ∃ arrival : Arrival, Served cfg arrival.endpoint ∧ record = arrival.record canonicalReason cfg

structure Provenance (cfg : Config) (state : ServerState) : Prop where
  configured : state.config = cfg
  loops : ∀ loop ∈ state.loops, Served cfg loop.endpoint ∧
    ∀ arrival ∈ loop.phase.handling, Served cfg arrival.endpoint
  sessions : ∀ task ∈ state.sessions, Served cfg task.arrival.endpoint
  capacity : state.logger.channel.capacity = cfg.logging.bufferSize
  queued : ∀ record ∈ state.logger.channel.queue, Produced canonicalReason cfg record

variable {canonicalReason} {cfg : Config} {state next : ServerState} {index : Nat}

namespace Provenance

/-- A loop moves on; what connection it has is its own or a new one. -/
theorem moved (h : state.Provenance canonicalReason cfg) {loop : EndpointLoop}
    (hloop : state.loops[index]? = some loop) {phase : LoopPhase}
    (hloops : next.loops = state.loops.set index ⟨loop.endpoint, phase⟩)
    (hhandling : ∀ arrival ∈ phase.handling, Served cfg arrival.endpoint)
    (hsessions : ∀ task ∈ next.sessions, Served cfg task.arrival.endpoint)
    (hconfig : next.config = state.config) (hlogger : next.logger = state.logger) :
    next.Provenance canonicalReason cfg where
  configured := hconfig.trans h.configured
  loops := by
    rw [hloops]
    exact Ledger.forall_mem_set h.loops index
      ⟨(h.loops loop (List.mem_of_getElem? hloop)).1, hhandling⟩
  sessions := hsessions
  capacity := by rw [hlogger]; exact h.capacity
  queued := by rw [hlogger]; exact h.queued

/-- A session moves on. -/
theorem sessionsSet (h : state.Provenance canonicalReason cfg) {task : SessionTask}
    {session : Nat} (htask : state.sessions[session]? = some task) {after : SessionTask}
    (harrival : after.arrival = task.arrival) :
    ∀ other ∈ state.sessions.set session after, Served cfg other.arrival.endpoint :=
  Ledger.forall_mem_set h.sessions session
    (harrival ▸ h.sessions task (List.mem_of_getElem? htask))

theorem offer (h : state.Provenance canonicalReason cfg) {record : SessionRecord}
    (hrecord : Produced canonicalReason cfg record) :
    (state.log record).Provenance canonicalReason cfg := by
  rcases state.logger.offer_cases record with ⟨_, tx, hsend, hoffer⟩ | ⟨_, _, hoffer⟩ | ⟨_, hoffer⟩
  · obtain ⟨_, hqueue, _, _, hcapacity⟩ := Channel.trySend_ok hsend
    refine ⟨h.configured, h.loops, h.sessions, ?_, ?_⟩
    · simp only [log, hoffer]
      exact hcapacity.trans h.capacity
    · simp only [log, hoffer, hqueue]
      exact List.forall_mem_append.mpr ⟨h.queued, List.forall_mem_singleton.mpr hrecord⟩
  · refine ⟨h.configured, h.loops, h.sessions, ?_, ?_⟩
    · simpa only [log, hoffer] using h.capacity
    · simpa only [log, hoffer] using h.queued
  · refine ⟨h.configured, h.loops, h.sessions, ?_, ?_⟩
    · simpa only [log, hoffer] using h.capacity
    · simpa only [log, hoffer] using h.queued

theorem sessionMove (h : state.Provenance canonicalReason cfg) {task : SessionTask}
    (htask : state.sessions[index]? = some task) {label : SessionLabel}
    (hmove : SessionMove canonicalReason state index task label next) :
    next.Provenance canonicalReason cfg := by
  have hset (phase : SessionPhase) : ∀ other ∈ state.sessions.set index { task with phase := phase },
      Served cfg other.arrival.endpoint := h.sessionsSet htask rfl
  cases hmove with
  | start => exact ⟨h.configured, h.loops, hset _, h.capacity, h.queued⟩
  | close => exact ⟨h.configured, h.loops, hset _, h.capacity, h.queued⟩
  | dropGuard => exact ⟨h.configured, h.loops, hset _, h.capacity, h.queued⟩
  | finish => exact ⟨h.configured, h.loops, hset _, h.capacity, h.queued⟩
  | panic => exact ⟨h.configured, h.loops, hset _, h.capacity, h.queued⟩
  | abort => exact ⟨h.configured, h.loops, hset _, h.capacity, h.queued⟩
  | log hphase =>
      have hrecord :
          Produced canonicalReason cfg (task.arrival.record canonicalReason state.config) := by
        rw [h.configured]
        exact ⟨task.arrival, h.sessions task (List.mem_of_getElem? htask), rfl⟩
      have hoffered := h.offer hrecord
      exact ⟨hoffered.configured, hoffered.loops, hset _, hoffered.capacity, hoffered.queued⟩

theorem loopMove (h : state.Provenance canonicalReason cfg) {loop : EndpointLoop}
    (hloop : state.loops[index]? = some loop) {label : LoopLabel}
    (hmove : LoopMove state index loop label next) : next.Provenance canonicalReason cfg := by
  obtain ⟨hserved, hhandling⟩ := h.loops loop (List.mem_of_getElem? hloop)
  have hnone : ∀ arrival ∈ ([] : List Arrival), Served cfg arrival.endpoint := List.forall_mem_nil _
  cases hmove with
  | cancelled | poll | joinPending | acceptPending | acceptFailed | finish | crash =>
      exact h.moved hloop rfl hnone h.sessions rfl rfl
  | ignored | limited | full => exact h.moved hloop rfl hnone h.sessions rfl rfl
  | join _ htask _ | joinPanicked _ htask _ | drain _ htask =>
      exact h.moved hloop rfl hnone
        (h.sessionsSet (Option.filter_eq_some_iff.mp htask).1 rfl) rfl rfl
  | accept conn hphase =>
      exact h.moved hloop rfl (List.forall_mem_singleton.mpr hserved) h.sessions rfl rfl
  | notIgnored hphase _ | allowed hphase _ | acquire hphase _ =>
      rw [hphase] at hhandling
      exact h.moved hloop rfl hhandling h.sessions rfl rfl
  | spawn hphase =>
      rw [hphase] at hhandling
      refine h.moved hloop rfl hnone ?_ rfl rfl
      intro task htask
      rcases List.mem_append.mp htask with hold | hnew
      · exact h.sessions task hold
      · obtain rfl := List.mem_singleton.mp hnew
        exact hhandling _ (List.mem_singleton_self _)

/-- The writer only takes records out. -/
theorem writerMove (h : state.Provenance canonicalReason cfg) {label : LoggerLabel SessionRecord}
    {logger : LoggerState SessionRecord} (hwrites : writes label = true)
    (hmove : state.logger.Move label logger) :
    ({ state with logger := logger } : ServerState).Provenance canonicalReason cfg := by
  have hnone : ∀ record ∈ ([] : List SessionRecord), Produced canonicalReason cfg record :=
    List.forall_mem_nil _
  cases hmove with
  | clone | dropSender | log => cases hwrites
  | recv _ hrecv =>
      obtain ⟨hqueue, _, _, hcapacity⟩ := Channel.recv_value hrecv
      have hqueued := h.queued
      rw [hqueue] at hqueued
      exact ⟨h.configured, h.loops, h.sessions, hcapacity.trans h.capacity,
        (List.forall_mem_cons.mp hqueued).2⟩
  | finished | countLost => exact ⟨h.configured, h.loops, h.sessions, h.capacity, hnone⟩
  | written | writeFailed | report =>
      exact ⟨h.configured, h.loops, h.sessions, h.capacity, h.queued⟩

theorem step (h : state.Provenance canonicalReason cfg) {label : ServerLabel}
    (hstep : state.step canonicalReason label = some next) :
    next.Provenance canonicalReason cfg := by
  cases label with
  | cancel =>
      obtain rfl := Option.some.inj hstep
      exact ⟨h.configured, h.loops, h.sessions, h.capacity, h.queued⟩
  | evict now =>
      obtain rfl := Option.some.inj hstep
      exact ⟨h.configured, h.loops, h.sessions, h.capacity, h.queued⟩
  | writer label =>
      simp only [ServerState.step] at hstep
      split_ifs at hstep with hwrites
      obtain ⟨logger, hlogger, rfl⟩ := Option.map_eq_some_iff.mp hstep
      exact h.writerMove hwrites (LoggerState.move_of_step hlogger)
  | endpoint index label =>
      obtain ⟨loop, hloop, hmove⟩ := Option.bind_eq_some_iff.mp hstep
      exact h.loopMove hloop (loopMove_of_step hmove)
  | session index label =>
      obtain ⟨task, htask, hmove⟩ := Option.bind_eq_some_iff.mp hstep
      exact h.sessionMove htask (sessionMove_of_step canonicalReason hmove)

end Provenance

theorem provenance_new (canonicalReason : UInt16 → Option String) {cfg : Config}
    {endpoints : List EndpointConfig} (hserved : ∀ ep ∈ endpoints, Served cfg ep) :
    (ServerState.new cfg endpoints).Provenance canonicalReason cfg where
  configured := rfl
  loops := by
    intro loop hloop
    obtain ⟨endpoint, hendpoint, rfl⟩ := List.mem_map.mp hloop
    exact ⟨hserved endpoint hendpoint, List.forall_mem_nil _⟩
  sessions := List.forall_mem_nil _
  capacity := rfl
  queued := List.forall_mem_nil _

/-- The queue is as long as it may be, and every record in it is one the
validator reserved for. -/
theorem Provenance.queueBytes_le (h : state.Provenance canonicalReason cfg) (hcfg : cfg.Accepted) :
    (state.logger.channel.queue.map SessionRecord.stringBytes).sum ≤ 268435456 := by
  have hrecord : ∀ record ∈ state.logger.channel.queue,
      record.stringBytes ≤ 65536 + 3 * cfg.server.maxBytesPerSession := by
    intro record hmem
    obtain ⟨arrival, hserved, rfl⟩ := h.queued record hmem
    exact (arrival.conn.record_withinBudget canonicalReason hcfg hserved).stringBytes
  have hlength := state.logger.channel.bounded
  rw [h.capacity] at hlength
  calc (state.logger.channel.queue.map SessionRecord.stringBytes).sum
      ≤ (65536 + 3 * cfg.server.maxBytesPerSession) * state.logger.channel.queue.length :=
        sum_map_le hrecord
    _ ≤ (65536 + 3 * cfg.server.maxBytesPerSession) * cfg.logging.bufferSize :=
        Nat.mul_le_mul_left _ hlength
    _ ≤ 268435456 := hcfg.logging.queueBudget

end ServerState

/-- The memory of the queue. Whatever a client sends, its record is within the
estimate of the validator and lacks no event; and whatever the tasks of the
server do, the records that are queued together are within the limit. -/
theorem queue_budget (canonicalReason : UInt16 → Option String) {cfg : Config}
    (hvalid : cfg.validate = .ok ()) :
    (∀ (ep : EndpointConfig) (conn : Connection), Served cfg ep →
      (conn.record canonicalReason cfg ep).WithinBudget cfg) ∧
    ∀ (endpoints : List EndpointConfig) (labels : List ServerLabel) (state : ServerState),
      (∀ ep ∈ endpoints, Served cfg ep) →
      Steps.run (ServerState.step canonicalReason) (ServerState.new cfg endpoints) labels =
        some state →
      (state.logger.channel.queue.map SessionRecord.stringBytes).sum ≤ 268435456 := by
  have hcfg := (validate_ok_iff cfg).mp hvalid
  refine ⟨fun ep conn hserved => conn.record_withinBudget canonicalReason hcfg hserved, ?_⟩
  intro endpoints labels state hserved hrun
  have hprovenance : state.Provenance canonicalReason cfg :=
    Steps.run_invariant (fun _ _ _ h hstep => h.step hstep)
      (ServerState.provenance_new canonicalReason hserved) hrun
  exact hprovenance.queueBytes_le hcfg

/-- A session that ends with its loop: its record is in the queue. -/
def oneQueued : List ServerLabel :=
  [.endpoint 0 .pollShutdown, .endpoint 0 .joinPending,
    .endpoint 0 (.accept (client "SSH-2.0-x\r\n" none)), .endpoint 0 .checkIgnored,
    .endpoint 0 (.checkLimiter 0), .endpoint 0 .acquire, .endpoint 0 .spawn, .session 0 .start,
    .session 0 .close, .session 0 .log]

theorem queue_budget_queued :
    ((client "SSH-2.0-x\r\n" none).record (fun _ => none) (sensorOf .Ssh)
      (decoy .Ssh)).WithinBudget (sensorOf .Ssh) ∧
    ∃ state, Steps.run (ServerState.step fun _ => none)
        (ServerState.new (sensorOf .Ssh) [decoy .Ssh]) oneQueued = some state ∧
      state.logger.channel.queue.length = 1 ∧
      (state.logger.channel.queue.map SessionRecord.stringBytes).sum ≤ 268435456 := by
  have hserved : Served (sensorOf .Ssh) (decoy .Ssh) :=
    ⟨decoy .Ssh, List.mem_singleton_self _, (decoy .Ssh).bind, rfl⟩
  have hqueued : (Steps.run (ServerState.step fun _ => none)
      (ServerState.new (sensorOf .Ssh) [decoy .Ssh]) oneQueued).any
        (fun state => state.logger.channel.queue.length == 1) = true := by
    decide +kernel
  obtain ⟨state, hrun, hlength⟩ := (Option.any_eq_true _ _).mp hqueued
  have hbudget := @queue_budget (fun _ => none) (sensorOf .Ssh) (by decide)
  refine ⟨hbudget.1 _ _ hserved, state, hrun, beq_iff_eq.mp hlength, ?_⟩
  exact hbudget.2 _ _ _ (List.forall_mem_singleton.mpr hserved) hrun

end Minotaur
