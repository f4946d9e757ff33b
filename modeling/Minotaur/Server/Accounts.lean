import Mathlib.Algebra.BigOperators.Pi
import Mathlib.Algebra.Group.Equiv.TypeTags
import Mathlib.Data.Fintype.BigOperators
import Minotaur.Server.Admission

/-!
What the balanced books say about each counter, and what is left when every
loop has returned: nothing.
-/

namespace Minotaur

open Ledger

/-- The closing counters of this protocol include the session. -/
def SessionTask.countedAs (task : SessionTask) (protocol : Protocol) : Bool :=
  task.phase.counted && task.arrival.endpoint.protocol = protocol

namespace ServerState

variable {canonicalReason : UInt16 → Option String} {config : Config} {state : ServerState}

/-- A counter is the sum of what sessions and settled connections put in. -/
theorem Reconciled.field {N : Type*} [AddCommMonoid N]
    (h : state.Reconciled canonicalReason config) (field : ServerMetrics →+ N) :
    field state.metrics =
      total (fun task => field (task.share canonicalReason config)) state.sessions +
        total (fun settled => field (Settled.share settled)) state.settled := by
  rw [h.metrics, map_add, map_total, map_total]

/-- A counter that rejections do not touch. -/
theorem Reconciled.field_sessions {N : Type*} [AddCommMonoid N]
    (h : state.Reconciled canonicalReason config) (field : ServerMetrics →+ N)
    (hrejection : ∀ protocol reason, field (.rejection protocol reason) = 0) :
    field state.metrics =
      total (fun task => field (task.share canonicalReason config)) state.sessions := by
  have hsettled : total (fun settled => field (Settled.share settled)) state.settled = 0 := by
    apply total_eq_zero
    intro settled _
    unfold Settled.share
    cases settled.fate with
    | Rejected reason => exact hrejection _ reason
    | Spawned => exact map_zero field
  rw [h.field, hsettled, add_zero]

/-! ### Fields -/

def rejectedField (label : Protocol × String) : ServerMetrics →+ Nat where
  toFun metrics := metrics.rejectedTotal label
  map_zero' := rfl
  map_add' _ _ := rfl

def closedField (label : Protocol × CloseReason) : ServerMetrics →+ Nat where
  toFun metrics := metrics.closedSessionsTotal label
  map_zero' := rfl
  map_add' _ _ := rfl

def bytesField (protocol : Protocol) : ServerMetrics →+ Nat where
  toFun metrics := metrics.bytesReceivedTotal protocol
  map_zero' := rfl
  map_add' _ _ := rfl

def eventsField (label : Protocol × String) : ServerMetrics →+ Nat where
  toFun metrics := metrics.eventsTotal label
  map_zero' := rfl
  map_add' _ _ := rfl

def activeField : ServerMetrics →+ Int where
  toFun metrics := metrics.activeSessions
  map_zero' := rfl
  map_add' _ _ := rfl

/-- `connections_total`, summed over its label. -/
def connectionsField : ServerMetrics →+ Nat where
  toFun metrics := ∑ protocol, metrics.connectionsTotal protocol
  map_zero' := by simp
  map_add' _ _ := by simp [Finset.sum_add_distrib]

/-- `closed_sessions_total`, summed over its labels. -/
def closedTotalField : ServerMetrics →+ Nat where
  toFun metrics := ∑ label, metrics.closedSessionsTotal label
  map_zero' := by simp
  map_add' _ _ := by simp [Finset.sum_add_distrib]

theorem Reconciled.rejectedTotal (h : state.Reconciled canonicalReason config)
    (protocol : Protocol) (reason : String) :
    state.metrics.rejectedTotal (protocol, reason) = state.settled.countP fun settled =>
      settled.arrival.endpoint.protocol = protocol && settled.fate = .Rejected reason := by
  have hfield := h.field (rejectedField (protocol, reason))
  have hsessions : total (fun task => rejectedField (protocol, reason)
      (SessionTask.share canonicalReason config task)) state.sessions = 0 := by
    apply total_eq_zero
    intro task _
    unfold SessionTask.share
    cases task.phase <;> rfl
  rw [hsessions, zero_add] at hfield
  refine hfield.trans ?_
  rw [← total_ite]
  apply total_congr
  intro settled _
  unfold Settled.share
  cases settled.fate with
  | Spawned => simp
  | Rejected other => simp [rejectedField, ServerMetrics.rejection, Counters.single_apply]

theorem Reconciled.closedSessionsTotal (h : state.Reconciled canonicalReason config)
    (protocol : Protocol) (reason : CloseReason) :
    state.metrics.closedSessionsTotal (protocol, reason) = state.sessions.countP fun task =>
      task.countedAs protocol && (task.record canonicalReason config).closeReason = reason := by
  have hfield := h.field_sessions (closedField (protocol, reason)) (fun _ _ => rfl)
  refine hfield.trans ?_
  rw [← total_ite]
  apply total_congr
  intro task _
  unfold SessionTask.share SessionTask.countedAs
  cases task.phase <;>
    simp [closedField, ServerMetrics.connection, ServerMetrics.guard, ServerMetrics.closing,
      SessionPhase.counted, Counters.single_apply]

theorem Reconciled.bytesReceivedTotal (h : state.Reconciled canonicalReason config)
    (protocol : Protocol) :
    state.metrics.bytesReceivedTotal protocol = total (fun task : SessionTask =>
      if task.countedAs protocol then (task.record canonicalReason config).bytesReceived else 0)
      state.sessions := by
  refine (h.field_sessions (bytesField protocol) (fun _ _ => rfl)).trans ?_
  apply total_congr
  intro task _
  unfold SessionTask.share SessionTask.countedAs
  cases task.phase <;>
    simp [bytesField, ServerMetrics.connection, ServerMetrics.guard, ServerMetrics.closing,
      SessionPhase.counted, Counters.single_apply]

theorem Reconciled.eventsTotal (h : state.Reconciled canonicalReason config)
    (protocol : Protocol) (kind : String) :
    state.metrics.eventsTotal (protocol, kind) = total (fun task : SessionTask =>
      if task.countedAs protocol then
        (task.record canonicalReason config).events.countP (fun event => event.kind = kind)
      else 0) state.sessions := by
  refine (h.field_sessions (eventsField (protocol, kind)) (fun _ _ => rfl)).trans ?_
  apply total_congr
  intro task _
  unfold SessionTask.share SessionTask.countedAs
  cases task.phase <;>
    simp [eventsField, ServerMetrics.connection, ServerMetrics.guard, ServerMetrics.closing,
      SessionPhase.counted]
  all_goals split_ifs <;> simp_all

/-- Every started session is active or over. -/
theorem Reconciled.connectionsTotal (h : state.Reconciled canonicalReason config) :
    ((∑ protocol, state.metrics.connectionsTotal protocol : Nat) : Int) =
      state.metrics.activeSessions + (state.sessions.countP (·.phase.ended) : Nat) := by
  have hconnections := h.field_sessions ((Nat.castAddMonoidHom Int).comp connectionsField)
    (fun protocol reason => by simp [connectionsField, ServerMetrics.rejection])
  have hactive := h.field_sessions activeField (fun _ _ => rfl)
  have hshares : ∀ task ∈ state.sessions,
      ((Nat.castAddMonoidHom Int).comp connectionsField)
        (SessionTask.share canonicalReason config task) =
      activeField (SessionTask.share canonicalReason config task) +
        if task.phase.ended then (1 : Int) else 0 := by
    intro task _
    unfold SessionTask.share
    cases task.phase <;>
      simp [connectionsField, activeField, ServerMetrics.connection, ServerMetrics.guard,
        ServerMetrics.closing, SessionPhase.ended]
  rw [total_congr hshares, total_add, total_ite_int, ← hactive] at hconnections
  exact hconnections

/-! ### The other books -/

theorem Reconciled.holders (h : state.Reconciled canonicalReason config) :
    state.permits + state.sessions.countP (·.phase.holdsPermit) +
      total (·.phase.permits) state.loops = config.server.maxConcurrentSessions := by
  rw [← total_ite]
  exact h.permits

theorem Reconciled.accepted_perm (h : state.Reconciled canonicalReason config) :
    state.accepted.Perm (state.settled.map (·.arrival) ++
      state.loops.flatMap (·.phase.handling)) := by
  rw [← Multiset.coe_eq_coe, h.accepted, ← Multiset.coe_add, ← total_coe]
  rfl

theorem Reconciled.logged_perm (h : state.Reconciled canonicalReason config) :
    state.logged.Perm ((state.sessions.filter (·.phase.logged)).map
      (·.record canonicalReason config)) := by
  have hflat : state.sessions.flatMap (·.logged canonicalReason config) =
      (state.sessions.filter (·.phase.logged)).map (·.record canonicalReason config) := by
    induction state.sessions with
    | nil => rfl
    | cons task rest ih =>
        rw [List.flatMap_cons, ih]
        unfold SessionTask.logged
        cases hlogged : task.phase.logged <;> simp [hlogged]
  rw [← hflat, ← Multiset.coe_eq_coe, h.logged, ← total_coe]
  rfl

/-- A fate is charged to one registered reason, or to none. -/
theorem total_rejected {fate : Fate} (hregistered : fate.Registered) :
    total (fun reason => if fate = .Rejected reason then 1 else 0) rejectedReasons +
      (if fate = .Spawned then 1 else 0) = 1 := by
  cases fate with
  | Spawned => rfl
  | Rejected reason =>
      have hcount : rejectedReasons.count reason = 1 :=
        List.count_eq_one_of_mem (by decide) hregistered
      have hcharged : total (fun other => if Fate.Rejected reason = .Rejected other then 1 else 0)
          rejectedReasons = rejectedReasons.count reason := by
        rw [List.count, ← total_ite]
        apply total_congr
        intro other _
        by_cases hsame : other = reason
        · simp [hsame]
        · simp [hsame, Ne.symm hsame]
      rw [hcharged, hcount, if_neg nofun]

/-- Settled connections by what became of them. -/
theorem countP_settled {settled : List Settled}
    (hregistered : ∀ decided ∈ settled, Fate.Registered decided.fate) (protocol : Protocol) :
    (settled.map (·.arrival)).countP (·.endpoint.protocol = protocol) =
      total (fun reason => settled.countP fun settled =>
        settled.arrival.endpoint.protocol = protocol && settled.fate = .Rejected reason)
        rejectedReasons +
      ((settled.filter fun settled => settled.fate = .Spawned).map (·.arrival)).countP
        (·.endpoint.protocol = protocol) := by
  induction settled with
  | nil => exact (total_eq_zero (fun _ _ => rfl)).symm
  | cons decided rest ih =>
      obtain ⟨hdecided, hrest⟩ := List.forall_mem_cons.mp hregistered
      have hone := total_rejected hdecided
      simp only [List.map_cons, List.countP_cons, total_add, ih hrest]
      by_cases hprotocol : decided.arrival.endpoint.protocol = protocol
      · by_cases hspawned : decided.fate = .Spawned
        · simp [hprotocol, hspawned, total_eq_zero]
          omega
        · simp [hprotocol, hspawned] at hone ⊢
          omega
      · by_cases hspawned : decided.fate = .Spawned
        · simp [hprotocol, hspawned, total_eq_zero]
        · simp [hprotocol, hspawned, total_eq_zero]

/-- Every accepted connection is turned away for one reason, has become one
session, or is the one a loop is deciding on. -/
theorem Reconciled.accepts (h : state.Reconciled canonicalReason config)
    {endpoints : List EndpointConfig} {labels : List ServerLabel}
    (htraced : state.Traced endpoints labels) (protocol : Protocol) :
    (labels.filterMap (ServerLabel.arrival endpoints)).countP (·.endpoint.protocol = protocol) =
      total (fun reason => state.metrics.rejectedTotal (protocol, reason)) rejectedReasons +
        state.sessions.countP (·.arrival.endpoint.protocol = protocol) +
        (state.loops.flatMap (·.phase.handling)).countP (·.endpoint.protocol = protocol) := by
  have hspawned : ((state.settled.filter fun settled => settled.fate = .Spawned).map
      (·.arrival)).countP (·.endpoint.protocol = protocol) =
        state.sessions.countP (·.arrival.endpoint.protocol = protocol) := by
    rw [← spawnedArrivals, ← h.spawned, List.countP_map]
    rfl
  rw [← htraced.accepted, h.accepted_perm.countP_eq, List.countP_append,
    countP_settled htraced.settled, hspawned]
  simp only [h.rejectedTotal]

/-! ### After the last loop -/

section Returned

variable (h : state.Reconciled canonicalReason config)
  (hreturned : ∀ loop ∈ state.loops, loop.phase.over = true)

include h hreturned

theorem Reconciled.all_ended : ∀ task ∈ state.sessions, task.phase = .Ended := by
  intro task htask
  have howner := h.owned task htask
  have hdrained := h.returned task.owner _ (List.getElem?_eq_getElem howner)
    (hreturned _ (List.getElem_mem howner))
  exact h.joined task htask (drained_iff.mp hdrained task htask rfl)

theorem Reconciled.permits_returned : state.permits = config.server.maxConcurrentSessions := by
  have hpermits := h.permits
  have hsessions : total SessionTask.permits state.sessions = 0 := by
    apply total_eq_zero
    intro task htask
    rw [SessionTask.permits, h.all_ended hreturned task htask]
    rfl
  have hloops : total (·.phase.permits) state.loops = 0 := by
    apply total_eq_zero
    intro loop hloop
    have hover := hreturned loop hloop
    cases hphase : loop.phase <;> simp_all
  omega

theorem Reconciled.active_returned : state.metrics.activeSessions = 0 := by
  refine (h.field_sessions activeField (fun _ _ => rfl)).trans (total_eq_zero ?_)
  intro task htask
  rw [SessionTask.share, h.all_ended hreturned task htask]
  rfl

theorem Reconciled.connections_returned :
    ∑ protocol, state.metrics.connectionsTotal protocol = state.sessions.length := by
  have hconnections := h.connectionsTotal
  have hended : state.sessions.countP (·.phase.ended) = state.sessions.length := by
    apply List.countP_eq_length.mpr
    intro task htask
    rw [h.all_ended hreturned task htask]
    rfl
  rw [h.active_returned hreturned, hended] at hconnections
  omega

theorem Reconciled.closed_returned :
    ∑ label, state.metrics.closedSessionsTotal label = state.sessions.length := by
  have hshares : ∀ task ∈ state.sessions,
      closedTotalField (SessionTask.share canonicalReason config task) = 1 := by
    intro task htask
    rw [SessionTask.share, h.all_ended hreturned task htask]
    simp [closedTotalField, ServerMetrics.connection, ServerMetrics.closing]
  have hclosed := h.field_sessions closedTotalField (fun protocol reason => by
    simp [closedTotalField, ServerMetrics.rejection])
  rw [total_congr hshares, total, List.map_const', List.sum_replicate, nsmul_one, Nat.cast_id]
    at hclosed
  exact hclosed

end Returned

/-! ### Rejections -/

/-- A rejection takes no permit, and one for an ignored address is decided
without the limiter. -/
theorem rejection_frame {label : ServerLabel} {next : ServerState} {arrival : Arrival}
    {reason : String} (hstep : state.step canonicalReason label = some next)
    (hsettled : next.settled = state.settled ++ [⟨arrival, .Rejected reason⟩]) :
    next.permits = state.permits ∧
      (reason = "ignored_ip" → next.rateLimiter = state.rateLimiter) := by
  have hgrown : next.settled ≠ state.settled := by
    rw [hsettled]
    simp
  cases label with
  | cancel =>
      obtain rfl := Option.some.inj hstep
      exact absurd rfl hgrown
  | evict now =>
      obtain rfl := Option.some.inj hstep
      exact absurd rfl hgrown
  | writer label =>
      simp only [ServerState.step] at hstep
      split_ifs at hstep
      obtain ⟨logger, _, rfl⟩ := Option.map_eq_some_iff.mp hstep
      exact absurd rfl hgrown
  | session index label =>
      obtain ⟨task, _, hmove⟩ := Option.bind_eq_some_iff.mp hstep
      cases sessionMove_of_step canonicalReason hmove <;> exact absurd rfl hgrown
  | endpoint index label =>
      obtain ⟨loop, _, hmove⟩ := Option.bind_eq_some_iff.mp hstep
      cases loopMove_of_step hmove with
      | ignored hphase _ => exact ⟨rfl, fun _ => rfl⟩
      | @limited other now decision limiter hphase _ hdecision =>
          refine ⟨rfl, ?_⟩
          rintro rfl
          have hreason := (List.append_cancel_left hsettled)
          cases decision <;> simp_all [Decision.reason]
      | full hphase _ => exact ⟨rfl, fun _ => rfl⟩
      | spawn hphase =>
          have hspawned := List.append_cancel_left hsettled
          simp at hspawned
      | cancelled | poll | join | joinPanicked | joinPending | accept | acceptFailed
      | acceptPending | notIgnored | allowed | acquire | drain | finish | crash =>
          exact absurd rfl hgrown

end ServerState

open ServerState in
/-- The books of the server, in every state that any interleaving of its loops,
sessions and writer reaches without unwinding a task. The connections are those
of the `accept` labels of the run, and the logger has run through steps of its
own in which `log` was called with the records of the sessions. -/
theorem admission_reconciled (canonicalReason : UInt16 → Option String) (config : Config)
    (endpoints : List EndpointConfig) (labels : List ServerLabel) (state : ServerState)
    (hrun : Steps.run (ServerState.step canonicalReason) (ServerState.new config endpoints) labels =
      some state)
    (horderly : ∀ label ∈ labels, label.orderly = true) :
    (state.permits + state.sessions.countP (·.phase.holdsPermit) +
        total (·.phase.permits) state.loops = config.server.maxConcurrentSessions ∧
      state.sessions.countP (·.phase.holdsPermit) ≤ config.server.maxConcurrentSessions) ∧
    (state.accepted = labels.filterMap (ServerLabel.arrival endpoints) ∧
      state.accepted.Perm (state.settled.map (·.arrival) ++
        state.loops.flatMap (·.phase.handling)) ∧
      state.sessions.map (·.arrival) = state.spawnedArrivals ∧
      (∀ protocol reason, state.metrics.rejectedTotal (protocol, reason) =
        state.settled.countP fun settled =>
          settled.arrival.endpoint.protocol = protocol && settled.fate = .Rejected reason) ∧
      ∀ protocol, (labels.filterMap (ServerLabel.arrival endpoints)).countP
          (·.endpoint.protocol = protocol) =
        total (fun reason => state.metrics.rejectedTotal (protocol, reason)) rejectedReasons +
          state.sessions.countP (·.arrival.endpoint.protocol = protocol) +
          (state.loops.flatMap (·.phase.handling)).countP (·.endpoint.protocol = protocol)) ∧
    ((∑ protocol, state.metrics.connectionsTotal protocol : Nat) : Int) =
      state.metrics.activeSessions + (state.sessions.countP (·.phase.ended) : Nat) ∧
    (∀ protocol,
      (∀ reason, state.metrics.closedSessionsTotal (protocol, reason) =
        state.sessions.countP fun task => task.countedAs protocol &&
          (task.record canonicalReason config).closeReason = reason) ∧
      state.metrics.bytesReceivedTotal protocol = total (fun task : SessionTask =>
        if task.countedAs protocol then (task.record canonicalReason config).bytesReceived else 0)
        state.sessions ∧
      ∀ kind, state.metrics.eventsTotal (protocol, kind) = total (fun task : SessionTask =>
        if task.countedAs protocol then
          (task.record canonicalReason config).events.countP (fun event => event.kind = kind)
        else 0) state.sessions) ∧
    (state.logged.Perm ((state.sessions.filter (·.phase.logged)).map
        (·.record canonicalReason config)) ∧
      state.logger.calls = state.logged.length ∧
      ∃ seen, Steps.run LoggerState.step (.spawn SessionRecord config.logging.bufferSize) seen =
          some state.logger ∧
        seen.filterMap LoggerLabel.offered = state.logged) ∧
    ((∀ loop ∈ state.loops, ∀ arrival ∈ loop.phase.checked, state.ignores arrival = false) ∧
      ∀ label next arrival reason, state.step canonicalReason label = some next →
        next.settled = state.settled ++ [⟨arrival, .Rejected reason⟩] →
        next.permits = state.permits ∧
          (reason = "ignored_ip" → next.rateLimiter = state.rateLimiter)) ∧
    ((∀ loop ∈ state.loops, loop.phase.over = true) →
      (∀ task ∈ state.sessions, task.phase = .Ended) ∧ state.metrics.activeSessions = 0 ∧
        state.permits = config.server.maxConcurrentSessions) := by
  have h := reconciled_of_run hrun horderly
  have htraced := traced_of_run hrun
  have hcalls := (offered_of_run hrun).calls
  obtain ⟨seen, hseen⟩ := offers_of_run hrun
  have hholders := h.holders
  refine ⟨⟨hholders, by omega⟩, ⟨htraced.accepted, h.accepted_perm, h.spawned, h.rejectedTotal,
    h.accepts htraced⟩, h.connectionsTotal, ?_,
    ⟨h.logged_perm, hcalls, seen, hseen.run, hseen.offered⟩, ⟨h.filtered, ?_⟩, ?_⟩
  · intro protocol
    exact ⟨h.closedSessionsTotal protocol, h.bytesReceivedTotal protocol, h.eventsTotal protocol⟩
  · intro label next arrival reason hstep hsettled
    exact rejection_frame hstep hsettled
  · intro hreturned
    exact ⟨h.all_ended hreturned, h.active_returned hreturned, h.permits_returned hreturned⟩

/-- Two connections to one endpoint, the second when the permit is taken; the
first is a session until the loop ends. -/
def twoAccepts : List ServerLabel :=
  [.endpoint 0 .pollShutdown, .endpoint 0 .joinPending,
    .endpoint 0 (.accept (client "hi" none)), .endpoint 0 .checkIgnored,
    .endpoint 0 (.checkLimiter 0), .endpoint 0 .acquire, .endpoint 0 .spawn,
    .endpoint 0 .pollShutdown, .endpoint 0 .joinPending,
    .endpoint 0 (.accept (client "" none)), .endpoint 0 .checkIgnored,
    .endpoint 0 (.checkLimiter 1), .endpoint 0 .acquire, .session 0 .start, .cancel,
    .session 0 .close, .session 0 .log, .session 0 .dropGuard, .session 0 .finish,
    .endpoint 0 .pollShutdown, .endpoint 0 (.join 0), .endpoint 0 .finish]

theorem admission_reconciled_session :
    ∃ state, Steps.run (ServerState.step fun _ => none)
        (ServerState.new { sensorOf .Raw with server := { maxConcurrentSessions := 1 } }
          [decoy .Raw]) twoAccepts = some state ∧
      (twoAccepts.filterMap (ServerLabel.arrival [decoy .Raw])).length = 2 ∧
      state.sessions.length = 1 ∧ state.metrics.rejectedTotal (.Raw, "max_sessions") = 1 ∧
      state.metrics.connectionsTotal .Raw = 1 ∧ state.metrics.bytesReceivedTotal .Raw = 2 ∧
      state.metrics.closedSessionsTotal (.Raw, .ClientClosed) = 1 ∧
      state.logger.calls = 1 ∧ state.logger.channel.queue.length = 1 ∧
      state.metrics.activeSessions = 0 ∧ state.permits = 1 := by
  have hend : (Steps.run (ServerState.step fun _ => none)
      (ServerState.new { sensorOf .Raw with server := { maxConcurrentSessions := 1 } }
        [decoy .Raw]) twoAccepts).any (fun state => decide (
          state.loops.all (·.phase.over) = true ∧ state.sessions.length = 1 ∧
          state.metrics.rejectedTotal (.Raw, "max_sessions") = 1 ∧
          state.metrics.connectionsTotal .Raw = 1 ∧ state.metrics.bytesReceivedTotal .Raw = 2 ∧
          state.metrics.closedSessionsTotal (.Raw, .ClientClosed) = 1 ∧
          state.logged.length = 1 ∧ state.logger.channel.queue.length = 1)) = true := by
    decide +kernel
  obtain ⟨state, hrun, hfacts⟩ := (Option.any_eq_true _ _).mp hend
  obtain ⟨hover, hsessions, hrejected, hconnections, hbytes, hclosed, hlogged, hqueued⟩ :=
    of_decide_eq_true hfacts
  have horderly : ∀ label ∈ twoAccepts, label.orderly = true := by decide
  rw [List.all_eq_true] at hover
  obtain ⟨_, _, _, _, ⟨_, hcalls, _⟩, _, hreturned⟩ :=
    admission_reconciled _ _ _ _ _ hrun horderly
  obtain ⟨_, hactive, hpermits⟩ := hreturned hover
  exact ⟨state, hrun, rfl, hsessions, hrejected, hconnections, hbytes, hclosed,
    hcalls.trans hlogged, hqueued, hactive, hpermits⟩

end Minotaur
