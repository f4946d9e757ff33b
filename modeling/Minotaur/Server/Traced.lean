import Minotaur.Logger.Closing
import Minotaur.Server.Moves

/-!
The history of the server is that of the labels of its run. The accepted
connections are those of the `accept` labels, each with the endpoint of its
loop, and the logger runs through steps of its own in which `log` is called
with the records of `logged` and with nothing else.
-/

namespace Minotaur

/-- The connection an accept brings to a server that was given these
endpoints. -/
def ServerLabel.arrival (endpoints : List EndpointConfig) : ServerLabel → Option Arrival
  | .endpoint index (.accept conn) => endpoints[index]?.map fun endpoint => ⟨endpoint, conn⟩
  | _ => none

/-- The reasons `rejected_total` is registered with. -/
def rejectedReasons : List String :=
  ["rate_limit", "rate_limit_capacity", "rate_limiter_unavailable", "max_sessions", "ignored_ip"]

/-- A connection is turned away for a registered reason or becomes a session. -/
def Fate.Registered : Fate → Prop
  | .Rejected reason => reason ∈ rejectedReasons
  | .Spawned => True

theorem Decision.reason_registered {decision : Decision} (hdecision : decision ≠ .Allowed) :
    decision.reason ∈ rejectedReasons := by
  cases decision with
  | Allowed => exact absurd rfl hdecision
  | RateLimit | Capacity | Unavailable => simp [Decision.reason, rejectedReasons]

namespace ServerState

variable {canonicalReason : UInt16 → Option String} {state next : ServerState}

/-! ### What a step adds -/

/-- The connections a label of the loop takes from the listener. -/
def taken (endpoint : EndpointConfig) : LoopLabel → List Arrival
  | .accept conn => [⟨endpoint, conn⟩]
  | _ => []

/-- What a loop adds to the history. -/
structure Adds (state next : ServerState) (arrivals : List Arrival) : Prop where
  bound : next.loops.map (·.endpoint) = state.loops.map (·.endpoint)
  accepted : next.accepted = state.accepted ++ arrivals
  settled : ∃ settled, next.settled = state.settled ++ settled ∧
    ∀ decided ∈ settled, Fate.Registered decided.fate

theorem adds_nothing (hbound : next.loops.map (·.endpoint) = state.loops.map (·.endpoint))
    (haccepted : next.accepted = state.accepted) (hsettled : next.settled = state.settled) :
    Adds state next [] :=
  ⟨hbound, by rw [haccepted, List.append_nil],
    [], by rw [hsettled, List.append_nil], List.forall_mem_nil _⟩

theorem endpoints_setLoop {index : Nat} {loop : EndpointLoop}
    (hloop : state.loops[index]? = some loop) (phase : LoopPhase) :
    (state.loops.set index ⟨loop.endpoint, phase⟩).map (·.endpoint) =
      state.loops.map (·.endpoint) :=
  Ledger.map_set_same hloop rfl

theorem LoopMove.adds {index : Nat} {loop : EndpointLoop} {label : LoopLabel}
    (hmove : LoopMove state index loop label next) (hloop : state.loops[index]? = some loop) :
    Adds state next (taken loop.endpoint label) := by
  have hbound := endpoints_setLoop hloop
  cases hmove with
  | accept conn _ =>
      exact ⟨hbound _, rfl, [], (List.append_nil _).symm, List.forall_mem_nil _⟩
  | ignored _ _ | full _ _ =>
      refine ⟨hbound _, (List.append_nil _).symm, _, rfl, ?_⟩
      simp [Fate.Registered, rejectedReasons]
  | limited _ _ hdecision =>
      refine ⟨hbound _, (List.append_nil _).symm, _, rfl, ?_⟩
      simpa [Fate.Registered] using Decision.reason_registered hdecision
  | spawn _ =>
      refine ⟨hbound _, (List.append_nil _).symm, _, rfl, ?_⟩
      simp [Fate.Registered]
  | cancelled | poll | join | joinPanicked | joinPending | acceptFailed | acceptPending
  | notIgnored | allowed | acquire | drain | finish | crash =>
      exact adds_nothing (hbound _) rfl rfl

theorem adds_of_step {label : ServerLabel}
    (hstep : state.step canonicalReason label = some next) :
    Adds state next (label.arrival (state.loops.map (·.endpoint))).toList := by
  cases label with
  | cancel | evict =>
      obtain rfl := Option.some.inj hstep
      exact adds_nothing rfl rfl rfl
  | writer label =>
      simp only [ServerState.step] at hstep
      split_ifs at hstep
      obtain ⟨logger, _, rfl⟩ := Option.map_eq_some_iff.mp hstep
      exact adds_nothing rfl rfl rfl
  | endpoint index label =>
      obtain ⟨loop, hloop, hmove⟩ := Option.bind_eq_some_iff.mp hstep
      have hadds := (loopMove_of_step hmove).adds hloop
      have hendpoint : (state.loops.map (·.endpoint))[index]? = some loop.endpoint := by
        rw [List.getElem?_map, hloop]
        rfl
      cases label with
      | accept conn =>
          rw [ServerLabel.arrival, hendpoint]
          exact hadds
      | pollShutdown | join | joinPending | acceptFailed | acceptPending | checkIgnored
      | checkLimiter | acquire | spawn | finish | crash => exact hadds
  | session index label =>
      obtain ⟨task, _, hmove⟩ := Option.bind_eq_some_iff.mp hstep
      cases sessionMove_of_step canonicalReason hmove <;> exact adds_nothing rfl rfl rfl

/-! ### The connections -/

/-- The connections are those of the labels, and each is turned away for a
registered reason or becomes a session. -/
structure Traced (endpoints : List EndpointConfig) (labels : List ServerLabel)
    (state : ServerState) : Prop where
  bound : state.loops.map (·.endpoint) = endpoints
  accepted : state.accepted = labels.filterMap (ServerLabel.arrival endpoints)
  settled : ∀ decided ∈ state.settled, Fate.Registered decided.fate

theorem traced_new (config : Config) (endpoints : List EndpointConfig) :
    (ServerState.new config endpoints).Traced endpoints [] where
  bound := by simp [ServerState.new, Function.comp_def]
  accepted := rfl
  settled := List.forall_mem_nil _

theorem Traced.step {endpoints : List EndpointConfig} {labels : List ServerLabel}
    {label : ServerLabel} (h : state.Traced endpoints labels)
    (hstep : state.step canonicalReason label = some next) :
    next.Traced endpoints (labels ++ [label]) := by
  have hadds := adds_of_step hstep
  rw [h.bound] at hadds
  obtain ⟨settled, hsettled, hregistered⟩ := hadds.settled
  refine ⟨hadds.bound.trans h.bound, ?_, ?_⟩
  · rw [hadds.accepted, h.accepted, List.filterMap_append]
    cases harrival : label.arrival endpoints <;> simp [harrival]
  · rw [hsettled]
    exact List.forall_mem_append.mpr ⟨h.settled, hregistered⟩

theorem traced_of_run {config : Config} {endpoints : List EndpointConfig}
    {labels : List ServerLabel}
    (hrun : Steps.run (ServerState.step canonicalReason) (.new config endpoints) labels =
      some state) : state.Traced endpoints labels :=
  Steps.run_history (traced_new config endpoints) (fun _ _ _ _ h hstep => h.step hstep) hrun

/-! ### The calls of `log` -/

/-- Every call of `log` is one of a session that has settled its counters. -/
theorem logged_of_step {label : ServerLabel}
    (hstep : state.step canonicalReason label = some next) :
    (next.logged = state.logged ∧ next.logger = state.logger) ∨
    (∃ label', writes label' = true ∧ next.logged = state.logged ∧
      state.logger.step label' = some next.logger) ∨
    ∃ task ∈ state.sessions, task.phase = .Counted ∧ ∃ record,
      next.logged = state.logged ++ [record] ∧ next.logger = state.logger.offer record := by
  cases label with
  | cancel | evict =>
      obtain rfl := Option.some.inj hstep
      exact Or.inl ⟨rfl, rfl⟩
  | writer label =>
      simp only [ServerState.step] at hstep
      split_ifs at hstep with hwrites
      obtain ⟨logger, hlogger, rfl⟩ := Option.map_eq_some_iff.mp hstep
      exact Or.inr (Or.inl ⟨label, hwrites, rfl, hlogger⟩)
  | endpoint index label =>
      obtain ⟨loop, _, hmove⟩ := Option.bind_eq_some_iff.mp hstep
      cases loopMove_of_step hmove <;> exact Or.inl ⟨rfl, rfl⟩
  | session index label =>
      obtain ⟨task, htask, hmove⟩ := Option.bind_eq_some_iff.mp hstep
      cases sessionMove_of_step canonicalReason hmove with
      | log hphase =>
          exact Or.inr (Or.inr ⟨task, List.mem_of_getElem? htask, hphase, _, rfl, rfl⟩)
      | start | close | dropGuard | finish | panic | abort => exact Or.inl ⟨rfl, rfl⟩

/-- The writer calls `log` for nobody. -/
theorem offered_of_writes {label : LoggerLabel SessionRecord} (hwrites : writes label = true) :
    label.offered = none := by
  cases label with
  | clone | dropSender | log => cases hwrites
  | recv | written | writeFailed | report | countLost => rfl

theorem history_of_writes {logger after : LoggerState SessionRecord}
    {label : LoggerLabel SessionRecord} (hwrites : writes label = true)
    (hmove : logger.Move label after) :
    after.calls = logger.calls ∧ after.accepted = logger.accepted := by
  cases hmove with
  | clone | dropSender | log => cases hwrites
  | recv | finished | written | writeFailed | report | countLost => exact ⟨rfl, rfl⟩

/-- What the history says about the logger, whoever else has touched it. -/
structure Offered (state : ServerState) : Prop where
  calls : state.logger.calls = state.logged.length
  accepted : state.logger.accepted.Sublist state.logged

theorem offered_new (config : Config) (endpoints : List EndpointConfig) :
    (ServerState.new config endpoints).Offered where
  calls := rfl
  accepted := List.Sublist.slnil

theorem Offered.step {label : ServerLabel} (h : state.Offered)
    (hstep : state.step canonicalReason label = some next) : next.Offered := by
  obtain ⟨hlogged, hlogger⟩ | ⟨label', hwrites, hlogged, hlogger⟩ |
    ⟨_, _, _, record, hlogged, hlogger⟩ := logged_of_step hstep
  · exact ⟨by rw [hlogger, hlogged, h.calls], by rw [hlogger, hlogged]; exact h.accepted⟩
  · obtain ⟨hcalls, haccepted⟩ := history_of_writes hwrites (LoggerState.move_of_step hlogger)
    exact ⟨by rw [hcalls, hlogged, h.calls], by rw [haccepted, hlogged]; exact h.accepted⟩
  · refine ⟨by rw [hlogger, hlogged, LoggerState.calls_offer, h.calls, List.length_append]; rfl, ?_⟩
    rw [hlogger, hlogged, (state.logger.offer_accepts record).2]
    apply h.accepted.append
    split_ifs
    · exact List.Sublist.refl _
    · exact List.nil_sublist _

theorem offered_of_run {config : Config} {endpoints : List EndpointConfig}
    {labels : List ServerLabel}
    (hrun : Steps.run (ServerState.step canonicalReason) (.new config endpoints) labels =
      some state) : state.Offered :=
  Steps.run_invariant (fun _ _ _ h hstep => h.step hstep) (offered_new config endpoints) hrun

/-- The logger took these steps, called with the logged records. -/
structure Offers (bufferSize : Nat) (state : ServerState)
    (seen : List (LoggerLabel SessionRecord)) : Prop where
  run : Steps.run LoggerState.step (.spawn SessionRecord bufferSize) seen = some state.logger
  offered : seen.filterMap LoggerLabel.offered = state.logged
  senders : state.logger.channel.senders = 1

theorem Offers.extend {bufferSize : Nat} {seen : List (LoggerLabel SessionRecord)}
    (h : state.Offers bufferSize seen) {label : LoggerLabel SessionRecord}
    (hlogger : state.logger.step label = some next.logger)
    (hlogged : next.logged = state.logged ++ label.offered.toList)
    (hsenders : next.logger.channel.senders = state.logger.channel.senders) :
    next.Offers bufferSize (seen ++ [label]) := by
  refine ⟨?_, ?_, hsenders.trans h.senders⟩
  · rw [Steps.run_append, h.run, Option.bind_some, Steps.run_cons, hlogger]
    rfl
  · rw [List.filterMap_append, h.offered, hlogged]
    cases hoffered : label.offered <;> simp [hoffered]

theorem Offers.step {bufferSize : Nat} {label : ServerLabel}
    (h : ∃ seen, state.Offers bufferSize seen)
    (hstep : state.step canonicalReason label = some next) :
    ∃ seen, next.Offers bufferSize seen := by
  obtain ⟨seen, h⟩ := h
  obtain ⟨hlogged, hlogger⟩ | ⟨label', hwrites, hlogged, hlogger⟩ |
    ⟨_, _, _, record, hlogged, hlogger⟩ := logged_of_step hstep
  · exact ⟨seen, hlogger ▸ h.run, h.offered.trans hlogged.symm, hlogger ▸ h.senders⟩
  · refine ⟨_, h.extend hlogger ?_ ?_⟩
    · rw [hlogged, offered_of_writes hwrites]
      exact (List.append_nil _).symm
    · apply (LoggerState.move_of_step hlogger).senders
      · rintro rfl
        cases hwrites
      · rintro rfl
        cases hwrites
  · have hlive : state.logger.channel.senders ≠ 0 := by rw [h.senders]; decide
    refine ⟨_, @Offers.extend _ _ _ _ h (.log record) ?_ hlogged ?_⟩
    · rw [hlogger, LoggerState.step, if_neg hlive]
    · rw [hlogger, LoggerState.senders_offer]

theorem offers_of_run {config : Config} {endpoints : List EndpointConfig}
    {labels : List ServerLabel}
    (hrun : Steps.run (ServerState.step canonicalReason) (.new config endpoints) labels =
      some state) : ∃ seen, state.Offers config.logging.bufferSize seen := by
  refine @Steps.run_invariant _ _ (ServerState.step canonicalReason)
    (fun state => ∃ seen, state.Offers config.logging.bufferSize seen) ?_ _ _ _ ?_ hrun
  · exact fun _ _ _ h hstep => Offers.step h hstep
  · exact ⟨[], rfl, rfl, rfl⟩

end ServerState

end Minotaur
