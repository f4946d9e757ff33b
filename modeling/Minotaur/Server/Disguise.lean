import Minotaur.Server.Moves

/-!
What the server does not look at. It compares the address of a peer, asks
whether a session may be over, and puts a record into the queue; of everything
else in a connection it knows nothing. So other connections with the same
answers lead the same run, and the queue, the counters and the limiter are
never the wiser.
-/

namespace Minotaur

/-- Other connections in the place of those that arrive, which the server
cannot tell from them. -/
structure Disguise (canonicalReason : UInt16 → Option String) (config : Config) where
  conn : EndpointConfig → Connection → Connection
  peer : ∀ ep c, (conn ep c).peer = c.peer
  record : ∀ ep c, (conn ep c).record canonicalReason config ep = c.record canonicalReason config ep
  mayClose : ∀ ep c shutdown, Arrival.mayClose canonicalReason config shutdown ⟨ep, conn ep c⟩ =
    Arrival.mayClose canonicalReason config shutdown ⟨ep, c⟩

namespace Disguise

variable {canonicalReason : UInt16 → Option String} {config : Config}
  (d : Disguise canonicalReason config)

def arrival (arrival : Arrival) : Arrival :=
  { arrival with conn := d.conn arrival.endpoint arrival.conn }

def settled (settled : Settled) : Settled := { settled with arrival := d.arrival settled.arrival }

def task (task : SessionTask) : SessionTask := { task with arrival := d.arrival task.arrival }

def loopPhase : LoopPhase → LoopPhase
  | .Accepted arrival => .Accepted (d.arrival arrival)
  | .Checking arrival => .Checking (d.arrival arrival)
  | .Acquiring arrival => .Acquiring (d.arrival arrival)
  | .Spawning arrival => .Spawning (d.arrival arrival)
  | phase => phase

def loop (loop : EndpointLoop) : EndpointLoop := { loop with phase := d.loopPhase loop.phase }

def loopLabel (endpoint : EndpointConfig) : LoopLabel → LoopLabel
  | .accept conn => .accept (d.conn endpoint conn)
  | label => label

/-- The loops serve `endpoints`, in this order. -/
def label (endpoints : List EndpointConfig) : ServerLabel → ServerLabel
  | .endpoint index label =>
      .endpoint index ((endpoints[index]?.map fun endpoint => d.loopLabel endpoint label).getD label)
  | label => label

def server (state : ServerState) : ServerState :=
  { state with
    loops := state.loops.map d.loop
    sessions := state.sessions.map d.task
    accepted := state.accepted.map d.arrival
    settled := state.settled.map d.settled }

@[simp] theorem endpoint_arrival (arrival : Arrival) :
    (d.arrival arrival).endpoint = arrival.endpoint := rfl

@[simp] theorem record_arrival (arrival : Arrival) :
    (d.arrival arrival).record canonicalReason config = arrival.record canonicalReason config :=
  d.record _ _

@[simp] theorem mayClose_arrival (shutdown : Bool) (arrival : Arrival) :
    (d.arrival arrival).mayClose canonicalReason config shutdown =
      arrival.mayClose canonicalReason config shutdown := d.mayClose _ _ _

@[simp] theorem peer_arrival (arrival : Arrival) :
    (d.arrival arrival).conn.peer = arrival.conn.peer := d.peer _ _

theorem over_loopPhase (phase : LoopPhase) : (d.loopPhase phase).over = phase.over := by
  cases phase <;> rfl

theorem crashed_loopPhase (phase : LoopPhase) : (d.loopPhase phase).crashed = phase.crashed := by
  cases phase <;> rfl

theorem permits_loopPhase (phase : LoopPhase) : (d.loopPhase phase).permits = phase.permits := by
  cases phase <;> rfl

/-! ### The server under a disguise -/

variable (state : ServerState)

@[simp] theorem shutdown_server : (d.server state).shutdown = state.shutdown := rfl

@[simp] theorem server_setLoop (index : Nat) (endpoint : EndpointConfig) (phase : LoopPhase) :
    d.server (state.setLoop index endpoint phase) =
      (d.server state).setLoop index endpoint (d.loopPhase phase) := by
  simp [server, ServerState.setLoop, List.map_set, loop]

@[simp] theorem server_setSession (index : Nat) (task : SessionTask) :
    d.server (state.setSession index task) = (d.server state).setSession index (d.task task) := by
  simp [server, ServerState.setSession, List.map_set]

@[simp] theorem server_reject (arrival : Arrival) (reason : String) :
    d.server (state.reject arrival reason) =
      (d.server state).reject (d.arrival arrival) reason := by
  simp [server, ServerState.reject, settled]

@[simp] theorem server_spawn (owner : Nat) (arrival : Arrival) :
    d.server (state.spawn owner arrival) = (d.server state).spawn owner (d.arrival arrival) := by
  simp [server, ServerState.spawn, settled, task]

@[simp] theorem server_accept (index : Nat) (endpoint : EndpointConfig) (conn : Connection) :
    d.server (state.accept index endpoint conn) =
      (d.server state).accept index endpoint (d.conn endpoint conn) := by
  simp [ServerState.accept, server, ServerState.setLoop, List.map_set, loop, loopPhase, arrival]

@[simp] theorem server_failed (index : Nat) (endpoint : EndpointConfig) (failure : RunError) :
    d.server (state.failed index endpoint failure) =
      (d.server state).failed index endpoint failure := server_setLoop d _ _ _ _

@[simp] theorem server_log (record : SessionRecord) :
    d.server (state.log record) = (d.server state).log record := rfl

theorem server_unwind (index : Nat) (task : SessionTask) :
    d.server (state.unwind index task) = (d.server state).unwind index (d.task task) :=
  server_setSession d _ _ _

theorem ignores_server (arrival : Arrival) :
    (d.server state).ignores (d.arrival arrival) = state.ignores arrival := by
  unfold ServerState.ignores
  rw [d.peer_arrival]
  rfl

theorem joinable_server (owner index : Nat) :
    (d.server state).joinable owner index = (state.joinable owner index).map d.task := by
  unfold ServerState.joinable
  change Option.filter _ (state.sessions.map d.task)[index]? = _
  rw [List.getElem?_map, Option.filter_map]
  rfl

theorem drained_server (owner : Nat) : (d.server state).drained owner = state.drained owner := by
  change (state.sessions.map d.task).all _ = _
  rw [List.all_map]
  rfl

theorem crashed_server (owner : Nat) :
    (d.server state).loops[owner]?.any (·.phase.crashed) =
      state.loops[owner]?.any (·.phase.crashed) := by
  change (state.loops.map d.loop)[owner]?.any _ = _
  rw [List.getElem?_map, Option.any_map]
  congr 1
  funext loop
  exact d.crashed_loopPhase loop.phase

theorem loopStep_server (index : Nat) (loop : EndpointLoop) (label : LoopLabel) :
    (d.server state).loopStep index (d.loop loop) (d.loopLabel loop.endpoint label) =
      (state.loopStep index loop label).map d.server := by
  obtain ⟨endpoint, phase⟩ := loop
  unfold Disguise.loop
  cases label with
  | pollShutdown =>
      cases phase with
      | Selecting =>
          cases hshutdown : state.shutdown <;>
            simp [ServerState.loopStep, loopLabel, loopPhase, hshutdown]
      | _ => rfl
  | join session =>
      cases phase with
      | Joining =>
          simp only [ServerState.loopStep, loopLabel, loopPhase, joinable_server, Option.map_map]
          congr 1
          funext task
          simp only [Function.comp_apply, apply_ite d.server, server_failed, server_setLoop,
            server_setSession]
          rfl
      | Draining failure =>
          simp only [ServerState.loopStep, loopLabel, loopPhase, joinable_server, Option.map_map]
          congr 1
          funext task
          simp only [Function.comp_apply, server_setLoop, server_setSession]
          rfl
      | _ => rfl
  | joinPending | acceptPending | acceptFailed =>
      cases phase with
      | Joining | Accepting => simp [ServerState.loopStep, loopLabel, loopPhase]
      | _ => rfl
  | accept conn =>
      cases phase with
      | Accepting => simp [ServerState.loopStep, loopLabel, loopPhase]
      | _ => rfl
  | checkIgnored =>
      cases phase with
      | Accepted arrival =>
          simp [ServerState.loopStep, loopLabel, loopPhase, ignores_server,
            apply_ite (Option.map d.server)]
      | _ => rfl
  | checkLimiter now =>
      cases phase with
      | Checking arrival =>
          simp only [ServerState.loopStep, loopLabel, loopPhase, d.peer_arrival,
            apply_ite (Option.map d.server), Option.map_some, server_setLoop, server_reject]
          rfl
      | _ => rfl
  | acquire =>
      cases phase with
      | Acquiring arrival =>
          simp only [ServerState.loopStep, loopLabel, loopPhase, apply_ite (Option.map d.server),
            Option.map_some, server_setLoop, server_reject]
          rfl
      | _ => rfl
  | spawn =>
      cases phase with
      | Spawning arrival => simp [ServerState.loopStep, loopLabel, loopPhase]
      | _ => rfl
  | finish =>
      cases phase with
      | Draining failure =>
          simp [ServerState.loopStep, loopLabel, loopPhase, drained_server,
            apply_ite (Option.map d.server)]
      | _ => rfl
  | crash =>
      simp only [ServerState.loopStep, loopLabel, d.over_loopPhase, d.permits_loopPhase,
        apply_ite (Option.map d.server), Option.map_some, server_setLoop]
      rfl

theorem sessionStep_server (hconfig : state.config = config) (index : Nat) (task : SessionTask)
    (label : SessionLabel) :
    (d.server state).sessionStep canonicalReason index (d.task task) label =
      (state.sessionStep canonicalReason index task label).map d.server := by
  obtain ⟨owner, arrival, phase, joined⟩ := task
  have hconfig' : (d.server state).config = config := hconfig
  unfold Disguise.task
  cases label with
  | start =>
      cases phase with
      | Spawned =>
          simp only [ServerState.sessionStep, Option.map_some, server_setSession]
          rfl
      | _ => rfl
  | close =>
      cases phase with
      | Active =>
          simp only [ServerState.sessionStep, hconfig, hconfig', d.mayClose_arrival,
            d.record_arrival, apply_ite (Option.map d.server), Option.map_some, server_setSession]
          rfl
      | _ => rfl
  | log =>
      cases phase with
      | Counted =>
          simp only [ServerState.sessionStep, hconfig, hconfig', d.record_arrival,
            Option.map_some, server_setSession, server_log]
          rfl
      | _ => rfl
  | dropGuard =>
      cases phase with
      | Logged =>
          simp only [ServerState.sessionStep, Option.map_some, server_setSession]
          rfl
      | _ => rfl
  | finish =>
      cases phase with
      | Released =>
          simp only [ServerState.sessionStep, Option.map_some, server_setSession]
          rfl
      | _ => rfl
  | panic =>
      simp only [ServerState.sessionStep, apply_ite (Option.map d.server), Option.map_some,
        server_unwind]
      rfl
  | abort =>
      simp only [ServerState.sessionStep, crashed_server, apply_ite (Option.map d.server),
        Option.map_some, server_unwind]
      rfl

end Disguise

/-! ### Runs -/

namespace ServerState

/-- What the server was started with. -/
structure StartedWith (config : Config) (endpoints : List EndpointConfig) (state : ServerState) :
    Prop where
  config : state.config = config
  endpoints : state.loops.map EndpointLoop.endpoint = endpoints

variable {canonicalReason : UInt16 → Option String} {config : Config}
  {endpoints : List EndpointConfig} {state next : ServerState}

theorem startedWith_new : (ServerState.new config endpoints).StartedWith config endpoints where
  config := rfl
  endpoints := (List.map_map ..).trans (List.map_id _)

theorem config_of_step {label : ServerLabel}
    (hstep : state.step canonicalReason label = some next) : next.config = state.config := by
  cases label with
  | cancel | evict => exact Option.some.inj hstep ▸ rfl
  | writer label =>
      simp only [ServerState.step] at hstep
      split_ifs at hstep
      obtain ⟨_, _, rfl⟩ := Option.map_eq_some_iff.mp hstep
      rfl
  | endpoint index label =>
      obtain ⟨_, _, hmove⟩ := Option.bind_eq_some_iff.mp hstep
      cases loopMove_of_step hmove <;> rfl
  | session index label =>
      obtain ⟨_, _, hmove⟩ := Option.bind_eq_some_iff.mp hstep
      cases sessionMove_of_step canonicalReason hmove <;> rfl

theorem endpoints_of_step {label : ServerLabel}
    (hstep : state.step canonicalReason label = some next) :
    next.loops.map EndpointLoop.endpoint = state.loops.map EndpointLoop.endpoint := by
  by_cases hcancel : label = .cancel
  · subst hcancel
    exact Option.some.inj hstep ▸ rfl
  · cases advances_of_step hstep hcancel with
    | still hloops _ => rw [hloops]
    | moved hloop hloops _ _ _ =>
        rw [hloops]
        exact Ledger.map_set_same hloop rfl

theorem StartedWith.step {label : ServerLabel} (h : state.StartedWith config endpoints)
    (hstep : state.step canonicalReason label = some next) : next.StartedWith config endpoints where
  config := (config_of_step hstep).trans h.config
  endpoints := (endpoints_of_step hstep).trans h.endpoints

end ServerState

namespace Disguise

variable {canonicalReason : UInt16 → Option String} {config : Config}
  {endpoints : List EndpointConfig} {state : ServerState} (d : Disguise canonicalReason config)

theorem step_server (h : state.StartedWith config endpoints) (label : ServerLabel) :
    (d.server state).step canonicalReason (d.label endpoints label) =
      (state.step canonicalReason label).map d.server := by
  cases label with
  | cancel | evict => rfl
  | writer label =>
      simp only [ServerState.step, Disguise.label, apply_ite (Option.map d.server),
        Option.map_none, Option.map_map]
      rfl
  | endpoint index label =>
      simp only [ServerState.step, Disguise.label]
      change (state.loops.map d.loop)[index]?.bind _ = _
      rw [List.getElem?_map, Option.bind_map, Option.map_bind]
      cases hloop : state.loops[index]? with
      | none => rfl
      | some loop =>
          have hendpoint : endpoints[index]? = some loop.endpoint := by
            rw [← h.endpoints, List.getElem?_map, hloop]
            rfl
          rw [hendpoint]
          exact d.loopStep_server state index loop label
  | session index label =>
      simp only [ServerState.step, Disguise.label]
      change (state.sessions.map d.task)[index]?.bind _ = _
      rw [List.getElem?_map, Option.bind_map, Option.map_bind]
      congr 1
      funext task
      exact d.sessionStep_server state h.config index task label

end Disguise

end Minotaur
