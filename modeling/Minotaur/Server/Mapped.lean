import Minotaur.Config.Accepted
import Minotaur.Protocols.Source
import Minotaur.Server

/-!
IPv4-mapped addresses. A state in which every address is replaced by its
canonical form makes the same steps, for all the server does with an address
is to compare canonical forms and to write it into a record. Two runs whose
inputs differ in the form of some addresses only have the same canonical run.
-/

namespace Minotaur

open Net

/-- The same peer over IPv4, if its address is IPv4-mapped. -/
def canonicalPeer : SocketAddr → SocketAddr
  | .V4 ip port => .V4 ip port
  | .V6 ip port flowinfo scopeId =>
      match toIpv4Mapped ip with
      | some mapped => .V4 mapped port
      | none => .V6 ip port flowinfo scopeId

theorem ip_canonicalPeer (peer : SocketAddr) : (canonicalPeer peer).ip = canonicalIp peer.ip := by
  cases peer with
  | V4 ip port => rfl
  | V6 ip port flowinfo scopeId =>
      simp only [canonicalPeer, canonicalIp, SocketAddr.ip]
      cases toIpv4Mapped ip <;> rfl

/-! ### Canonical forms -/

def Config.canonical (config : Config) : Config :=
  { config with server := { config.server with
      ignoreSourceIps := config.server.ignoreSourceIps.map canonicalIp } }

def Connection.canonical (conn : Connection) : Connection :=
  { conn with peer := canonicalPeer conn.peer }

def Arrival.canonical (arrival : Arrival) : Arrival :=
  { arrival with conn := arrival.conn.canonical }

def Settled.canonical (settled : Settled) : Settled :=
  { settled with arrival := settled.arrival.canonical }

def SessionRecord.canonical (record : SessionRecord) : SessionRecord :=
  { record with src := canonicalPeer record.src }

def SessionTask.canonical (task : SessionTask) : SessionTask :=
  { task with arrival := task.arrival.canonical }

def LoopPhase.canonical : LoopPhase → LoopPhase
  | .Selecting => .Selecting
  | .Joining => .Joining
  | .Accepting => .Accepting
  | .Accepted arrival => .Accepted arrival.canonical
  | .Checking arrival => .Checking arrival.canonical
  | .Acquiring arrival => .Acquiring arrival.canonical
  | .Spawning arrival => .Spawning arrival.canonical
  | .Draining failure => .Draining failure
  | .Returned result => .Returned result
  | .Crashed => .Crashed

def EndpointLoop.canonical (loop : EndpointLoop) : EndpointLoop :=
  { loop with phase := loop.phase.canonical }

def LoopLabel.canonical : LoopLabel → LoopLabel
  | .accept conn => .accept conn.canonical
  | label => label

def ServerLabel.canonical : ServerLabel → ServerLabel
  | .writer label => .writer (label.map SessionRecord.canonical)
  | .endpoint index label => .endpoint index label.canonical
  | label => label

def ServerState.canonical (state : ServerState) : ServerState :=
  { state with
    config := state.config.canonical
    loops := state.loops.map EndpointLoop.canonical
    sessions := state.sessions.map SessionTask.canonical
    logger := state.logger.map SessionRecord.canonical
    accepted := state.accepted.map Arrival.canonical
    settled := state.settled.map Settled.canonical
    logged := state.logged.map SessionRecord.canonical }

/-! ### Sessions -/

section Sessions

variable (canonicalReason : UInt16 → Option String) (config : Config)

theorem commutes_supervised (src : SocketAddr) (ep : EndpointConfig) :
    Future.Commutes (SessionWorld.withSrc src) (supervised canonicalReason ep) := by
  apply Future.commutes_bind (commutes_awaiting fun _ => rfl)
  intro _
  unfold Protocols.handle
  split
  · exact Raw.commutes_handle ep
  · exact Ssh.commutes_handle ep
  · exact Http.commutes_handle canonicalReason ep
  · exact Telnet.commutes_handle ep

/-- The handler runs as it would for the canonical peer. -/
theorem Connection.run_canonical (conn : Connection) (ep : EndpointConfig) :
    conn.canonical.run canonicalReason config.canonical ep =
      (conn.run canonicalReason config ep).mapWorld
        (SessionWorld.withSrc (canonicalPeer conn.peer)) :=
  commutes_supervised canonicalReason _ ep (conn.world config ep)

/-- The address of the peer is the one the session was opened with. -/
theorem Connection.src_run (conn : Connection) (ep : EndpointConfig) :
    (conn.run canonicalReason config ep).world.session.src = conn.peer := by
  have hsame : conn.run canonicalReason config ep =
      (conn.run canonicalReason config ep).mapWorld (SessionWorld.withSrc conn.peer) :=
    commutes_supervised canonicalReason conn.peer ep (conn.world config ep)
  rw [hsame]
  cases conn.run canonicalReason config ep <;> rfl

theorem Connection.record_canonical (conn : Connection) (ep : EndpointConfig) :
    conn.canonical.record canonicalReason config.canonical ep =
      (conn.record canonicalReason config ep).canonical := by
  have hsrc := conn.src_run canonicalReason config ep
  unfold Connection.record
  dsimp only
  rw [conn.run_canonical canonicalReason config ep]
  cases hrun : conn.run canonicalReason config ep with
  | done reason world | dropped world =>
      rw [hrun] at hsrc
      simp only [SessionRecord.canonical, SessionState.finalize, Outcome.world] at hsrc ⊢
      rw [hsrc]
      rfl

theorem Arrival.record_canonical (arrival : Arrival) :
    arrival.canonical.record canonicalReason config.canonical =
      (arrival.record canonicalReason config).canonical :=
  arrival.conn.record_canonical canonicalReason config arrival.endpoint

theorem Arrival.mayClose_canonical (shutdown : Bool) (arrival : Arrival) :
    arrival.canonical.mayClose canonicalReason config.canonical shutdown =
      arrival.mayClose canonicalReason config shutdown := by
  have hrun : arrival.canonical.conn.run canonicalReason config.canonical
      arrival.canonical.endpoint = _ :=
    arrival.conn.run_canonical canonicalReason config arrival.endpoint
  unfold mayClose
  rw [hrun]
  cases arrival.conn.run canonicalReason config arrival.endpoint <;> rfl

end Sessions

theorem Arrival.ip_canonical (arrival : Arrival) :
    canonicalIp arrival.canonical.conn.peer.ip = canonicalIp arrival.conn.peer.ip := by
  change canonicalIp (canonicalPeer arrival.conn.peer).ip = _
  rw [ip_canonicalPeer, canonicalIp_idem]

theorem LoopPhase.over_canonical (phase : LoopPhase) : phase.canonical.over = phase.over := by
  cases phase <;> rfl

theorem LoopPhase.crashed_canonical (phase : LoopPhase) :
    phase.canonical.crashed = phase.crashed := by
  cases phase <;> rfl

theorem LoopPhase.permits_canonical (phase : LoopPhase) :
    phase.canonical.permits = phase.permits := by
  cases phase <;> rfl

namespace ServerState

variable (canonicalReason : UInt16 → Option String) (state : ServerState)

@[simp] theorem config_canonical : state.canonical.config = state.config.canonical := rfl

@[simp] theorem shutdown_canonical : state.canonical.shutdown = state.shutdown := rfl

@[simp] theorem permits_canonical : state.canonical.permits = state.permits := rfl

@[simp] theorem rateLimiter_canonical : state.canonical.rateLimiter = state.rateLimiter := rfl

@[simp] theorem canonical_setLoop (index : Nat) (endpoint : EndpointConfig) (phase : LoopPhase) :
    (state.setLoop index endpoint phase).canonical =
      state.canonical.setLoop index endpoint phase.canonical := by
  simp [canonical, setLoop, List.map_set, EndpointLoop.canonical]

@[simp] theorem canonical_setSession (index : Nat) (task : SessionTask) :
    (state.setSession index task).canonical = state.canonical.setSession index task.canonical := by
  simp [canonical, setSession, List.map_set]

@[simp] theorem canonical_reject (arrival : Arrival) (reason : String) :
    (state.reject arrival reason).canonical = state.canonical.reject arrival.canonical reason := by
  simp [canonical, reject, Settled.canonical, Arrival.canonical]

@[simp] theorem canonical_spawn (owner : Nat) (arrival : Arrival) :
    (state.spawn owner arrival).canonical = state.canonical.spawn owner arrival.canonical := by
  simp [canonical, spawn, Settled.canonical, SessionTask.canonical]

@[simp] theorem canonical_accept (index : Nat) (endpoint : EndpointConfig) (conn : Connection) :
    (state.accept index endpoint conn).canonical =
      state.canonical.accept index endpoint conn.canonical := by
  unfold accept
  rw [canonical_setLoop]
  simp [canonical, Arrival.canonical, LoopPhase.canonical]

@[simp] theorem canonical_failed (index : Nat) (endpoint : EndpointConfig) (failure : RunError) :
    (state.failed index endpoint failure).canonical =
      state.canonical.failed index endpoint failure := canonical_setLoop _ _ _ _

@[simp] theorem canonical_log (record : SessionRecord) :
    (state.log record).canonical = state.canonical.log record.canonical := by
  simp [canonical, log, LoggerState.offer_map]

theorem canonical_unwind (index : Nat) (task : SessionTask) :
    (state.unwind index task).canonical = state.canonical.unwind index task.canonical :=
  canonical_setSession _ _ _

theorem ignores_canonical (arrival : Arrival) :
    state.canonical.ignores arrival.canonical = state.ignores arrival := by
  have hignored : (state.canonical.config.server.ignoreSourceIps.map canonicalIp) =
      state.config.server.ignoreSourceIps.map canonicalIp := by
    simp [canonical, Config.canonical, canonicalIp_idem]
  unfold ignores
  rw [arrival.ip_canonical, hignored]

theorem joinable_canonical (owner index : Nat) :
    state.canonical.joinable owner index =
      (state.joinable owner index).map SessionTask.canonical := by
  unfold joinable
  change Option.filter _ (state.sessions.map SessionTask.canonical)[index]? = _
  rw [List.getElem?_map, Option.filter_map]
  rfl

theorem drained_canonical (owner : Nat) : state.canonical.drained owner = state.drained owner := by
  change (state.sessions.map SessionTask.canonical).all _ = _
  rw [List.all_map]
  rfl

theorem crashed_canonical (owner : Nat) :
    state.canonical.loops[owner]?.any (·.phase.crashed) =
      state.loops[owner]?.any (·.phase.crashed) := by
  change (state.loops.map EndpointLoop.canonical)[owner]?.any _ = _
  rw [List.getElem?_map, Option.any_map]
  congr 1
  funext loop
  exact loop.phase.crashed_canonical

/-! ### Steps -/

theorem loopStep_canonical (index : Nat) (loop : EndpointLoop) (label : LoopLabel) :
    state.canonical.loopStep index loop.canonical label.canonical =
      (state.loopStep index loop label).map ServerState.canonical := by
  obtain ⟨endpoint, phase⟩ := loop
  unfold EndpointLoop.canonical
  cases label with
  | pollShutdown =>
      cases phase with
      | Selecting =>
          cases hshutdown : state.shutdown <;>
            simp [loopStep, LoopLabel.canonical, LoopPhase.canonical, hshutdown]
      | _ => rfl
  | join session =>
      cases phase with
      | Joining =>
          simp only [loopStep, LoopLabel.canonical, LoopPhase.canonical, joinable_canonical,
            Option.map_map]
          congr 1
          funext task
          simp only [Function.comp_apply, apply_ite ServerState.canonical, canonical_failed,
            canonical_setLoop, canonical_setSession]
          rfl
      | Draining failure =>
          simp only [loopStep, LoopLabel.canonical, LoopPhase.canonical, joinable_canonical,
            Option.map_map]
          congr 1
          funext task
          simp only [Function.comp_apply, canonical_setLoop, canonical_setSession]
          rfl
      | _ => rfl
  | joinPending | acceptPending =>
      cases phase with
      | Joining | Accepting => simp [loopStep, LoopLabel.canonical, LoopPhase.canonical]
      | _ => rfl
  | accept conn =>
      cases phase with
      | Accepting => simp [loopStep, LoopLabel.canonical, LoopPhase.canonical]
      | _ => rfl
  | acceptFailed =>
      cases phase with
      | Accepting => simp [loopStep, LoopLabel.canonical, LoopPhase.canonical]
      | _ => rfl
  | checkIgnored =>
      cases phase with
      | Accepted arrival =>
          simp [loopStep, LoopLabel.canonical, LoopPhase.canonical, ignores_canonical,
            apply_ite (Option.map ServerState.canonical)]
      | _ => rfl
  | checkLimiter now =>
      cases phase with
      | Checking arrival =>
          simp only [loopStep, LoopLabel.canonical, LoopPhase.canonical, rateLimiter_canonical,
            arrival.ip_canonical, apply_ite (Option.map ServerState.canonical), Option.map_some,
            canonical_setLoop, canonical_reject]
          rfl
      | _ => rfl
  | acquire =>
      cases phase with
      | Acquiring arrival =>
          simp only [loopStep, LoopLabel.canonical, LoopPhase.canonical, permits_canonical,
            apply_ite (Option.map ServerState.canonical), Option.map_some, canonical_setLoop,
            canonical_reject]
          rfl
      | _ => rfl
  | spawn =>
      cases phase with
      | Spawning arrival => simp [loopStep, LoopLabel.canonical, LoopPhase.canonical]
      | _ => rfl
  | finish =>
      cases phase with
      | Draining failure =>
          simp [loopStep, LoopLabel.canonical, LoopPhase.canonical, drained_canonical,
            apply_ite (Option.map ServerState.canonical)]
      | _ => rfl
  | crash =>
      simp only [loopStep, LoopLabel.canonical, phase.over_canonical, phase.permits_canonical,
        apply_ite (Option.map ServerState.canonical), Option.map_some, canonical_setLoop]
      rfl

theorem sessionStep_canonical (index : Nat) (task : SessionTask) (label : SessionLabel) :
    state.canonical.sessionStep canonicalReason index task.canonical label =
      (state.sessionStep canonicalReason index task label).map ServerState.canonical := by
  obtain ⟨owner, arrival, phase, joined⟩ := task
  unfold SessionTask.canonical
  cases label with
  | start =>
      cases phase with
      | Spawned =>
          simp only [sessionStep, Option.map_some, canonical_setSession]
          rfl
      | _ => rfl
  | close =>
      cases phase with
      | Active =>
          simp only [sessionStep, config_canonical, shutdown_canonical,
            arrival.mayClose_canonical, arrival.record_canonical,
            apply_ite (Option.map ServerState.canonical), Option.map_some, canonical_setSession]
          rfl
      | _ => rfl
  | log =>
      cases phase with
      | Counted =>
          simp only [sessionStep, config_canonical, arrival.record_canonical, Option.map_some,
            canonical_setSession, canonical_log]
          rfl
      | _ => rfl
  | dropGuard =>
      cases phase with
      | Logged =>
          simp only [sessionStep, Option.map_some, canonical_setSession]
          rfl
      | _ => rfl
  | finish =>
      cases phase with
      | Released =>
          simp only [sessionStep, Option.map_some, canonical_setSession]
          rfl
      | _ => rfl
  | panic =>
      simp only [sessionStep, apply_ite (Option.map ServerState.canonical), Option.map_some,
        canonical_unwind]
      rfl
  | abort =>
      simp only [sessionStep, crashed_canonical, apply_ite (Option.map ServerState.canonical),
        Option.map_some, canonical_unwind]
      rfl

theorem step_canonical (label : ServerLabel) :
    state.canonical.step canonicalReason label.canonical =
      (state.step canonicalReason label).map ServerState.canonical := by
  cases label with
  | cancel | evict => rfl
  | writer label =>
      have hwrites : writes (label.map SessionRecord.canonical) = writes label := by
        cases label <;> rfl
      simp only [step, ServerLabel.canonical, hwrites,
        apply_ite (Option.map ServerState.canonical), Option.map_none, Option.map_map]
      change (if writes label then ((state.logger.map SessionRecord.canonical).step _).map _
        else none) = _
      rw [LoggerState.step_map, Option.map_map]
      rfl
  | endpoint index label =>
      simp only [step, ServerLabel.canonical]
      change (state.loops.map EndpointLoop.canonical)[index]?.bind _ = _
      rw [List.getElem?_map, Option.bind_map, Option.map_bind]
      congr 1
      funext loop
      exact state.loopStep_canonical index loop label
  | session index label =>
      simp only [step, ServerLabel.canonical]
      change (state.sessions.map SessionTask.canonical)[index]?.bind _ = _
      rw [List.getElem?_map, Option.bind_map, Option.map_bind]
      congr 1
      funext task
      exact state.sessionStep_canonical canonicalReason index task label

theorem run_canonical (labels : List ServerLabel) :
    Steps.run (ServerState.step canonicalReason) state.canonical
        (labels.map ServerLabel.canonical) =
      (Steps.run (ServerState.step canonicalReason) state labels).map ServerState.canonical :=
  Steps.run_map (fun state label => state.step_canonical canonicalReason label) state labels

theorem canonical_new (config : Config) (endpoints : List EndpointConfig) :
    (ServerState.new config endpoints).canonical = .new config.canonical endpoints := by
  simp [canonical, ServerState.new, EndpointLoop.canonical, LoopPhase.canonical,
    Config.canonical]
  rfl

end ServerState

/-! ### Mapped addresses -/

/-- The second address is the first or, if that is an IPv4 address, its
IPv4-mapped form. -/
inductive MappedIp : IpAddr → IpAddr → Prop
  | same (ip : IpAddr) : MappedIp ip ip
  | mapped (addr : Ipv4Addr) : MappedIp (.V4 addr) (.V6 (toIpv6Mapped addr))

inductive MappedPeer : SocketAddr → SocketAddr → Prop
  | same (peer : SocketAddr) : MappedPeer peer peer
  | mapped (addr : Ipv4Addr) (port : UInt16) (flowinfo scopeId : UInt32) :
      MappedPeer (.V4 addr port) (.V6 (toIpv6Mapped addr) port flowinfo scopeId)

/-- The second label is the first, up to the address of the peer it accepts. -/
inductive MappedLabel : ServerLabel → ServerLabel → Prop
  | same (label : ServerLabel) : MappedLabel label label
  | accept (index : Nat) (conn : Connection) {peer : SocketAddr}
      (hpeer : MappedPeer conn.peer peer) :
      MappedLabel (.endpoint index (.accept conn))
        (.endpoint index (.accept { conn with peer := peer }))

def Config.ignoring (config : Config) (ips : List IpAddr) : Config :=
  { config with server := { config.server with ignoreSourceIps := ips } }

theorem MappedIp.canonicalIp_eq {ip ip' : IpAddr} (h : MappedIp ip ip') :
    canonicalIp ip' = canonicalIp ip := by
  cases h with
  | same => rfl
  | mapped addr => simp [canonicalIp, toIpv4Mapped_toIpv6Mapped]

theorem MappedPeer.canonicalPeer_eq {peer peer' : SocketAddr} (h : MappedPeer peer peer') :
    canonicalPeer peer' = canonicalPeer peer := by
  cases h with
  | same => rfl
  | mapped addr => simp [canonicalPeer, toIpv4Mapped_toIpv6Mapped]

theorem MappedLabel.canonical_eq {label label' : ServerLabel} (h : MappedLabel label label') :
    label'.canonical = label.canonical := by
  cases h with
  | same => rfl
  | accept index conn hpeer =>
      simp [ServerLabel.canonical, LoopLabel.canonical, Connection.canonical,
        hpeer.canonicalPeer_eq]

theorem map_eq_of_forall₂ {α β : Type*} {rel : α → α → Prop} {view : α → β} {list list' : List α}
    (hview : ∀ a a', rel a a' → view a' = view a) (h : List.Forall₂ rel list list') :
    list'.map view = list.map view := by
  induction h with
  | nil => rfl
  | cons hhead _ ih => rw [List.map_cons, List.map_cons, hview _ _ hhead, ih]

theorem Config.Accepted.ignoring {config : Config} (h : config.Accepted) {ips : List IpAddr}
    (hlength : ips.length = config.server.ignoreSourceIps.length)
    (hcanonical : ips.map canonicalIp = config.server.ignoreSourceIps.map canonicalIp) :
    (config.ignoring ips).Accepted :=
  { h with
    server := { h.server with
      ignoredCount := hlength.trans_le h.server.ignoredCount
      ignoredDistinct := by
        have hdistinct := h.server.ignoredDistinct
        rwa [← hcanonical] at hdistinct }
    logging := { h.logging with } }

theorem Config.canonical_ignoring {config : Config} {ips : List IpAddr}
    (hcanonical : ips.map canonicalIp = config.server.ignoreSourceIps.map canonicalIp) :
    (config.ignoring ips).canonical = config.canonical := by
  unfold Config.canonical Config.ignoring
  rw [hcanonical]

/-- What a server has admitted, and all it counts. -/
structure Admission where
  outcomes : List (EndpointConfig × BitVec 128 × Fate)
  rateLimiter : RateLimiter
  permits : Nat
  shutdown : Bool
  metrics : ServerMetrics
  loggerMetrics : LoggerMetrics

def Settled.outcome (settled : Settled) : EndpointConfig × BitVec 128 × Fate :=
  (settled.arrival.endpoint, settled.arrival.conn.id, settled.fate)

namespace ServerState

def admission (state : ServerState) : Admission where
  outcomes := state.settled.map Settled.outcome
  rateLimiter := state.rateLimiter
  permits := state.permits
  shutdown := state.shutdown
  metrics := state.metrics
  loggerMetrics := state.logger.metrics

theorem admission_canonical (state : ServerState) :
    state.canonical.admission = state.admission := by
  simp only [admission, canonical, List.map_map]
  rfl

/-- Some peers come by an IPv4-mapped address and some ignored addresses are
given in that form. The configuration is accepted as before, and every run
admits the same connections, and leaves the same limiter and counters. -/
theorem mapped_admission (canonicalReason : UInt16 → Option String) (config : Config)
    (endpoints : List EndpointConfig) {ips : List IpAddr} {labels labels' : List ServerLabel}
    (hips : List.Forall₂ MappedIp config.server.ignoreSourceIps ips)
    (hlabels : List.Forall₂ MappedLabel labels labels') :
    (config.validate = .ok () → (config.ignoring ips).validate = .ok ()) ∧
    (Steps.run (ServerState.step canonicalReason)
        (ServerState.new (config.ignoring ips) endpoints) labels').map admission =
      (Steps.run (ServerState.step canonicalReason)
        (ServerState.new config endpoints) labels).map admission := by
  have hcanonical := map_eq_of_forall₂ (fun _ _ h => h.canonicalIp_eq) hips
  constructor
  · intro hvalid
    have haccepted := (validate_ok_iff config).mp hvalid
    exact (validate_ok_iff _).mpr (haccepted.ignoring hips.length_eq.symm hcanonical)
  · have hrun : (Steps.run (ServerState.step canonicalReason)
        (ServerState.new (config.ignoring ips) endpoints) labels').map canonical =
        (Steps.run (ServerState.step canonicalReason)
          (ServerState.new config endpoints) labels).map canonical := by
      rw [← run_canonical, ← run_canonical, canonical_new, canonical_new,
        Config.canonical_ignoring hcanonical,
        map_eq_of_forall₂ (fun _ _ h => h.canonical_eq) hlabels]
    have hview : admission = admission ∘ canonical := by
      funext state
      exact state.admission_canonical.symm
    rw [hview, ← Option.map_map, ← Option.map_map, hrun]

/-- An ignored peer comes by its IPv4-mapped address, while the configuration
has the other form of it. -/
theorem mapped_admission_ignored :
    ((sensorOf .Raw).ignoring [.V4 0xc0000201#32]).validate = .ok () ∧
    ((Steps.run (ServerState.step fun _ => none)
        (ServerState.new ((sensorOf .Raw).ignoring [.V4 0xc0000201#32]) [decoy .Raw])
        [.endpoint 0 .pollShutdown, .endpoint 0 .joinPending,
          .endpoint 0 (.accept { client "" none with
            peer := .V6 (toIpv6Mapped 0xc0000201#32) 40000 0 0 }),
          .endpoint 0 .checkIgnored]).map fun state => state.admission.outcomes) =
      some [(decoy .Raw, 0, .Rejected "ignored_ip")] := by
  refine ⟨by decide +kernel, ?_⟩
  have hsame := (mapped_admission (fun _ => none) ((sensorOf .Raw).ignoring [.V4 0xc0000201#32])
    [decoy .Raw] (List.Forall₂.cons (.same _) .nil)
    (.cons (.same (.endpoint 0 .pollShutdown)) (.cons (.same (.endpoint 0 .joinPending))
      (.cons (.accept 0 (client "" none) (.mapped 0xc0000201#32 40000 0 0))
        (.cons (.same (.endpoint 0 .checkIgnored)) .nil))))).2
  exact (congrArg (Option.map Admission.outcomes) hsame).trans rfl

end ServerState

end Minotaur
