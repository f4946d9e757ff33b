import Minotaur.Server.Shares
import Minotaur.Server.Traced

/-!
The books of the server balance in every state that orderly steps reach: the
permits that are out are held by sessions or by a loop about to spawn one, and
every counter is the sum of the shares of the connections it counts. A step is
orderly when it unwinds no task.
-/

namespace Minotaur

open Ledger

namespace ServerState

variable (canonicalReason : UInt16 → Option String)

/-- The arrivals of the settled connections that became sessions. -/
def spawnedArrivals (state : ServerState) : List Arrival :=
  (state.settled.filter fun settled => settled.fate = .Spawned).map (·.arrival)

/-- The connection a loop is deciding on, if any. -/
def handling (loop : EndpointLoop) : Multiset Arrival := loop.phase.handling

/-- The record a session has offered to the logger, if it has. -/
def logs (config : Config) (task : SessionTask) : Multiset SessionRecord :=
  task.logged canonicalReason config

structure Reconciled (config : Config) (state : ServerState) : Prop where
  configured : state.config = config
  permits : state.permits + total SessionTask.permits state.sessions +
    total (·.phase.permits) state.loops = config.server.maxConcurrentSessions
  accepted : (state.accepted : Multiset Arrival) =
    state.settled.map (·.arrival) +
      total handling state.loops
  spawned : state.sessions.map (·.arrival) = state.spawnedArrivals
  metrics : state.metrics =
    total (SessionTask.share canonicalReason config) state.sessions +
      total Settled.share state.settled
  logged : (state.logged : Multiset SessionRecord) =
    total (logs canonicalReason config) state.sessions
  owned : ∀ task ∈ state.sessions, task.owner < state.loops.length
  joined : ∀ task ∈ state.sessions, task.joined = true → task.phase = .Ended
  live : ∀ task ∈ state.sessions, task.phase ≠ .Unwound
  running : ∀ loop ∈ state.loops, loop.phase.crashed = false
  returned : ∀ index loop, state.loops[index]? = some loop → loop.phase.over = true →
    state.drained index = true
  filtered : ∀ loop ∈ state.loops, ∀ arrival ∈ loop.phase.checked, state.ignores arrival = false

theorem drained_iff {state : ServerState} {owner : Nat} :
    state.drained owner = true ↔
      ∀ task ∈ state.sessions, task.owner = owner → task.joined = true := by
  simp only [drained, List.all_eq_true, Bool.or_eq_true, bne_iff_ne, ne_eq]
  apply forall₂_congr
  intro task _
  exact Decidable.or_iff_not_imp_left.trans (by rw [not_not])

variable {canonicalReason} {config : Config} {state : ServerState}

/-! ### A loop moves on -/

section Loops

variable {index : Nat} {loop : EndpointLoop}

theorem returned_setLoop (h : state.Reconciled canonicalReason config)
    {endpoint : EndpointConfig} {phase : LoopPhase}
    (hover : phase.over = true → state.drained index = true) (other : Nat) (loop : EndpointLoop)
    (hloop : (state.loops.set index ⟨endpoint, phase⟩)[other]? = some loop)
    (hreturned : loop.phase.over = true) : state.drained other = true := by
  rw [List.getElem?_set] at hloop
  split_ifs at hloop with heq hlength
  · subst heq
    obtain rfl := Option.some.inj hloop
    exact hover hreturned
  · exact h.returned other loop hloop hreturned

theorem owned_setLoop (h : state.Reconciled canonicalReason config) {after : EndpointLoop} :
    ∀ task ∈ state.sessions, task.owner < (state.loops.set index after).length := by
  intro task htask
  rw [List.length_set]
  exact h.owned task htask

/-- The connection a loop has decided on is settled instead. -/
theorem accepted_settle (h : state.Reconciled canonicalReason config)
    (hloop : state.loops[index]? = some loop) {arrival : Arrival}
    (hhandling : loop.phase.handling = [arrival]) (fate : Fate) :
    (state.accepted : Multiset Arrival) =
      (state.settled ++ [(⟨arrival, fate⟩ : Settled)]).map (·.arrival) +
        total handling (state.loops.set index ⟨loop.endpoint, .Selecting⟩) := by
  have hshare : handling loop = handling ⟨loop.endpoint, .Selecting⟩ + {arrival} := by
    unfold handling
    rw [hhandling]
    rfl
  have hloops := total_set_sub hloop hshare
  have hsettled : ((state.settled ++ [(⟨arrival, fate⟩ : Settled)]).map (·.arrival) :
      Multiset Arrival) = state.settled.map (·.arrival) + {arrival} := by
    simp [← Multiset.coe_add]
  have haccepted := h.accepted
  rw [hloops, add_comm _ ({arrival} : Multiset Arrival), ← add_assoc, ← hsettled] at haccepted
  exact haccepted

/-- A phase that holds the same permits and the same connection. -/
theorem Reconciled.quiet (h : state.Reconciled canonicalReason config)
    (hloop : state.loops[index]? = some loop) {phase : LoopPhase}
    (hpermits : phase.permits = loop.phase.permits)
    (hhandling : phase.handling = loop.phase.handling) (hcrashed : phase.crashed = false)
    (hover : phase.over = true → state.drained index = true)
    (hchecked : ∀ arrival ∈ phase.checked, state.ignores arrival = false) :
    (state.setLoop index loop.endpoint phase).Reconciled canonicalReason config where
  configured := h.configured
  permits := (congrArg _ (total_set_same hloop hpermits)).trans h.permits
  accepted := h.accepted.trans
    (congrArg _ (total_set_same hloop (congrArg Multiset.ofList hhandling)).symm)
  spawned := h.spawned
  metrics := h.metrics
  logged := h.logged
  owned := owned_setLoop h
  joined := h.joined
  live := h.live
  running := forall_mem_set h.running index hcrashed
  returned := by
    intro other loop
    exact returned_setLoop h hover other loop
  filtered := forall_mem_set h.filtered index hchecked

theorem Reconciled.shutdown (h : state.Reconciled canonicalReason config) :
    ({ state with shutdown := true } : ServerState).Reconciled canonicalReason config :=
  { h with }

theorem Reconciled.rateLimiter (h : state.Reconciled canonicalReason config)
    (limiter : RateLimiter) :
    ({ state with rateLimiter := limiter } : ServerState).Reconciled canonicalReason config :=
  { h with }

theorem Reconciled.failed (h : state.Reconciled canonicalReason config)
    (hloop : state.loops[index]? = some loop) (hpermits : loop.phase.permits = 0)
    (hhandling : loop.phase.handling = []) (failure : RunError) :
    (state.failed index loop.endpoint failure).Reconciled canonicalReason config :=
  h.shutdown.quiet hloop hpermits.symm hhandling.symm rfl (by simp) (List.forall_mem_nil _)

/-- A loop takes the connection of an accept. -/
theorem Reconciled.accept (h : state.Reconciled canonicalReason config)
    (hloop : state.loops[index]? = some loop) (hphase : loop.phase = .Accepting)
    (conn : Connection) :
    (state.accept index loop.endpoint conn).Reconciled canonicalReason config where
  configured := h.configured
  permits := by
    refine (congrArg _ (total_set_same hloop ?_)).trans h.permits
    rw [hphase]
    rfl
  accepted := by
    have hshare : ((LoopPhase.Accepted ⟨loop.endpoint, conn⟩).handling : Multiset Arrival) =
        loop.phase.handling + {⟨loop.endpoint, conn⟩} := by
      rw [hphase]
      rfl
    have haccepted : ((state.accepted ++ [⟨loop.endpoint, conn⟩] : List Arrival) :
        Multiset Arrival) = state.accepted + {⟨loop.endpoint, conn⟩} := rfl
    refine haccepted.trans ?_
    rw [h.accepted, add_assoc]
    exact congrArg _ (total_set_add hloop hshare).symm
  spawned := h.spawned
  metrics := h.metrics
  logged := h.logged
  owned := owned_setLoop h
  joined := h.joined
  live := h.live
  running := forall_mem_set h.running index rfl
  returned := by
    intro other loop
    exact returned_setLoop h (by simp) other loop
  filtered := forall_mem_set h.filtered index (List.forall_mem_nil _)

/-- A loop turns its connection away. -/
theorem Reconciled.reject (h : state.Reconciled canonicalReason config)
    (hloop : state.loops[index]? = some loop) {arrival : Arrival}
    (hpermits : loop.phase.permits = 0) (hhandling : loop.phase.handling = [arrival])
    (reason : String) :
    ((state.reject arrival reason).setLoop index loop.endpoint .Selecting).Reconciled
      canonicalReason config where
  configured := h.configured
  permits := (congrArg _ (total_set_same hloop hpermits.symm)).trans h.permits
  accepted := accepted_settle h hloop hhandling (.Rejected reason)
  spawned := by
    refine h.spawned.trans ?_
    simp [spawnedArrivals, setLoop, ServerState.reject]
  metrics := by
    have hsettled : total Settled.share (state.settled ++ [⟨arrival, .Rejected reason⟩]) =
        total Settled.share state.settled +
          ServerMetrics.rejection arrival.endpoint.protocol reason := by
      simp [Settled.share]
    refine (ServerMetrics.reject_eq_add _ _ _).trans ?_
    rw [h.metrics, add_assoc]
    exact congrArg _ hsettled.symm
  logged := h.logged
  owned := owned_setLoop h
  joined := h.joined
  live := h.live
  running := forall_mem_set h.running index rfl
  returned := by
    intro other loop
    exact returned_setLoop h (by simp) other loop
  filtered := forall_mem_set h.filtered index (List.forall_mem_nil _)

theorem Reconciled.acquire (h : state.Reconciled canonicalReason config)
    (hloop : state.loops[index]? = some loop) {arrival : Arrival}
    (hphase : loop.phase = .Acquiring arrival) (hfree : state.permits ≠ 0) :
    ({ state with permits := state.permits - 1 }.setLoop index loop.endpoint
      (.Spawning arrival)).Reconciled canonicalReason config where
  configured := h.configured
  permits := by
    have hshare : (LoopPhase.Spawning arrival).permits = loop.phase.permits + 1 := by
      rw [hphase]
      rfl
    have hloops := @total_set_add _ _ _ (fun loop : EndpointLoop => loop.phase.permits) _ _ _
      ⟨loop.endpoint, .Spawning arrival⟩ hloop 1 hshare
    have hbefore := h.permits
    simp only [setLoop]
    omega
  accepted := by
    refine h.accepted.trans (congrArg _ (total_set_same hloop ?_).symm)
    unfold handling
    rw [hphase]
    rfl
  spawned := h.spawned
  metrics := h.metrics
  logged := h.logged
  owned := owned_setLoop h
  joined := h.joined
  live := h.live
  running := forall_mem_set h.running index rfl
  returned := by
    intro other loop
    exact returned_setLoop h (by simp) other loop
  filtered := by
    apply forall_mem_set h.filtered index
    have hloops := h.filtered loop (List.mem_of_getElem? hloop)
    rw [hphase] at hloops
    exact hloops

theorem drained_spawn {owner : Nat} (arrival : Arrival) (hother : index ≠ owner) :
    (state.spawn index arrival).drained owner = state.drained owner := by
  simp [drained, ServerState.spawn, hother]

theorem Reconciled.spawn (h : state.Reconciled canonicalReason config)
    (hloop : state.loops[index]? = some loop) {arrival : Arrival}
    (hphase : loop.phase = .Spawning arrival) :
    ((state.spawn index arrival).setLoop index loop.endpoint .Selecting).Reconciled
      canonicalReason config where
  configured := h.configured
  permits := by
    have hshare : loop.phase.permits = LoopPhase.Selecting.permits + 1 := by
      rw [hphase]
      rfl
    have hloops := @total_set_sub _ _ _ (fun loop : EndpointLoop => loop.phase.permits) _ _ _
      ⟨loop.endpoint, .Selecting⟩ hloop 1 hshare
    have hsessions : total SessionTask.permits (state.spawn index arrival).sessions =
        total SessionTask.permits state.sessions + 1 := by
      simp [ServerState.spawn, SessionTask.permits, SessionPhase.holdsPermit]
    have hbefore := h.permits
    simp only [setLoop, hsessions]
    simp only [ServerState.spawn]
    omega
  accepted := by
    apply accepted_settle h hloop
    rw [hphase]
    rfl
  spawned := by
    have hspawned := h.spawned
    simp only [spawnedArrivals] at hspawned
    simp [spawnedArrivals, setLoop, ServerState.spawn, hspawned]
  metrics := by
    have hsessions : total (SessionTask.share canonicalReason config)
        (state.spawn index arrival).sessions =
          total (SessionTask.share canonicalReason config) state.sessions := by
      simp [ServerState.spawn, SessionTask.share]
    have hsettled : total Settled.share (state.spawn index arrival).settled =
        total Settled.share state.settled := by
      simp [ServerState.spawn, Settled.share]
    refine h.metrics.trans ?_
    rw [← hsessions, ← hsettled]
    rfl
  logged := by
    refine h.logged.trans ?_
    simp [setLoop, ServerState.spawn, logs, SessionTask.logged, SessionPhase.logged]
  owned := by
    intro task htask
    rw [loops_setLoop, List.length_set]
    rcases List.mem_append.mp htask with htask | htask
    · exact h.owned task htask
    · obtain rfl := List.mem_singleton.mp htask
      exact (List.getElem?_eq_some_iff.mp hloop).1
  joined := by
    intro task htask hjoined
    rcases List.mem_append.mp htask with htask | htask
    · exact h.joined task htask hjoined
    · obtain rfl := List.mem_singleton.mp htask
      simp at hjoined
  live := by
    intro task htask
    rcases List.mem_append.mp htask with htask | htask
    · exact h.live task htask
    · obtain rfl := List.mem_singleton.mp htask
      simp
  running := forall_mem_set h.running index rfl
  returned := by
    intro other found hover hreturned
    have hother : index ≠ other := by
      rintro rfl
      have hindex : index < (state.spawn index arrival).loops.length :=
        (List.getElem?_eq_some_iff.mp hloop).1
      rw [loops_setLoop, List.getElem?_set_self hindex] at hover
      obtain rfl := Option.some.inj hover
      simp [LoopPhase.over] at hreturned
    rw [loops_setLoop, List.getElem?_set_ne hother] at hover
    refine Eq.trans ?_ (h.returned other found hover hreturned)
    exact drained_spawn arrival hother
  filtered := forall_mem_set h.filtered index (List.forall_mem_nil _)

end Loops

/-! ### A session moves on -/

section Sessions

variable {index : Nat} {task task' : SessionTask}

theorem drained_setSession (htask : state.sessions[index]? = some task)
    (howner : task'.owner = task.owner) (hjoined : task.joined = true → task'.joined = true)
    {owner : Nat} (hdrained : state.drained owner = true) :
    (state.setSession index task').drained owner = true := by
  rw [drained_iff] at hdrained ⊢
  apply forall_mem_set hdrained
  intro heq
  exact hjoined (hdrained task (List.mem_of_getElem? htask) (howner ▸ heq))

/-- A session and the books change by the same amounts. -/
theorem Reconciled.setTask (h : state.Reconciled canonicalReason config)
    (htask : state.sessions[index]? = some task) (howner : task'.owner = task.owner)
    (harrival : task'.arrival = task.arrival) (hjoined : task.joined = true → task'.joined = true)
    (hended : task'.joined = true → task'.phase = .Ended) (hlive : task'.phase ≠ .Unwound)
    {permits : Nat} (hpermits : permits + task'.permits = state.permits + task.permits)
    {metrics change : ServerMetrics} (hmetrics : metrics = state.metrics + change)
    (hshare : task'.share canonicalReason config = task.share canonicalReason config + change)
    {logger : LoggerState SessionRecord} {logged records : List SessionRecord}
    (hrecords : logged = state.logged ++ records)
    (hlogged : task'.logged canonicalReason config =
      task.logged canonicalReason config ++ records) :
    (({ state with
      permits := permits, metrics := metrics, logger := logger, logged := logged } :
      ServerState).setSession index task').Reconciled
        canonicalReason config where
  configured := h.configured
  permits := by
    obtain ⟨rest, hbefore, hafter⟩ := exists_rest htask task'
    have hpermitsBefore := total_perm SessionTask.permits hbefore
    have hpermitsAfter := total_perm SessionTask.permits hafter
    have hbooks := h.permits
    rw [total_cons] at hpermitsBefore hpermitsAfter
    rw [sessions_setSession]
    simp only [setSession]
    omega
  accepted := h.accepted
  spawned := by
    refine Eq.trans ?_ h.spawned
    exact map_set_same htask harrival
  metrics := by
    refine hmetrics.trans ?_
    rw [h.metrics, sessions_setSession, total_set_add htask hshare, add_right_comm]
    rfl
  logged := by
    have hlogs : logs canonicalReason config task' =
        logs canonicalReason config task + records := by
      rw [logs, logs, hlogged, Multiset.coe_add]
    rw [sessions_setSession, total_set_add htask hlogs, ← h.logged, Multiset.coe_add, ← hrecords]
    rfl
  owned := forall_mem_set h.owned index (howner ▸ h.owned task (List.mem_of_getElem? htask))
  joined := forall_mem_set h.joined index hended
  live := forall_mem_set h.live index hlive
  running := h.running
  returned := by
    intro other loop hloop hover
    exact drained_setSession htask howner hjoined (h.returned other loop hloop hover)
  filtered := h.filtered

/-- `join_next` takes a task that has ended out of the set. -/
theorem Reconciled.join (h : state.Reconciled canonicalReason config) {owner : Nat}
    (htask : state.joinable owner index = some task) :
    (state.setSession index { task with joined := true }).Reconciled canonicalReason config := by
  obtain ⟨htask, hjoinable⟩ := Option.filter_eq_some_iff.mp htask
  have hended : task.phase = .Ended := by
    have hlive := h.live task (List.mem_of_getElem? htask)
    cases hphase : task.phase <;> simp_all [SessionPhase.finished]
  have howner : ({ task with joined := true } : SessionTask).owner = task.owner := rfl
  exact h.setTask htask howner rfl (fun _ => rfl) (fun _ => hended) (by simp [hended]) rfl
    (add_zero _).symm (add_zero _).symm (List.append_nil _).symm (List.append_nil _).symm

theorem Reconciled.setPhase (h : state.Reconciled canonicalReason config)
    (htask : state.sessions[index]? = some task) (hbefore : task.phase ≠ .Ended)
    {phase : SessionPhase} (hlive : phase ≠ .Unwound) {permits : Nat}
    (hpermits : permits + SessionTask.permits { task with phase := phase } =
      state.permits + task.permits)
    {metrics change : ServerMetrics} (hmetrics : metrics = state.metrics + change)
    (hshare : SessionTask.share canonicalReason config { task with phase := phase } =
      task.share canonicalReason config + change)
    {logger : LoggerState SessionRecord} {logged records : List SessionRecord}
    (hrecords : logged = state.logged ++ records)
    (hlogged : SessionTask.logged canonicalReason config { task with phase := phase } =
      task.logged canonicalReason config ++ records) :
    (({ state with
      permits := permits, metrics := metrics, logger := logger, logged := logged } :
      ServerState).setSession index { task with phase := phase }).Reconciled
        canonicalReason config := by
  have howner : ({ task with phase := phase } : SessionTask).owner = task.owner := rfl
  apply h.setTask htask howner rfl (fun hjoined => hjoined) _ hlive hpermits hmetrics hshare
    hrecords hlogged
  intro hjoined
  exact absurd (h.joined task (List.mem_of_getElem? htask) hjoined) hbefore

theorem Reconciled.sessionMove (h : state.Reconciled canonicalReason config)
    (htask : state.sessions[index]? = some task) {label : SessionLabel} {next : ServerState}
    (hmove : SessionMove canonicalReason state index task label next)
    (hpanic : label ≠ .panic) : next.Reconciled canonicalReason config := by
  have hnil := (List.append_nil state.logged).symm
  cases hmove with
  | start hphase =>
      apply h.setPhase htask (by simp [hphase]) (by simp) _ (ServerMetrics.start_eq_add _ _) _
        hnil
      · simp [SessionTask.logged, hphase, SessionPhase.logged]
      · simp [SessionTask.permits, hphase, SessionPhase.holdsPermit]
      · simp [SessionTask.share, hphase]
  | close hphase hclose =>
      apply h.setPhase htask (by simp [hphase]) (by simp) _ (ServerMetrics.settle_eq_add _ _ _) _
        hnil
      · simp [SessionTask.logged, hphase, SessionPhase.logged]
      · simp [SessionTask.permits, hphase, SessionPhase.holdsPermit]
      · simp [SessionTask.share, hphase, SessionTask.record, h.configured]
  | log hphase =>
      apply h.setPhase htask (by simp [hphase]) (by simp) _ (add_zero _).symm _ rfl
      · simp [SessionTask.logged, hphase, SessionPhase.logged, SessionTask.record, h.configured]
      · simp [SessionTask.permits, hphase, SessionPhase.holdsPermit]
      · simp [SessionTask.share, hphase, SessionTask.record]
  | dropGuard hphase =>
      apply h.setPhase htask (by simp [hphase]) (by simp) _ (ServerMetrics.dropGuard_eq_add _) _
        hnil
      · simp [SessionTask.logged, hphase, SessionPhase.logged, SessionTask.record]
      · simp [SessionTask.permits, hphase, SessionPhase.holdsPermit]
      · simp only [SessionTask.share, hphase, SessionTask.record]
        rw [add_right_comm, add_assoc _ (ServerMetrics.guard 1), ServerMetrics.guard_add_neg,
          add_zero]
  | finish hphase =>
      apply h.setPhase htask (by simp [hphase]) (by simp) _ (add_zero _).symm _ hnil
      · simp [SessionTask.logged, hphase, SessionPhase.logged, SessionTask.record]
      · simp [SessionTask.permits, hphase, SessionPhase.holdsPermit]
      · simp [SessionTask.share, hphase, SessionTask.record]
  | panic hphase => exact absurd rfl hpanic
  | abort hphase howner =>
      obtain ⟨loop, hloop, hcrashed⟩ := (Option.any_eq_true _ _).mp howner
      have hrunning := h.running loop (List.mem_of_getElem? hloop)
      rw [hcrashed] at hrunning
      cases hrunning

end Sessions

/-! ### Orderly steps -/

theorem Reconciled.loopMove (h : state.Reconciled canonicalReason config) {index : Nat}
    {loop : EndpointLoop} (hloop : state.loops[index]? = some loop) {label : LoopLabel}
    {next : ServerState} (hmove : LoopMove state index loop label next)
    (hcrash : label.orderly = true) : next.Reconciled canonicalReason config := by
  cases hmove with
  | cancelled hphase _ =>
      apply h.quiet hloop
      all_goals simp [hphase]
  | poll hphase _ =>
      apply h.quiet hloop
      all_goals simp [hphase]
  | join hphase htask _ =>
      apply (h.join htask).quiet hloop
      all_goals simp [hphase]
  | joinPanicked hphase htask hunwound =>
      have hmem := List.mem_of_getElem? (Option.filter_eq_some_iff.mp htask).1
      exact absurd hunwound (h.live _ hmem)
  | joinPending hphase =>
      apply h.quiet hloop
      all_goals simp [hphase]
  | accept conn hphase => exact h.accept hloop hphase conn
  | acceptFailed hphase =>
      apply h.failed hloop
      all_goals simp [hphase]
  | acceptPending hphase =>
      apply h.quiet hloop
      all_goals simp [hphase]
  | ignored hphase _ =>
      apply h.reject hloop
      all_goals simp [hphase]
  | notIgnored hphase hignored =>
      apply h.quiet hloop
      all_goals simp [hphase, hignored]
  | @limited arrival now decision limiter hphase _ _ =>
      apply (h.rateLimiter limiter).reject hloop
      all_goals simp [hphase]
  | @allowed arrival now limiter hphase _ =>
      have hchecked := h.filtered loop (List.mem_of_getElem? hloop) arrival
      apply (h.rateLimiter limiter).quiet hloop
      all_goals simp [hphase]
      apply hchecked
      simp [hphase]
  | full hphase _ =>
      apply h.reject hloop
      all_goals simp [hphase]
  | acquire hphase hpermits => exact h.acquire hloop hphase hpermits
  | spawn hphase => exact h.spawn hloop hphase
  | drain hphase htask =>
      apply (h.join htask).quiet hloop
      all_goals simp [hphase]
  | finish hphase hdrained =>
      apply h.quiet hloop
      all_goals simp [hphase, hdrained]
  | crash hphase => cases hcrash

theorem Reconciled.step (h : state.Reconciled canonicalReason config) {label : ServerLabel}
    {next : ServerState} (horderly : label.orderly = true)
    (hstep : state.step canonicalReason label = some next) :
    next.Reconciled canonicalReason config := by
  cases label with
  | cancel =>
      obtain rfl := Option.some.inj hstep
      exact h.shutdown
  | evict now =>
      obtain rfl := Option.some.inj hstep
      exact h.rateLimiter _
  | writer label =>
      simp only [ServerState.step] at hstep
      split_ifs at hstep
      obtain ⟨logger, _, rfl⟩ := Option.map_eq_some_iff.mp hstep
      exact { h with }
  | endpoint index label =>
      obtain ⟨loop, hloop, hmove⟩ := Option.bind_eq_some_iff.mp hstep
      exact h.loopMove hloop (loopMove_of_step hmove) horderly
  | session index label =>
      obtain ⟨task, htask, hmove⟩ := Option.bind_eq_some_iff.mp hstep
      apply h.sessionMove htask (sessionMove_of_step canonicalReason hmove)
      rintro rfl
      cases horderly

variable (canonicalReason) in
theorem reconciled_new (config : Config) (endpoints : List EndpointConfig) :
    (ServerState.new config endpoints).Reconciled canonicalReason config where
  configured := rfl
  permits := by
    have hloops : total (fun loop : EndpointLoop => loop.phase.permits)
        (ServerState.new config endpoints).loops = 0 :=
      total_eq_zero (by simp [ServerState.new])
    rw [hloops]
    rfl
  accepted := by
    have hloops : total handling (ServerState.new config endpoints).loops = 0 :=
      total_eq_zero (by simp [ServerState.new, handling])
    rw [hloops]
    rfl
  spawned := rfl
  metrics := rfl
  logged := rfl
  owned := List.forall_mem_nil _
  joined := List.forall_mem_nil _
  live := List.forall_mem_nil _
  running := by simp [ServerState.new]
  returned := by
    intro index loop hloop hover
    obtain ⟨endpoint, _, rfl⟩ := List.mem_map.mp (List.mem_of_getElem? hloop)
    simp at hover
  filtered := by simp [ServerState.new]

theorem reconciled_of_run {endpoints : List EndpointConfig} {labels : List ServerLabel}
    (hrun : Steps.run (ServerState.step canonicalReason) (ServerState.new config endpoints)
      labels = some state) (horderly : ∀ label ∈ labels, label.orderly = true) :
    state.Reconciled canonicalReason config :=
  Steps.run_invariant_of (fun _ _ _ horderly h hstep => h.step horderly hstep) horderly
    (reconciled_new canonicalReason config endpoints) hrun

end ServerState

end Minotaur
