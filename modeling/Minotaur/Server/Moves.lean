import Minotaur.Server

/-!
What a step of a loop or of a session can be. Every later argument about the
server is by cases on a move and does not open the step functions again.
-/

namespace Minotaur

namespace ServerState

variable (canonicalReason : UInt16 → Option String)

inductive SessionMove (state : ServerState) (index : Nat) (task : SessionTask) :
    SessionLabel → ServerState → Prop where
  | start (hphase : task.phase = .Spawned) :
      SessionMove state index task .start
        ({ state with metrics := state.metrics.start task.arrival.endpoint }.setSession index
          { task with phase := .Active })
  | close (hphase : task.phase = .Active)
      (hclose : task.arrival.mayClose canonicalReason state.config state.shutdown = true) :
      SessionMove state index task .close
        (ServerState.setSession { state with
          metrics := state.metrics.settle task.arrival.endpoint
            (task.arrival.record canonicalReason state.config) } index
          { task with phase := .Counted })
  | log (hphase : task.phase = .Counted) :
      SessionMove state index task .log
        ((state.log (task.arrival.record canonicalReason state.config)).setSession index
          { task with phase := .Logged })
  | dropGuard (hphase : task.phase = .Logged) :
      SessionMove state index task .dropGuard
        ({ state with metrics := state.metrics.dropGuard }.setSession index
          { task with phase := .Released })
  | finish (hphase : task.phase = .Released) :
      SessionMove state index task .finish
        ({ state with permits := state.permits + 1 }.setSession index
          { task with phase := .Ended })
  | panic (hphase : task.phase.finished = false) :
      SessionMove state index task .panic (state.unwind index task)
  | abort (hphase : task.phase.awaits = true)
      (howner : state.loops[task.owner]?.any (·.phase.crashed) = true) :
      SessionMove state index task .abort (state.unwind index task)

theorem sessionMove_of_step {state next : ServerState} {index : Nat} {task : SessionTask}
    {label : SessionLabel} (hstep : state.sessionStep canonicalReason index task label = some next) :
    SessionMove canonicalReason state index task label next := by
  unfold sessionStep at hstep
  dsimp only at hstep
  split at hstep
  · rename_i hphase
    obtain rfl := Option.some.inj hstep
    exact .start hphase
  · rename_i hphase
    split_ifs at hstep with hclose
    obtain rfl := Option.some.inj hstep
    exact .close hphase hclose
  · rename_i hphase
    obtain rfl := Option.some.inj hstep
    exact .log hphase
  · rename_i hphase
    obtain rfl := Option.some.inj hstep
    exact .dropGuard hphase
  · rename_i hphase
    obtain rfl := Option.some.inj hstep
    exact .finish hphase
  · split_ifs at hstep with hfinished
    obtain rfl := Option.some.inj hstep
    exact .panic (by simpa using hfinished)
  · split_ifs at hstep with habort
    obtain rfl := Option.some.inj hstep
    obtain ⟨hphase, howner⟩ := Bool.and_eq_true_iff.mp habort
    exact .abort hphase howner
  · cases hstep

/-- The loop at `index` is `loop`. -/
inductive LoopMove (state : ServerState) (index : Nat) (loop : EndpointLoop) :
    LoopLabel → ServerState → Prop where
  | cancelled (hphase : loop.phase = .Selecting) (hshutdown : state.shutdown = true) :
      LoopMove state index loop .pollShutdown (state.setLoop index loop.endpoint (.Draining none))
  | poll (hphase : loop.phase = .Selecting) (hshutdown : state.shutdown = false) :
      LoopMove state index loop .pollShutdown (state.setLoop index loop.endpoint .Joining)
  | join {session : Nat} {task : SessionTask} (hphase : loop.phase = .Joining)
      (htask : state.joinable index session = some task) (hended : task.phase ≠ .Unwound) :
      LoopMove state index loop (.join session)
        ((state.setSession session { task with joined := true }).setLoop index loop.endpoint
          .Selecting)
  | joinPanicked {session : Nat} {task : SessionTask} (hphase : loop.phase = .Joining)
      (htask : state.joinable index session = some task) (hunwound : task.phase = .Unwound) :
      LoopMove state index loop (.join session)
        ((state.setSession session { task with joined := true }).failed index loop.endpoint
          .SessionPanicked)
  | joinPending (hphase : loop.phase = .Joining) :
      LoopMove state index loop .joinPending (state.setLoop index loop.endpoint .Accepting)
  | accept (conn : Connection) (hphase : loop.phase = .Accepting) :
      LoopMove state index loop (.accept conn) (state.accept index loop.endpoint conn)
  | acceptFailed (hphase : loop.phase = .Accepting) :
      LoopMove state index loop .acceptFailed (state.failed index loop.endpoint .AcceptFailed)
  | acceptPending (hphase : loop.phase = .Accepting) :
      LoopMove state index loop .acceptPending (state.setLoop index loop.endpoint .Selecting)
  | ignored {arrival : Arrival} (hphase : loop.phase = .Accepted arrival)
      (hignored : state.ignores arrival = true) :
      LoopMove state index loop .checkIgnored
        ((state.reject arrival "ignored_ip").setLoop index loop.endpoint .Selecting)
  | notIgnored {arrival : Arrival} (hphase : loop.phase = .Accepted arrival)
      (hignored : state.ignores arrival = false) :
      LoopMove state index loop .checkIgnored
        (state.setLoop index loop.endpoint (.Checking arrival))
  | limited {arrival : Arrival} {now : Nat} {decision : Decision} {limiter : RateLimiter}
      (hphase : loop.phase = .Checking arrival)
      (hcheck : state.rateLimiter.checkAt (canonicalIp arrival.conn.peer.ip) now =
        (decision, limiter)) (hdecision : decision ≠ .Allowed) :
      LoopMove state index loop (.checkLimiter now)
        (({ state with rateLimiter := limiter }.reject arrival decision.reason).setLoop index
          loop.endpoint .Selecting)
  | allowed {arrival : Arrival} {now : Nat} {limiter : RateLimiter}
      (hphase : loop.phase = .Checking arrival)
      (hcheck : state.rateLimiter.checkAt (canonicalIp arrival.conn.peer.ip) now =
        (.Allowed, limiter)) :
      LoopMove state index loop (.checkLimiter now)
        ({ state with rateLimiter := limiter }.setLoop index loop.endpoint (.Acquiring arrival))
  | full {arrival : Arrival} (hphase : loop.phase = .Acquiring arrival)
      (hpermits : state.permits = 0) :
      LoopMove state index loop .acquire
        ((state.reject arrival "max_sessions").setLoop index loop.endpoint .Selecting)
  | acquire {arrival : Arrival} (hphase : loop.phase = .Acquiring arrival)
      (hpermits : state.permits ≠ 0) :
      LoopMove state index loop .acquire
        ({ state with permits := state.permits - 1 }.setLoop index loop.endpoint
          (.Spawning arrival))
  | spawn {arrival : Arrival} (hphase : loop.phase = .Spawning arrival) :
      LoopMove state index loop .spawn
        ((state.spawn index arrival).setLoop index loop.endpoint .Selecting)
  | drain {failure : Option RunError} {session : Nat} {task : SessionTask}
      (hphase : loop.phase = .Draining failure)
      (htask : state.joinable index session = some task) :
      LoopMove state index loop (.join session)
        ((state.setSession session { task with joined := true }).setLoop index loop.endpoint
          (.Draining (failure.or task.phase.failure)))
  | finish {failure : Option RunError} (hphase : loop.phase = .Draining failure)
      (hdrained : state.drained index = true) :
      LoopMove state index loop .finish
        (state.setLoop index loop.endpoint (.Returned (outcome failure)))
  | crash (hphase : loop.phase.over = false) :
      LoopMove state index loop .crash
        ({ state with permits := state.permits + loop.phase.permits }.setLoop index
          loop.endpoint .Crashed)

theorem loopMove_of_step {state next : ServerState} {index : Nat} {loop : EndpointLoop}
    {label : LoopLabel} (hstep : state.loopStep index loop label = some next) :
    LoopMove state index loop label next := by
  unfold loopStep at hstep
  dsimp only at hstep
  split at hstep
  · rename_i hphase
    obtain rfl := Option.some.inj hstep
    cases hshutdown : state.shutdown with
    | true => exact .cancelled hphase hshutdown
    | false => exact .poll hphase hshutdown
  · rename_i hphase
    obtain ⟨task, htask, rfl⟩ := Option.map_eq_some_iff.mp hstep
    split_ifs with hended
    · exact .joinPanicked hphase htask hended
    · exact .join hphase htask hended
  · rename_i hphase
    obtain rfl := Option.some.inj hstep
    exact .joinPending hphase
  · rename_i conn hphase
    obtain rfl := Option.some.inj hstep
    exact .accept conn hphase
  · rename_i hphase
    obtain rfl := Option.some.inj hstep
    exact .acceptFailed hphase
  · rename_i hphase
    obtain rfl := Option.some.inj hstep
    exact .acceptPending hphase
  · rename_i arrival hphase
    split_ifs at hstep with hignored
    · obtain rfl := Option.some.inj hstep
      exact .ignored hphase hignored
    · obtain rfl := Option.some.inj hstep
      exact .notIgnored hphase (by simpa using hignored)
  · rename_i now arrival hphase
    cases hcheck : state.rateLimiter.checkAt (canonicalIp arrival.conn.peer.ip) now with
    | mk decision limiter =>
        rw [hcheck] at hstep
        dsimp only at hstep
        split_ifs at hstep with hdecision
        · obtain rfl := Option.some.inj hstep
          exact .limited hphase hcheck hdecision
        · obtain rfl := Option.some.inj hstep
          obtain rfl := not_ne_iff.mp hdecision
          exact .allowed hphase hcheck
  · rename_i arrival hphase
    split_ifs at hstep with hpermits
    · obtain rfl := Option.some.inj hstep
      exact .full hphase hpermits
    · obtain rfl := Option.some.inj hstep
      exact .acquire hphase hpermits
  · rename_i arrival hphase
    obtain rfl := Option.some.inj hstep
    exact .spawn hphase
  · rename_i session failure hphase
    obtain ⟨task, htask, rfl⟩ := Option.map_eq_some_iff.mp hstep
    exact .drain hphase htask
  · rename_i failure hphase
    split_ifs at hstep with hdrained
    obtain rfl := Option.some.inj hstep
    exact .finish hphase hdrained
  · split_ifs at hstep with hover
    obtain rfl := Option.some.inj hstep
    exact .crash (by simpa using hover)
  · cases hstep

/-! ### How loops advance -/

end ServerState

/-- The worker has failed or is bound to. -/
@[simp] def LoopPhase.failing : LoopPhase → Bool
  | .Draining (some _) | .Returned (.error _) | .Crashed => true
  | _ => false

namespace ServerState

/-- A step moves at most one loop, never one that is over, and only a failing
loop cancels the token. -/
inductive Advances (state next : ServerState) : Prop where
  | still (hloops : next.loops = state.loops) (hshutdown : next.shutdown = state.shutdown)
  | moved {index : Nat} {loop : EndpointLoop} {phase : LoopPhase}
      (hloop : state.loops[index]? = some loop)
      (hloops : next.loops = state.loops.set index ⟨loop.endpoint, phase⟩)
      (hover : loop.phase.over = false)
      (hfailing : loop.phase.failing = true → phase.failing = true)
      (hshutdown : next.shutdown = state.shutdown ∨ next.shutdown = true ∧ phase.failing = true)

theorem LoopMove.advances {state next : ServerState} {index : Nat} {loop : EndpointLoop}
    {label : LoopLabel} (hloop : state.loops[index]? = some loop)
    (hmove : LoopMove state index loop label next) : Advances state next := by
  cases hmove with
  | cancelled hphase _ => exact .moved hloop rfl (by simp [hphase]) (by simp [hphase]) (Or.inl rfl)
  | poll hphase _ => exact .moved hloop rfl (by simp [hphase]) (by simp [hphase]) (Or.inl rfl)
  | join hphase _ _ => exact .moved hloop rfl (by simp [hphase]) (by simp [hphase]) (Or.inl rfl)
  | joinPanicked hphase _ _ =>
      exact .moved hloop rfl (by simp [hphase]) (by simp [hphase]) (Or.inr ⟨rfl, rfl⟩)
  | joinPending hphase => exact .moved hloop rfl (by simp [hphase]) (by simp [hphase]) (Or.inl rfl)
  | accept conn hphase => exact .moved hloop rfl (by simp [hphase]) (by simp [hphase]) (Or.inl rfl)
  | acceptFailed hphase =>
      exact .moved hloop rfl (by simp [hphase]) (by simp [hphase]) (Or.inr ⟨rfl, rfl⟩)
  | acceptPending hphase =>
      exact .moved hloop rfl (by simp [hphase]) (by simp [hphase]) (Or.inl rfl)
  | ignored hphase _ => exact .moved hloop rfl (by simp [hphase]) (by simp [hphase]) (Or.inl rfl)
  | notIgnored hphase _ =>
      exact .moved hloop rfl (by simp [hphase]) (by simp [hphase]) (Or.inl rfl)
  | limited hphase _ _ => exact .moved hloop rfl (by simp [hphase]) (by simp [hphase]) (Or.inl rfl)
  | allowed hphase _ => exact .moved hloop rfl (by simp [hphase]) (by simp [hphase]) (Or.inl rfl)
  | full hphase _ => exact .moved hloop rfl (by simp [hphase]) (by simp [hphase]) (Or.inl rfl)
  | acquire hphase _ => exact .moved hloop rfl (by simp [hphase]) (by simp [hphase]) (Or.inl rfl)
  | spawn hphase => exact .moved hloop rfl (by simp [hphase]) (by simp [hphase]) (Or.inl rfl)
  | @drain failure session task hphase _ =>
      refine .moved hloop rfl (by simp [hphase]) ?_ (Or.inl rfl)
      rw [hphase]
      cases failure <;> simp
  | @finish failure hphase _ =>
      refine .moved hloop rfl (by simp [hphase]) ?_ (Or.inl rfl)
      rw [hphase]
      cases failure <;> simp [outcome]
  | crash hphase => exact .moved hloop rfl hphase (fun _ => rfl) (Or.inl rfl)

theorem SessionMove.advances {state next : ServerState} {index : Nat} {task : SessionTask}
    {label : SessionLabel} (hmove : SessionMove canonicalReason state index task label next) :
    Advances state next := by
  cases hmove <;> exact .still rfl rfl

theorem advances_of_step {state next : ServerState} {label : ServerLabel}
    (hstep : state.step canonicalReason label = some next) (hcancel : label ≠ .cancel) :
    Advances state next := by
  cases label with
  | cancel => exact absurd rfl hcancel
  | evict now =>
      obtain rfl := Option.some.inj hstep
      exact .still rfl rfl
  | writer label =>
      simp only [ServerState.step] at hstep
      split_ifs at hstep
      obtain ⟨logger, _, rfl⟩ := Option.map_eq_some_iff.mp hstep
      exact .still rfl rfl
  | endpoint index label =>
      obtain ⟨loop, hloop, hmove⟩ := Option.bind_eq_some_iff.mp hstep
      exact (loopMove_of_step hmove).advances hloop
  | session index label =>
      obtain ⟨task, _, hmove⟩ := Option.bind_eq_some_iff.mp hstep
      exact (sessionMove_of_step canonicalReason hmove).advances

section Advances

variable {state next : ServerState}

theorem Advances.length (h : Advances state next) : next.loops.length = state.loops.length := by
  cases h with
  | still hloops _ => rw [hloops]
  | moved _ hloops _ _ _ => rw [hloops, List.length_set]

/-- A loop that is over stays as it is. -/
theorem Advances.over (h : Advances state next) {index : Nat} {loop : EndpointLoop}
    (hloop : state.loops[index]? = some loop) (hover : loop.phase.over = true) :
    next.loops[index]? = some loop := by
  cases h with
  | still hloops _ => rw [hloops, hloop]
  | @moved other moved phase hmoved hloops hrunning _ _ =>
      have hother : other ≠ index := by
        rintro rfl
        rw [hloop] at hmoved
        obtain rfl := Option.some.inj hmoved
        rw [hover] at hrunning
        cases hrunning
      rw [hloops, List.getElem?_set_ne hother, hloop]

theorem Advances.failing_at (h : Advances state next) {index : Nat}
    (hfailing : ∃ loop, state.loops[index]? = some loop ∧ loop.phase.failing = true) :
    ∃ loop, next.loops[index]? = some loop ∧ loop.phase.failing = true := by
  obtain ⟨loop, hloop, hphase⟩ := hfailing
  cases h with
  | still hloops _ => exact ⟨loop, hloops ▸ hloop, hphase⟩
  | @moved other moved phase hmoved hloops _ hkeeps _ =>
      rw [hloops]
      by_cases hindex : other = index
      · subst hindex
        rw [hloop] at hmoved
        obtain rfl := Option.some.inj hmoved
        have hlength := (List.getElem?_eq_some_iff.mp hloop).1
        exact ⟨_, List.getElem?_set_self hlength, hkeeps hphase⟩
      · exact ⟨loop, by rw [List.getElem?_set_ne hindex, hloop], hphase⟩

theorem Advances.failing (h : Advances state next)
    (hfailing : ∃ loop ∈ state.loops, loop.phase.failing = true) :
    ∃ loop ∈ next.loops, loop.phase.failing = true := by
  obtain ⟨loop, hmem, hphase⟩ := hfailing
  obtain ⟨index, hindex⟩ := List.getElem?_of_mem hmem
  obtain ⟨after, hafter, hfailing⟩ := h.failing_at ⟨loop, hindex, hphase⟩
  exact ⟨after, List.mem_of_getElem? hafter, hfailing⟩

theorem Advances.shutdown (h : Advances state next) :
    next.shutdown = state.shutdown ∨
      next.shutdown = true ∧ ∃ loop ∈ next.loops, loop.phase.failing = true := by
  cases h with
  | still _ hshutdown => exact Or.inl hshutdown
  | @moved index loop phase hloop hloops _ _ hshutdown =>
      rcases hshutdown with hsame | ⟨hcancelled, hfailing⟩
      · exact Or.inl hsame
      · have hlength := (List.getElem?_eq_some_iff.mp hloop).1
        exact Or.inr ⟨hcancelled, _, hloops ▸ List.mem_set hlength _, hfailing⟩

end Advances

end ServerState

end Minotaur
