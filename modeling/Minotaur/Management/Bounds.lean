import Minotaur.Management.Moves

/-!
The management endpoint over whole runs. The size of the `JoinSet` bounds the
handlers, since it counts those that are over and not joined as well. The
gauge is the number of guards that exist, however a handler ends, and every
connection is turned away or has its handler.
-/

namespace Minotaur

open Ledger

/-- The token is cancelled from outside, or `serve` or a handler makes a step. -/
inductive ManagementEvent where
  | cancel
  | serve (label : ServeLabel)
deriving DecidableEq, Repr

/-- A handler panics. -/
def ManagementEvent.panics : ManagementEvent → Bool
  | .serve (.panicTask _) => true
  | _ => false

/-- The part of a handler in the gauge. -/
def HandlerTask.active (task : HandlerTask) : Int := if task.phase = .Active then 1 else 0

def HandlerTask.panics (task : HandlerTask) : Nat := if task.phase = .Panicked then 1 else 0

/-- The part of a task in the length of the set. -/
def HandlerTask.held (task : HandlerTask) : Nat := if !task.joined then 1 else 0

/-- The connection that is accepted and neither turned away nor spawned yet. -/
def ServePhase.pending : ServePhase → Nat
  | .Accepted => 1
  | _ => 0

namespace ServeState

/-- `serve` with its token. -/
def eventStep : ServeState × Bool → ManagementEvent → Option (ServeState × Bool)
  | (state, _), .cancel => some (state, true)
  | (state, shutdown), .serve label => state.step shutdown label

/-- The handlers that are not over. -/
def unfinished (state : ServeState) : Nat := state.tasks.countP (!·.phase.finished)

structure Accounted (config : MetricsConfig) (state : ServeState) : Prop where
  configured : state.config = config
  bounded : state.len ≤ config.maxConnections
  active : state.metrics.metricsActiveConnections = total HandlerTask.active state.tasks
  /-- A crash may drop the connection it has just accepted. -/
  counted : state.phase ≠ .Crashed →
    state.accepted =
      state.metrics.metricsRejectedTotal + state.tasks.length + state.phase.pending

variable {config : MetricsConfig} {state next : ServeState} {shutdown token : Bool}
  {label : ServeLabel} {events : List ManagementEvent}

theorem accounted_new (config : MetricsConfig) : (ServeState.new config).Accounted config where
  configured := rfl
  bounded := Nat.zero_le _
  active := rfl
  counted := fun _ => rfl

theorem len_eq_total (state : ServeState) : state.len = total HandlerTask.held state.tasks :=
  (total_ite (fun task : HandlerTask => !task.joined) state.tasks).symm

/-! ### The operations -/

theorem Accounted.setPhase (h : state.Accounted config) {phase : ServePhase}
    (hcounted : phase ≠ .Crashed → state.phase ≠ .Crashed ∧ phase.pending = state.phase.pending) :
    (state.setPhase phase).Accounted config where
  configured := h.configured
  bounded := h.bounded
  active := h.active
  counted := by
    intro hphase
    obtain ⟨hbefore, hpending⟩ := hcounted hphase
    rw [phase_setPhase, hpending]
    exact h.counted hbefore

/-- The loop joins a handler. -/
theorem Accounted.join (h : state.Accounted config) {index : Nat} {task : HandlerTask}
    (htask : state.joinable index = some task) :
    (state.setTask index { task with joined := true }).Accounted config where
  configured := h.configured
  bounded := by
    obtain ⟨hbefore, hjoined, _⟩ := joinable_eq_some htask
    have hheld : task.held = HandlerTask.held { task with joined := true } + 1 := by
      simp [HandlerTask.held, hjoined]
    have hlen := total_set_sub hbefore hheld
    have hbounded := h.bounded
    rw [len_eq_total] at hbounded ⊢
    rw [tasks_setTask]
    omega
  active := by
    obtain ⟨hbefore, _, _⟩ := joinable_eq_some htask
    have htotal : total HandlerTask.active (state.tasks.set index { task with joined := true }) =
        total HandlerTask.active state.tasks := total_set_same hbefore rfl
    exact h.active.trans htotal.symm
  counted := by
    intro hphase
    rw [tasks_setTask, List.length_set]
    exact h.counted hphase

/-- A handler moves on and its guard with it. -/
theorem Accounted.setTask (h : state.Accounted config) {index : Nat} {task : HandlerTask}
    (htask : state.tasks[index]? = some task) {phase : HandlerPhase} {count : Int}
    (hactive : { task with phase := phase }.active = task.active + count) :
    ((state.addActive count).setTask index { task with phase := phase }).Accounted config where
  configured := h.configured
  bounded := by
    have hlen : total HandlerTask.held (state.tasks.set index { task with phase := phase }) =
        total HandlerTask.held state.tasks := total_set_same htask rfl
    have hbounded := h.bounded
    rw [len_eq_total] at hbounded ⊢
    exact hlen.trans_le hbounded
  active := by
    have htotal := total_set_add htask hactive
    rw [← h.active] at htotal
    exact htotal.symm
  counted := by
    intro hphase
    rw [tasks_setTask, List.length_set]
    exact h.counted hphase

theorem addActive_zero (state : ServeState) : state.addActive 0 = state := by
  simp [addActive]

theorem Accounted.endTask (h : state.Accounted config) {index : Nat} {task : HandlerTask}
    (htask : state.tasks[index]? = some task) {phase : HandlerPhase}
    (hphase : phase.finished = true) : (state.endTask index task phase).Accounted config := by
  have hover : phase ≠ .Active := by
    rintro rfl
    cases hphase
  unfold ServeState.endTask
  split_ifs with hactive
  · apply h.setTask htask
    simp [HandlerTask.active, hactive, hover]
  · rw [← addActive_zero state]
    apply h.setTask htask
    simp [HandlerTask.active, hactive, hover]

theorem Accounted.accept (h : state.Accounted config) (hphase : state.phase = .Accepting) :
    ({ state with accepted := state.accepted + 1 }.setPhase .Accepted).Accounted config where
  configured := h.configured
  bounded := h.bounded
  active := h.active
  counted := by
    intro _
    have hbefore := h.counted (by simp [hphase])
    simp only [hphase, ServePhase.pending] at hbefore
    simp only [ServeState.setPhase, ServePhase.pending]
    omega

theorem Accounted.reject (h : state.Accounted config) (hphase : state.phase = .Accepted) :
    (state.reject.setPhase .Selecting).Accounted config where
  configured := h.configured
  bounded := h.bounded
  active := h.active
  counted := by
    intro _
    have hbefore := h.counted (by simp [hphase])
    simp only [hphase, ServePhase.pending] at hbefore
    simp only [ServeState.setPhase, ServeState.reject, ServePhase.pending]
    omega

theorem Accounted.spawn (h : state.Accounted config) (hphase : state.phase = .Accepted)
    (hroom : state.len < state.config.maxConnections) :
    (state.spawn.setPhase .Selecting).Accounted config where
  configured := h.configured
  bounded := by
    rw [len_eq_total, h.configured] at hroom
    rw [len_eq_total, tasks_setPhase, ServeState.spawn, total_append]
    exact hroom
  active := by
    rw [tasks_setPhase, ServeState.spawn, total_append]
    simpa [HandlerTask.active, ServeState.setPhase] using h.active
  counted := by
    intro _
    have hbefore := h.counted (by simp [hphase])
    simp only [hphase, ServePhase.pending] at hbefore
    simp only [ServeState.setPhase, ServeState.spawn, ServePhase.pending, List.length_append,
      List.length_singleton]
    omega

theorem ServeMove.accounted (hmove : ServeMove state shutdown label next token)
    (h : state.Accounted config) : next.Accounted config := by
  cases hmove with
  | cancelled hphase | poll hphase | joinPending hphase | acceptFailed hphase
  | acceptPending hphase | finish hphase =>
      exact h.setPhase (fun _ => by simp [hphase, ServePhase.pending])
  | join hphase htask | joinPanicked hphase htask | drain hphase htask =>
      exact (h.join htask).setPhase (fun _ => by simp [hphase, ServePhase.pending])
  | accept hphase => exact h.accept hphase
  | reject hphase _ => exact h.reject hphase
  | spawn hphase hroom => exact h.spawn hphase hroom
  | crash => exact h.setPhase (fun hcrashed => absurd rfl hcrashed)
  | startTask htask hphase =>
      apply h.setTask htask
      simp [HandlerTask.active, hphase]
  | endTask _ htask | panicTask htask | abortTask htask => exact h.endTask htask rfl

/-! ### Failures -/

/-- What the events so far have left behind. -/
structure Traced (events : List ManagementEvent) (state : ServeState) : Prop where
  accepted : state.accepted = events.count (.serve .accept)
  panics : state.phase ≠ .Crashed →
    total HandlerTask.panics state.tasks = events.countP ManagementEvent.panics
  acceptFailed : .serve .acceptFailed ∈ events → state.phase.failing = true
  cause : state.phase.failing = true → state.phase ≠ .Crashed →
    .serve .acceptFailed ∈ events ∨ 0 < total HandlerTask.panics state.tasks

theorem traced_new (config : MetricsConfig) : (ServeState.new config).Traced [] where
  accepted := rfl
  panics := fun _ => rfl
  acceptFailed := nofun
  cause := nofun

theorem total_panics_pos {tasks : List HandlerTask} :
    0 < total HandlerTask.panics tasks ↔ ∃ task ∈ tasks, task.phase = .Panicked := by
  have hcount : total HandlerTask.panics tasks =
      tasks.countP fun task => decide (task.phase = .Panicked) := by
    rw [← total_ite]
    apply total_congr
    simp [HandlerTask.panics]
  rw [hcount, List.countP_pos_iff]
  simp

/-- Joining a handler keeps how it has ended. -/
theorem total_panics_join {index : Nat} {task : HandlerTask}
    (htask : state.joinable index = some task) :
    total HandlerTask.panics (state.tasks.set index { task with joined := true }) =
      total HandlerTask.panics state.tasks :=
  total_set_same (joinable_eq_some htask).1 rfl

theorem tasks_endTask {index : Nat} {task : HandlerTask} {phase : HandlerPhase} :
    (state.endTask index task phase).tasks =
      state.tasks.set index { task with phase := phase } := by
  unfold ServeState.endTask
  split_ifs <;> rfl

theorem phase_endTask {index : Nat} {task : HandlerTask} {phase : HandlerPhase} :
    (state.endTask index task phase).phase = state.phase := by
  unfold ServeState.endTask
  split_ifs <;> rfl

theorem accepted_endTask {index : Nat} {task : HandlerTask} {phase : HandlerPhase} :
    (state.endTask index task phase).accepted = state.accepted := by
  unfold ServeState.endTask
  split_ifs <;> rfl

theorem rejected_endTask {index : Nat} {task : HandlerTask} {phase : HandlerPhase} :
    (state.endTask index task phase).metrics.metricsRejectedTotal =
      state.metrics.metricsRejectedTotal := by
  unfold ServeState.endTask
  split_ifs <;> rfl

theorem ServeMove.accepted (hmove : ServeMove state shutdown label next token) :
    next.accepted = state.accepted + if label = .accept then 1 else 0 := by
  cases hmove with
  | accept => rfl
  | endTask | panicTask | abortTask => exact accepted_endTask
  | cancelled | poll | join | joinPanicked | joinPending | acceptFailed | acceptPending | reject
  | spawn | drain | finish | crash | startTask => rfl

/-- A handler that panics is one more, until the set is dropped. -/
theorem ServeMove.panics (hmove : ServeMove state shutdown label next token)
    (hnext : next.phase ≠ .Crashed) :
    state.phase ≠ .Crashed ∧ total HandlerTask.panics next.tasks =
      total HandlerTask.panics state.tasks +
        if (ManagementEvent.serve label).panics then 1 else 0 := by
  cases hmove with
  | cancelled hphase | poll hphase | joinPending hphase | accept hphase | acceptFailed hphase
  | acceptPending hphase | reject hphase | finish hphase =>
      exact ⟨by simp [hphase], rfl⟩
  | join hphase htask | joinPanicked hphase htask | drain hphase htask =>
      exact ⟨by simp [hphase], total_panics_join htask⟩
  | spawn hphase _ =>
      refine ⟨by simp [hphase], ?_⟩
      rw [tasks_setPhase, ServeState.spawn, total_append]
      rfl
  | crash => exact absurd rfl hnext
  | startTask htask hphase =>
      refine ⟨hnext, total_set_same htask ?_⟩
      simp [HandlerTask.panics, hphase]
  | endTask _ htask hphase =>
      rw [phase_endTask] at hnext
      refine ⟨hnext, ?_⟩
      rw [tasks_endTask]
      apply total_set_same htask
      simp [HandlerTask.panics, hphase]
  | @panicTask _ task htask hphase =>
      rw [phase_endTask] at hnext
      refine ⟨hnext, ?_⟩
      rw [tasks_endTask]
      apply total_set_add htask
      cases hbefore : task.phase <;>
        simp_all [HandlerTask.panics, HandlerPhase.finished, ManagementEvent.panics]
  | abortTask _ _ hcrashed =>
      rw [phase_endTask] at hnext
      exact absurd hcrashed hnext

/-- Why `serve` is bound to fail after a step. -/
theorem ServeMove.cause (hmove : ServeMove state shutdown label next token)
    (hfailing : next.phase.failing = true) (hnext : next.phase ≠ .Crashed) :
    state.phase.failing = true ∨ label = .acceptFailed ∨
      0 < total HandlerTask.panics state.tasks := by
  cases hmove with
  | cancelled | poll | join | joinPending | accept | acceptPending | reject | spawn =>
      cases hfailing
  | joinPanicked _ htask hpanicked =>
      right; right
      exact total_panics_pos.mpr
        ⟨_, List.mem_of_getElem? (joinable_eq_some htask).1, hpanicked⟩
  | acceptFailed => exact Or.inr (Or.inl rfl)
  | @drain failure _ task hphase htask =>
      cases failure with
      | some error => exact Or.inl (by simp [hphase])
      | none =>
          right; right
          refine total_panics_pos.mpr
            ⟨_, List.mem_of_getElem? (joinable_eq_some htask).1, ?_⟩
          cases hbefore : task.phase <;> simp_all [HandlerPhase.failure]
  | @finish failure hphase _ =>
      left
      rw [hphase]
      cases failure with
      | some error => rfl
      | none => cases hfailing
  | crash => exact absurd rfl hnext
  | startTask => exact Or.inl hfailing
  | endTask | panicTask | abortTask =>
      rw [phase_endTask] at hfailing
      exact Or.inl hfailing

theorem ServeMove.failing_acceptFailed
    (hmove : ServeMove state shutdown .acceptFailed next token) :
    next.phase.failing = true := by
  cases hmove
  rfl

theorem Traced.move (h : state.Traced events)
    (hmove : ServeMove state shutdown label next token) :
    next.Traced (events ++ [.serve label]) where
  accepted := by
    rw [hmove.accepted, h.accepted, List.count_append, List.count_singleton]
    simp
  panics := by
    intro hnext
    obtain ⟨hbefore, htotal⟩ := hmove.panics hnext
    rw [htotal, h.panics hbefore, List.countP_append, List.countP_singleton]
  acceptFailed := by
    intro hmem
    rcases List.mem_append.mp hmem with hmem | hlast
    · exact hmove.failing.2.1 (h.acceptFailed hmem)
    · obtain rfl : ServeLabel.acceptFailed = label := by simpa using hlast
      exact hmove.failing_acceptFailed
  cause := by
    intro hfailing hnext
    obtain ⟨hbefore, htotal⟩ := hmove.panics hnext
    have hkept : 0 < total HandlerTask.panics state.tasks →
        0 < total HandlerTask.panics next.tasks := by omega
    rcases hmove.cause hfailing hnext with hearlier | rfl | hpanicked
    · rcases h.cause hearlier hbefore with hmem | hpanicked
      · exact Or.inl (List.mem_append_left _ hmem)
      · exact Or.inr (hkept hpanicked)
    · exact Or.inl (by simp)
    · exact Or.inr (hkept hpanicked)

theorem Traced.cancel (h : state.Traced events) : state.Traced (events ++ [.cancel]) where
  accepted := by simpa using h.accepted
  panics := by
    intro hphase
    rw [h.panics hphase, List.countP_append]
    rfl
  acceptFailed := by
    intro hmem
    exact h.acceptFailed (by simpa using hmem)
  cause := by
    intro hfailing hphase
    exact (h.cause hfailing hphase).imp_left (List.mem_append_left _)

/-! ### Runs -/

/-- Everything known about a state that a run with these events reaches. -/
structure Reached (config : MetricsConfig) (events : List ManagementEvent)
    (state : ServeState) (shutdown : Bool) : Prop where
  sound : state.Sound shutdown
  accounted : state.Accounted config
  traced : state.Traced events

theorem reached_of_run {states : ServeState × Bool}
    (hrun : Steps.run eventStep (ServeState.new config, false) events = some states) :
    Reached config events states.1 states.2 := by
  apply @Steps.run_history _ _ eventStep
    (fun events states => Reached config events states.1 states.2) _ ?_ ?_ _ _ hrun
  · exact ⟨sound_new config false, accounted_new config, traced_new config⟩
  · rintro events event ⟨state, shutdown⟩ ⟨next, token⟩ h hstep
    cases event with
    | cancel =>
        obtain ⟨rfl, rfl⟩ := Prod.mk.inj (Option.some.inj hstep)
        exact ⟨h.sound.mono (fun _ => rfl), h.accounted, h.traced.cancel⟩
    | serve label =>
        have hmove := serveMove_of_step hstep
        exact ⟨hmove.sound h.sound, hmove.accounted h.accounted, h.traced.move hmove⟩

/-- A handler that is not over has not been joined. -/
theorem Sound.unfinished_le_len (h : state.Sound shutdown) : state.unfinished ≤ state.len := by
  apply List.countP_mono_left
  intro task htask hunfinished
  have hjoined := h.joined task htask
  cases hfinished : task.joined <;> simp_all

/-- Only a handler that is not over holds a guard. -/
theorem Accounted.active_le (h : state.Accounted config) :
    0 ≤ state.metrics.metricsActiveConnections ∧
      state.metrics.metricsActiveConnections ≤ state.unfinished := by
  have hcount : total HandlerTask.active state.tasks =
      (state.tasks.countP fun task => decide (task.phase = .Active) : Nat) := by
    rw [← total_ite_int]
    apply total_congr
    simp [HandlerTask.active]
  rw [h.active, hcount]
  refine ⟨Int.natCast_nonneg _, Int.ofNat_le.mpr (List.countP_mono_left ?_)⟩
  intro task _ hactive
  simp [of_decide_eq_true hactive, HandlerPhase.finished]

theorem Sound.unfinished_eq_zero (h : state.Sound shutdown) {result : Except RunError Unit}
    (hreturned : state.phase = .Returned result) : state.unfinished = 0 := by
  apply List.countP_eq_zero.mpr
  intro task htask
  have hfinished := h.joined task htask (h.complete result hreturned task htask)
  simp [hfinished]

/-- What placing a connection changes, and that nothing else does. -/
theorem ServeMove.placed (hmove : ServeMove state shutdown label next token) :
    if label = .place then
      (next.metrics.metricsRejectedTotal = state.metrics.metricsRejectedTotal + 1 ∧
        next.tasks = state.tasks) ∨
      (next.metrics.metricsRejectedTotal = state.metrics.metricsRejectedTotal ∧
        next.tasks = state.tasks ++ [⟨.Spawned, false⟩])
    else next.metrics.metricsRejectedTotal = state.metrics.metricsRejectedTotal ∧
      next.tasks.length = state.tasks.length := by
  cases hmove with
  | reject => exact Or.inl ⟨rfl, rfl⟩
  | spawn => exact Or.inr ⟨rfl, rfl⟩
  | cancelled | poll | joinPending | accept | acceptFailed | acceptPending | finish | crash =>
      exact ⟨rfl, rfl⟩
  | join | joinPanicked | drain | startTask => exact ⟨rfl, List.length_set⟩
  | endTask | panicTask | abortTask =>
      refine ⟨rejected_endTask, ?_⟩
      rw [tasks_endTask, List.length_set]

theorem Reached.failed_iff (h : Reached config events state shutdown)
    {result : Except RunError Unit} (hreturned : state.phase = .Returned result) :
    (∃ error, result = .error error) ↔
      .serve .acceptFailed ∈ events ∨ ∃ index, .serve (.panicTask index) ∈ events := by
  have hrunning : state.phase ≠ .Crashed := by simp [hreturned]
  have hpanics : 0 < total HandlerTask.panics state.tasks ↔
      ∃ index, .serve (.panicTask index) ∈ events := by
    rw [h.traced.panics hrunning, List.countP_pos_iff]
    constructor
    · rintro ⟨event, hmem, hpanic⟩
      unfold ManagementEvent.panics at hpanic
      split at hpanic
      · exact ⟨_, hmem⟩
      · cases hpanic
    · rintro ⟨index, hmem⟩
      exact ⟨_, hmem, rfl⟩
  rw [← hpanics]
  cases result with
  | ok value =>
      constructor
      · rintro ⟨error, herror⟩
        cases herror
      · rintro (hmem | hpanicked)
        · have hfailing := h.traced.acceptFailed hmem
          rw [hreturned] at hfailing
          cases hfailing
        · exact absurd rfl (h.sound.panicked hreturned (total_panics_pos.mp hpanicked))
  | error error =>
      have hcause := h.traced.cause (by rw [hreturned]; rfl) hrunning
      exact ⟨fun _ => hcause, fun _ => ⟨error, rfl⟩⟩

/-- In every state that `serve` can reach its handlers and their gauge are
bounded, and every connection it has taken was turned away once or has its one
handler; a task that is itself torn down may leave one in between. When `serve`
returns no handler is left, and it fails exactly when an accept or a handler
did. -/
theorem management_bounded (config : MetricsConfig) (events : List ManagementEvent)
    {state : ServeState} {shutdown : Bool}
    (hrun : Steps.run eventStep (ServeState.new config, false) events = some (state, shutdown)) :
    state.unfinished ≤ config.maxConnections ∧
    0 ≤ state.metrics.metricsActiveConnections ∧
    state.metrics.metricsActiveConnections ≤ config.maxConnections ∧
    (state.phase ≠ .Crashed → events.count (.serve .accept) =
      state.metrics.metricsRejectedTotal + state.tasks.length + state.phase.pending) ∧
    (∀ label next token, eventStep (state, shutdown) (.serve label) = some (next, token) →
      if label = .place then
        (next.metrics.metricsRejectedTotal = state.metrics.metricsRejectedTotal + 1 ∧
          next.tasks = state.tasks) ∨
        (next.metrics.metricsRejectedTotal = state.metrics.metricsRejectedTotal ∧
          next.tasks = state.tasks ++ [⟨.Spawned, false⟩])
      else next.metrics.metricsRejectedTotal = state.metrics.metricsRejectedTotal ∧
        next.tasks.length = state.tasks.length) ∧
    (∀ result, state.phase = .Returned result →
      state.unfinished = 0 ∧ state.metrics.metricsActiveConnections = 0 ∧
      ((∃ error, result = .error error) ↔
        .serve .acceptFailed ∈ events ∨ ∃ index, .serve (.panicTask index) ∈ events)) := by
  have h : Reached config events state shutdown := reached_of_run hrun
  have hunfinished := h.sound.unfinished_le_len.trans h.accounted.bounded
  obtain ⟨hnonneg, hactive⟩ := h.accounted.active_le
  refine ⟨hunfinished, hnonneg, hactive.trans (Int.ofNat_le.mpr hunfinished), ?_, ?_, ?_⟩
  · intro hphase
    rw [← h.traced.accepted]
    exact h.accounted.counted hphase
  · intro label next token hstep
    exact (serveMove_of_step hstep).placed
  · intro result hreturned
    have hzero := h.sound.unfinished_eq_zero hreturned
    exact ⟨hzero, by omega, h.failed_iff hreturned⟩

/-- With room for one handler the second connection is turned away. The
handler panics and the token is cancelled before the loop has joined it. -/
theorem management_bounded_panicked :
    ∃ state shutdown, state.metrics.metricsRejectedTotal = 1 ∧ state.tasks.length = 1 ∧
      state.metrics.metricsActiveConnections = 0 ∧
      ∃ error, state.phase = .Returned (.error error) ∧
        Steps.run eventStep (ServeState.new { maxConnections := 1 }, false)
          [.serve .pollShutdown, .serve .joinPending, .serve .accept, .serve .place,
            .serve (.startTask 0), .serve .pollShutdown, .serve .joinPending, .serve .accept,
            .serve .place, .serve (.panicTask 0), .cancel, .serve .pollShutdown,
            .serve (.join 0), .serve .finish] = some (state, shutdown) := by
  obtain ⟨_, _, _, _, _, hreturned⟩ := management_bounded { maxConnections := 1 }
    [.serve .pollShutdown, .serve .joinPending, .serve .accept, .serve .place,
      .serve (.startTask 0), .serve .pollShutdown, .serve .joinPending, .serve .accept,
      .serve .place, .serve (.panicTask 0), .cancel, .serve .pollShutdown,
      .serve (.join 0), .serve .finish] rfl
  obtain ⟨_, hidle, hfailed⟩ := hreturned _ rfl
  obtain ⟨error, herror⟩ := hfailed.mpr (Or.inr ⟨0, by simp⟩)
  exact ⟨_, _, rfl, rfl, hidle, error, congrArg ServePhase.Returned herror, rfl⟩

end ServeState

end Minotaur
