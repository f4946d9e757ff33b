import Minotaur.Management

/-!
What a step of the management endpoint can be, with one case for each branch
of its code, and what the loop knows about its handlers: a handler it has
joined is over, and one that panicked has made it fail.
-/

namespace Minotaur

namespace ServeState

/-- A step under the token `shutdown`, with the state and the token it leaves. -/
inductive ServeMove (state : ServeState) (shutdown : Bool) :
    ServeLabel → ServeState → Bool → Prop where
  | cancelled (hphase : state.phase = .Selecting) (hshutdown : shutdown = true) :
      ServeMove state shutdown .pollShutdown (state.setPhase (.Draining none)) shutdown
  | poll (hphase : state.phase = .Selecting) (hshutdown : shutdown = false) :
      ServeMove state shutdown .pollShutdown (state.setPhase .Joining) shutdown
  | join {index : Nat} {task : HandlerTask} (hphase : state.phase = .Joining)
      (htask : state.joinable index = some task) (hended : task.phase ≠ .Panicked) :
      ServeMove state shutdown (.join index)
        ((state.setTask index { task with joined := true }).setPhase .Selecting) shutdown
  | joinPanicked {index : Nat} {task : HandlerTask} (hphase : state.phase = .Joining)
      (htask : state.joinable index = some task) (hpanicked : task.phase = .Panicked) :
      ServeMove state shutdown (.join index)
        ((state.setTask index { task with joined := true }).setPhase
          (.Draining (some .ManagementFailed))) true
  | joinPending (hphase : state.phase = .Joining) :
      ServeMove state shutdown .joinPending (state.setPhase .Accepting) shutdown
  | accept (hphase : state.phase = .Accepting) :
      ServeMove state shutdown .accept
        ({ state with accepted := state.accepted + 1 }.setPhase .Accepted) shutdown
  | acceptFailed (hphase : state.phase = .Accepting) :
      ServeMove state shutdown .acceptFailed
        (state.setPhase (.Draining (some .ManagementFailed))) true
  | acceptPending (hphase : state.phase = .Accepting) :
      ServeMove state shutdown .acceptPending (state.setPhase .Selecting) shutdown
  | reject (hphase : state.phase = .Accepted) (hfull : state.config.maxConnections ≤ state.len) :
      ServeMove state shutdown .place (state.reject.setPhase .Selecting) shutdown
  | spawn (hphase : state.phase = .Accepted) (hroom : state.len < state.config.maxConnections) :
      ServeMove state shutdown .place (state.spawn.setPhase .Selecting) shutdown
  | drain {failure : Option RunError} {index : Nat} {task : HandlerTask}
      (hphase : state.phase = .Draining failure) (htask : state.joinable index = some task) :
      ServeMove state shutdown (.join index)
        ((state.setTask index { task with joined := true }).setPhase
          (.Draining (failure.or task.phase.failure))) shutdown
  | finish {failure : Option RunError} (hphase : state.phase = .Draining failure)
      (hdrained : state.drained = true) :
      ServeMove state shutdown .finish
        (state.setPhase (.Returned (ServerState.outcome failure))) shutdown
  | crash (hphase : state.phase.over = false) :
      ServeMove state shutdown .crash (state.setPhase .Crashed) shutdown
  | startTask {index : Nat} {task : HandlerTask} (htask : state.tasks[index]? = some task)
      (hphase : task.phase = .Spawned) :
      ServeMove state shutdown (.startTask index)
        ((state.addActive 1).setTask index { task with phase := .Active }) shutdown
  | endTask {index : Nat} {task : HandlerTask} (reason : HandlerEnd)
      (htask : state.tasks[index]? = some task) (hphase : task.phase = .Active)
      (hreason : reason = .Cancelled → shutdown = true) :
      ServeMove state shutdown (.endTask index reason) (state.endTask index task .Ended) shutdown
  | panicTask {index : Nat} {task : HandlerTask} (htask : state.tasks[index]? = some task)
      (hphase : task.phase.finished = false) :
      ServeMove state shutdown (.panicTask index) (state.endTask index task .Panicked) shutdown
  | abortTask {index : Nat} {task : HandlerTask} (htask : state.tasks[index]? = some task)
      (hphase : task.phase.finished = false) (hcrashed : state.phase = .Crashed) :
      ServeMove state shutdown (.abortTask index) (state.endTask index task .Panicked) shutdown

theorem serveMove_of_loopStep {state next : ServeState} {shutdown token : Bool}
    {label : ServeLabel} (hstep : state.loopStep shutdown label = some (next, token)) :
    ServeMove state shutdown label next token := by
  unfold loopStep at hstep
  split at hstep
  · rename_i hphase
    cases hshutdown : shutdown with
    | true =>
        rw [hshutdown] at hstep
        obtain ⟨rfl, rfl⟩ := Prod.mk.inj (Option.some.inj hstep)
        exact .cancelled hphase rfl
    | false =>
        rw [hshutdown] at hstep
        obtain ⟨rfl, rfl⟩ := Prod.mk.inj (Option.some.inj hstep)
        exact .poll hphase rfl
  · rename_i hphase
    obtain ⟨task, htask, hresult⟩ := Option.map_eq_some_iff.mp hstep
    dsimp only at hresult
    split_ifs at hresult with hpanicked
    · obtain ⟨rfl, rfl⟩ := Prod.mk.inj hresult
      exact .joinPanicked hphase htask hpanicked
    · obtain ⟨rfl, rfl⟩ := Prod.mk.inj hresult
      exact .join hphase htask hpanicked
  · rename_i hphase
    obtain ⟨rfl, rfl⟩ := Prod.mk.inj (Option.some.inj hstep)
    exact .joinPending hphase
  · rename_i hphase
    obtain ⟨rfl, rfl⟩ := Prod.mk.inj (Option.some.inj hstep)
    exact .accept hphase
  · rename_i hphase
    obtain ⟨rfl, rfl⟩ := Prod.mk.inj (Option.some.inj hstep)
    exact .acceptFailed hphase
  · rename_i hphase
    obtain ⟨rfl, rfl⟩ := Prod.mk.inj (Option.some.inj hstep)
    exact .acceptPending hphase
  · rename_i hphase
    split_ifs at hstep with hfull
    · obtain ⟨rfl, rfl⟩ := Prod.mk.inj (Option.some.inj hstep)
      exact .reject hphase hfull
    · obtain ⟨rfl, rfl⟩ := Prod.mk.inj (Option.some.inj hstep)
      exact .spawn hphase (by omega)
  · rename_i hphase
    obtain ⟨task, htask, hresult⟩ := Option.map_eq_some_iff.mp hstep
    obtain ⟨rfl, rfl⟩ := Prod.mk.inj hresult
    exact .drain hphase htask
  · rename_i hphase
    split_ifs at hstep with hdrained
    obtain ⟨rfl, rfl⟩ := Prod.mk.inj (Option.some.inj hstep)
    exact .finish hphase hdrained
  · split_ifs at hstep with hover
    obtain ⟨rfl, rfl⟩ := Prod.mk.inj (Option.some.inj hstep)
    exact .crash (by simpa using hover)
  · cases hstep

theorem serveMove_of_step {state next : ServeState} {shutdown token : Bool} {label : ServeLabel}
    (hstep : state.step shutdown label = some (next, token)) :
    ServeMove state shutdown label next token := by
  cases label with
  | startTask index =>
      obtain ⟨task, htask, htaskStep⟩ := Option.bind_eq_some_iff.mp hstep
      obtain ⟨after, hafter, hresult⟩ := Option.map_eq_some_iff.mp htaskStep
      obtain ⟨rfl, rfl⟩ := Prod.mk.inj hresult
      cases hphase : task.phase with
      | Spawned =>
          simp only [taskStep, hphase, Option.some.injEq] at hafter
          exact hafter ▸ .startTask htask hphase
      | Active | Ended | Panicked => simp [taskStep, hphase] at hafter
  | endTask index reason =>
      obtain ⟨task, htask, htaskStep⟩ := Option.bind_eq_some_iff.mp hstep
      obtain ⟨after, hafter, hresult⟩ := Option.map_eq_some_iff.mp htaskStep
      obtain ⟨rfl, rfl⟩ := Prod.mk.inj hresult
      cases hphase : task.phase with
      | Active =>
          simp only [taskStep, hphase] at hafter
          split_ifs at hafter with hreason
          obtain rfl := Option.some.inj hafter
          refine .endTask reason htask hphase ?_
          intro hcancelled
          simpa [hcancelled] using hreason
      | Spawned | Ended | Panicked => simp [taskStep, hphase] at hafter
  | panicTask index =>
      obtain ⟨task, htask, htaskStep⟩ := Option.bind_eq_some_iff.mp hstep
      obtain ⟨after, hafter, hresult⟩ := Option.map_eq_some_iff.mp htaskStep
      obtain ⟨rfl, rfl⟩ := Prod.mk.inj hresult
      simp only [taskStep] at hafter
      split_ifs at hafter with hfinished
      obtain rfl := Option.some.inj hafter
      exact .panicTask htask (by simpa using hfinished)
  | abortTask index =>
      obtain ⟨task, htask, htaskStep⟩ := Option.bind_eq_some_iff.mp hstep
      obtain ⟨after, hafter, hresult⟩ := Option.map_eq_some_iff.mp htaskStep
      obtain ⟨rfl, rfl⟩ := Prod.mk.inj hresult
      simp only [taskStep] at hafter
      split_ifs at hafter with hfinished
      split at hafter
      · rename_i hcrashed
        obtain rfl := Option.some.inj hafter
        exact .abortTask htask (by simpa using hfinished) hcrashed
      · cases hafter
  | pollShutdown | join | joinPending | accept | acceptFailed | acceptPending | place | finish
  | crash => exact serveMove_of_loopStep hstep

/-! ### Failures -/

/-- What the loop knows about its handlers, under the token `shutdown`. -/
structure Sound (shutdown : Bool) (state : ServeState) : Prop where
  joined : ∀ task ∈ state.tasks, task.joined = true → task.phase.finished = true
  clean : state.phase.failing = false →
    ∀ task ∈ state.tasks, task.joined = true → task.phase = .Ended
  complete : ∀ result, state.phase = .Returned result → ∀ task ∈ state.tasks, task.joined = true
  cancelled : state.phase.leaving = true → shutdown = true
  noticed : ∀ task ∈ state.tasks, task.joined = true → task.phase = .Panicked → shutdown = true

theorem sound_new (config : MetricsConfig) (shutdown : Bool) :
    (ServeState.new config).Sound shutdown where
  joined := List.forall_mem_nil _
  clean := fun _ => List.forall_mem_nil _
  complete := nofun
  cancelled := nofun
  noticed := List.forall_mem_nil _

variable {state next : ServeState} {shutdown token : Bool} {label : ServeLabel}

/-- Nothing but the token has changed, and it is never taken back. -/
theorem Sound.mono (h : state.Sound shutdown) (hkept : shutdown = true → token = true) :
    state.Sound token :=
  { h with
    cancelled := fun hleaving => hkept (h.cancelled hleaving)
    noticed := fun task htask hjoined hpanicked =>
      hkept (h.noticed task htask hjoined hpanicked) }

theorem joinable_eq_some {index : Nat} {task : HandlerTask}
    (htask : state.joinable index = some task) :
    state.tasks[index]? = some task ∧ task.joined = false ∧ task.phase.finished = true := by
  unfold joinable at htask
  rw [Option.filter_eq_some_iff] at htask
  simpa using htask

/-- The loop moves on without joining a handler. -/
theorem Sound.setPhase (h : state.Sound shutdown) {phase : ServePhase}
    (hclean : phase.failing = false → state.phase.failing = false)
    (hcomplete : ∀ result, phase = .Returned result → ∀ task ∈ state.tasks, task.joined = true)
    (hcancelled : phase.leaving = true → token = true) (hkept : shutdown = true → token = true) :
    (state.setPhase phase).Sound token where
  joined := h.joined
  clean := fun hfailing => h.clean (hclean hfailing)
  complete := hcomplete
  cancelled := hcancelled
  noticed := (h.mono hkept).noticed

/-- The loop joins a handler, and fails if that one panicked. -/
theorem Sound.join (h : state.Sound shutdown) {index : Nat} {task : HandlerTask}
    (htask : state.joinable index = some task) {phase : ServePhase}
    (hclean : phase.failing = false → state.phase.failing = false ∧ task.phase ≠ .Panicked)
    (hrunning : phase.over = false) (hcancelled : phase.leaving = true → token = true)
    (hkept : shutdown = true → token = true) (hnoticed : task.phase = .Panicked → token = true) :
    ((state.setTask index { task with joined := true }).setPhase phase).Sound token where
  joined := by
    obtain ⟨_, _, hfinished⟩ := joinable_eq_some htask
    exact Ledger.forall_mem_set h.joined index (fun _ => hfinished)
  clean := by
    intro hfailing
    obtain ⟨hbefore, hpanicked⟩ := hclean hfailing
    obtain ⟨_, _, hfinished⟩ := joinable_eq_some htask
    apply Ledger.forall_mem_set (h.clean hbefore) index
    intro _
    cases hphase : task.phase <;> simp_all [HandlerPhase.finished]
  complete := by
    rintro result rfl
    cases hrunning
  cancelled := hcancelled
  noticed := Ledger.forall_mem_set (h.mono hkept).noticed index (fun _ => hnoticed)

/-- A handler that is not over moves on. -/
theorem Sound.setTask (h : state.Sound shutdown) {index : Nat} {task after : HandlerTask}
    (htask : state.tasks[index]? = some task) (hrunning : task.phase.finished = false)
    (hjoined : after.joined = task.joined) : (state.setTask index after).Sound shutdown := by
  have hmem := List.mem_of_getElem? htask
  have hnot : task.joined ≠ true := by
    intro htrue
    rw [h.joined task hmem htrue] at hrunning
    cases hrunning
  refine ⟨?_, ?_, ?_, h.cancelled, ?_⟩
  · apply Ledger.forall_mem_set h.joined index
    rw [hjoined]
    exact fun htrue => absurd htrue hnot
  · intro hfailing
    apply Ledger.forall_mem_set (h.clean hfailing) index
    rw [hjoined]
    exact fun htrue => absurd htrue hnot
  · intro result hresult
    exact absurd (h.complete result hresult task hmem) hnot
  · apply Ledger.forall_mem_set h.noticed index
    rw [hjoined]
    exact fun htrue => absurd htrue hnot

theorem Sound.addActive (h : state.Sound shutdown) (count : Int) :
    (state.addActive count).Sound shutdown := { h with }

theorem Sound.endTask (h : state.Sound shutdown) {index : Nat} {task : HandlerTask}
    (htask : state.tasks[index]? = some task) (hrunning : task.phase.finished = false)
    (phase : HandlerPhase) : (state.endTask index task phase).Sound shutdown := by
  unfold ServeState.endTask
  split_ifs
  · exact (h.addActive (-1)).setTask htask hrunning rfl
  · exact h.setTask htask hrunning rfl

theorem Sound.spawn (h : state.Sound shutdown)
    (hrunning : ∀ result, state.phase ≠ .Returned result) : state.spawn.Sound shutdown where
  joined := List.forall_mem_append.mpr ⟨h.joined, by simp⟩
  clean := fun hfailing => List.forall_mem_append.mpr ⟨h.clean hfailing, by simp⟩
  complete := fun result hresult => absurd hresult (hrunning result)
  cancelled := h.cancelled
  noticed := List.forall_mem_append.mpr ⟨h.noticed, by simp⟩

theorem ServeMove.sound (hmove : ServeMove state shutdown label next token)
    (h : state.Sound shutdown) : next.Sound token := by
  cases hmove with
  | cancelled hphase hshutdown =>
      exact h.setPhase (by simp [hphase]) nofun (fun _ => hshutdown) (fun h => h)
  | poll hphase _ => exact h.setPhase (by simp [hphase]) nofun nofun (fun h => h)
  | join hphase htask hended =>
      exact h.join htask (fun _ => ⟨by simp [hphase], hended⟩) rfl nofun (fun h => h)
        (fun hpanicked => absurd hpanicked hended)
  | joinPanicked hphase htask _ =>
      exact h.join htask nofun rfl (fun _ => rfl) (fun _ => rfl) (fun _ => rfl)
  | joinPending hphase => exact h.setPhase (by simp [hphase]) nofun nofun (fun h => h)
  | accept hphase =>
      have htaken : ({ state with accepted := state.accepted + 1 } : ServeState).Sound shutdown :=
        { h with }
      exact htaken.setPhase (by simp [hphase]) nofun nofun (fun h => h)
  | acceptFailed hphase => exact h.setPhase nofun nofun (fun _ => rfl) (fun _ => rfl)
  | acceptPending hphase => exact h.setPhase (by simp [hphase]) nofun nofun (fun h => h)
  | reject hphase _ =>
      have hrejected : state.reject.Sound shutdown := { h with }
      exact hrejected.setPhase (by simp [ServeState.reject, hphase]) nofun nofun
        (fun h => h)
  | spawn hphase _ =>
      exact (h.spawn (by rw [hphase]; nofun)).setPhase (by simp [ServeState.spawn, hphase]) nofun
        nofun (fun h => h)
  | @drain failure index task hphase htask =>
      refine h.join htask ?_ rfl (fun _ => h.cancelled (by simp [hphase])) (fun h => h)
        (fun _ => h.cancelled (by simp [hphase]))
      intro hfailing
      cases failure with
      | some error => cases hfailing
      | none =>
          refine ⟨by simp [hphase], ?_⟩
          intro hpanicked
          rw [hpanicked] at hfailing
          cases hfailing
  | @finish failure hphase hdrained =>
      refine h.setPhase ?_ ?_ (fun _ => h.cancelled (by simp [hphase])) (fun h => h)
      · cases failure with
        | some error => nofun
        | none => simp [hphase]
      · intro _ _
        simpa [drained] using hdrained
  | crash => exact h.setPhase (by simp) (by simp) (by simp) (fun h => h)
  | startTask htask hphase => exact (h.addActive 1).setTask htask (by rw [hphase]; rfl) rfl
  | endTask reason htask hphase _ => exact h.endTask htask (by rw [hphase]; rfl) .Ended
  | panicTask htask hrunning => exact h.endTask htask hrunning .Panicked
  | abortTask htask hrunning _ => exact h.endTask htask hrunning .Panicked

/-- A step never takes the token back, and a failure stays. -/
theorem ServeMove.failing (hmove : ServeMove state shutdown label next token) :
    (shutdown = true → token = true) ∧
      (state.phase.failing = true → next.phase.failing = true) ∧
      (token = true → shutdown = true ∨ next.phase.failing = true) := by
  cases hmove with
  | cancelled hphase _ | poll hphase _ | join hphase _ _ | joinPending hphase | accept hphase
  | acceptPending hphase | reject hphase _ | spawn hphase _ =>
      exact ⟨fun h => h, by simp [hphase], Or.inl⟩
  | joinPanicked | acceptFailed => exact ⟨fun _ => rfl, fun _ => rfl, fun _ => Or.inr rfl⟩
  | @drain failure _ _ hphase _ =>
      refine ⟨fun h => h, ?_, Or.inl⟩
      rw [hphase]
      cases failure <;> simp
  | @finish failure hphase _ =>
      refine ⟨fun h => h, ?_, Or.inl⟩
      rw [hphase]
      cases failure <;> simp [ServerState.outcome]
  | crash => exact ⟨fun h => h, fun _ => rfl, Or.inl⟩
  | startTask => exact ⟨fun h => h, fun h => h, Or.inl⟩
  | endTask | panicTask | abortTask =>
      refine ⟨fun h => h, ?_, Or.inl⟩
      unfold ServeState.endTask
      split_ifs <;> exact fun h => h

/-- When `serve` returns, a handler that panicked has made it return an error. -/
theorem Sound.panicked (h : state.Sound shutdown) {result : Except RunError Unit}
    (hreturned : state.phase = .Returned result)
    (hpanicked : ∃ task ∈ state.tasks, task.phase = .Panicked) : result ≠ .ok () := by
  rintro rfl
  obtain ⟨task, htask, hphase⟩ := hpanicked
  have hended := h.clean (by rw [hreturned]; rfl) task htask (h.complete _ hreturned task htask)
  rw [hphase] at hended
  cases hended

end ServeState

end Minotaur
