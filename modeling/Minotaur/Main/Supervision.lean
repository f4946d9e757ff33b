import Minotaur.Main.Moves

/-!
The server never stops by itself without an error. While `run` is in its select
only a failing task cancels the token; a failure stays with the task, the
supervisor sees it when it joins the task, and a supervisor that returns `Ok`
has joined all of them.
-/

namespace Minotaur

def ManagementPhase.failing : ManagementPhase → Bool
  | .Draining (some _) | .Returned (.error _) | .Crashed => true
  | _ => false

def SupervisorPhase.failing : SupervisorPhase → Bool
  | .Draining (some _) | .Returned (.error _) | .Crashed => true
  | _ => false

theorem LoopPhase.over_of_result {phase : LoopPhase} {result : Except RunError Unit}
    (hresult : phase.result = some result) : phase.over = true := by
  cases phase with
  | Returned other => rfl
  | Crashed => rfl
  | Selecting | Joining | Accepting | Accepted | Checking | Acquiring | Spawning | Draining =>
      cases hresult

/-- The supervisor has left its select, with or without a failure. -/
def SupervisorPhase.stopping : SupervisorPhase → Bool
  | .Draining _ | .Returned (.ok _) => true
  | _ => false

namespace SensorState

/-- Some task of the server has failed or is bound to. -/
def Failing (state : SensorState) : Prop :=
  state.supervisor.failing = true ∨ (∃ loop ∈ state.server.loops, loop.phase.failing = true) ∨
    ∃ phase, state.management = some phase ∧ phase.failing = true

/-! ### Results -/

theorem result_endpoint {state : SensorState} {index : Nat} {result : Except RunError Unit} :
    state.result (.endpoint index) = some result ↔
      ∃ loop, state.server.loops[index]? = some loop ∧ loop.phase.result = some result :=
  Option.bind_eq_some_iff

theorem result_congr {state next : SensorState} (hloops : next.server.loops = state.server.loops)
    (hmanagement : next.management = state.management)
    (hmaintenance : next.maintenance = state.maintenance) (worker : Worker) :
    next.result worker = state.result worker := by
  unfold SensorState.result
  cases worker with
  | endpoint index => simp only [hloops]
  | management => simp only [hmanagement]
  | maintenance => simp only [hmaintenance]

theorem workers_congr {state next : SensorState}
    (hloops : next.server.loops.length = state.server.loops.length)
    (hmanagement : next.management.isSome = state.management.isSome) :
    next.workers = state.workers := by
  unfold workers
  rw [hloops, hmanagement]

/-! ### What every step keeps -/

structure Evolves (state next : SensorState) : Prop where
  workers : next.workers = state.workers
  results : ∀ worker result, state.result worker = some result → next.result worker = some result
  failing : state.Failing → next.Failing
  shutdown : state.server.shutdown = true → next.server.shutdown = true
  caused : next.server.shutdown = true →
    state.server.shutdown = true ∨ next.Failing ∨ next.main ≠ .Selecting
  main : state.main ≠ .Selecting → next.main ≠ .Selecting

section Evolves

variable {state next : SensorState}

/-- A step of a task that is no worker. -/
theorem evolves_of_still (hloops : next.server.loops = state.server.loops)
    (hmanagement : next.management = state.management)
    (hmaintenance : next.maintenance = state.maintenance)
    (hfailing : state.supervisor.failing = true → next.supervisor.failing = true)
    (hshutdown : state.server.shutdown = true → next.server.shutdown = true)
    (hcaused : next.server.shutdown = true →
      state.server.shutdown = true ∨ next.Failing ∨ next.main ≠ .Selecting)
    (hmain : state.main ≠ .Selecting → next.main ≠ .Selecting) : Evolves state next where
  workers := workers_congr (by rw [hloops]) (by rw [hmanagement])
  results := by
    intro worker result hresult
    rw [result_congr hloops hmanagement hmaintenance, hresult]
  failing := by
    rintro (hsupervisor | hloop | hphase)
    · exact Or.inl (hfailing hsupervisor)
    · rw [← hloops] at hloop
      exact Or.inr (Or.inl hloop)
    · rw [← hmanagement] at hphase
      exact Or.inr (Or.inr hphase)
  shutdown := hshutdown
  caused := hcaused
  main := hmain

/-- The token is cancelled for the server only by its own tasks. -/
theorem advances_of_allowed {canonicalReason : UInt16 → Option String} {server : ServerState}
    {label : ServerLabel} (hallows : state.serverAllows label = true)
    (hserver : state.server.step canonicalReason label = some server) :
    ServerState.Advances state.server server := by
  apply ServerState.advances_of_step hserver
  rintro rfl
  cases hallows

theorem evolves_of_server {server : ServerState} (h : ServerState.Advances state.server server) :
    Evolves state { state with server := server } where
  workers := workers_congr h.length rfl
  results := by
    intro worker result hresult
    cases worker with
    | endpoint index =>
        obtain ⟨loop, hloop, hphase⟩ := result_endpoint.mp hresult
        exact result_endpoint.mpr ⟨loop, h.over hloop (LoopPhase.over_of_result hphase), hphase⟩
    | management => exact hresult
    | maintenance => exact hresult
  failing := by
    rintro (hsupervisor | hloop | hphase)
    · exact Or.inl hsupervisor
    · exact Or.inr (Or.inl (h.failing hloop))
    · exact Or.inr (Or.inr hphase)
  shutdown := by
    intro hcancelled
    rcases h.shutdown with hsame | ⟨hcancelled, _⟩
    · exact hsame.trans hcancelled
    · exact hcancelled
  caused := by
    intro hcancelled
    rcases h.shutdown with hsame | ⟨_, hfailing⟩
    · exact Or.inl (hsame ▸ hcancelled)
    · exact Or.inr (Or.inl (Or.inr (Or.inl hfailing)))
  main := fun hmain => hmain

theorem evolves_of_management {before phase : ManagementPhase}
    (hbefore : state.management = some before) (hrunning : before.result = none)
    (hfailing : before.failing = true → phase.failing = true) {shutdown : Bool}
    (hshutdown : shutdown = state.server.shutdown ∨ shutdown = true ∧ phase.failing = true) :
    Evolves state { state with
      management := some phase
      server := { state.server with shutdown := shutdown } } where
  workers := workers_congr rfl (by rw [hbefore]; rfl)
  results := by
    intro worker result hresult
    cases worker with
    | endpoint index => exact hresult
    | management =>
        rw [SensorState.result, hbefore, Option.bind_some, hrunning] at hresult
        cases hresult
    | maintenance => exact hresult
  failing := by
    rintro (hsupervisor | hloop | ⟨other, hother, hphase⟩)
    · exact Or.inl hsupervisor
    · exact Or.inr (Or.inl hloop)
    · rw [hbefore] at hother
      obtain rfl := Option.some.inj hother
      exact Or.inr (Or.inr ⟨phase, rfl, hfailing hphase⟩)
  shutdown := by
    intro hcancelled
    rcases hshutdown with hsame | ⟨hnext, _⟩
    · exact hsame.trans hcancelled
    · exact hnext
  caused := by
    intro hcancelled
    rcases hshutdown with hsame | ⟨_, hphase⟩
    · exact Or.inl (hsame.symm.trans hcancelled)
    · exact Or.inr (Or.inl (Or.inr (Or.inr ⟨phase, rfl, hphase⟩)))
  main := fun hmain => hmain

theorem ManagementMove.evolves (hmove : ManagementMove state next) : Evolves state next := by
  cases hmove with
  | stop hphase _ => exact evolves_of_management hphase rfl nofun (Or.inl rfl)
  | fail hphase => exact evolves_of_management hphase rfl nofun (Or.inr ⟨rfl, rfl⟩)
  | @taskFailed failure hphase =>
      refine evolves_of_management hphase rfl ?_ (Or.inl rfl)
      cases failure <;> exact fun _ => rfl
  | @finish failure hphase =>
      refine evolves_of_management hphase rfl ?_ (Or.inl rfl)
      cases failure with
      | none => nofun
      | some error => exact fun _ => rfl
  | crash hphase hrunning =>
      exact evolves_of_management hphase hrunning (fun _ => rfl) (Or.inl rfl)

theorem evolves_of_maintenance (hrunning : state.maintenance = .Running)
    (phase : MaintenancePhase) : Evolves state { state with maintenance := phase } where
  workers := rfl
  results := by
    intro worker result hresult
    cases worker with
    | endpoint index => exact hresult
    | management => exact hresult
    | maintenance =>
        rw [SensorState.result, hrunning] at hresult
        cases hresult
  failing := fun hfailing => hfailing
  shutdown := fun hcancelled => hcancelled
  caused := Or.inl
  main := fun hmain => hmain

theorem SupervisorMove.evolves (hmove : SupervisorMove state next) : Evolves state next := by
  cases hmove with
  | start hphase ready =>
      refine evolves_of_still rfl rfl rfl ?_ (fun h => h) Or.inl (fun h => h)
      simp [hphase, SupervisorPhase.failing]
  | startFailed hphase =>
      exact evolves_of_still rfl rfl rfl (fun _ => rfl) (fun h => h) Or.inl (fun h => h)
  | cancelled hphase hshutdown =>
      refine evolves_of_still rfl rfl rfl ?_ (fun _ => rfl) (fun _ => Or.inl hshutdown) (fun h => h)
      simp [hphase, SupervisorPhase.failing]
  | poll hphase =>
      refine evolves_of_still rfl rfl rfl ?_ (fun h => h) Or.inl (fun h => h)
      simp [hphase, SupervisorPhase.failing]
  | join hphase hresult =>
      exact evolves_of_still rfl rfl rfl (fun _ => rfl) (fun _ => rfl)
        (fun _ => Or.inr (Or.inl (Or.inl rfl))) (fun h => h)
  | @drain failure worker result hphase hresult =>
      refine evolves_of_still rfl rfl rfl ?_ (fun h => h) Or.inl (fun h => h)
      rw [hphase]
      cases failure <;> simp [SupervisorPhase.failing]
  | joinPending hphase =>
      refine evolves_of_still rfl rfl rfl ?_ (fun h => h) Or.inl (fun h => h)
      simp [hphase, SupervisorPhase.failing]
  | @finish failure hphase hall =>
      refine evolves_of_still rfl rfl rfl ?_ (fun h => h) Or.inl (fun h => h)
      rw [hphase]
      cases failure <;> simp [SupervisorPhase.failing, ServerState.outcome]
  | crash hover =>
      exact evolves_of_still rfl rfl rfl (fun _ => rfl) (fun h => h) Or.inl (fun h => h)

theorem evolves_of_mainStops {main : MainPhase} (hstopped : main ≠ .Selecting) :
    Evolves state (state.mainStops main) :=
  evolves_of_still rfl rfl rfl (fun h => h) (fun _ => rfl) (fun _ => Or.inr (Or.inr hstopped))
    (fun _ => hstopped)

theorem MainMove.evolves {label : MainLabel} (hmove : MainMove state label next) :
    Evolves state next := by
  cases hmove with
  | signal result hphase => exact evolves_of_mainStops nofun
  | serverFirst hphase hresult => exact evolves_of_mainStops nofun
  | loggerFirst hphase hresult => exact evolves_of_mainStops nofun
  | @serverDone outcome result loggerFinished hphase hresult =>
      refine evolves_of_still rfl rfl rfl (fun h => h) (fun h => h) Or.inl ?_
      intro _
      cases loggerFinished <;> nofun
  | loggerDone hphase hresult =>
      exact evolves_of_still rfl rfl rfl (fun h => h) (fun h => h) Or.inl (fun _ => nofun)
  | @serverExpired outcome loggerFinished hphase supervisor hover hkept haborted =>
      refine evolves_of_still rfl rfl rfl ?_ (fun h => h) Or.inl ?_
      · intro hfailing
        cases hbefore : state.supervisor.over with
        | true =>
            rw [← hkept hbefore] at hfailing
            exact hfailing
        | false =>
            obtain rfl := haborted hbefore
            rfl
      · intro _
        cases loggerFinished <;> nofun
  | loggerExpired hphase hresult =>
      exact evolves_of_still rfl rfl rfl (fun h => h) (fun h => h) Or.inl (fun _ => nofun)
  | loggerAborted hphase =>
      exact evolves_of_still rfl rfl rfl (fun h => h) (fun h => h) Or.inl (fun _ => nofun)

theorem Move.evolves {canonicalReason : UInt16 → Option String} {label : SensorLabel}
    (hmove : Move canonicalReason state label next) : Evolves state next := by
  cases hmove with
  | server hallows hserver => exact evolves_of_server (advances_of_allowed hallows hserver)
  | management hmove => exact hmove.evolves
  | stopMaintenance hrunning _ => exact evolves_of_maintenance hrunning .Returned
  | crashMaintenance hrunning => exact evolves_of_maintenance hrunning .Crashed
  | crashWriter _ =>
      exact evolves_of_still rfl rfl rfl (fun h => h) (fun h => h) Or.inl (fun h => h)
  | supervisor hmove => exact hmove.evolves
  | dropState _ _ =>
      exact evolves_of_still rfl rfl rfl (fun h => h) (fun h => h) Or.inl (fun h => h)
  | main hmove => exact hmove.evolves

end Evolves

/-! ### The supervisor joins everybody -/

structure Supervised (state : SensorState) : Prop where
  clean : state.supervisor.failing = false →
    ∀ worker ∈ state.joined, state.result worker = some (.ok ())
  complete : state.supervisor = .Returned (.ok ()) → ∀ worker ∈ state.workers, worker ∈ state.joined
  cancelled : state.supervisor.stopping = true → state.server.shutdown = true
  caused : state.main = .Selecting → state.server.shutdown = true → state.Failing

variable {state next : SensorState}

theorem supervised_new (config : Config) (endpoints : List EndpointConfig) :
    (SensorState.new config endpoints).Supervised where
  clean := fun _ => List.forall_mem_nil _
  complete := nofun
  cancelled := nofun
  caused := nofun

/-- Only `serve` moves itself. -/
theorem Move.management_eq {canonicalReason : UInt16 → Option String} {label : SensorLabel}
    (hmove : Move canonicalReason state label next)
    (hlabel : ∀ label', label ≠ .management label') : next.management = state.management := by
  cases hmove with
  | management _ => exact absurd rfl (hlabel _)
  | server | stopMaintenance | crashMaintenance | crashWriter | dropState => rfl
  | supervisor hmove => cases hmove <;> rfl
  | main hmove => cases hmove <;> rfl

/-- Whoever takes the step, the supervisor stays, is aborted or moves itself. -/
theorem Move.supervisor_cases {canonicalReason : UInt16 → Option String} {label : SensorLabel}
    (hmove : Move canonicalReason state label next) :
    (next.supervisor = state.supervisor ∧ next.joined = state.joined ∧
        ∀ label', label ≠ .supervisor label') ∨
      (state.supervisor.over = false ∧ next.supervisor = .Crashed ∧ next.joined = state.joined) ∨
      ∃ label', label = .supervisor label' ∧ SupervisorMove state next := by
  cases hmove with
  | server | stopMaintenance | crashMaintenance | crashWriter | dropState =>
      exact Or.inl ⟨rfl, rfl, fun _ h => (by cases h)⟩
  | management hmove => cases hmove <;> exact Or.inl ⟨rfl, rfl, fun _ h => (by cases h)⟩
  | supervisor hmove => exact Or.inr (Or.inr ⟨_, rfl, hmove⟩)
  | main hmove =>
      cases hmove with
      | serverExpired hphase hover hkept haborted =>
          cases hbefore : state.supervisor.over with
          | true => exact Or.inl ⟨hkept hbefore, rfl, fun _ h => (by cases h)⟩
          | false => exact Or.inr (Or.inl ⟨rfl, haborted hbefore, rfl⟩)
      | signal | serverFirst | loggerFirst | serverDone | loggerDone | loggerExpired
      | loggerAborted => exact Or.inl ⟨rfl, rfl, fun _ h => (by cases h)⟩

/-- The worker is complete, so its result is the one that was joined. -/
theorem result_of_joinable {worker : Worker} {result : Except RunError Unit}
    (hresult : state.joinable worker = some result) : state.result worker = some result := by
  unfold joinable at hresult
  split_ifs at hresult
  exact hresult

/-- A supervisor that ends its drain without a failure has met none. -/
theorem SupervisorMove.clean (hmove : SupervisorMove state next)
    (h : state.supervisor.failing = false →
      ∀ worker ∈ state.joined, state.result worker = some (.ok ()))
    (hfailing : next.supervisor.failing = false) :
    ∀ worker ∈ next.joined, state.result worker = some (.ok ()) := by
  cases hmove with
  | start hphase _ => exact h (by rw [hphase]; rfl)
  | startFailed _ => cases hfailing
  | cancelled hphase _ => exact h (by rw [hphase]; rfl)
  | poll hphase => exact h (by rw [hphase]; rfl)
  | join _ _ => cases hfailing
  | @drain failure worker result hphase hresult =>
      cases failure with
      | some error => cases hfailing
      | none =>
          have hbefore := h (by rw [hphase]; rfl)
          cases result with
          | error error => cases hfailing
          | ok value => exact List.forall_mem_cons.mpr ⟨result_of_joinable hresult, hbefore⟩
  | joinPending hphase => exact h (by rw [hphase]; rfl)
  | @finish failure hphase _ =>
      cases failure with
      | some error => cases hfailing
      | none => exact h (by rw [hphase]; rfl)
  | crash _ => cases hfailing

theorem Supervised.step {canonicalReason : UInt16 → Option String} {label : SensorLabel}
    (h : state.Supervised) (hstep : state.step canonicalReason label = some next) :
    next.Supervised := by
  have hmove := move_of_step hstep
  have hevolves := hmove.evolves
  have hcaused : next.main = .Selecting → next.server.shutdown = true → next.Failing := by
    intro hselecting hshutdown
    rcases hevolves.caused hshutdown with hbefore | hfailing | hstopped
    · apply hevolves.failing
      apply h.caused _ hbefore
      by_contra hstopped
      exact hevolves.main hstopped hselecting
    · exact hfailing
    · exact absurd hselecting hstopped
  obtain ⟨hsupervisor, hjoined, _⟩ | ⟨_, hcrashed, _⟩ | ⟨_, _, hmove⟩ := hmove.supervisor_cases
  · refine ⟨?_, ?_, ?_, hcaused⟩
    · intro hfailing worker hworker
      rw [hsupervisor] at hfailing
      rw [hjoined] at hworker
      exact hevolves.results worker _ (h.clean hfailing worker hworker)
    · rw [hsupervisor, hevolves.workers, hjoined]
      exact h.complete
    · intro hstopping
      rw [hsupervisor] at hstopping
      exact hevolves.shutdown (h.cancelled hstopping)
  · refine ⟨?_, ?_, ?_, hcaused⟩ <;> rw [hcrashed] <;> nofun
  · refine ⟨?_, ?_, ?_, hcaused⟩
    · intro hfailing worker hworker
      exact hevolves.results worker _ (hmove.clean h.clean hfailing worker hworker)
    · intro hreturned
      cases hmove with
      | finish _ hall => exact hall
      | start | startFailed | cancelled | poll | join | drain | joinPending | crash =>
          cases hreturned
    · intro hstopping
      cases hmove with
      | drain hphase _ => exact h.cancelled (by rw [hphase]; rfl)
      | @finish failure hphase _ => exact h.cancelled (by rw [hphase]; rfl)
      | cancelled | join => rfl
      | start | startFailed | poll | joinPending | crash => cases hstopping

theorem supervised_of_run {canonicalReason : UInt16 → Option String} {config : Config}
    {endpoints : List EndpointConfig} {labels : List SensorLabel}
    (hrun : Steps.run (SensorState.step canonicalReason) (.new config endpoints) labels =
      some state) : state.Supervised :=
  Steps.run_invariant (fun _ _ _ h hstep => h.step hstep) (supervised_new config endpoints) hrun

theorem Supervised.results (h : state.Supervised)
    (hreturned : state.supervisor = .Returned (.ok ())) :
    ∀ worker ∈ state.workers, state.result worker = some (.ok ()) := by
  intro worker hworker
  exact h.clean (by rw [hreturned]; rfl) worker (h.complete hreturned worker hworker)

theorem Supervised.loops (h : state.Supervised)
    (hreturned : state.supervisor = .Returned (.ok ())) :
    ∀ loop ∈ state.server.loops, loop.phase = .Returned (.ok ()) := by
  intro loop hloop
  obtain ⟨index, hindex⟩ := List.getElem?_of_mem hloop
  have hlength := (List.getElem?_eq_some_iff.mp hindex).1
  have hresult := h.results hreturned (.endpoint index) (by simp [workers, hlength])
  rw [SensorState.result, hindex, Option.bind_some] at hresult
  cases hphase : loop.phase <;> simp_all [LoopPhase.result]

theorem Supervised.not_failing (h : state.Supervised)
    (hreturned : state.supervisor = .Returned (.ok ())) : ¬ state.Failing := by
  rintro (hsupervisor | ⟨loop, hloop, hphase⟩ | ⟨phase, hmanagement, hphase⟩)
  · rw [hreturned] at hsupervisor
    cases hsupervisor
  · rw [h.loops hreturned loop hloop] at hphase
    cases hphase
  · have hresult := h.results hreturned .management (by simp [workers, hmanagement])
    rw [SensorState.result, hmanagement, Option.bind_some] at hresult
    cases phase with
    | Running | Draining | Crashed => cases hresult
    | Returned result =>
        obtain rfl := Option.some.inj hresult
        cases hphase

/-- As long as `run` waits in its select, the server can only end with an
error. -/
theorem Supervised.not_alone (h : state.Supervised) (hselecting : state.main = .Selecting) :
    state.supervisor ≠ .Returned (.ok ()) := by
  intro hreturned
  have hshutdown := h.cancelled (by rw [hreturned]; rfl)
  exact h.not_failing hreturned (h.caused hselecting hshutdown)

end SensorState

end Minotaur
