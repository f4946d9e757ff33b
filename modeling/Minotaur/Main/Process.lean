import Minotaur.Main.Outcome
import Minotaur.Management.Moves

/-!
The process with its management endpoint in full. `SensorState` knows only
where `serve` is; here `serve` runs with its handlers, and every run of the
process shows a run of the sensor, so what holds of those holds here.
-/

namespace Minotaur

/-- Where the management worker is, seen from the sensor. -/
def ServePhase.view : ServePhase → ManagementPhase
  | .Selecting | .Joining | .Accepting | .Accepted => .Running
  | .Draining failure => .Draining failure
  | .Returned result => .Returned result
  | .Crashed => .Crashed

structure ProcessState where
  sensor : SensorState
  serve : Option ServeState

inductive ProcessLabel where
  | sensor (label : SensorLabel)
  | serve (label : ServeLabel)

/-- The sensor when `serve` has taken a step. -/
def SensorState.serves (state : SensorState) (serve : ServeState) (shutdown : Bool) :
    SensorState :=
  { state with
    management := some serve.phase.view
    server := { state.server with shutdown := shutdown } }

namespace ProcessState

/-- The management worker steps as `serve` and not as the sensor has it. -/
def step (canonicalReason : UInt16 → Option String) (state : ProcessState) :
    ProcessLabel → Option ProcessState
  | .sensor (.management _) => none
  | .sensor label =>
      (state.sensor.step canonicalReason label).map fun sensor => { state with sensor := sensor }
  | .serve label =>
      state.serve.bind fun serve =>
        (serve.step state.sensor.server.shutdown label).map fun (serve, shutdown) =>
          ⟨state.sensor.serves serve shutdown, some serve⟩

end ProcessState

def ProcessState.new (config : Config) (endpoints : List EndpointConfig) : ProcessState where
  sensor := .new config endpoints
  serve := if config.metrics.enabled then some (.new config.metrics) else none

namespace ProcessState

variable {canonicalReason : UInt16 → Option String} {config : Config}
  {endpoints : List EndpointConfig} {state next : ProcessState}

theorem sensorStep {label : SensorLabel}
    (hstep : state.step canonicalReason (.sensor label) = some next) :
    (∀ label', label ≠ .management label') ∧ ∃ sensor,
      state.sensor.step canonicalReason label = some sensor ∧
        next = { state with sensor := sensor } := by
  cases label with
  | management label => cases hstep
  | server | stopMaintenance | crashMaintenance | crashWriter | supervisor | dropState | main =>
      obtain ⟨sensor, hsensor, rfl⟩ := Option.map_eq_some_iff.mp hstep
      exact ⟨fun _ h => (by cases h), sensor, hsensor, rfl⟩

theorem serveStep {label : ServeLabel}
    (hstep : state.step canonicalReason (.serve label) = some next) :
    ∃ serve after token, state.serve = some serve ∧
      ServeState.ServeMove serve state.sensor.server.shutdown label after token ∧
      next = ⟨state.sensor.serves after token, some after⟩ := by
  obtain ⟨serve, hserve, hstep⟩ := Option.bind_eq_some_iff.mp hstep
  obtain ⟨⟨after, token⟩, hafter, rfl⟩ := Option.map_eq_some_iff.mp hstep
  exact ⟨serve, after, token, hserve, ServeState.serveMove_of_step hafter, rfl⟩

/-! ### What the sensor sees -/

/-- The sensor's view of `serve` is up to date. -/
def Viewed (state : ProcessState) : Prop :=
  state.sensor.management = state.serve.map (·.phase.view)

theorem serves_of_same {sensor : SensorState} {serve : ServeState}
    (hview : sensor.management = some serve.phase.view) :
    sensor.serves serve sensor.server.shutdown = sensor := by
  unfold SensorState.serves
  rw [← hview]

/-- A step of `serve` is one of the management worker, or none at all. -/
theorem serveMove_view {sensor : SensorState} {serve after : ServeState} {token : Bool}
    {label : ServeLabel} (hview : sensor.management = some serve.phase.view)
    (hmove : ServeState.ServeMove serve sensor.server.shutdown label after token) :
    sensor.serves after token = sensor ∨
      ∃ label', sensor.managementStep serve.phase.view label' = some (sensor.serves after token) := by
  have hstill : after.phase.view = serve.phase.view → token = sensor.server.shutdown →
      sensor.serves after token = sensor := by
    rintro hphase rfl
    exact serves_of_same (hphase ▸ hview)
  cases hmove with
  | cancelled hphase hshutdown =>
      refine Or.inr ⟨.stop, ?_⟩
      rw [hphase]
      exact if_pos hshutdown
  | poll hphase _ | join hphase _ _ | joinPending hphase | accept hphase
  | acceptPending hphase | reject hphase _ | spawn hphase _ =>
      exact Or.inl (hstill (by simp [hphase, ServePhase.view]) rfl)
  | joinPanicked hphase _ _ =>
      refine Or.inr ⟨.fail, ?_⟩
      rw [hphase]
      rfl
  | acceptFailed hphase =>
      refine Or.inr ⟨.fail, ?_⟩
      rw [hphase]
      rfl
  | @drain failure index task hphase htask =>
      by_cases hpanicked : task.phase = .Panicked
      · refine Or.inr ⟨.taskFailed, ?_⟩
        rw [hphase, hpanicked]
        rfl
      · refine Or.inl (hstill ?_ rfl)
        have hnone : task.phase.failure = none := by
          cases htaskPhase : task.phase <;> simp_all [HandlerPhase.failure]
        simp [hphase, ServePhase.view, hnone]
  | finish hphase _ =>
      refine Or.inr ⟨.finish, ?_⟩
      rw [hphase]
      rfl
  | crash hphase =>
      refine Or.inr ⟨.crash, ?_⟩
      cases hserve : serve.phase <;> simp_all <;> rfl
  | startTask => exact Or.inl (hstill rfl rfl)
  | endTask | panicTask | abortTask =>
      refine Or.inl (hstill ?_ rfl)
      unfold ServeState.endTask
      split_ifs <;> rfl

/-- What the sensor does while the process takes a step. -/
theorem sensor_of_step {label : ProcessLabel} (hviewed : state.Viewed)
    (hstep : state.step canonicalReason label = some next) :
    next.Viewed ∧ ∃ seen, Steps.run (SensorState.step canonicalReason) state.sensor seen =
        some next.sensor ∧
      (∀ label', label = .sensor label' → label' ∈ seen) ∧
      ∀ label' ∈ seen, label = .sensor label' ∨ ∃ other, label' = .management other := by
  cases label with
  | sensor label =>
      obtain ⟨hlabel, sensor, hsensor, rfl⟩ := sensorStep hstep
      refine ⟨?_, [label], ?_, by simp, by simp⟩
      · exact ((SensorState.move_of_step hsensor).management_eq hlabel).trans hviewed
      · simpa [Steps.run_cons] using hsensor
  | serve label =>
      obtain ⟨serve, after, token, hserve, hmove, rfl⟩ := serveStep hstep
      have hview : state.sensor.management = some serve.phase.view := by
        rw [hviewed, hserve]
        rfl
      refine ⟨rfl, ?_⟩
      obtain hsame | ⟨label', hlabel⟩ := serveMove_view hview hmove
      · exact ⟨[], congrArg some hsame.symm, fun _ h => (by cases h), List.forall_mem_nil _⟩
      · refine ⟨[.management label'], ?_, fun _ h => (by cases h), by simp⟩
        simp [Steps.run_cons, SensorState.step, hview, hlabel]

theorem viewed_new : (ProcessState.new config endpoints).Viewed := by
  unfold Viewed ProcessState.new SensorState.new
  dsimp only
  split_ifs <;> rfl

/-- Every run of the process is a run of the sensor. -/
theorem sensor_of_run {labels : List ProcessLabel}
    (hrun : Steps.run (step canonicalReason) (.new config endpoints) labels = some state) :
    state.Viewed ∧ ∃ seen, Steps.run (SensorState.step canonicalReason) (.new config endpoints)
        seen = some state.sensor ∧
      (∀ label, .sensor label ∈ labels → label ∈ seen) ∧
      ∀ label ∈ seen, .sensor label ∈ labels ∨ ∃ other, label = .management other := by
  refine @Steps.run_history _ _ (step canonicalReason) (fun labels state => state.Viewed ∧
    ∃ seen, Steps.run (SensorState.step canonicalReason) (.new config endpoints) seen =
        some state.sensor ∧
      (∀ label, .sensor label ∈ labels → label ∈ seen) ∧
      ∀ label ∈ seen, .sensor label ∈ labels ∨ ∃ other, label = .management other)
    _ ?_ ?_ _ _ hrun
  · exact ⟨viewed_new, [], rfl, fun _ h => absurd h List.not_mem_nil, List.forall_mem_nil _⟩
  · rintro labels label middle next ⟨hviewed, seen, hseen, hall, hsource⟩ hstep
    obtain ⟨hnext, more, hmore, hmoreAll, hmoreSource⟩ := sensor_of_step hviewed hstep
    refine ⟨hnext, seen ++ more, ?_, ?_, ?_⟩
    · rw [Steps.run_append, hseen]
      exact hmore
    · intro other hother
      rcases List.mem_append.mp hother with hother | hother
      · exact List.mem_append_left _ (hall other hother)
      · exact List.mem_append_right _ (hmoreAll other (List.mem_singleton.mp hother).symm)
    · intro other hother
      rcases List.mem_append.mp hother with hother | hother
      · exact (hsource other hother).imp (List.mem_append_left _) (fun h => h)
      · refine (hmoreSource other hother).imp ?_ (fun h => h)
        rintro rfl
        exact List.mem_append_right _ List.mem_cons_self

/-! ### What `serve` knows -/

theorem shutdown_of_step {label : ProcessLabel} (hstep : state.step canonicalReason label = some next)
    (hshutdown : state.sensor.server.shutdown = true) : next.sensor.server.shutdown = true := by
  cases label with
  | sensor label =>
      obtain ⟨_, sensor, hsensor, rfl⟩ := sensorStep hstep
      exact (SensorState.move_of_step hsensor).evolves.shutdown hshutdown
  | serve label =>
      obtain ⟨serve, after, token, _, hmove, rfl⟩ := serveStep hstep
      exact hmove.failing.1 hshutdown

def ServeSound (state : ProcessState) : Prop :=
  ∀ serve, state.serve = some serve → serve.Sound state.sensor.server.shutdown

theorem ServeSound.step {label : ProcessLabel} (h : state.ServeSound)
    (hstep : state.step canonicalReason label = some next) : next.ServeSound := by
  have hshutdown := shutdown_of_step hstep
  cases label with
  | sensor label =>
      obtain ⟨_, sensor, _, rfl⟩ := sensorStep hstep
      exact fun serve hserve => (h serve hserve).mono hshutdown
  | serve label =>
      obtain ⟨serve, after, token, hserve, hmove, rfl⟩ := serveStep hstep
      rintro other hother
      obtain rfl := Option.some.inj hother
      exact hmove.sound (h serve hserve)

theorem serveSound_of_run {labels : List ProcessLabel}
    (hrun : Steps.run (step canonicalReason) (.new config endpoints) labels = some state) :
    state.ServeSound := by
  refine Steps.run_invariant (fun _ _ _ h hstep => ServeSound.step h hstep) ?_ hrun
  intro serve hserve
  unfold ProcessState.new at hserve
  dsimp only at hserve
  split_ifs at hserve
  obtain rfl := Option.some.inj hserve
  exact ServeState.sound_new _ _

end ProcessState

end Minotaur
