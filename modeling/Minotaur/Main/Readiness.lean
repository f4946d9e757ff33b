import Minotaur.Main.Failures
import Minotaur.Main.Healthcheck

/-!
The readiness gauge, store by store. `SensorState` takes a look at the token
and the store that follows it for one step; here the supervisor, the writer
and `run` store into the gauge in steps of their own, and anybody may come in
between: `run` can cancel the token and lower the gauge while the supervisor
is about to raise it. The gauge of the sensor below is not used. Handlers of
`GET /readyz` look at the gauge and at the errors in two steps.

`raised`, here and in a probe, is not in the program.
-/

namespace Minotaur

/-- What `BoundServer::run` does next with the gauge. -/
inductive GaugeTask where
  | Idle
  /-- Has found the token live, and raises the gauge. -/
  | Raising
  /-- Leaves its select with this step, and lowers the gauge first. -/
  | Lowering (label : SupervisorLabel)
  /-- Has lowered the gauge. -/
  | Cancelling (label : SupervisorLabel)
deriving DecidableEq

/-- A request of `/readyz`. -/
structure Probe where
  /-- The gauge was raised before. -/
  raised : Bool
  /-- What the first load returned. -/
  ready : Option Nat
  answer : Option Response
deriving DecidableEq

structure ReadyState where
  sensor : SensorState
  ready : Nat
  supervisor : GaugeTask
  /-- The failed writer has lowered the gauge. -/
  writerLowered : Bool
  /-- `run` has cancelled the token, and lowers the gauge next. -/
  mainLowers : Bool
  raised : Bool
  probes : List Probe

inductive ReadyLabel where
  | sensor (label : SensorLabel)
  | raise
  | stop (label : SupervisorLabel)
  | lower
  | lowerWriter
  | lowerMain
  | request
  | readReady (probe : Nat)
  | readErrors (probe : Nat)

namespace ReadyState

variable (canonicalReason : UInt16 → Option String) (state : ReadyState)

/-- `logger_errors_total.get()`. -/
def errors : Nat := state.sensor.server.logger.metrics.loggerErrorsTotal

/-- The supervisor leaves its select with this step. -/
def stops (label : SupervisorLabel) : Bool :=
  (state.sensor.supervisorStep label).any fun next =>
    match state.sensor.supervisor, next.supervisor with
    | .Selecting, .Draining _ | .Joining, .Draining _ => true
    | _, _ => false

/-- A task takes its next step once it has done its stores. An abort waits for
the next await, and there is none before a store. -/
def allows : SensorLabel → Bool
  | .supervisor label =>
      if state.stops label then state.supervisor = .Cancelling label
      else state.supervisor = .Idle
  | .main .graceExpired => !state.mainLowers && state.supervisor = .Idle
  | .main _ => !state.mainLowers
  | .server (.writer .report) => state.writerLowered
  | _ => true

/-- What `BoundServer::run` has to do after a step. -/
def supervisorAfter : SensorLabel → GaugeTask
  | .supervisor .start => if state.sensor.server.shutdown then .Idle else .Raising
  | .supervisor _ => .Idle
  | _ => state.supervisor

/-- What `run` has to do after a step. -/
def mainAfter : SensorLabel → Bool
  | .main _ => state.sensor.main = .Selecting
  | _ => state.mainLowers

def setProbe (index : Nat) (probe : Probe) : ReadyState :=
  { state with probes := state.probes.set index probe }

def step : ReadyLabel → Option ReadyState
  | .sensor label =>
      if state.allows label then
        (state.sensor.step canonicalReason label).map fun sensor =>
          { state with
            sensor := sensor
            supervisor := state.supervisorAfter label
            mainLowers := state.mainAfter label }
      else none
  | .raise =>
      match state.supervisor with
      | .Raising => some { state with ready := 1, supervisor := .Idle, raised := true }
      | _ => none
  | .stop label =>
      if state.supervisor = .Idle ∧ state.stops label = true then
        some { state with supervisor := .Lowering label }
      else none
  | .lower =>
      match state.supervisor with
      | .Lowering label => some { state with ready := 0, supervisor := .Cancelling label }
      | _ => none
  | .lowerWriter =>
      match state.sensor.server.logger.writer with
      | .Closed _ =>
          if state.sensor.writerCrashed then none
          else some { state with ready := 0, writerLowered := true }
      | _ => none
  | .lowerMain =>
      if state.mainLowers then some { state with ready := 0, mainLowers := false } else none
  | .request => some { state with probes := state.probes ++ [⟨state.raised, none, none⟩] }
  | .readReady index =>
      (state.probes[index]?.filter fun probe => probe.ready.isNone).map fun probe =>
        state.setProbe index { probe with
          ready := some state.ready
          -- The second load is behind `&&`.
          answer := if state.ready = 1 then none else some (readyz state.ready state.errors) }
  | .readErrors index =>
      (state.probes[index]?.filter fun probe => probe.answer.isNone).bind fun probe =>
        probe.ready.map fun ready =>
          state.setProbe index { probe with answer := some (readyz ready state.errors) }

end ReadyState

def ReadyState.new (config : Config) (endpoints : List EndpointConfig) : ReadyState where
  sensor := .new config endpoints
  ready := 0
  supervisor := .Idle
  writerLowered := false
  mainLowers := false
  raised := false
  probes := []

/-! ### Frames -/

theorem LoggerState.Move.errors_le {state next : LoggerState SessionRecord}
    {label : LoggerLabel SessionRecord} (hmove : state.Move label next) :
    state.metrics.loggerErrorsTotal ≤ next.metrics.loggerErrorsTotal := by
  cases hmove with
  | log record _ => exact Nat.le_of_eq (errors_offer state record).symm
  | report _ => exact Nat.le_succ _
  | clone | dropSender | recv | finished | written | writeFailed | countLost =>
      exact Nat.le_refl _

namespace SensorState

variable {canonicalReason : UInt16 → Option String} {state next : SensorState}
  {label : SensorLabel}

theorem Move.errors_le (hmove : Move canonicalReason state label next) :
    state.server.logger.metrics.loggerErrorsTotal ≤
      next.server.logger.metrics.loggerErrorsTotal := by
  cases hmove with
  | server _ hserver =>
      obtain hsame | ⟨label', _, hlogger⟩ | ⟨_, _, _, record, hoffer⟩ :=
        ServerState.logger_of_step hserver
      · exact Nat.le_of_eq (by rw [hsame])
      · exact hlogger.errors_le
      · exact Nat.le_of_eq (by rw [hoffer, LoggerState.errors_offer])
  | management hmove => cases hmove <;> exact Nat.le_refl _
  | stopMaintenance | crashMaintenance | crashWriter => exact Nat.le_refl _
  | supervisor hmove => cases hmove <;> exact Nat.le_refl _
  | dropState _ hlogger => exact (LoggerState.move_of_step hlogger).errors_le
  | main hmove => cases hmove <;> exact Nat.le_refl _

/-- Nobody but the supervisor moves it, and only `run` can abort it. -/
theorem Move.supervisor_eq (hmove : Move canonicalReason state label next)
    (hsupervisor : ∀ label', label ≠ .supervisor label') :
    next.supervisor = state.supervisor ∨
      label = .main .graceExpired ∧ next.supervisor = .Crashed := by
  cases hmove with
  | server | stopMaintenance | crashMaintenance | crashWriter | dropState => exact Or.inl rfl
  | management hmove => cases hmove <;> exact Or.inl rfl
  | supervisor _ => exact absurd rfl (hsupervisor _)
  | main hmove =>
      cases hmove with
      | serverExpired _ _ hkept haborted =>
          cases hover : state.supervisor.over with
          | true => exact Or.inl (hkept hover)
          | false => exact Or.inr ⟨rfl, haborted hover⟩
      | signal | serverFirst | loggerFirst | serverDone | loggerDone | loggerExpired
      | loggerAborted => exact Or.inl rfl

end SensorState

namespace ReadyState

variable {canonicalReason : UInt16 → Option String} {config : Config}
  {endpoints : List EndpointConfig} {state next : ReadyState}

/-! ### Steps -/

/-- What a step is. -/
inductive Move (canonicalReason : UInt16 → Option String) (state : ReadyState) :
    ReadyLabel → ReadyState → Prop where
  | sensor {label : SensorLabel} {sensor : SensorState} (hallows : state.allows label = true)
      (hsensor : state.sensor.step canonicalReason label = some sensor) :
      Move canonicalReason state (.sensor label) { state with
        sensor := sensor
        supervisor := state.supervisorAfter label
        mainLowers := state.mainAfter label }
  | raise (htask : state.supervisor = .Raising) :
      Move canonicalReason state .raise
        { state with ready := 1, supervisor := .Idle, raised := true }
  | stop {label : SupervisorLabel} (htask : state.supervisor = .Idle)
      (hstops : state.stops label = true) :
      Move canonicalReason state (.stop label) { state with supervisor := .Lowering label }
  | lower {label : SupervisorLabel} (htask : state.supervisor = .Lowering label) :
      Move canonicalReason state .lower { state with ready := 0, supervisor := .Cancelling label }
  | lowerWriter :
      Move canonicalReason state .lowerWriter { state with ready := 0, writerLowered := true }
  | lowerMain (hlowers : state.mainLowers = true) :
      Move canonicalReason state .lowerMain { state with ready := 0, mainLowers := false }
  | request :
      Move canonicalReason state .request
        { state with probes := state.probes ++ [⟨state.raised, none, none⟩] }
  | readReady {index : Nat} {probe : Probe} (hprobe : state.probes[index]? = some probe)
      (hready : probe.ready = none) :
      Move canonicalReason state (.readReady index) (state.setProbe index { probe with
        ready := some state.ready
        answer := if state.ready = 1 then none else some (readyz state.ready state.errors) })
  | readErrors {index ready : Nat} {probe : Probe} (hprobe : state.probes[index]? = some probe)
      (hready : probe.ready = some ready) (hanswer : probe.answer = none) :
      Move canonicalReason state (.readErrors index)
        (state.setProbe index { probe with answer := some (readyz ready state.errors) })

theorem move_of_step {label : ReadyLabel} (hstep : state.step canonicalReason label = some next) :
    Move canonicalReason state label next := by
  cases label with
  | sensor label =>
      simp only [step] at hstep
      split_ifs at hstep with hallows
      obtain ⟨sensor, hsensor, rfl⟩ := Option.map_eq_some_iff.mp hstep
      exact .sensor hallows hsensor
  | raise =>
      simp only [step] at hstep
      split at hstep
      · rename_i htask
        obtain rfl := Option.some.inj hstep
        exact .raise htask
      · cases hstep
  | stop label =>
      simp only [step] at hstep
      split_ifs at hstep with hstops
      obtain rfl := Option.some.inj hstep
      exact .stop hstops.1 hstops.2
  | lower =>
      simp only [step] at hstep
      split at hstep
      · rename_i label htask
        obtain rfl := Option.some.inj hstep
        exact .lower htask
      · cases hstep
  | lowerWriter =>
      simp only [step] at hstep
      split at hstep
      · split_ifs at hstep
        obtain rfl := Option.some.inj hstep
        exact .lowerWriter
      · cases hstep
  | lowerMain =>
      simp only [step] at hstep
      split_ifs at hstep with hlowers
      obtain rfl := Option.some.inj hstep
      exact .lowerMain hlowers
  | request =>
      obtain rfl := Option.some.inj hstep
      exact .request
  | readReady index =>
      obtain ⟨probe, hprobe, rfl⟩ := Option.map_eq_some_iff.mp hstep
      obtain ⟨hprobe, hready⟩ := Option.filter_eq_some_iff.mp hprobe
      exact .readReady hprobe (Option.isNone_iff_eq_none.mp hready)
  | readErrors index =>
      obtain ⟨probe, hprobe, hstep⟩ := Option.bind_eq_some_iff.mp hstep
      obtain ⟨ready, hready, rfl⟩ := Option.map_eq_some_iff.mp hstep
      obtain ⟨hprobe, hanswer⟩ := Option.filter_eq_some_iff.mp hprobe
      exact .readErrors hprobe hready (Option.isNone_iff_eq_none.mp hanswer)

/-- Every run with its stores is a run of the sensor. -/
theorem sensor_of_run {labels : List ReadyLabel}
    (hrun : Steps.run (step canonicalReason) (.new config endpoints) labels = some state) :
    ∃ seen, Steps.run (SensorState.step canonicalReason) (.new config endpoints) seen =
      some state.sensor := by
  refine @Steps.run_refines _ _ _ _ (step canonicalReason)
    (SensorState.step canonicalReason) ReadyState.sensor ?_ _ _ _ hrun
  intro state label next hstep
  cases move_of_step hstep with
  | @sensor label sensor _ hsensor => exact ⟨[label], by simpa [Steps.run_cons] using hsensor⟩
  | raise | stop | lower | lowerWriter | lowerMain | request | readReady | readErrors =>
      exact ⟨[], rfl⟩

/-! ### The gauge -/

/-- Who has left its select by a step has announced it. -/
theorem stops_of_step {label : SupervisorLabel} {sensor : SensorState} {failure : Option RunError}
    (hstep : state.sensor.supervisorStep label = some sensor)
    (hbefore : state.sensor.supervisor = .Selecting ∨ state.sensor.supervisor = .Joining)
    (hafter : sensor.supervisor = .Draining failure) : state.stops label = true := by
  unfold stops
  rw [hstep, Option.any_some, hafter]
  rcases hbefore with hbefore | hbefore <;> rw [hbefore]

theorem started_of_stops {label : SupervisorLabel} (hstops : state.stops label = true) :
    state.sensor.supervisor ≠ .Starting := by
  intro hstarting
  obtain ⟨sensor, _, hleaves⟩ := (Option.any_eq_true _ _).mp hstops
  rw [hstarting] at hleaves
  cases hleaves

end ReadyState

/-- The supervisor has not left its select, unless it panicked or was aborted. -/
def SupervisorPhase.watching : SupervisorPhase → Bool
  | .Selecting | .Joining | .Crashed => true
  | _ => false

namespace ReadyState

variable {canonicalReason : UInt16 → Option String} {config : Config}
  {endpoints : List EndpointConfig} {state next : ReadyState}

structure Gauged (state : ReadyState) : Prop where
  bounded : state.ready ≤ 1
  up : state.ready = 1 → state.raised = true ∧ state.sensor.supervisor.watching = true
  raising : state.supervisor = .Raising →
    state.raised = false ∧ state.sensor.supervisor = .Selecting
  starting : state.sensor.supervisor = .Starting →
    state.supervisor = .Idle ∧ state.raised = false
  cancelling : ∀ label, state.supervisor = .Cancelling label → state.ready = 0

theorem gauged_new : (ReadyState.new config endpoints).Gauged where
  bounded := Nat.zero_le _
  up := nofun
  raising := nofun
  starting := fun _ => ⟨rfl, rfl⟩
  cancelling := nofun

/-- Only a supervisor that starts can have the gauge to raise. -/
theorem supervisorAfter_cases (state : ReadyState) (label : SupervisorLabel) :
    state.supervisorAfter (.supervisor label) = .Idle ∨
      label = .start ∧ state.supervisorAfter (.supervisor label) = .Raising := by
  cases label with
  | start =>
      cases hshutdown : state.sensor.server.shutdown with
      | true => exact Or.inl (by simp [supervisorAfter, hshutdown])
      | false => exact Or.inr ⟨rfl, by simp [supervisorAfter, hshutdown]⟩
  | startFailed | pollShutdown | join | joinPending | finish | crash => exact Or.inl rfl

theorem starts_of_step {sensor after : SensorState}
    (hstep : sensor.supervisorStep .start = some after) :
    sensor.supervisor = .Starting ∧ after.supervisor = .Selecting := by
  simp only [SensorState.supervisorStep] at hstep
  split at hstep
  · rename_i hphase
    obtain rfl := Option.some.inj hstep
    refine ⟨hphase, ?_⟩
    split_ifs <;> rfl
  · cases hstep

/-- A step of the supervisor, with its stores done. -/
theorem Gauged.supervisor (h : state.Gauged) {label : SupervisorLabel} {sensor : SensorState}
    (hallows : state.allows (.supervisor label) = true)
    (hstep : state.sensor.supervisorStep label = some sensor) :
    Gauged { state with
      sensor := sensor
      supervisor := state.supervisorAfter (.supervisor label)
      mainLowers := state.mainAfter (.supervisor label) } := by
  have hmove := SensorState.supervisorMove_of_step hstep
  refine ⟨h.bounded, ?_, ?_, ?_, ?_⟩
  · intro hready
    obtain ⟨hraised, hwatching⟩ := h.up hready
    have hstays : state.stops label ≠ true := by
      intro hstops
      simp only [allows, hstops, if_true, decide_eq_true_eq] at hallows
      rw [h.cancelling label hallows] at hready
      cases hready
    refine ⟨hraised, ?_⟩
    cases hmove with
    | start hphase _ | startFailed hphase | drain hphase _ | finish hphase _ =>
        rw [hphase] at hwatching
        cases hwatching
    | cancelled hphase _ => exact absurd (stops_of_step hstep (Or.inl hphase) rfl) hstays
    | join hphase _ => exact absurd (stops_of_step hstep (Or.inr hphase) rfl) hstays
    | poll | joinPending | crash => rfl
  · intro hraising
    obtain hidle | ⟨rfl, _⟩ := state.supervisorAfter_cases label
    · rw [hidle] at hraising
      cases hraising
    · obtain ⟨hbefore, hafter⟩ := starts_of_step hstep
      exact ⟨(h.starting hbefore).2, hafter⟩
  · intro hstarting
    cases hmove <;> cases hstarting
  · intro other hother
    obtain hidle | ⟨_, hraising⟩ := state.supervisorAfter_cases label
    · rw [hidle] at hother
      cases hother
    · rw [hraising] at hother
      cases hother

/-- A step of anybody else. -/
theorem Gauged.others (h : state.Gauged) {label : SensorLabel} {sensor : SensorState}
    (hlabel : ∀ label', label ≠ .supervisor label') (hallows : state.allows label = true)
    (hmove : SensorState.Move canonicalReason state.sensor label sensor) :
    Gauged { state with
      sensor := sensor
      supervisor := state.supervisorAfter label
      mainLowers := state.mainAfter label } := by
  have htask : state.supervisorAfter label = state.supervisor := by
    cases label with
    | supervisor label => exact absurd rfl (hlabel label)
    | server | management | stopMaintenance | crashMaintenance | crashWriter | dropState | main =>
        rfl
  obtain hsame | ⟨rfl, hcrashed⟩ := hmove.supervisor_eq hlabel
  · refine ⟨h.bounded, ?_, ?_, ?_, ?_⟩
    · intro hready
      exact ⟨(h.up hready).1, hsame ▸ (h.up hready).2⟩
    · intro hraising
      rw [htask] at hraising
      exact ⟨(h.raising hraising).1, hsame.trans (h.raising hraising).2⟩
    · intro hstarting
      rw [htask]
      exact h.starting (hsame.symm.trans hstarting)
    · intro other hother
      rw [htask] at hother
      exact h.cancelling other hother
  · have hidle : state.supervisor = .Idle := by
      simp only [allows, Bool.and_eq_true, decide_eq_true_eq] at hallows
      exact hallows.2
    rw [hidle] at htask
    refine ⟨h.bounded, ?_, ?_, ?_, ?_⟩
    · intro hready
      exact ⟨(h.up hready).1, by rw [hcrashed]; rfl⟩
    · intro hraising
      rw [htask] at hraising
      cases hraising
    · intro hstarting
      rw [hcrashed] at hstarting
      cases hstarting
    · intro other hother
      rw [htask] at hother
      cases hother

theorem Gauged.step (h : state.Gauged) {label : ReadyLabel}
    (hstep : state.step canonicalReason label = some next) : next.Gauged := by
  cases move_of_step hstep with
  | @sensor label sensor hallows hsensor =>
      cases label with
      | supervisor label => exact h.supervisor hallows hsensor
      | server | management | stopMaintenance | crashMaintenance | crashWriter | dropState | main =>
          exact h.others (fun _ hlabel => (by cases hlabel)) hallows
            (SensorState.move_of_step hsensor)
  | raise htask =>
      obtain ⟨_, hselecting⟩ := h.raising htask
      refine ⟨Nat.le_refl 1, ?_, nofun, ?_, nofun⟩
      · exact fun _ => ⟨rfl, by rw [hselecting]; rfl⟩
      · intro hstarting
        rw [hselecting] at hstarting
        cases hstarting
  | stop htask hstops =>
      refine ⟨h.bounded, h.up, nofun, ?_, nofun⟩
      exact fun hstarting => absurd hstarting (started_of_stops hstops)
  | lower htask =>
      refine ⟨Nat.zero_le _, nofun, nofun, ?_, fun _ _ => rfl⟩
      intro hstarting
      rw [(h.starting hstarting).1] at htask
      cases htask
  | lowerWriter | lowerMain =>
      exact ⟨Nat.zero_le _, nofun, h.raising, h.starting, fun _ _ => rfl⟩
  | request | readReady | readErrors =>
      exact ⟨h.bounded, h.up, h.raising, h.starting, h.cancelling⟩

theorem gauged_of_run {labels : List ReadyLabel}
    (hrun : Steps.run (step canonicalReason) (.new config endpoints) labels = some state) :
    state.Gauged :=
  Steps.run_invariant (fun _ _ _ h hstep => h.step hstep) gauged_new hrun

/-! ### Down for good -/

/-- The gauge is down, and nobody will raise it. -/
structure Down (state : ReadyState) : Prop where
  ready : state.ready = 0
  task : state.supervisor ≠ .Raising
  phase : state.sensor.supervisor ≠ .Starting

/-- The gauge is raised only once. -/
theorem Gauged.down (h : state.Gauged) (hraised : state.raised = true) (hready : state.ready = 0) :
    state.Down where
  ready := hready
  task := by
    intro hraising
    rw [(h.raising hraising).1] at hraised
    cases hraised
  phase := by
    intro hstarting
    rw [(h.starting hstarting).2] at hraised
    cases hraised

theorem Gauged.down_of_leaving (h : state.Gauged)
    (hleaving : state.sensor.supervisor.leaving = true) : state.Down where
  ready := by
    rcases Nat.le_one_iff_eq_zero_or_eq_one.mp h.bounded with hzero | hone
    · exact hzero
    · have hwatching := (h.up hone).2
      cases hphase : state.sensor.supervisor <;> simp_all [SupervisorPhase.leaving,
        SupervisorPhase.watching]
  task := by
    intro hraising
    rw [(h.raising hraising).2] at hleaving
    cases hleaving
  phase := by
    intro hstarting
    rw [hstarting] at hleaving
    cases hleaving

theorem Down.step (h : state.Down) {label : ReadyLabel}
    (hstep : state.step canonicalReason label = some next) : next.Down := by
  cases move_of_step hstep with
  | @sensor label sensor hallows hsensor =>
      refine ⟨h.ready, ?_, ?_⟩
      · intro hraising
        cases label with
        | supervisor label =>
            obtain hidle | ⟨rfl, _⟩ := state.supervisorAfter_cases label
            · exact absurd (hidle.symm.trans hraising) nofun
            · exact h.phase (starts_of_step hsensor).1
        | server | management | stopMaintenance | crashMaintenance | crashWriter | dropState
        | main => exact h.task hraising
      · intro hstarting
        cases label with
        | supervisor label =>
            cases SensorState.supervisorMove_of_step hsensor <;> cases hstarting
        | server | management | stopMaintenance | crashMaintenance | crashWriter | dropState
        | main =>
            obtain hsame | ⟨_, hcrashed⟩ := (SensorState.move_of_step hsensor).supervisor_eq
              (fun _ hlabel => (by cases hlabel))
            · exact h.phase (hsame.symm.trans hstarting)
            · exact absurd (hcrashed.symm.trans hstarting) nofun
  | raise htask => exact absurd htask h.task
  | stop => exact ⟨h.ready, nofun, h.phase⟩
  | lower => exact ⟨rfl, nofun, h.phase⟩
  | lowerWriter | lowerMain => exact ⟨rfl, h.task, h.phase⟩
  | request | readReady | readErrors => exact ⟨h.ready, h.task, h.phase⟩

theorem errors_le_of_step {label : ReadyLabel}
    (hstep : state.step canonicalReason label = some next) : state.errors ≤ next.errors := by
  cases move_of_step hstep with
  | sensor _ hsensor => exact (SensorState.move_of_step hsensor).errors_le
  | raise | stop | lower | lowerWriter | lowerMain | request | readReady | readErrors =>
      exact Nat.le_refl _

/-- No request that begins now is answered with 200. -/
def Closed (state : ReadyState) : Prop := state.Down ∨ 0 < state.errors

theorem Closed.step (h : state.Closed) {label : ReadyLabel}
    (hstep : state.step canonicalReason label = some next) : next.Closed := by
  obtain hdown | herrors := h
  · exact Or.inl (hdown.step hstep)
  · exact Or.inr (Nat.lt_of_lt_of_le herrors (errors_le_of_step hstep))

/-! ### Requests -/

/-- A request that began with the gauge raised and is turned down tells that
the gauge is down for good. -/
structure Told (state : ReadyState) (probe : Probe) : Prop where
  raised : probe.raised = true → state.raised = true
  ready : probe.raised = true → ∀ ready, probe.ready = some ready → ready = 1 ∨ state.Down
  answer : probe.raised = true → ∀ response, probe.answer = some response →
    response.status = 200 ∨ state.Closed

theorem raised_of_step {label : ReadyLabel} (hstep : state.step canonicalReason label = some next)
    (hraised : state.raised = true) : next.raised = true := by
  cases move_of_step hstep with
  | raise => rfl
  | sensor | stop | lower | lowerWriter | lowerMain | request | readReady | readErrors =>
      exact hraised

theorem Told.step {probe : Probe} (h : state.Told probe) {label : ReadyLabel}
    (hstep : state.step canonicalReason label = some next) : next.Told probe where
  raised := fun hprobe => raised_of_step hstep (h.raised hprobe)
  ready := by
    intro hprobe ready hready
    exact (h.ready hprobe ready hready).imp_right fun hdown => hdown.step hstep
  answer := by
    intro hprobe response hanswer
    exact (h.answer hprobe response hanswer).imp_right fun hclosed => hclosed.step hstep

/-- What the two loads say. -/
theorem closed_of_readyz {ready : Nat} (hready : ready = 1 ∨ state.Down) :
    (readyz ready state.errors).status = 200 ∨ state.Closed := by
  obtain rfl | hdown := hready
  · rcases Nat.eq_zero_or_pos state.errors with hnone | hsome
    · exact Or.inl (readyz_ok_iff.mpr ⟨rfl, hnone⟩)
    · exact Or.inr (Or.inr hsome)
  · exact Or.inr (Or.inl hdown)

theorem told_step (hgauged : state.Gauged) (h : ∀ probe ∈ state.probes, state.Told probe)
    {label : ReadyLabel} (hstep : state.step canonicalReason label = some next) :
    ∀ probe ∈ next.probes, next.Told probe := by
  have hkept : ∀ probe ∈ state.probes, next.Told probe := fun probe hprobe =>
    (h probe hprobe).step hstep
  have hset : ∀ index probe, next = state.setProbe index probe → state.Told probe →
      ∀ other ∈ next.probes, next.Told other := by
    rintro index probe rfl htold other hother
    rcases List.mem_or_eq_of_mem_set hother with hother | rfl
    · exact hkept other hother
    · exact htold.step hstep
  cases move_of_step hstep with
  | sensor | raise | stop | lower | lowerWriter | lowerMain => exact hkept
  | request =>
      intro probe hprobe
      rcases List.mem_append.mp hprobe with hprobe | hprobe
      · exact hkept probe hprobe
      · obtain rfl := List.mem_singleton.mp hprobe
        exact ⟨fun hraised => hraised, fun _ _ h => (by cases h), fun _ _ h => (by cases h)⟩
  | @readReady index probe hprobe _ =>
      have htold := h probe (List.mem_of_getElem? hprobe)
      have hready : probe.raised = true → state.ready = 1 ∨ state.Down := by
        intro hraised
        rcases Nat.le_one_iff_eq_zero_or_eq_one.mp hgauged.bounded with hzero | hone
        · exact Or.inr (hgauged.down (htold.raised hraised) hzero)
        · exact Or.inl hone
      refine hset index _ rfl ⟨htold.raised, ?_, ?_⟩
      · intro hraised ready hload
        obtain rfl := Option.some.inj hload
        exact hready hraised
      · intro hraised response hresponse
        dsimp only at hresponse
        split_ifs at hresponse
        obtain rfl := Option.some.inj hresponse
        exact closed_of_readyz (hready hraised)
  | @readErrors index ready probe hprobe hready _ =>
      have htold := h probe (List.mem_of_getElem? hprobe)
      refine hset index _ rfl ⟨htold.raised, htold.ready, ?_⟩
      intro hraised response hresponse
      obtain rfl := Option.some.inj hresponse
      exact closed_of_readyz (htold.ready hraised ready hready)

theorem told_of_run {labels : List ReadyLabel}
    (hrun : Steps.run (step canonicalReason) (.new config endpoints) labels = some state) :
    ∀ probe ∈ state.probes, state.Told probe := by
  have hboth : state.Gauged ∧ ∀ probe ∈ state.probes, state.Told probe := by
    refine @Steps.run_invariant _ _ (step canonicalReason)
      (fun state => state.Gauged ∧ ∀ probe ∈ state.probes, state.Told probe) ?_ _ _ _ ?_ hrun
    · intro state label next h hstep
      exact ⟨h.1.step hstep, told_step h.1 h.2 hstep⟩
    · exact ⟨gauged_new, List.forall_mem_nil _⟩
  exact hboth.2

/-! ### Later requests -/

/-- A request that is turned down, or will be. -/
structure Denied (state : ReadyState) (probe : Probe) : Prop where
  ready : probe.ready = some 1 → 0 < state.errors
  answer : ∀ response, probe.answer = some response → response.status ≠ 200

/-- All requests from this one on. -/
def DeniedFrom (state : ReadyState) (first : Nat) : Prop :=
  first ≤ state.probes.length ∧
    ∀ index probe, first ≤ index → state.probes[index]? = some probe → state.Denied probe

theorem DeniedFrom.step {first : Nat} (hclosed : state.Closed) (h : state.DeniedFrom first)
    {label : ReadyLabel} (hstep : state.step canonicalReason label = some next) :
    next.DeniedFrom first := by
  have hkept : ∀ index probe, first ≤ index → state.probes[index]? = some probe →
      next.Denied probe := by
    intro index probe hfirst hprobe
    have hdenied := h.2 index probe hfirst hprobe
    exact ⟨fun hready => Nat.lt_of_lt_of_le (hdenied.ready hready) (errors_le_of_step hstep),
      hdenied.answer⟩
  have hset : ∀ index probe, next = state.setProbe index probe →
      (first ≤ index → state.Denied probe) → next.DeniedFrom first := by
    rintro index probe rfl hdenied
    refine ⟨by simpa [setProbe] using h.1, ?_⟩
    intro other probe' hfirst hprobe'
    simp only [setProbe, List.getElem?_set] at hprobe'
    split_ifs at hprobe' with hindex
    · subst hindex
      obtain rfl := Option.some.inj hprobe'
      exact ⟨(hdenied hfirst).ready, (hdenied hfirst).answer⟩
    · exact hkept other probe' hfirst hprobe'
  cases move_of_step hstep with
  | sensor | raise | stop | lower | lowerWriter | lowerMain => exact ⟨h.1, hkept⟩
  | request =>
      refine ⟨by simpa using Nat.le_succ_of_le h.1, ?_⟩
      intro index probe hfirst hprobe
      rw [List.getElem?_append] at hprobe
      split_ifs at hprobe
      · exact hkept index probe hfirst hprobe
      · have hnew := List.mem_of_getElem? hprobe
        obtain rfl := List.mem_singleton.mp hnew
        exact ⟨fun h => (by cases h), fun _ h => (by cases h)⟩
  | @readReady index probe hprobe _ =>
      refine hset index _ rfl ?_
      intro hfirst
      refine ⟨?_, ?_⟩
      · intro hready
        have hone : state.ready = 1 := Option.some.inj hready
        obtain hdown | herrors := hclosed
        · rw [hdown.ready] at hone
          cases hone
        · exact herrors
      · intro response hresponse
        dsimp only at hresponse
        split_ifs at hresponse with hone
        obtain rfl := Option.some.inj hresponse
        exact fun hok => hone (readyz_ok_iff.mp hok).1
  | @readErrors index ready probe hprobe hready _ =>
      refine hset index _ rfl ?_
      intro hfirst
      have hdenied := h.2 index probe hfirst hprobe
      refine ⟨hdenied.ready, ?_⟩
      intro response hresponse
      obtain rfl := Option.some.inj hresponse
      intro hok
      obtain ⟨rfl, hnone⟩ := readyz_ok_iff.mp hok
      exact absurd hnone (hdenied.ready hready).ne'

/-- No request that begins later is answered with 200. -/
theorem denied_of_run (hclosed : state.Closed) {labels : List ReadyLabel}
    (hrun : Steps.run (step canonicalReason) state labels = some next) :
    next.DeniedFrom state.probes.length := by
  have hboth : next.Closed ∧ next.DeniedFrom state.probes.length := by
    refine @Steps.run_invariant _ _ (step canonicalReason)
      (fun later => later.Closed ∧ later.DeniedFrom state.probes.length) ?_ _ _ _ ?_ hrun
    · intro later label after h hstep
      exact ⟨h.1.step hstep, h.2.step h.1 hstep⟩
    · refine ⟨hclosed, Nat.le_refl _, ?_⟩
      intro index probe hindex hprobe
      rw [List.getElem?_eq_none hindex] at hprobe
      cases hprobe
  exact hboth.2

/-! ### The client -/

section Client

variable {wire : Response → List UInt8}

/-- The client that sent this request reports a sensor that is ready. -/
def Succeeds (wire : Response → List UInt8) (state : ReadyState) (index : Nat) : Prop :=
  ∃ probe response address, state.probes[index]? = some probe ∧ probe.answer = some response ∧
    healthcheck (fun _ _ => .ok (wire response)) address = .ok ()

theorem Succeeds.ok (hwire : ∀ response, StatusLine (wire response) response.status)
    {index : Nat} (h : state.Succeeds wire index) :
    ∃ probe response, state.probes[index]? = some probe ∧ probe.answer = some response ∧
      response.status = 200 := by
  obtain ⟨probe, response, address, hprobe, hanswer, hok⟩ := h
  exact ⟨probe, response, hprobe, hanswer, checkStatus_ok (hwire response) hok⟩

/-- The first load of a request decides what it can be answered. -/
structure Looked (middle state : ReadyState) (index : Nat) : Prop where
  errors : middle.errors ≤ state.errors
  probe : ∃ probe, state.probes[index]? = some probe ∧ probe.ready = some middle.ready ∧
    ∀ response, probe.answer = some response → response.status = 200 →
      middle.ready = 1 ∧ middle.errors = 0

theorem Looked.step {middle : ReadyState} {index : Nat} (h : Looked middle state index)
    {label : ReadyLabel} (hstep : state.step canonicalReason label = some next) :
    Looked middle next index := by
  refine ⟨h.errors.trans (errors_le_of_step hstep), ?_⟩
  obtain ⟨probe, hprobe, hready, hanswer⟩ := h.probe
  cases move_of_step hstep with
  | sensor | raise | stop | lower | lowerWriter | lowerMain =>
      exact ⟨probe, hprobe, hready, hanswer⟩
  | request =>
      refine ⟨probe, ?_, hready, hanswer⟩
      exact (List.getElem?_append_left (List.getElem?_eq_some_iff.mp hprobe).1).trans hprobe
  | @readReady other probe' hprobe' hnone =>
      have hne : other ≠ index := by
        rintro rfl
        rw [hprobe] at hprobe'
        obtain rfl := Option.some.inj hprobe'
        rw [hready] at hnone
        cases hnone
      exact ⟨probe, (List.getElem?_set_ne hne).trans hprobe, hready, hanswer⟩
  | @readErrors other ready probe' hprobe' hready' _ =>
      by_cases hindex : other = index
      · subst hindex
        rw [hprobe] at hprobe'
        obtain rfl := Option.some.inj hprobe'
        have hlength := (List.getElem?_eq_some_iff.mp hprobe).1
        refine ⟨_, List.getElem?_set_self hlength, hready, ?_⟩
        intro response hresponse hok
        obtain rfl := Option.some.inj hresponse
        obtain ⟨rfl, hnone⟩ := readyz_ok_iff.mp hok
        rw [hready] at hready'
        exact ⟨Option.some.inj hready', Nat.le_zero.mp (hnone ▸ h.errors)⟩
      · exact ⟨probe, (List.getElem?_set_ne hindex).trans hprobe, hready, hanswer⟩

theorem looked_of_step {middle : ReadyState} {index : Nat}
    (hstep : middle.step canonicalReason (.readReady index) = some next) :
    Looked middle next index := by
  refine ⟨errors_le_of_step hstep, ?_⟩
  cases move_of_step hstep with
  | @readReady _ probe hprobe _ =>
      refine ⟨_, List.getElem?_set_self (List.getElem?_eq_some_iff.mp hprobe).1, rfl, ?_⟩
      intro response hresponse hok
      dsimp only at hresponse
      split_ifs at hresponse with hone
      obtain rfl := Option.some.inj hresponse
      exact readyz_ok_iff.mp hok

/-- A health check that succeeds has found the gauge up: the supervisor had
started, had not left its select, and the writer had reported no error. Once
the supervisor has left, the writer has failed, or a request that came after
the start was turned down, no later health check succeeds. -/
theorem healthcheck_truthful (hwire : ∀ response, StatusLine (wire response) response.status)
    {first second : List ReadyLabel} {middle final : ReadyState}
    (hfirst : Steps.run (step canonicalReason) (.new config endpoints) first = some middle)
    (hsecond : Steps.run (step canonicalReason) middle second = some final) :
    (∀ index rest, second = .readReady index :: rest → final.Succeeds wire index →
      middle.raised = true ∧ middle.sensor.supervisor.watching = true ∧ middle.errors = 0) ∧
    ((middle.sensor.supervisor.leaving = true ∨ 0 < middle.errors ∨
        ∃ probe ∈ middle.probes, probe.raised = true ∧
          ∃ response, probe.answer = some response ∧ response.status ≠ 200) →
      ∀ index, middle.probes.length ≤ index → ¬ final.Succeeds wire index) := by
  have hgauged : middle.Gauged := gauged_of_run hfirst
  constructor
  · rintro index rest rfl hsucceeds
    obtain ⟨next, hnext, hrest⟩ := Option.bind_eq_some_iff.mp hsecond
    have hlooked : Looked middle final index :=
      @Steps.run_invariant _ _ (step canonicalReason) (fun state => Looked middle state index)
        (fun _ _ _ h hstep => h.step hstep) _ _ _ (looked_of_step hnext) hrest
    obtain ⟨probe, hprobe, _, hanswer⟩ := hlooked.probe
    obtain ⟨other, response, hother, hresponse, hok⟩ := hsucceeds.ok hwire
    rw [hprobe] at hother
    obtain rfl := Option.some.inj hother
    obtain ⟨hone, hnone⟩ := hanswer response hresponse hok
    exact ⟨(hgauged.up hone).1, (hgauged.up hone).2, hnone⟩
  · rintro hstopped index hindex hsucceeds
    have hclosed : middle.Closed := by
      rcases hstopped with hleaving | herrors | ⟨probe, hprobe, hraised, response, hanswer, hrefused⟩
      · exact Or.inl (hgauged.down_of_leaving hleaving)
      · exact Or.inr herrors
      · exact ((told_of_run hfirst probe hprobe).answer hraised response hanswer).resolve_left hrefused
    obtain ⟨probe, response, hprobe, hresponse, hok⟩ := hsucceeds.ok hwire
    exact ((denied_of_run hclosed hsecond).2 index probe hindex hprobe).answer response hresponse hok

/-- The first request after the start. -/
theorem healthcheck_truthful_start :
    ∃ middle final, Steps.run (step fun _ => none) (.new {} [])
        [.sensor (.supervisor .start), .raise, .request] = some middle ∧
      Steps.run (step fun _ => none) middle [.readReady 0, .readErrors 0] = some final ∧
      final.Succeeds (http1 "Thu, 01 Jan 1970 00:00:00 GMT") 0 ∧ middle.errors = 0 := by
  have hruns : ((Steps.run (step fun _ => none) (.new {} [])
      [.sensor (.supervisor .start), .raise, .request]).any fun middle =>
        (Steps.run (step fun _ => none) middle [.readReady 0, .readErrors 0]).any fun final =>
          decide (final.probes = [⟨true, some 1, some (readyz 1 0)⟩])) = true := by
    decide +kernel
  obtain ⟨middle, hfirst, hruns⟩ := (Option.any_eq_true _ _).mp hruns
  obtain ⟨final, hsecond, hprobes⟩ := (Option.any_eq_true _ _).mp hruns
  have hsucceeds : final.Succeeds (http1 "Thu, 01 Jan 1970 00:00:00 GMT") 0 := by
    refine ⟨_, readyz 1 0, .V4 0 9090, by rw [of_decide_eq_true hprobes]; rfl, rfl, ?_⟩
    rw [healthcheck_eq, checkStatus_ok_iff (statusLine_http1 _ _) (by decide +kernel)
      (by decide +kernel)]
    rfl
  have htruthful := @healthcheck_truthful (fun _ => none) {} []
    (http1 "Thu, 01 Jan 1970 00:00:00 GMT") (statusLine_http1 _) _ _ _ _ hfirst hsecond
  exact ⟨middle, final, hfirst, hsecond, hsucceeds, (htruthful.1 0 _ rfl hsucceeds).2.2⟩

end Client

end ReadyState

end Minotaur
