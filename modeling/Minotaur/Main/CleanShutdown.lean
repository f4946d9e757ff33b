import Minotaur.Main.Failures

/-!
What a shutdown without any fault ends with. The workers end with `Ok` because
the token is cancelled. The select of the supervisor asks the token first and
the workers second, and the token may be cancelled and a worker be over between
the two; then the supervisor reports a worker that stopped unexpectedly.
-/

namespace Minotaur

/-- No accept fails, and no task of the server fails or panics. -/
def SensorLabel.faultless : SensorLabel → Bool
  | .server (.endpoint _ .acceptFailed) | .server (.endpoint _ .crash)
  | .server (.session _ .panic) | .management .fail | .management .taskFailed
  | .management .crash | .crashMaintenance | .supervisor .startFailed => false
  | _ => true

namespace ServerState

structure Faultless (state : ServerState) : Prop where
  sessions : ∀ task ∈ state.sessions, task.phase ≠ .Unwound
  loops : ∀ loop ∈ state.loops, loop.phase.failing = false

variable {canonicalReason : UInt16 → Option String} {state next : ServerState} {index : Nat}

theorem LoopMove.faultless {loop : EndpointLoop} {label : LoopLabel}
    (hmove : LoopMove state index loop label next) (hloop : loop ∈ state.loops)
    (h : state.Faultless) (hfailed : label ≠ .acceptFailed) (hcrash : label ≠ .crash) :
    next.Faultless := by
  have hbefore := h.loops loop hloop
  cases hmove with
  | cancelled | poll | joinPending | accept | acceptPending | ignored | notIgnored | limited
  | allowed | full | acquire => exact ⟨h.sessions, Ledger.forall_mem_set h.loops index rfl⟩
  | @join session task _ _ hended =>
      exact ⟨Ledger.forall_mem_set h.sessions session hended,
        Ledger.forall_mem_set h.loops index rfl⟩
  | joinPanicked _ htask hunwound =>
      have hmem := List.mem_of_getElem? (joinable_eq_some htask).1
      exact absurd hunwound (h.sessions _ hmem)
  | acceptFailed => exact absurd rfl hfailed
  | spawn =>
      refine ⟨List.forall_mem_append.mpr ⟨h.sessions, ?_⟩,
        Ledger.forall_mem_set h.loops index rfl⟩
      simp
  | @drain failure session task hphase htask =>
      have hended := h.sessions _ (List.mem_of_getElem? (joinable_eq_some htask).1)
      refine ⟨Ledger.forall_mem_set h.sessions session hended,
        Ledger.forall_mem_set h.loops index ?_⟩
      rw [hphase] at hbefore
      cases failure with
      | some error => cases hbefore
      | none => cases htaskPhase : task.phase <;> simp_all [SessionPhase.failure]
  | @finish failure hphase _ =>
      refine ⟨h.sessions, Ledger.forall_mem_set h.loops index ?_⟩
      rw [hphase] at hbefore
      cases failure with
      | some error => cases hbefore
      | none => rfl
  | crash => exact absurd rfl hcrash

theorem SessionMove.faultless {task : SessionTask} {label : SessionLabel}
    (hmove : SessionMove canonicalReason state index task label next) (h : state.Faultless)
    (hpanic : label ≠ .panic) : next.Faultless := by
  cases hmove with
  | start | close | log | dropGuard | finish =>
      exact ⟨Ledger.forall_mem_set h.sessions index nofun, h.loops⟩
  | panic => exact absurd rfl hpanic
  | abort _ howner =>
      obtain ⟨loop, hloop, hcrashed⟩ := (Option.any_eq_true _ _).mp howner
      have hclean := h.loops loop (List.mem_of_getElem? hloop)
      cases hphase : loop.phase <;> simp_all

theorem Faultless.step {label : ServerLabel} (h : state.Faultless)
    (hstep : state.step canonicalReason label = some next)
    (hlabel : (SensorLabel.server label).faultless = true) : next.Faultless := by
  cases label with
  | cancel | evict =>
      obtain rfl := Option.some.inj hstep
      exact ⟨h.sessions, h.loops⟩
  | writer label =>
      simp only [ServerState.step] at hstep
      split_ifs at hstep
      obtain ⟨logger, _, rfl⟩ := Option.map_eq_some_iff.mp hstep
      exact ⟨h.sessions, h.loops⟩
  | endpoint index label =>
      obtain ⟨loop, hloop, hmove⟩ := Option.bind_eq_some_iff.mp hstep
      apply (loopMove_of_step hmove).faultless (List.mem_of_getElem? hloop) h
      · rintro rfl
        cases hlabel
      · rintro rfl
        cases hlabel
  | session index label =>
      obtain ⟨task, _, hmove⟩ := Option.bind_eq_some_iff.mp hstep
      apply (sessionMove_of_step canonicalReason hmove).faultless h
      rintro rfl
      cases hlabel

end ServerState

namespace SensorState

variable {canonicalReason : UInt16 → Option String} {config : Config}
  {endpoints : List EndpointConfig} {state next : SensorState} {label : SensorLabel}
  {labels : List SensorLabel}

/-! ### Every worker ends with `Ok` -/

structure Faultless (state : SensorState) : Prop where
  server : state.server.Faultless
  management : ∀ phase, state.management = some phase → phase.failing = false
  maintenance : state.maintenance ≠ .Crashed

theorem faultless_new (config : Config) (endpoints : List EndpointConfig) :
    (SensorState.new config endpoints).Faultless where
  server := ⟨List.forall_mem_nil _, by simp [SensorState.new, ServerState.new]⟩
  management := by
    intro phase hphase
    unfold SensorState.new at hphase
    dsimp only at hphase
    split_ifs at hphase
    obtain rfl := Option.some.inj hphase
    rfl
  maintenance := nofun

theorem faultless_of_managementStep {label : ManagementLabel} {phase : ManagementPhase}
    (hstep : state.managementStep phase label = some next)
    (hlabel : (SensorLabel.management label).faultless = true) (hphase : phase.failing = false) :
    ∀ phase, next.management = some phase → phase.failing = false := by
  intro after hafter
  cases label with
  | fail | taskFailed | crash => cases hlabel
  | stop =>
      cases phase with
      | Running =>
          simp only [managementStep] at hstep
          split_ifs at hstep
          obtain rfl := Option.some.inj hstep
          obtain rfl := Option.some.inj hafter
          rfl
      | Draining | Returned | Crashed => cases hstep
  | finish =>
      cases phase with
      | Draining failure =>
          obtain rfl := Option.some.inj hstep
          obtain rfl := Option.some.inj hafter
          cases failure with
          | none => rfl
          | some error => cases hphase
      | Running | Returned | Crashed => cases hstep

theorem Move.uncrashed (hmove : Move canonicalReason state label next)
    (hlabel : label ≠ .crashMaintenance) (h : state.maintenance ≠ .Crashed) :
    next.maintenance ≠ .Crashed := by
  cases hmove with
  | server | crashWriter | dropState => exact h
  | management hmove => cases hmove <;> exact h
  | stopMaintenance => nofun
  | crashMaintenance => exact absurd rfl hlabel
  | supervisor hmove => cases hmove <;> exact h
  | main hmove => cases hmove <;> exact h

theorem Faultless.step (h : state.Faultless)
    (hstep : state.step canonicalReason label = some next) (hlabel : label.faultless = true) :
    next.Faultless := by
  have hmove := move_of_step hstep
  refine ⟨?_, ?_, ?_⟩
  · obtain ⟨label', rfl, _, hserver, _⟩ | ⟨hloops, hsessions⟩ := hmove.server_cases
    · exact h.server.step hserver hlabel
    · exact ⟨hsessions ▸ h.server.sessions, hloops ▸ h.server.loops⟩
  · by_cases hmanagement : ∃ label', label = .management label'
    · obtain ⟨label', rfl⟩ := hmanagement
      obtain ⟨phase, hphase, hmoved⟩ := Option.bind_eq_some_iff.mp hstep
      exact faultless_of_managementStep hmoved hlabel (h.management phase hphase)
    · rw [hmove.management_eq (fun label' heq => hmanagement ⟨label', heq⟩)]
      exact h.management
  · apply hmove.uncrashed _ h.maintenance
    rintro rfl
    cases hlabel

theorem Faultless.result_eq (h : state.Faultless) {worker : Worker}
    {result : Except RunError Unit} (hresult : state.result worker = some result) :
    result = .ok () := by
  cases worker with
  | endpoint index =>
      obtain ⟨loop, hloop, hphase⟩ := result_endpoint.mp hresult
      have hclean := h.server.loops loop (List.mem_of_getElem? hloop)
      cases result with
      | ok value => rfl
      | error error => cases hloopPhase : loop.phase <;> simp_all [LoopPhase.result]
  | management =>
      obtain ⟨phase, hphase, hover⟩ := Option.bind_eq_some_iff.mp hresult
      have hclean := h.management phase hphase
      cases phase with
      | Returned returned =>
          obtain rfl := Option.some.inj hover
          cases returned with
          | ok value => rfl
          | error error => cases hclean
      | Crashed => cases hclean
      | Running | Draining => cases hover
  | maintenance =>
      have huncrashed := h.maintenance
      unfold SensorState.result at hresult
      cases hmaintenance : state.maintenance with
      | Returned =>
          rw [hmaintenance] at hresult
          exact (Option.some.inj hresult).symm
      | Running =>
          rw [hmaintenance] at hresult
          cases hresult
      | Crashed => exact absurd hmaintenance huncrashed

/-! ### The two polls of the select -/

/-- The poll of `join_next` in the select does not return a worker. -/
def Unhurried (state : SensorState) (label : SensorLabel) : Prop :=
  state.supervisor = .Joining → ∀ worker, label ≠ .supervisor (.join worker)

theorem unhurried_of_label (hlabel : ∀ worker, label ≠ .supervisor (.join worker)) :
    state.Unhurried label := fun _ => hlabel

theorem unhurried_of_other (hlabel : ∀ label', label ≠ .supervisor label') :
    state.Unhurried label := unhurried_of_label fun worker => hlabel (.join worker)

theorem unhurried_of_phase (hphase : state.supervisor ≠ .Joining) : state.Unhurried label :=
  fun hjoining => absurd hjoining hphase

/-- Without a fault, the supervisor fails by joining a worker in its select and
in no other way. -/
theorem Faultless.supervisorStep (h : state.Faultless) {label : SupervisorLabel}
    (hstep : state.supervisorStep label = some next)
    (hlabel : (SensorLabel.supervisor label).faultless = true)
    (hrunning : next.supervisor ≠ .Crashed) :
    next.supervisor.failing = false ↔
      state.supervisor.failing = false ∧ state.Unhurried (.supervisor label) := by
  cases label with
  | startFailed => cases hlabel
  | start =>
      simp only [SensorState.supervisorStep] at hstep
      split at hstep
      · rename_i hphase
        obtain rfl := Option.some.inj hstep
        have hunhurried : state.Unhurried (.supervisor .start) :=
          unhurried_of_phase (by simp [hphase])
        rw [hphase]
        split_ifs <;> simp [SupervisorPhase.failing, hunhurried, setReady]
      · cases hstep
  | pollShutdown =>
      simp only [SensorState.supervisorStep] at hstep
      split at hstep
      · rename_i hphase
        obtain rfl := Option.some.inj hstep
        have hunhurried : state.Unhurried (.supervisor .pollShutdown) :=
          unhurried_of_phase (by simp [hphase])
        rw [hphase]
        split_ifs <;>
          simp [SupervisorPhase.failing, hunhurried, supervisorStops, setReady, cancel]
      · cases hstep
  | join worker =>
      simp only [SensorState.supervisorStep] at hstep
      split at hstep
      · rename_i hphase
        obtain ⟨result, hresult, rfl⟩ := Option.map_eq_some_iff.mp hstep
        have hhurried : ¬ state.Unhurried (.supervisor (.join worker)) :=
          fun hunhurried => hunhurried hphase worker rfl
        simp [SupervisorPhase.failing, hhurried, supervisorStops, setReady, cancel]
      · rename_i failure hphase
        obtain ⟨result, hresult, rfl⟩ := Option.map_eq_some_iff.mp hstep
        obtain rfl := h.result_eq (result_of_joinable hresult)
        have hunhurried : state.Unhurried (.supervisor (.join worker)) :=
          unhurried_of_phase (by simp [hphase])
        rw [hphase]
        simp [hunhurried, errorOf]
      · cases hstep
  | joinPending =>
      simp only [SensorState.supervisorStep] at hstep
      split at hstep
      · rename_i hphase
        obtain rfl := Option.some.inj hstep
        have hunhurried : state.Unhurried (.supervisor .joinPending) := unhurried_of_label (by simp)
        rw [hphase]
        simp [SupervisorPhase.failing, hunhurried]
      · cases hstep
  | finish =>
      simp only [SensorState.supervisorStep] at hstep
      split at hstep
      · rename_i failure hphase
        split_ifs at hstep
        obtain rfl := Option.some.inj hstep
        have hunhurried : state.Unhurried (.supervisor .finish) :=
          unhurried_of_phase (by simp [hphase])
        rw [hphase]
        cases failure <;> simp [SupervisorPhase.failing, hunhurried, ServerState.outcome]
      · cases hstep
  | crash =>
      simp only [SensorState.supervisorStep] at hstep
      split_ifs at hstep
      obtain rfl := Option.some.inj hstep
      exact absurd rfl hrunning

theorem SupervisorMove.running (hmove : SupervisorMove state next) :
    state.supervisor ≠ .Crashed := by
  intro hcrashed
  cases hmove <;> simp_all [SupervisorPhase.over]

/-- The supervisor of a run without a fault fails if its select has joined a
worker. -/
structure Punctual (canonicalReason : UInt16 → Option String) (start : SensorState)
    (labels : List SensorLabel) (state : SensorState) : Prop where
  run : Steps.run (SensorState.step canonicalReason) start labels = some state
  faultless : state.Faultless
  failing : state.supervisor ≠ .Crashed → (state.supervisor.failing = false ↔
    Steps.Always (SensorState.step canonicalReason) Unhurried start labels)

theorem Punctual.step {start : SensorState} (h : Punctual canonicalReason start labels state)
    (hstep : state.step canonicalReason label = some next) (hlabel : label.faultless = true) :
    Punctual canonicalReason start (labels ++ [label]) next := by
  have hmove := move_of_step hstep
  refine ⟨?_, h.faultless.step hstep hlabel, ?_⟩
  · rw [Steps.run_append, h.run]
    simpa [Steps.run_cons] using hstep
  · intro hrunning
    rw [Steps.always_append h.run, Steps.always_singleton]
    obtain ⟨hsupervisor, _, hother⟩ | ⟨_, hcrashed, _⟩ | ⟨label', rfl, hsupervisor⟩ :=
      hmove.supervisor_cases
    · rw [hsupervisor] at hrunning ⊢
      rw [h.failing hrunning]
      exact (and_iff_left (unhurried_of_other hother)).symm
    · exact absurd hcrashed hrunning
    · rw [h.faultless.supervisorStep hstep hlabel hrunning, h.failing hsupervisor.running]

theorem punctual_of_run
    (hrun : Steps.run (SensorState.step canonicalReason) (.new config endpoints) labels =
      some state) (hfaultless : ∀ label ∈ labels, label.faultless = true) :
    Punctual canonicalReason (.new config endpoints) labels state := by
  refine @Steps.run_history _ _ (SensorState.step canonicalReason)
    (fun labels state => (∀ label ∈ labels, label.faultless = true) →
      Punctual canonicalReason (.new config endpoints) labels state) _ ?_ ?_ _ _ hrun hfaultless
  · intro _
    exact ⟨rfl, faultless_new config endpoints, fun _ => iff_of_true rfl trivial⟩
  · intro labels label middle next h hstep hall
    obtain ⟨hbefore, hlast⟩ := List.forall_mem_append.mp hall
    exact (h hbefore).step hstep (hlast label List.mem_cons_self)

/-! ### A pass that is overtaken -/

theorem joining_of_supervisorStep {label : SupervisorLabel}
    (hstep : state.supervisorStep label = some next) (hphase : next.supervisor = .Joining) :
    label = .pollShutdown ∧ state.supervisor = .Selecting ∧ state.server.shutdown = false := by
  cases label with
  | pollShutdown =>
      simp only [SensorState.supervisorStep] at hstep
      split at hstep
      · rename_i hselecting
        refine ⟨rfl, hselecting, ?_⟩
        obtain rfl := Option.some.inj hstep
        by_contra hshutdown
        rw [if_pos (by simpa using hshutdown)] at hphase
        cases hphase
      · cases hstep
  | start =>
      simp only [SensorState.supervisorStep] at hstep
      split at hstep
      · obtain rfl := Option.some.inj hstep
        split_ifs at hphase
        all_goals cases hphase
      · cases hstep
  | join worker =>
      simp only [SensorState.supervisorStep] at hstep
      split at hstep
      · obtain ⟨_, _, rfl⟩ := Option.map_eq_some_iff.mp hstep
        cases hphase
      · obtain ⟨_, _, rfl⟩ := Option.map_eq_some_iff.mp hstep
        cases hphase
      · cases hstep
  | startFailed | joinPending =>
      simp only [SensorState.supervisorStep] at hstep
      split at hstep
      · obtain rfl := Option.some.inj hstep
        cases hphase
      · cases hstep
  | finish =>
      simp only [SensorState.supervisorStep] at hstep
      split at hstep
      · split_ifs at hstep
        obtain rfl := Option.some.inj hstep
        cases hphase
      · cases hstep
  | crash =>
      simp only [SensorState.supervisorStep] at hstep
      split_ifs at hstep
      obtain rfl := Option.some.inj hstep
      cases hphase

/-- A pass of the select whose first poll, in the state `polled`, does not find
the token cancelled, and whose second poll has not come in `between`. -/
structure Passing (canonicalReason : UInt16 → Option String) (start : SensorState)
    (before between : List SensorLabel) (polled : SensorState) : Prop where
  run : Steps.run (SensorState.step canonicalReason) start before = some polled
  selecting : polled.supervisor = .Selecting
  early : polled.server.shutdown = false
  sole : ∀ label, .supervisor label ∉ between

/-- A supervisor that polls `join_next` next is within such a pass. -/
theorem passing_of_run {start : SensorState} (hstart : start.supervisor ≠ .Joining)
    (hrun : Steps.run (SensorState.step canonicalReason) start labels = some state)
    (hphase : state.supervisor = .Joining) :
    ∃ before between polled, labels = before ++ .supervisor .pollShutdown :: between ∧
      Passing canonicalReason start before between polled := by
  have h := @Steps.run_history _ _ (SensorState.step canonicalReason)
    (fun labels state => Steps.run (SensorState.step canonicalReason) start labels = some state ∧
      (state.supervisor = .Joining → ∃ before between polled,
        labels = before ++ .supervisor .pollShutdown :: between ∧
        Passing canonicalReason start before between polled)) start
    ⟨rfl, fun h => absurd h hstart⟩ ?_ _ _ hrun
  · exact h.2 hphase
  · rintro labels label middle next ⟨hbegins, hpass⟩ hstep
    refine ⟨?_, fun hjoining => ?_⟩
    · rw [Steps.run_append, hbegins]
      simpa [Steps.run_cons] using hstep
    · obtain ⟨hsupervisor, _, hother⟩ | ⟨_, hcrashed, _⟩ | ⟨label', rfl, _⟩ :=
        (move_of_step hstep).supervisor_cases
      · obtain ⟨before, between, polled, rfl, hpassing⟩ := hpass (hsupervisor ▸ hjoining)
        refine ⟨before, between ++ [label], polled, by simp, { hpassing with sole := ?_ }⟩
        intro label' hmem
        rcases List.mem_append.mp hmem with hmem | hmem
        · exact hpassing.sole label' hmem
        · exact hother label' (List.mem_singleton.mp hmem).symm
      · rw [hcrashed] at hjoining
        cases hjoining
      · obtain ⟨rfl, hselecting, hearly⟩ := joining_of_supervisorStep hstep hjoining
        exact ⟨labels, [], middle, rfl, hbegins, hselecting, hearly, by simp⟩

/-- By the time of the second poll, in the state `second`, the token is
cancelled and a worker is over that was not at the first poll. -/
structure Overtaken (canonicalReason : UInt16 → Option String) (start : SensorState)
    (before between : List SensorLabel) (worker : Worker) (polled second : SensorState) : Prop
    extends Passing canonicalReason start before between polled where
  ran : Steps.run (SensorState.step canonicalReason) start
    (before ++ .supervisor .pollShutdown :: between) = some second
  joining : second.supervisor = .Joining
  cancelled : second.server.shutdown = true
  unfinished : polled.result worker = none
  finished : second.result worker = some (.ok ())

/-- Where a pass is overtaken by a worker, its poll of `join_next` does not see
that worker. -/
def Unseen (canonicalReason : UInt16 → Option String) (start : SensorState)
    (labels : List SensorLabel) : Prop :=
  ∀ before between worker after polled second,
    labels = before ++ .supervisor .pollShutdown ::
      (between ++ .supervisor (.join worker) :: after) →
    ¬ Overtaken canonicalReason start before between worker polled second

theorem overtaken_of_joining {worker : Worker}
    (hrun : Steps.run (SensorState.step canonicalReason) (.new config endpoints) labels =
      some state) (hfaultless : ∀ label ∈ labels, label.faultless = true)
    (hphase : state.supervisor = .Joining) (hfinished : state.result worker = some (.ok ())) :
    ∃ before between polled, labels = before ++ .supervisor .pollShutdown :: between ∧
      Overtaken canonicalReason (.new config endpoints) before between worker polled state := by
  obtain ⟨before, between, polled, rfl, hpassing⟩ :=
    passing_of_run (by simp [SensorState.new]) hrun hphase
  refine ⟨before, between, polled, rfl, { hpassing with
    ran := hrun, joining := hphase, cancelled := (obedient_of_run hrun).cancelled hfinished,
    unfinished := ?_, finished := hfinished }⟩
  cases hresult : polled.result worker with
  | none => rfl
  | some result =>
      have hclean := (punctual_of_run hpassing.run fun label hlabel =>
        hfaultless label (List.mem_append_left _ hlabel)).faultless
      obtain ⟨error, rfl⟩ := (obedient_of_run hpassing.run).error hpassing.early hresult
      cases hclean.result_eq hresult

/-- The select joins a worker only in a pass that is overtaken. -/
theorem always_unhurried_iff
    (hrun : Steps.run (SensorState.step canonicalReason) (.new config endpoints) labels =
      some state) (hfaultless : ∀ label ∈ labels, label.faultless = true) :
    Steps.Always (SensorState.step canonicalReason) Unhurried (.new config endpoints) labels ↔
      Unseen canonicalReason (.new config endpoints) labels := by
  rw [Steps.always_iff_cut hrun]
  constructor
  · intro hcut before between worker after polled second hlabels hovertaken
    exact hcut (before ++ .supervisor .pollShutdown :: between) (.supervisor (.join worker)) after
      second (by simp [hlabels]) hovertaken.ran hovertaken.joining worker rfl
  · rintro hunseen before label after middle rfl hbefore hjoining worker rfl
    rw [Steps.run_append, hbefore, Option.bind_some, Steps.run_cons] at hrun
    obtain ⟨next, hstep, _⟩ := Option.bind_eq_some_iff.mp hrun
    simp only [step, SensorState.supervisorStep, hjoining] at hstep
    obtain ⟨result, hjoinable, _⟩ := Option.map_eq_some_iff.mp hstep
    have hall : ∀ label ∈ before, label.faultless = true := fun label hlabel =>
      hfaultless label (List.mem_append_left _ hlabel)
    have hresult := result_of_joinable hjoinable
    obtain rfl := (punctual_of_run hbefore hall).faultless.result_eq hresult
    obtain ⟨earlier, between, polled, rfl, hovertaken⟩ :=
      overtaken_of_joining hbefore hall hjoining hresult
    exact hunseen earlier between worker after polled middle (by simp) hovertaken

/-! ### The supervisor returns -/

/-- Steps of its own take the supervisor to its end, and its select joins no
worker on the way. -/
def Returns (canonicalReason : UInt16 → Option String) (state : SensorState) : Prop :=
  ∃ rest final result,
    (∀ label ∈ rest, label.faultless = true ∧ ∃ label', label = .supervisor label') ∧
    Steps.Always (SensorState.step canonicalReason) Unhurried state rest ∧
    Steps.run (SensorState.step canonicalReason) state rest = some final ∧
    final.supervisor = .Returned result

theorem Returns.cons {label : SupervisorLabel}
    (hstep : state.step canonicalReason (.supervisor label) = some next)
    (hfaultless : (SensorLabel.supervisor label).faultless = true)
    (hunhurried : state.Unhurried (.supervisor label)) (h : next.Returns canonicalReason) :
    state.Returns canonicalReason := by
  obtain ⟨rest, final, result, hrest, halways, hrun, hreturned⟩ := h
  refine ⟨.supervisor label :: rest, final, result, ?_, ?_, ?_, hreturned⟩
  · exact List.forall_mem_cons.mpr ⟨⟨hfaultless, label, rfl⟩, hrest⟩
  · refine ⟨hunhurried, ?_⟩
    rintro other hother
    rw [hstep] at hother
    exact Option.some.inj hother ▸ halways
  · rw [Steps.run_cons, hstep]
    exact hrun

/-- In its drain it joins one worker after the other. -/
theorem returns_of_draining {failure : Option RunError}
    (hphase : state.supervisor = .Draining failure)
    (hover : ∀ worker ∈ state.workers, (state.result worker).isSome = true) :
    state.Returns canonicalReason := by
  have hunhurried : ∀ label, state.Unhurried label :=
    fun label => unhurried_of_phase (by simp [hphase])
  obtain ⟨left, hleft⟩ : ∃ left, (state.workers.filter (· ∉ state.joined)).length ≤ left :=
    ⟨_, le_rfl⟩
  induction left generalizing state failure with
  | zero =>
      have hall : ∀ worker ∈ state.workers, worker ∈ state.joined := by
        simpa [List.filter_eq_nil_iff] using hleft
      refine ⟨[.supervisor .finish],
        { state with supervisor := .Returned (ServerState.outcome failure) },
        ServerState.outcome failure, by simp [SensorLabel.faultless],
        Steps.always_singleton.mpr (hunhurried _), ?_, rfl⟩
      simpa [Steps.run_cons, step, SensorState.supervisorStep, hphase] using hall
  | succ left ih =>
      by_cases hall : ∀ worker ∈ state.workers, worker ∈ state.joined
      · apply ih hphase hover hunhurried
        rw [List.filter_eq_nil_iff.mpr (by simpa using hall)]
        exact Nat.zero_le left
      · push Not at hall
        obtain ⟨worker, hworker, hjoined⟩ := hall
        obtain ⟨result, hresult⟩ := Option.isSome_iff_exists.mp (hover worker hworker)
        let next : SensorState := { state with
          joined := worker :: state.joined
          supervisor := .Draining (failure.or (errorOf result)) }
        have hjoin : state.step canonicalReason (.supervisor (.join worker)) = some next := by
          simp [step, SensorState.supervisorStep, hphase, joinable, hworker, hjoined, hresult,
            next]
        have hfewer : (state.workers.filter (· ∉ worker :: state.joined)).length ≤ left := by
          have hfilter : state.workers.filter (· ∉ worker :: state.joined) =
              (state.workers.filter (· ∉ state.joined)).filter (· ≠ worker) := by
            rw [List.filter_filter]
            simp
          have hmem : worker ∈ state.workers.filter (· ∉ state.joined) :=
            List.mem_filter.mpr ⟨hworker, by simpa using hjoined⟩
          have hlost : ((state.workers.filter (· ∉ state.joined)).filter (· ≠ worker)).length <
              (state.workers.filter (· ∉ state.joined)).length :=
            List.length_filter_lt_length_iff_exists.mpr ⟨worker, hmem, by simp⟩
          rw [hfilter]
          omega
        have hnext : next.supervisor = .Draining (failure.or (errorOf result)) := rfl
        apply Returns.cons hjoin rfl (hunhurried _)
        exact ih hnext hover (fun label => unhurried_of_phase (by simp [hnext])) hfewer

/-- Its select sees the token, at the latest in its next pass. -/
theorem returns_of_shutdown (hrunning : state.supervisor.over = false)
    (hshutdown : state.server.shutdown = true)
    (hover : ∀ worker ∈ state.workers, (state.result worker).isSome = true) :
    state.Returns canonicalReason := by
  have hselecting : ∀ other : SensorState, other.supervisor = .Selecting →
      other.server.shutdown = true →
      (∀ worker ∈ other.workers, (other.result worker).isSome = true) →
      other.Returns canonicalReason := by
    intro other hphase hcancelled hover
    have hpoll : other.step canonicalReason (.supervisor .pollShutdown) =
        some (other.supervisorStops none) := by
      simp [step, SensorState.supervisorStep, hphase, hcancelled]
    apply Returns.cons hpoll rfl (unhurried_of_phase (by simp [hphase]))
    exact @returns_of_draining canonicalReason (other.supervisorStops none) none rfl hover
  cases hphase : state.supervisor with
  | Selecting => exact hselecting state hphase hshutdown hover
  | Draining failure => exact returns_of_draining hphase hover
  | Starting =>
      have hstart : state.step canonicalReason (.supervisor .start) =
          some { state with supervisor := .Selecting } := by
        simp [step, SensorState.supervisorStep, hphase, hshutdown]
      apply Returns.cons hstart rfl (unhurried_of_phase (by simp [hphase]))
      exact hselecting { state with supervisor := .Selecting } rfl hshutdown hover
  | Joining =>
      have hpending : state.step canonicalReason (.supervisor .joinPending) =
          some { state with supervisor := .Selecting } := by
        simp [step, SensorState.supervisorStep, hphase]
      apply Returns.cons hpending rfl (unhurried_of_label (by simp))
      exact hselecting { state with supervisor := .Selecting } rfl hshutdown hover
  | Returned | Crashed =>
      rw [hphase] at hrunning
      cases hrunning

end SensorState

open SensorState in
/-- Without a fault, the server ends with `Ok` if and only if no pass of its
select is overtaken by a worker that `join_next` sees; and it ends once its
workers have seen the token. -/
theorem clean_shutdown_ok_iff (canonicalReason : UInt16 → Option String) (config : Config)
    (endpoints : List EndpointConfig) (labels : List SensorLabel) (state : SensorState)
    (hrun : Steps.run (SensorState.step canonicalReason) (SensorState.new config endpoints)
      labels = some state)
    (hfaultless : ∀ label ∈ labels, label.faultless = true) :
    (∀ worker ∈ state.workers, ∀ result, state.result worker = some result →
      result = .ok () ∧ state.server.shutdown = true) ∧
    (∀ result, state.supervisor = .Returned result →
      (result = .ok () ↔ Unseen canonicalReason (SensorState.new config endpoints) labels)) ∧
    (state.supervisor.over = false → state.server.shutdown = true →
      (∀ worker ∈ state.workers, (state.result worker).isSome = true) →
      ∃ rest final result, (∀ label ∈ rest, ∃ label', label = .supervisor label') ∧
        Steps.run (SensorState.step canonicalReason) state rest = some final ∧
        final.supervisor = .Returned result ∧
        (result = .ok () ↔
          Unseen canonicalReason (SensorState.new config endpoints) labels)) := by
  have hpunctual := punctual_of_run hrun hfaultless
  have hunseen := always_unhurried_iff hrun hfaultless
  refine ⟨?_, ?_, ?_⟩
  · intro worker _ result hresult
    obtain rfl := hpunctual.faultless.result_eq hresult
    exact ⟨rfl, (obedient_of_run hrun).cancelled hresult⟩
  · intro result hreturned
    rw [← hunseen, ← hpunctual.failing (by rw [hreturned]; nofun), hreturned]
    cases result <;> simp [SupervisorPhase.failing]
  · intro hrunning hshutdown hover
    obtain ⟨rest, final, result, hrest, halways, hfinal, hreturned⟩ :=
      @returns_of_shutdown canonicalReason state hrunning hshutdown hover
    refine ⟨rest, final, result, fun label hlabel => (hrest label hlabel).2, hfinal, hreturned, ?_⟩
    have hall : ∀ label ∈ labels ++ rest, label.faultless = true :=
      List.forall_mem_append.mpr ⟨hfaultless, fun label hlabel => (hrest label hlabel).1⟩
    have hextended : Steps.run (SensorState.step canonicalReason) (.new config endpoints)
        (labels ++ rest) = some final := by rw [Steps.run_append, hrun, Option.bind_some, hfinal]
    have hfailing := (punctual_of_run hextended hall).failing (by rw [hreturned]; nofun)
    rw [Steps.always_append hrun, and_iff_left halways, hunseen, hreturned] at hfailing
    rw [← hfailing]
    cases result <;> simp [SupervisorPhase.failing]

/-- The signal comes while the supervisor waits in its select. -/
def orderlyExit : List SensorLabel :=
  [.supervisor .start, .supervisor .pollShutdown, .supervisor .joinPending,
    .server (.endpoint 0 .pollShutdown), .server (.endpoint 0 .joinPending),
    .server (.endpoint 0 .acceptPending), .main (.signal (.ok ())),
    .server (.endpoint 0 .pollShutdown), .server (.endpoint 0 .finish),
    .supervisor .pollShutdown, .stopMaintenance, .supervisor (.join (.endpoint 0)),
    .supervisor (.join .maintenance), .supervisor .finish]

/-- The signal comes when the supervisor has polled the token and not yet its
workers. The endpoint loop is over before it polls them, and `join_next` does
not see that in time. -/
def missedExit : List SensorLabel :=
  [.supervisor .start, .supervisor .pollShutdown, .main (.signal (.ok ())),
    .server (.endpoint 0 .pollShutdown), .server (.endpoint 0 .finish),
    .supervisor .joinPending, .supervisor .pollShutdown, .stopMaintenance,
    .supervisor (.join (.endpoint 0)), .supervisor (.join .maintenance), .supervisor .finish]

theorem clean_shutdown_ok_iff_orderly :
    (∃ state, Steps.run (SensorState.step fun _ => none)
        (SensorState.new (sensorOf .Raw) [decoy .Raw]) orderlyExit = some state ∧
      state.supervisor = .Returned (.ok ()) ∧
      SensorState.Unseen (fun _ => none) (SensorState.new (sensorOf .Raw) [decoy .Raw])
        orderlyExit) ∧
    ∃ state, Steps.run (SensorState.step fun _ => none)
        (SensorState.new (sensorOf .Raw) [decoy .Raw]) missedExit = some state ∧
      state.supervisor = .Returned (.ok ()) ∧
      SensorState.Unseen (fun _ => none) (SensorState.new (sensorOf .Raw) [decoy .Raw])
        missedExit := by
  constructor
  · have hend : (Steps.run (SensorState.step fun _ => none)
        (SensorState.new (sensorOf .Raw) [decoy .Raw]) orderlyExit).any (fun state =>
          decide (state.supervisor = .Returned (.ok ()))) = true := by
      decide +kernel
    obtain ⟨state, hrun, hover⟩ := (Option.any_eq_true _ _).mp hend
    have hreturned : state.supervisor = .Returned (.ok ()) := of_decide_eq_true hover
    have hclean := clean_shutdown_ok_iff _ _ _ _ state hrun (by decide)
    exact ⟨state, hrun, hreturned, (hclean.2.1 _ hreturned).mp rfl⟩
  · have hend : (Steps.run (SensorState.step fun _ => none)
        (SensorState.new (sensorOf .Raw) [decoy .Raw]) missedExit).any (fun state =>
          decide (state.supervisor = .Returned (.ok ()))) = true := by
      decide +kernel
    obtain ⟨state, hrun, hover⟩ := (Option.any_eq_true _ _).mp hend
    have hreturned : state.supervisor = .Returned (.ok ()) := of_decide_eq_true hover
    have hclean := clean_shutdown_ok_iff _ _ _ _ state hrun (by decide)
    exact ⟨state, hrun, hreturned, (hclean.2.1 _ hreturned).mp rfl⟩

/-- Here `join_next` sees it. -/
def overtakenExit : List SensorLabel :=
  [.supervisor .start, .supervisor .pollShutdown, .main (.signal (.ok ())),
    .server (.endpoint 0 .pollShutdown), .server (.endpoint 0 .finish),
    .supervisor (.join (.endpoint 0)), .stopMaintenance, .supervisor (.join .maintenance),
    .supervisor .finish]

theorem clean_shutdown_overtaken :
    (∀ label ∈ overtakenExit, label.faultless = true) ∧
    ∃ state, Steps.run (SensorState.step fun _ => none)
        (SensorState.new (sensorOf .Raw) [decoy .Raw]) overtakenExit = some state ∧
      (∀ worker ∈ state.workers, state.result worker = some (.ok ())) ∧
      state.supervisor = .Returned (.error .WorkerStopped) := by
  refine ⟨by decide, ?_⟩
  have hend : (Steps.run (SensorState.step fun _ => none)
      (SensorState.new (sensorOf .Raw) [decoy .Raw]) overtakenExit).any (fun state =>
        decide ((∀ worker ∈ state.workers, state.result worker = some (.ok ())) ∧
          state.supervisor = .Returned (.error .WorkerStopped))) = true := by
    decide +kernel
  obtain ⟨state, hrun, hover⟩ := (Option.any_eq_true _ _).mp hend
  exact ⟨state, hrun, of_decide_eq_true hover⟩

end Minotaur
