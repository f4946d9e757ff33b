import Minotaur.Logger.Delivery
import Minotaur.Main.Panics
import Minotaur.Session.Json

/-!
The process with the sinks of its writer. A step that ends the write in
progress (its result, a crash of the writer, or the grace period that aborts
it) comes with the schedule under which the write future ran; every other step
leaves the sinks alone. Every run here is a run of the sensor, so a successful
exit, which has lost no record in the queue, has them all in the sinks.
-/

namespace Minotaur

open Disk Interruptible

/-- How a write in progress ends. -/
inductive WriteEnd where
  | Written
  | Failed
  | Aborted
deriving DecidableEq, Repr

/-- An elapsed deadline and an abort both drop the future. -/
def WriteEnd.agrees (ending : WriteEnd) (outcome : Outcome (World Output) (Except String PUnit)) :
    Bool :=
  match ending, outcome with
  | .Written, .done (.ok _) _ => true
  | .Failed, .done (.error _) _ => true
  | .Failed, .dropped _ => true
  | .Aborted, .dropped _ => true
  | _, _ => false

namespace SensorState

/-- The record whose write future is alive. -/
def writing (state : SensorState) : Option SessionRecord :=
  match state.server.logger.writer with
  | .Writing record => if state.writerCrashed then none else some record
  | _ => none

/-- What the step does to a write in progress. -/
def writeEnd (state : SensorState) : SensorLabel → Option WriteEnd
  | .server (.writer .written) => some .Written
  | .server (.writer .writeFailed) => some .Failed
  | .crashWriter => some .Aborted
  | .main .graceExpired =>
      match state.main with
      | .FinishingLogger _ => some .Aborted
      | _ => none
  | _ => none

end SensorState

structure LoggedState where
  sensor : SensorState
  output : Output

section Step

variable (canonicalReason : UInt16 → Option String) (timestamp : Int → String)

/-- The write in progress runs under this schedule until the step ends it. -/
def LoggedState.step (state : LoggedState) (label : SensorLabel × List Verdict) :
    Option LoggedState :=
  (state.sensor.step canonicalReason label.1).bind fun sensor =>
    match state.sensor.writeEnd label.1, state.sensor.writing with
    | some ending, some record =>
        let outcome := writeOutcome (SessionRecord.line timestamp) state.output record label.2
        if ending.agrees outcome then some ⟨sensor, outcome.world.state⟩ else none
    | _, _ => some ⟨sensor, state.output⟩

end Step

/-! ### The queue in the process -/

namespace SensorState

variable {canonicalReason : UInt16 → Option String} {state next : SensorState}
  {label : SensorLabel}

/-- What the sinks depend on stays as it is, up to newly accepted records. -/
structure QueueKept (logger next : LoggerState SessionRecord) : Prop where
  writer : next.writer = logger.writer
  flushed : next.flushed = logger.flushed
  accepted : logger.accepted <+: next.accepted

theorem QueueKept.refl (logger : LoggerState SessionRecord) : QueueKept logger logger :=
  ⟨rfl, rfl, List.prefix_refl _⟩

/-- A step moves the writer, or keeps what the sinks depend on. -/
theorem Move.queue_cases (hmove : Move canonicalReason state label next) :
    (∃ label', label = .server (.writer label') ∧ state.writerCrashed = false ∧
      next.writerCrashed = false ∧
      LoggerState.Move state.server.logger label' next.server.logger) ∨
    (∀ label', label ≠ .server (.writer label')) ∧
      QueueKept state.server.logger next.server.logger := by
  cases hmove with
  | @server label server hallows hserver =>
      cases label with
      | writer label' =>
          have hcrashed : state.writerCrashed = false := by
            simpa [SensorState.serverAllows] using hallows
          simp only [ServerState.step] at hserver
          split_ifs at hserver
          obtain ⟨logger, hlogger, rfl⟩ := Option.map_eq_some_iff.mp hserver
          exact Or.inl ⟨label', rfl, hcrashed, hcrashed, LoggerState.move_of_step hlogger⟩
      | cancel | evict now =>
          obtain rfl := Option.some.inj hserver
          exact Or.inr ⟨by simp, .refl _⟩
      | endpoint index label =>
          obtain ⟨loop, _, hmove⟩ := Option.bind_eq_some_iff.mp hserver
          refine Or.inr ⟨by simp, ?_⟩
          cases ServerState.loopMove_of_step hmove <;> exact .refl _
      | session index label =>
          obtain ⟨task, _, hmove⟩ := Option.bind_eq_some_iff.mp hserver
          refine Or.inr ⟨by simp, ?_⟩
          cases ServerState.sessionMove_of_step canonicalReason hmove with
          | log _ =>
              obtain ⟨hflushed, hwriter, _, haccepted⟩ :=
                state.server.logger.offer_keeps (task.arrival.record canonicalReason
                  state.server.config)
              exact ⟨hwriter, hflushed, haccepted⟩
          | start | close | dropGuard | finish | panic | abort => exact .refl _
  | management hmove => cases hmove <;> exact Or.inr ⟨by simp, .refl _⟩
  | stopMaintenance | crashMaintenance => exact Or.inr ⟨by simp, .refl _⟩
  | crashWriter => exact Or.inr ⟨by simp, rfl, rfl, List.prefix_refl _⟩
  | supervisor hmove =>
      cases hmove <;> exact Or.inr ⟨by simp, rfl, rfl, List.prefix_refl _⟩
  | dropState _ hlogger =>
      cases LoggerState.move_of_step hlogger with
      | dropSender _ => exact Or.inr ⟨by simp, rfl, rfl, List.prefix_refl _⟩
  | main hmove => cases hmove <;> exact Or.inr ⟨by simp, rfl, rfl, List.prefix_refl _⟩

theorem writing_eq_some {record : SessionRecord} :
    state.writing = some record ↔
      state.writerCrashed = false ∧ state.server.logger.writer = .Writing record := by
  unfold writing
  cases state.server.logger.writer <;> cases state.writerCrashed <;> simp

theorem loggerResult_of_writing {record : SessionRecord} (hwriting : state.writing = some record) :
    state.loggerResult = none := by
  obtain ⟨hcrashed, hwriter⟩ := writing_eq_some.mp hwriting
  simp [loggerResult, hcrashed, hwriter]

/-- An abort of a write in progress crashes the writer. -/
theorem crashed_of_aborted {record : SessionRecord}
    (hstep : state.step canonicalReason label = some next)
    (hend : state.writeEnd label = some .Aborted) (hwriting : state.writing = some record) :
    next.writerCrashed = true := by
  have hresult := loggerResult_of_writing hwriting
  unfold writeEnd at hend
  split at hend
  · cases hend
  · cases hend
  · simp only [step, hresult] at hstep
    obtain rfl := Option.some.inj hstep
    rfl
  · split at hend
    · rename_i outcome hmain
      simp only [step, mainStep, hmain, hresult] at hstep
      obtain rfl := Option.some.inj hstep
      rfl
    · cases hend
  · cases hend

end SensorState

/-! ### The sinks in the process -/

section Held

variable {canonicalReason : UInt16 → Option String} {timestamp : Int → String}
  {config : LoggingConfig} {initial : Dir}

/-- The sinks of a writer that is gone: whole, or torn at the next record. -/
def Halted (config : LoggingConfig) (initial : Dir) (timestamp : Int → String)
    (state : LoggedState) : Prop :=
  TornAtNext config initial (SessionRecord.line timestamp) state.sensor.server.logger
      state.output ∨
    state.output.Between config initial
      (state.sensor.server.logger.flushed.flatMap (SessionRecord.line timestamp))

/-- The sinks have what the queue calls flushed. -/
structure Held (config : LoggingConfig) (initial : Dir) (timestamp : Int → String)
    (state : LoggedState) : Prop where
  observed : state.sensor.writerCrashed = false → state.sensor.Observed config.bufferSize
  delivering : state.sensor.writerCrashed = false →
    Delivering config initial (SessionRecord.line timestamp) state.sensor.server.logger state.output
  halted : state.sensor.writerCrashed = true → Halted config initial timestamp state

theorem Delivering.kept {line : SessionRecord → List UInt8}
    {logger next : LoggerState SessionRecord} {output : Output}
    (h : Delivering config initial line logger output)
    (hkept : SensorState.QueueKept logger next) : Delivering config initial line next output := by
  unfold Delivering TornAtNext at h ⊢
  rw [hkept.writer, hkept.flushed]
  split_ifs at h ⊢
  · obtain ⟨record, hnext, htorn⟩ := h
    exact ⟨record, hnext.trans hkept.accepted, htorn⟩
  · exact h

theorem Halted.kept {state next : LoggedState} (h : Halted config initial timestamp state)
    (hkept : SensorState.QueueKept state.sensor.server.logger next.sensor.server.logger)
    (houtput : next.output = state.output) : Halted config initial timestamp next := by
  unfold Halted TornAtNext at h ⊢
  rw [hkept.flushed, houtput]
  refine h.imp ?_ (fun hbetween => hbetween)
  rintro ⟨record, hnext, htorn⟩
  exact ⟨record, hnext.trans hkept.accepted, htorn⟩

theorem Held.halts {state : LoggedState} (h : Held config initial timestamp state) :
    Halted config initial timestamp state := by
  cases hcrashed : state.sensor.writerCrashed with
  | true => exact h.halted hcrashed
  | false =>
      have hdelivering := h.delivering hcrashed
      unfold Delivering at hdelivering
      split_ifs at hdelivering
      · exact Or.inl hdelivering
      · exact Or.inr hdelivering

/-- What a step does to the sinks. -/
theorem LoggedState.step_cases {state next : LoggedState} {label : SensorLabel × List Verdict}
    (hstep : state.step canonicalReason timestamp label = some next) :
    state.sensor.step canonicalReason label.1 = some next.sensor ∧
    ((∃ ending record, state.sensor.writeEnd label.1 = some ending ∧
        state.sensor.writing = some record ∧
        ending.agrees (writeOutcome (SessionRecord.line timestamp) state.output record label.2) =
          true ∧
        next.output =
          (writeOutcome (SessionRecord.line timestamp) state.output record label.2).world.state) ∨
      (state.sensor.writeEnd label.1 = none ∨ state.sensor.writing = none) ∧
        next.output = state.output) := by
  obtain ⟨sensor, hsensor, houtput⟩ := Option.bind_eq_some_iff.mp hstep
  split at houtput
  · rename_i ending record hend hwriting
    dsimp only at houtput
    split_ifs at houtput with hagrees
    obtain rfl := Option.some.inj houtput
    exact ⟨hsensor, Or.inl ⟨ending, record, hend, hwriting, hagrees, rfl⟩⟩
  · rename_i hnone
    obtain rfl := Option.some.inj houtput
    refine ⟨hsensor, Or.inr ⟨?_, rfl⟩⟩
    cases hend : state.sensor.writeEnd label.1 with
    | none => exact Or.inl rfl
    | some ending =>
        cases hwriting : state.sensor.writing with
        | none => exact Or.inr rfl
        | some record => exact absurd hwriting (hnone ending record hend)

/-- A dropped future, or one that failed, is not a completed one. -/
theorem WriteEnd.stopped {ending : WriteEnd}
    {outcome : Outcome (World Output) (Except String PUnit)} (hagrees : ending.agrees outcome = true)
    (hend : ending ≠ .Written) (value : PUnit) (world : World Output) :
    outcome ≠ .done (.ok value) world := by
  rintro rfl
  cases ending with
  | Written => exact hend rfl
  | Failed | Aborted => cases hagrees

theorem WriteEnd.completed {outcome : Outcome (World Output) (Except String PUnit)}
    (hagrees : WriteEnd.Written.agrees outcome = true) :
    ∃ value world, outcome = .done (.ok value) world := by
  cases outcome with
  | dropped world => cases hagrees
  | done result world =>
      cases result with
      | error error => cases hagrees
      | ok value => exact ⟨value, world, rfl⟩

theorem SensorState.writeEnd_of_other {state : SensorState} {label : SensorLabel}
    {ending : WriteEnd} (hlabel : ∀ label', label ≠ .server (.writer label'))
    (hend : state.writeEnd label = some ending) : ending = .Aborted := by
  unfold SensorState.writeEnd at hend
  split at hend
  · exact absurd rfl (hlabel _)
  · exact absurd rfl (hlabel _)
  · exact (Option.some.inj hend).symm
  · split at hend
    · exact (Option.some.inj hend).symm
    · cases hend
  · cases hend

/-- A step of the writer. -/
theorem Held.writerStep {state next : LoggedState} {schedule : List Verdict}
    {label : LoggerLabel SessionRecord} (h : Held config initial timestamp state)
    (hcrashed : state.sensor.writerCrashed = false)
    (hmove : LoggerState.Move state.sensor.server.logger label next.sensor.server.logger)
    (houtput : (∃ ending record, state.sensor.writeEnd (.server (.writer label)) = some ending ∧
        state.sensor.writing = some record ∧
        ending.agrees (writeOutcome (SessionRecord.line timestamp) state.output record schedule) =
          true ∧
        next.output =
          (writeOutcome (SessionRecord.line timestamp) state.output record schedule).world.state) ∨
      (state.sensor.writeEnd (.server (.writer label)) = none ∨ state.sensor.writing = none) ∧
        next.output = state.output) :
    Delivering config initial (SessionRecord.line timestamp) next.sensor.server.logger
      next.output := by
  have hbefore := h.delivering hcrashed
  obtain ⟨ending, record, hend, hwriting, hagrees, hnext⟩ | ⟨hnone, hnext⟩ := houtput
  · have hwriter := (SensorState.writing_eq_some.mp hwriting).2
    rw [hnext]
    cases label with
    | written =>
        obtain rfl := Option.some.inj hend
        obtain ⟨value, world, hdone⟩ := WriteEnd.completed hagrees
        rw [hdone]
        exact hbefore.written hwriter hmove hdone
    | writeFailed =>
        obtain rfl := Option.some.inj hend
        exact hbefore.writeFailed (h.observed hcrashed).logger.accounted hwriter hmove
          (WriteEnd.stopped hagrees (by decide))
    | clone | dropSender | log | recv | report | countLost => cases hend
  · rw [hnext]
    refine hbefore.queue hmove ?_
    -- A write that is in progress ends with a schedule.
    cases hqueues : label.queues with
    | true => rfl
    | false =>
        obtain ⟨record, hwriter⟩ := hmove.writing hqueues
        rw [SensorState.writing_eq_some.mpr ⟨hcrashed, hwriter⟩] at hnone
        cases label with
        | written | writeFailed => simp [SensorState.writeEnd] at hnone
        | clone | dropSender | log | recv | report | countLost => cases hqueues

theorem Held.step {state next : LoggedState} {label : SensorLabel × List Verdict}
    (h : Held config initial timestamp state)
    (hstep : state.step canonicalReason timestamp label = some next) :
    Held config initial timestamp next := by
  obtain ⟨hsensor, houtput⟩ := LoggedState.step_cases hstep
  obtain ⟨label, schedule⟩ := label
  have hmove := SensorState.move_of_step hsensor
  have hobserved : next.sensor.writerCrashed = false → next.sensor.Observed config.bufferSize :=
    fun hcrashed => hmove.observed (h.observed (hmove.writerCrashed hcrashed)) hcrashed
  obtain ⟨label', rfl, hbefore, hafter, hlogger⟩ | ⟨hlabel, hkept⟩ := hmove.queue_cases
  · refine ⟨hobserved, fun _ => h.writerStep hbefore hlogger houtput, ?_⟩
    intro hcrashed
    rw [hafter] at hcrashed
    cases hcrashed
  · obtain ⟨ending, record, hend, hwriting, hagrees, hnext⟩ | ⟨_, hnext⟩ := houtput
    · -- The write is aborted, and with it the writer.
      obtain rfl := SensorState.writeEnd_of_other hlabel hend
      have hcrashed := SensorState.crashed_of_aborted hsensor hend hwriting
      refine ⟨hobserved, fun hrunning => ?_, fun _ => Or.inl ?_⟩
      · rw [hcrashed] at hrunning
        cases hrunning
      · obtain ⟨hrunning, hwriter⟩ := SensorState.writing_eq_some.mp hwriting
        have hbetween := h.delivering hrunning
        unfold Delivering at hbetween
        rw [hwriter] at hbetween
        have haccepted := (h.observed hrunning).logger.accounted.in_progress hwriter
        refine ⟨record, ?_, ?_⟩
        · rw [hkept.flushed]
          exact haccepted.trans hkept.accepted
        · rw [hkept.flushed, hnext]
          exact torn_of_stopped hbetween (WriteEnd.stopped hagrees (by decide))
    · refine ⟨hobserved, fun hcrashed => ?_, fun _ => h.halts.kept hkept hnext⟩
      rw [hnext]
      exact (h.delivering (hmove.writerCrashed hcrashed)).kept hkept

end Held

/-! ### A successful exit -/

namespace SensorState

variable {canonicalReason : UInt16 → Option String} {config : Config}
  {endpoints : List EndpointConfig} {state next : SensorState} {labels : List SensorLabel}
  {label : SensorLabel}

/-- What a successful exit leaves in the queue's books. -/
structure Settled (canonicalReason : UInt16 → Option String) (config : Config)
    (state : SensorState) : Prop where
  running : state.writerCrashed = false
  returned : state.server.logger.writer = .Returned true
  logged : state.server.logged.Perm
    (state.server.sessions.map (·.record canonicalReason config))
  flushed : state.server.logger.flushed = state.server.logger.accepted
  refused : state.server.logger.flushed.length +
    state.server.logger.metrics.loggerDroppedTotal .queueFull = state.server.logged.length

theorem settled_of_exit
    (hrun : Steps.run (SensorState.step canonicalReason) (.new config endpoints) labels =
      some state) (hreturned : state.main = .Returned (.ok ())) :
    Settled canonicalReason config state := by
  have hpanic := noPanic_of_exit hrun hreturned
  have hhistory := history_of_run hrun
  unfold History at hhistory
  rw [hreturned] at hhistory
  obtain ⟨_, hserver, hlogger⟩ := hhistory
  have hloops := (supervised_of_run hrun).loops (serverResult_eq_ok.mp hserver)
  have hbooks := reconciled_of_run hrun hpanic
    (fun loop hloop => by rw [hloops loop hloop]; rfl)
  have hended := hbooks.all_ended (fun loop hloop => by rw [hloops loop hloop]; rfl)
  obtain ⟨hcrashed, hwriter⟩ := loggerResult_eq_ok.mp hlogger
  have hobserved := (observed_of_run hrun hcrashed).logger
  obtain ⟨lost, haccepted, hlost⟩ := hobserved.accounted.accepted
  have hconsistent := hobserved.accounted.consistent
  rw [hwriter] at haccepted hconsistent
  obtain ⟨_, hempty, _, hzero⟩ := hconsistent
  rw [hzero, List.length_eq_zero_iff] at hlost
  obtain ⟨hwritten, _, _⟩ := hobserved.returned hwriter
  refine ⟨hcrashed, hwriter, ?_, by simp [haccepted, hempty, hlost, Writer.inProgress], ?_⟩
  · have hall : state.server.sessions.filter (·.phase.logged) = state.server.sessions := by
      apply List.filter_eq_self.mpr
      intro task htask
      rw [hended task htask]
      rfl
    have hperm := hbooks.logged_perm
    rwa [hall] at hperm
  · rw [hobserved.accounted.written, ← hwritten, (offered_of_run hrun).calls]

end SensorState

namespace LoggedState

variable {canonicalReason : UInt16 → Option String} {timestamp : Int → String} {config : Config}
  {endpoints : List EndpointConfig} {initial : Dir} {state : LoggedState} {output : Output}
  {labels : List (SensorLabel × List Verdict)}

/-- Every run with the sinks is a run of the sensor. -/
theorem sensor_of_run
    (hrun : Steps.run (LoggedState.step canonicalReason timestamp)
      ⟨.new config endpoints, output⟩ labels = some state) :
    Steps.run (SensorState.step canonicalReason) (.new config endpoints) (labels.map Prod.fst) =
      some state.sensor := by
  refine @Steps.run_translates _ _ _ _ (LoggedState.step canonicalReason timestamp)
    (SensorState.step canonicalReason) LoggedState.sensor Prod.fst ?_ _ _ _ hrun
  intro state label next hstep
  exact (step_cases hstep).1

theorem held_of_run (houtput : output.Between config.logging initial [])
    (hrun : Steps.run (LoggedState.step canonicalReason timestamp)
      ⟨.new config endpoints, output⟩ labels = some state) :
    Held config.logging initial timestamp state := by
  refine Steps.run_invariant (fun _ _ _ h hstep => h.step hstep) ?_ hrun
  refine ⟨fun _ => ?_, fun _ => ?_, nofun⟩
  · exact ⟨LoggerState.undisturbed_spawn _, nofun⟩
  · simpa [Delivering, SensorState.new, ServerState.new, LoggerState.spawn, Writer.failed]
      using houtput

end LoggedState

open LoggedState SensorState in
/-- A successful exit leaves the record of every session in the sinks, except
those the full queue turned away: in the order of their `log` calls, each on
one line, after what the log held before. -/
theorem successful_exit_delivers (canonicalReason : UInt16 → Option String)
    (timestamp : Int → String) (config : Config) (endpoints : List EndpointConfig)
    (initial : Dir) (schedule : List Verdict) (value : PUnit) (world : World Output)
    (hspawn : (Logger.spawn config.logging).run ⟨.boot config.logging initial, schedule⟩ =
      .done (.ok value) world)
    (labels : List (SensorLabel × List Verdict)) (state : LoggedState)
    (hrun : Steps.run (LoggedState.step canonicalReason timestamp)
      ⟨.new config endpoints, world.state⟩ labels = some state)
    (hreturned : state.sensor.main = .Returned (.ok ())) :
    ∃ written dropped : List SessionRecord,
      written = state.sensor.server.logger.accepted ∧
      written.Sublist state.sensor.server.logged ∧
      (written ++ dropped).Perm
        (state.sensor.server.sessions.map (·.record canonicalReason config)) ∧
      dropped.length = state.sensor.server.logger.metrics.loggerDroppedTotal .queueFull ∧
      (∀ path, config.logging.filePath = some path → ∃ sink lost, state.output.file = some sink ∧
        List.Forall₂ (fun lost held => lost = [] ∨ lost = held) lost sink.rotations ∧
        lost.flatten ++ history sink.disk (chain path config.logging.maxFiles) =
          history initial (chain path config.logging.maxFiles) ++
            written.flatMap (SessionRecord.line timestamp)) ∧
      (config.logging.writesStdout = true → ∃ out, state.output.stdout = some out ∧
        out.printed = written.flatMap (SessionRecord.line timestamp)) := by
  have hsensor := sensor_of_run hrun
  have hsettled := settled_of_exit hsensor hreturned
  have hsublist := (offered_of_run hsensor).accepted
  rw [← hsettled.flushed] at hsublist
  have hheld := held_of_run (meets_done (meets_spawn config.logging initial) hspawn) hrun
  have hbetween := hheld.delivering hsettled.running
  unfold Delivering at hbetween
  rw [hsettled.returned] at hbetween
  replace hbetween := hbetween.reached
  obtain ⟨dropped, hperm⟩ := hsublist.exists_perm_append
  refine ⟨state.sensor.server.logger.flushed, dropped, hsettled.flushed, hsublist,
    hperm.symm.trans hsettled.logged, ?_, fun path hpath => hbetween.held hpath, hbetween.shown⟩
  have hlength := hperm.length_eq
  have hrefused := hsettled.refused
  rw [List.length_append] at hlength
  omega

/-- A raw decoy that logs to a file and to standard output. -/
def bothSinks : Config := { sensorOf .Raw with logging := { stdout := true } }

/-- The line of a session in which nothing was received. -/
def emptySession : List UInt8 :=
  ["\x7b\"schema_version\":2,", "\"ts\":\"1970-01-01T00:00:00Z\",",
    "\"session_id\":\"00000000-0000-", "0000-0000-000000000000\",",
    "\"sensor\":\x7b\"id\":\"local-sensor\",", "\"environment\":\"development\",",
    "\"tags\":\x7b\x7d\x7d,", "\"endpoint\":\"raw-2222\",", "\"protocol\":\"raw\",",
    "\"src\":\"192.0.2.1:40000\",", "\"dst\":\"192.0.2.2:2222\",", "\"dst_port\":2222,",
    "\"duration_ms\":0,", "\"bytes_received\":0,", "\"payload_captured\":false,",
    "\"bytes_truncated\":false,", "\"data_preview_hex\":\"\",", "\"data_preview_ascii\":\"\",",
    "\"privacy_mode\":\"metadata\",", "\"events\":[],", "\"events_truncated\":false,",
    "\"close_reason\":\"client_closed\"\x7d\n"].flatMap bytes

/-- The exit of one session, with its record written under no interruption. -/
theorem oneExit_both :
    ∃ state, Steps.run (LoggedState.step (fun _ => none) fun _ => "1970-01-01T00:00:00Z")
        ⟨.new bothSinks [decoy .Raw], ((Logger.spawn bothSinks.logging).run
          ⟨.boot bothSinks.logging (fun _ => none), []⟩).world.state⟩
        (oneExit.map fun label => (label, [])) = some state ∧
      state.sensor.main = .Returned (.ok ()) ∧ state.sensor.server.sessions.length = 1 ∧
      state.sensor.server.logger.metrics.loggerWrittenTotal = 1 ∧
      state.sensor.server.logger.metrics.loggerDroppedTotal .queueFull = 0 ∧
      state.output.stdout.map (·.printed) = some emptySession ∧
      (state.output.file.map fun sink => history sink.disk (chain "honeypot.jsonl" 3)) =
        some emptySession := by
  have hend : (Steps.run (LoggedState.step (fun _ => none) fun _ => "1970-01-01T00:00:00Z")
      ⟨.new bothSinks [decoy .Raw], ((Logger.spawn bothSinks.logging).run
        ⟨.boot bothSinks.logging (fun _ => none), []⟩).world.state⟩
      (oneExit.map fun label => (label, []))).any (fun state => decide (
        state.sensor.main = .Returned (.ok ()) ∧ state.sensor.server.sessions.length = 1 ∧
        state.sensor.server.logger.metrics.loggerWrittenTotal = 1 ∧
        state.sensor.server.logger.metrics.loggerDroppedTotal .queueFull = 0 ∧
        state.output.stdout.map (·.printed) = some emptySession ∧
        (state.output.file.map fun sink => history sink.disk (chain "honeypot.jsonl" 3)) =
          some emptySession)) = true := by
    decide +kernel
  obtain ⟨state, hrun, hfacts⟩ := (Option.any_eq_true _ _).mp hend
  exact ⟨state, hrun, of_decide_eq_true hfacts⟩

theorem successful_exit_delivers_session :
    ∃ state, Steps.run (LoggedState.step (fun _ => none) fun _ => "1970-01-01T00:00:00Z")
        ⟨.new bothSinks [decoy .Raw], ((Logger.spawn bothSinks.logging).run
          ⟨.boot bothSinks.logging (fun _ => none), []⟩).world.state⟩
        (oneExit.map fun label => (label, [])) = some state ∧
      state.sensor.server.sessions.length = 1 ∧
      state.output.stdout.map (·.printed) = some emptySession ∧
      (state.output.file.map fun sink => history sink.disk (chain "honeypot.jsonl" 3)) =
        some emptySession ∧
      ∃ written : List SessionRecord, written = state.sensor.server.logger.accepted ∧
        written.Perm (state.sensor.server.sessions.map (·.record (fun _ => none) bothSinks)) ∧
        written.flatMap (SessionRecord.line fun _ => "1970-01-01T00:00:00Z") = emptySession := by
  obtain ⟨world, hworld⟩ : ∃ world, (Logger.spawn bothSinks.logging).run
      ⟨.boot bothSinks.logging (fun _ => none), []⟩ = .done (.ok ⟨⟩) world := ⟨_, rfl⟩
  have hstart : ((Logger.spawn bothSinks.logging).run
      ⟨.boot bothSinks.logging (fun _ => none), []⟩).world.state = world.state :=
    congrArg (fun outcome => outcome.world.state) hworld
  obtain ⟨state, hrun, hreturned, hsessions, _, hrefused, hstdout, hfile⟩ := oneExit_both
  obtain ⟨written, dropped, haccepted, _, hperm, hdropped, _, hshown⟩ :=
    successful_exit_delivers _ _ bothSinks _ _ _ _ _ hworld _ _ (hstart ▸ hrun) hreturned
  rw [hrefused, List.length_eq_zero_iff] at hdropped
  rw [hdropped, List.append_nil] at hperm
  obtain ⟨out, hout, hprinted⟩ := hshown rfl
  have hsame : out.printed = emptySession := by simpa [hout] using hstdout
  exact ⟨state, hrun, hsessions, hstdout, hfile, written, haccepted, hperm,
    hprinted.symm.trans hsame⟩

end Minotaur
