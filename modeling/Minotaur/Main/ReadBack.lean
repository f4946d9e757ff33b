import Minotaur.Logger.ReadBack
import Minotaur.Main.Delivery

/-!
Reading the log after a successful exit. What a completed write keeps is kept
by every run in which the writer neither failed nor was aborted
(`kept_of_run`); here that is the picture of the log files as a ring of lines.
-/

namespace Minotaur

open Disk Interruptible

/-! ### The files behind a writer -/

/-- The files of the sink, if there is one, after `lines` were written. -/
structure Output.Files (config : LoggingConfig) (initial : Dir) (lines : List (List UInt8))
    (output : Output) : Prop where
  configured : output.Configured config
  pictured : ∀ sink, output.file = some sink → ∀ path, config.filePath = some path →
    1 ≤ config.maxFiles ∧ Pictured path config.maxFileBytes config.maxFiles
      (retainedRing path config.maxFileBytes config.maxFiles initial lines) sink

section Output

variable {config : LoggingConfig} {initial : Dir} {lines : List (List UInt8)} {output : Output}

theorem meets_printLine_any (line : List UInt8) (out : Stdout) :
    Meets (printLine line) (fun _ _ => True) (fun _ => True) out := by
  unfold printLine printAll flushPrinted
  refine meets_bind (meets_operation (fun _ => ⟨trivial, fun _ _ => ?_⟩) (fun _ _ => trivial))
  exact meets_operation (fun _ => ⟨trivial, fun _ _ => trivial⟩) (fun _ _ => trivial)

theorem meets_fileLine_files (hlimit : config.maxFileBytes < u64Max)
    (h : output.Files config initial lines) (line : List UInt8) :
    Meets (fileLine line) (fun _ => Output.Files config initial (lines ++ [line]))
      (fun _ => True) output := by
  unfold fileLine
  refine meets_bind (meets_state.mpr ?_)
  cases hfile : output.file with
  | none =>
      refine (meets_pure _).mpr ⟨h.configured, ?_⟩
      intro sink hsink
      rw [hfile] at hsink
      cases hsink
  | some sink =>
      obtain ⟨path, hpath⟩ := h.configured.filePath hfile
      obtain ⟨hpos, hpictured⟩ := h.pictured sink hfile path hpath
      refine meets_focus (meets_mono (meets_write_pictured hpictured hpos hlimit line) ?_
        (fun _ _ => trivial))
      rintro _ next hnext
      refine ⟨⟨by simp [hpath], h.configured.stdout⟩, ?_⟩
      intro sink' hsink path' hpath'
      obtain rfl := Option.some.inj hsink
      obtain rfl := Option.some.inj (hpath.symm.trans hpath')
      refine ⟨hpos, ?_⟩
      rwa [retainedRing, SegmentRing.pushes, List.foldl_append]

theorem meets_writeLine_files (hlimit : config.maxFileBytes < u64Max)
    (h : output.Files config initial lines) (line : List UInt8) :
    Meets (writeLine line) (fun _ => Output.Files config initial (lines ++ [line]))
      (fun _ => True) output := by
  unfold writeLine
  refine meets_bind (meets_mono (meets_fileLine_files hlimit h line) ?_ (fun _ _ => trivial))
  rintro _ next hnext
  unfold stdoutLine
  refine meets_bind (meets_state.mpr ?_)
  cases hstdout : next.stdout with
  | none => exact (meets_pure _).mpr hnext
  | some out =>
      refine meets_focus (meets_mono (meets_printLine_any line out) ?_ (fun _ _ => trivial))
      rintro _ printed _
      refine ⟨⟨hnext.configured.file, ?_⟩, hnext.pictured⟩
      rw [← hnext.configured.stdout, hstdout]
      rfl

/-- Opening on an older log of regular files. -/
theorem meets_spawn_files
    (hregular : ∀ path, config.filePath = some path → ∀ index < config.maxFiles,
      initial (archive path (index + 1)) ≠ some .Other) :
    Meets (Logger.spawn config) (fun _ => Output.Files config initial [])
      (fun _ => True) (.boot config initial) := by
  have hconfigured : (Output.boot config initial).Configured config := by
    refine ⟨Option.isSome_map, ?_⟩
    unfold Output.boot
    cases config.writesStdout <;> rfl
  unfold Logger.spawn
  split_ifs
  · exact meets_bind ((meets_throw _).mpr trivial)
  · refine meets_bind (meets_state.mpr ?_)
    cases hpath : config.filePath with
    | none =>
        have hnone : (Output.boot config initial).file = none := by simp [Output.boot, hpath]
        rw [hnone]
        refine (meets_pure _).mpr ⟨hconfigured, ?_⟩
        intro sink hsink
        rw [hnone] at hsink
        cases hsink
    | some path =>
        have hsome : (Output.boot config initial).file =
            some (.boot path config.maxFileBytes config.maxFiles initial) := by
          simp [Output.boot, hpath]
        rw [hsome]
        refine meets_focus (meets_mono (meets_open_pictured path config.maxFileBytes
          config.maxFiles (hregular path hpath)) ?_ (fun _ _ => trivial))
        rintro _ next hnext
        refine ⟨⟨by simp [hpath], hconfigured.stdout⟩, ?_⟩
        intro sink' hsink path' hpath'
        obtain rfl := Option.some.inj hsink
        obtain rfl := Option.some.inj (hpath.symm.trans hpath')
        exact hnext

end Output

/-! ### What completed writes keep -/

section Kept

variable {canonicalReason : UInt16 → Option String} {timestamp : Int → String}
  {keeps : List SessionRecord → Output → Prop}

/-- `keeps` of the flushed records and the sinks, while the writer is well. -/
def LoggedState.Keeps (keeps : List SessionRecord → Output → Prop) (state : LoggedState) : Prop :=
  state.sensor.writerCrashed = false → state.sensor.server.logger.writer.failed = false →
    keeps state.sensor.server.logger.flushed state.output

/-- A writer that is well was well before, and has flushed what a write
completed. -/
theorem LoggerState.Move.flushed_cases {logger next : LoggerState SessionRecord}
    {label : LoggerLabel SessionRecord} (hmove : LoggerState.Move logger label next)
    (hnext : next.writer.failed = false) :
    logger.writer.failed = false ∧
      ((label.queues = true ∧ next.flushed = logger.flushed) ∨
        ∃ record, label = .written ∧ logger.writer = .Writing record ∧
          next.flushed = logger.flushed ++ [record]) := by
  cases hmove with
  | clone | dropSender => exact ⟨hnext, Or.inl ⟨rfl, rfl⟩⟩
  | log record =>
      obtain ⟨hflushed, hwriter, _, _⟩ := logger.offer_keeps record
      rw [hwriter] at hnext
      exact ⟨hnext, Or.inl ⟨rfl, hflushed⟩⟩
  | recv hwriter _ | finished hwriter _ =>
      rw [hwriter]
      exact ⟨rfl, Or.inl ⟨rfl, rfl⟩⟩
  | written hwriter =>
      rw [hwriter]
      exact ⟨rfl, Or.inr ⟨_, rfl, rfl, rfl⟩⟩
  | writeFailed | report | countLost => cases hnext

theorem LoggedState.Keeps.step
    (hwrite : ∀ sent record output, keeps sent output →
      Meets (writeLine (SessionRecord.line timestamp record))
        (fun _ => keeps (sent ++ [record])) (fun _ => True) output)
    {state next : LoggedState} {label : SensorLabel × List Verdict} (h : state.Keeps keeps)
    (hstep : state.step canonicalReason timestamp label = some next) : next.Keeps keeps := by
  intro hcrashed hfailed
  obtain ⟨hsensor, houtput⟩ := LoggedState.step_cases hstep
  have hmove := SensorState.move_of_step hsensor
  have hbefore := h (hmove.writerCrashed hcrashed)
  obtain ⟨label', hlabel, _, _, hlogger⟩ | ⟨hother, hkept⟩ := hmove.queue_cases
  · obtain ⟨hwell, ⟨hqueues, hflushed⟩ | ⟨record, rfl, hwriter, hflushed⟩⟩ :=
      hlogger.flushed_cases hfailed
    · rw [hflushed]
      obtain ⟨ending, record, hend, _⟩ | ⟨_, hsame⟩ := houtput
      · rw [hlabel] at hend
        cases label' with
        | written | writeFailed => cases hqueues
        | clone | dropSender | log | recv | report | countLost => cases hend
      · rw [hsame]
        exact hbefore hwell
    · rw [hflushed]
      obtain ⟨ending, other, hend, hwriting, hagrees, hnext⟩ | ⟨hnone, _⟩ := houtput
      · rw [hlabel] at hend
        obtain rfl := Option.some.inj hend
        obtain rfl := Writer.Writing.inj
          (hwriter.symm.trans (SensorState.writing_eq_some.mp hwriting).2)
        obtain ⟨value, world, hdone⟩ := WriteEnd.completed hagrees
        rw [hnext, hdone]
        exact meets_done (hwrite _ _ _ (hbefore hwell)) hdone
      · rw [SensorState.writing_eq_some.mpr ⟨hmove.writerCrashed hcrashed, hwriter⟩, hlabel] at hnone
        simp [SensorState.writeEnd] at hnone
  · obtain ⟨ending, record, hend, hwriting, _, _⟩ | ⟨_, hsame⟩ := houtput
    · obtain rfl := SensorState.writeEnd_of_other hother hend
      have hgone := SensorState.crashed_of_aborted hsensor hend hwriting
      rw [hcrashed] at hgone
      cases hgone
    · rw [hkept.flushed, hsame]
      rw [hkept.writer] at hfailed
      exact hbefore hfailed

/-- The rule of completed writes. -/
theorem LoggedState.kept_of_run (keeps : List SessionRecord → Output → Prop)
    (hwrite : ∀ sent record output, keeps sent output →
      Meets (writeLine (SessionRecord.line timestamp record))
        (fun _ => keeps (sent ++ [record])) (fun _ => True) output)
    {config : Config} {endpoints : List EndpointConfig} {output : Output} (hstart : keeps [] output)
    {labels : List (SensorLabel × List Verdict)} {state : LoggedState}
    (hrun : Steps.run (LoggedState.step canonicalReason timestamp)
      ⟨.new config endpoints, output⟩ labels = some state) : state.Keeps keeps :=
  Steps.run_invariant (fun _ _ _ h hstep => h.step hwrite hstep) (fun _ _ => hstart) hrun

end Kept

open LoggedState SensorState in
/-- A log of the sensor can be read. After a successful exit, on top of an older
log that reads, each file of the log and what standard output got reads line by
line: the values are those of the records that the queue took in, in the order
of their `log` calls, and of the file log an end of the older values and these.
The records are those of all sessions but the ones a full queue turned away. -/
theorem successful_exit_reads_back (canonicalReason : UInt16 → Option String)
    (timestamp : Int → String) (config : Config) (hvalid : config.validate = .ok ())
    (endpoints : List EndpointConfig) (initial : Dir)
    (hregular : ∀ path, config.logging.filePath = some path → ∀ index < config.logging.maxFiles,
      initial (archive path (index + 1)) ≠ some .Other)
    (hinitial : ∀ path, config.logging.filePath = some path →
      ∀ name ∈ chain path config.logging.maxFiles, (readLog (content initial name)).isSome = true)
    (schedule : List Verdict) (value : PUnit) (world : World Output)
    (hspawn : (Logger.spawn config.logging).run ⟨.boot config.logging initial, schedule⟩ =
      .done (.ok value) world)
    (labels : List (SensorLabel × List Verdict)) (state : LoggedState)
    (hrun : Steps.run (LoggedState.step canonicalReason timestamp)
      ⟨.new config endpoints, world.state⟩ labels = some state)
    (hreturned : state.sensor.main = .Returned (.ok ())) :
    ∃ written dropped : List SessionRecord,
      written = state.sensor.server.logger.accepted ∧
      written.Sublist state.sensor.server.logged ∧
      (written ++ dropped).Perm
        (state.sensor.server.sessions.map (·.record canonicalReason config)) ∧
      dropped.length = state.sensor.server.logger.metrics.loggerDroppedTotal .queueFull ∧
      (config.logging.writesStdout = true → ∃ out, state.output.stdout = some out ∧
        readLog out.printed = some (written.map (SessionRecord.toJson timestamp))) ∧
      (∀ path, config.logging.filePath = some path → ∃ sink older kept,
        state.output.file = some sink ∧
        readLog (history initial (chain path config.logging.maxFiles)) = some older ∧
        readLog (history sink.disk (chain path config.logging.maxFiles)) = some kept ∧
        kept <:+ older ++ written.map (SessionRecord.toJson timestamp) ∧
        ∀ name ∈ chain path config.logging.maxFiles,
          (readLog (content sink.disk name)).isSome = true) := by
  have hsensor := sensor_of_run hrun
  have hsettled := settled_of_exit hsensor hreturned
  have hsublist := (offered_of_run hsensor).accepted
  rw [← hsettled.flushed] at hsublist
  obtain ⟨dropped, hperm⟩ := hsublist.exists_perm_append
  refine ⟨state.sensor.server.logger.flushed, dropped, hsettled.flushed, hsublist,
    hperm.symm.trans hsettled.logged, ?_, ?_, ?_⟩
  · have hlength := hperm.length_eq
    have hrefused := hsettled.refused
    rw [List.length_append] at hlength
    omega
  · intro hstdout
    have hheld := held_of_run (meets_done (meets_spawn config.logging initial) hspawn) hrun
    have hbetween := hheld.delivering hsettled.running
    unfold Delivering at hbetween
    rw [hsettled.returned] at hbetween
    obtain ⟨out, hout, hprinted⟩ := hbetween.reached.shown hstdout
    exact ⟨out, hout, by rw [hprinted, readLog_lines]⟩
  · intro path hpath
    have hlimit : config.logging.maxFileBytes < u64Max := by
      have hle := ((validate_ok_iff config).mp hvalid).logging.maxFileBytes.2
      unfold u64Max
      omega
    have hkept := kept_of_run (fun sent => Output.Files config.logging initial
        (sent.map (SessionRecord.line timestamp))) (fun sent record output houtput => by
        simpa using meets_writeLine_files hlimit houtput (record.line timestamp))
      (meets_done (meets_spawn_files hregular) hspawn) hrun
    have hfiles := hkept hsettled.running (by rw [hsettled.returned]; rfl)
    obtain ⟨sink, hsink⟩ : ∃ sink, state.output.file = some sink := by
      have hsome := hfiles.configured.file
      rwa [hpath, Option.isSome_some, Option.isSome_iff_exists] at hsome
    obtain ⟨_, hpictured⟩ := hfiles.pictured sink hsink path hpath
    obtain ⟨older, holder⟩ := readLog_history (hinitial path hpath)
    obtain ⟨hnames, kept, hread, hsuffix⟩ := reads_of_pictured hpictured (hregular path hpath)
      holder (hinitial path hpath)
    exact ⟨sink, older, kept, hsink, holder, hread, hsuffix, hnames⟩

/-- The exit of one session on an empty directory. -/
theorem successful_exit_reads_back_session :
    ∃ state, Steps.run (LoggedState.step (fun _ => none) fun _ => "1970-01-01T00:00:00Z")
        ⟨.new bothSinks [decoy .Raw], ((Logger.spawn bothSinks.logging).run
          ⟨.boot bothSinks.logging (fun _ => none), []⟩).world.state⟩
        (oneExit.map fun label => (label, [])) = some state ∧
      state.sensor.server.sessions.length = 1 ∧
      state.output.stdout.map (·.printed) = some emptySession ∧
      (state.output.file.map fun sink => history sink.disk (chain "honeypot.jsonl" 3)) =
        some emptySession ∧
      ∃ written : List SessionRecord, written = state.sensor.server.logger.accepted ∧
        written.Perm (state.sensor.server.sessions.map (·.record (fun _ => none) bothSinks)) ∧
        readLog emptySession =
          some (written.map (SessionRecord.toJson fun _ => "1970-01-01T00:00:00Z")) := by
  obtain ⟨world, hworld⟩ : ∃ world, (Logger.spawn bothSinks.logging).run
      ⟨.boot bothSinks.logging (fun _ => none), []⟩ = .done (.ok ⟨⟩) world := ⟨_, rfl⟩
  have hstart : ((Logger.spawn bothSinks.logging).run
      ⟨.boot bothSinks.logging (fun _ => none), []⟩).world.state = world.state :=
    congrArg (fun outcome => outcome.world.state) hworld
  obtain ⟨state, hrun, hreturned, hsessions, _, hrefused, hstdout, hfile⟩ := oneExit_both
  obtain ⟨written, dropped, haccepted, _, hperm, hdropped, hshown, _⟩ :=
    successful_exit_reads_back _ _ bothSinks (by decide +kernel) _ (fun _ => none) (by simp)
      (fun _ _ _ _ => rfl) _ _ _ hworld _ _ (hstart ▸ hrun) hreturned
  rw [hrefused, List.length_eq_zero_iff] at hdropped
  rw [hdropped, List.append_nil] at hperm
  obtain ⟨out, hout, hread⟩ := hshown rfl
  have hsame : out.printed = emptySession := by simpa [hout] using hstdout
  exact ⟨state, hrun, hsessions, hstdout, hfile, written, haccepted, hperm, hsame ▸ hread⟩

end Minotaur
