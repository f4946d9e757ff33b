import Minotaur.Base.Steps
import Minotaur.Logger.Closing
import Minotaur.Logger.Writer

/-!
`run_writer` with its queue and its sinks. A step of the queue is a step of
`LoggerState`, except that the two results of a write come from the write
future itself, run under a schedule of its own. So every run here shows a run
of the queue, and what the queue calls flushed is what the sinks have received.
-/

namespace Minotaur

open Disk Interruptible

variable {ρ : Type*}

structure Pipeline (ρ : Type*) where
  logger : LoggerState ρ
  output : Output

inductive PipelineLabel (ρ : Type*) where
  | queue (label : LoggerLabel ρ)
  /-- The write future is ready, has failed, or was dropped by the deadline. -/
  | write (schedule : List Verdict)

/-- What the writer makes of the end of a write future. -/
def writeResult (ρ : Type*) : Outcome (World Output) (Except String PUnit) → LoggerLabel ρ
  | .done (.ok _) _ => .written
  | .done (.error _) _ => .writeFailed
  | .dropped _ => .writeFailed

/-- Steps of the queue that are not the end of a write. -/
def LoggerLabel.queues : LoggerLabel ρ → Bool
  | .written | .writeFailed => false
  | _ => true

/-- The write future of `record`. -/
def writeOutcome (line : ρ → List UInt8) (output : Output) (record : ρ) (schedule : List Verdict) :
    Outcome (World Output) (Except String PUnit) :=
  (writeLine (line record)).run ⟨output, schedule⟩

def Pipeline.step (line : ρ → List UInt8) (pipe : Pipeline ρ) :
    PipelineLabel ρ → Option (Pipeline ρ)
  | .queue label =>
      if label.queues then
        (pipe.logger.step label).map fun logger => { pipe with logger := logger }
      else none
  | .write schedule =>
      match pipe.logger.writer with
      | .Writing record =>
          let outcome := writeOutcome line pipe.output record schedule
          (pipe.logger.step (writeResult ρ outcome)).map fun logger =>
            ⟨logger, outcome.world.state⟩
      | _ => none

/-! ### What the sinks have received -/

section Delivery

variable (config : LoggingConfig) (initial : Dir) (line : ρ → List UInt8)

/-- The writer stopped in the middle of the record that is next. -/
def TornAtNext (logger : LoggerState ρ) (output : Output) : Prop :=
  ∃ record, logger.flushed ++ [record] <+: logger.accepted ∧
    output.Torn config initial (logger.flushed.flatMap line) (line record)

def Delivering (logger : LoggerState ρ) (output : Output) : Prop :=
  if logger.writer.failed then TornAtNext config initial line logger output
  else output.Between config initial (logger.flushed.flatMap line)

end Delivery

section Steps

variable {config : LoggingConfig} {initial : Dir} {line : ρ → List UInt8} {bufferSize : Nat}
  {logger next : LoggerState ρ} {label : LoggerLabel ρ} {output : Output}

/-- The accepted records begin with the flushed ones and the one in progress. -/
theorem LoggerState.Accounted.in_progress (h : logger.Accounted bufferSize) {record : ρ}
    (hwriter : logger.writer = .Writing record) : logger.flushed ++ [record] <+: logger.accepted := by
  obtain ⟨lost, haccepted, _⟩ := h.accepted
  rw [hwriter] at haccepted
  rw [haccepted, List.append_assoc _ logger.channel.queue]
  exact List.prefix_append _ _

theorem LoggerState.Move.writing (hmove : LoggerState.Move logger label next)
    (hqueues : label.queues = false) : ∃ record, logger.writer = .Writing record := by
  cases hmove with
  | written hwriter | writeFailed hwriter => exact ⟨_, hwriter⟩
  | clone | dropSender | log | recv | finished | report | countLost => cases hqueues

/-- A step that ends no write. -/
theorem Delivering.queue (h : Delivering config initial line logger output)
    (hmove : LoggerState.Move logger label next) (hqueues : label.queues = true) :
    Delivering config initial line next output := by
  unfold Delivering TornAtNext at h ⊢
  cases hmove with
  | clone | dropSender => exact h
  | log record =>
      obtain ⟨hflushed, hwriter, _, haccepted⟩ := logger.offer_keeps record
      rw [hwriter, hflushed]
      split_ifs at h ⊢
      · obtain ⟨torn, hnext, houtput⟩ := h
        exact ⟨torn, hnext.trans haccepted, houtput⟩
      · exact h
  | recv hwriter _ | finished hwriter _ | report hwriter | countLost hwriter =>
      rw [hwriter] at h
      exact h
  | written | writeFailed => cases hqueues

/-- What a completed write leaves in the sinks. -/
theorem between_of_written {sent body : List UInt8} {schedule : List Verdict} {value : PUnit}
    {world : World Output} (h : output.Between config initial sent)
    (hrun : (writeLine body).run ⟨output, schedule⟩ = .done (.ok value) world) :
    world.state.Between config initial (sent ++ body) :=
  meets_done (meets_writeLine h body) hrun

theorem torn_of_stopped {sent body : List UInt8} {schedule : List Verdict}
    (h : output.Between config initial sent)
    (hrun : ∀ value world, (writeLine body).run ⟨output, schedule⟩ ≠ .done (.ok value) world) :
    ((writeLine body).run ⟨output, schedule⟩).world.state.Torn config initial sent body :=
  meets_stop (meets_writeLine h body) hrun

theorem Delivering.written (h : Delivering config initial line logger output) {record : ρ}
    (hwriter : logger.writer = .Writing record) (hmove : LoggerState.Move logger .written next)
    {schedule : List Verdict} {value : PUnit} {world : World Output}
    (hrun : writeOutcome line output record schedule = .done (.ok value) world) :
    Delivering config initial line next world.state := by
  unfold Delivering at h ⊢
  rw [hwriter] at h
  have hbetween := between_of_written h hrun
  cases hmove with
  | @written other hother =>
      obtain rfl := Writer.Writing.inj (hwriter.symm.trans hother)
      simpa [Writer.failed] using hbetween

theorem Delivering.writeFailed (h : Delivering config initial line logger output)
    (haccounted : logger.Accounted bufferSize) {record : ρ}
    (hwriter : logger.writer = .Writing record)
    (hmove : LoggerState.Move logger .writeFailed next) {schedule : List Verdict}
    (hrun : ∀ value world, writeOutcome line output record schedule ≠ .done (.ok value) world) :
    Delivering config initial line next (writeOutcome line output record schedule).world.state := by
  have hnext := haccounted.in_progress hwriter
  unfold Delivering at h ⊢
  rw [hwriter] at h
  have htorn := torn_of_stopped h hrun
  cases hmove with
  | writeFailed _ => exact ⟨record, hnext, htorn⟩

end Steps

/-! ### Runs -/

namespace Pipeline

variable {config : LoggingConfig} {initial : Dir} {line : ρ → List UInt8}
  {pipe next : Pipeline ρ} {label : PipelineLabel ρ}

/-- A step is a step of the queue, and the sinks change only where a write
ends. -/
theorem step_cases (hstep : pipe.step line label = some next) :
    (∃ label', label'.queues = true ∧ LoggerState.Move pipe.logger label' next.logger ∧
      pipe.logger.step label' = some next.logger ∧ next.output = pipe.output) ∨
    ∃ record schedule, pipe.logger.writer = .Writing record ∧
      pipe.logger.step (writeResult ρ (writeOutcome line pipe.output record schedule)) =
        some next.logger ∧
      next.output = (writeOutcome line pipe.output record schedule).world.state := by
  cases label with
  | queue label =>
      simp only [step] at hstep
      split_ifs at hstep with hqueues
      obtain ⟨logger, hlogger, rfl⟩ := Option.map_eq_some_iff.mp hstep
      exact Or.inl ⟨label, hqueues, LoggerState.move_of_step hlogger, hlogger, rfl⟩
  | write schedule =>
      simp only [step] at hstep
      cases hwriter : pipe.logger.writer with
      | Writing record =>
          rw [hwriter] at hstep
          obtain ⟨logger, hlogger, rfl⟩ := Option.map_eq_some_iff.mp hstep
          exact Or.inr ⟨record, schedule, rfl, hlogger, rfl⟩
      | Receiving | Closed | Reported | Returned =>
          rw [hwriter] at hstep
          cases hstep

/-- The queue sees one step of its own. -/
theorem logger_of_step (hstep : pipe.step line label = some next) :
    ∃ label', pipe.logger.step label' = some next.logger := by
  obtain ⟨label', _, _, hlogger, _⟩ | ⟨record, schedule, _, hlogger, _⟩ := step_cases hstep
  · exact ⟨label', hlogger⟩
  · exact ⟨_, hlogger⟩

/-- The queue's books and the sinks agree. -/
structure Sound (config : LoggingConfig) (initial : Dir) (line : ρ → List UInt8)
    (pipe : Pipeline ρ) : Prop where
  accounted : pipe.logger.Accounted config.bufferSize
  delivering : Delivering config initial line pipe.logger pipe.output

theorem Sound.step (h : pipe.Sound config initial line) (hstep : pipe.step line label = some next) :
    next.Sound config initial line := by
  obtain ⟨label', hlogger⟩ := logger_of_step hstep
  refine ⟨h.accounted.move (LoggerState.move_of_step hlogger), ?_⟩
  obtain ⟨label', hqueues, hmove, _, houtput⟩ | ⟨record, schedule, hwriter, hlogger, houtput⟩ :=
    step_cases hstep
  · rw [houtput]
    exact h.delivering.queue hmove hqueues
  · have hmove := LoggerState.move_of_step hlogger
    rw [houtput]
    cases hrun : writeOutcome line pipe.output record schedule with
    | dropped world =>
        have hfailed := h.delivering.writeFailed h.accounted hwriter (hrun ▸ hmove)
          (fun value world => by rw [hrun]; simp)
        rwa [hrun] at hfailed
    | done result world =>
        rw [hrun] at hmove
        cases result with
        | ok value => exact h.delivering.written hwriter hmove hrun
        | error error =>
            have hfailed := h.delivering.writeFailed h.accounted hwriter hmove
              (fun value world => by rw [hrun]; simp)
            rwa [hrun] at hfailed

theorem sound_of_run {output : Output} (houtput : output.Between config initial [])
    {labels : List (PipelineLabel ρ)}
    (hrun : Steps.run (step line) ⟨.spawn ρ config.bufferSize, output⟩ labels = some pipe) :
    pipe.Sound config initial line := by
  refine Steps.run_invariant (fun _ _ _ h hstep => h.step hstep)
    ⟨LoggerState.accounted_spawn _, ?_⟩ hrun
  simpa [Delivering, LoggerState.spawn, Writer.failed] using houtput

end Pipeline

/-- What the two sinks hold beyond the lines of the flushed records. -/
structure Excess (line : ρ → List UInt8) (logger : LoggerState ρ) (filed printed : List UInt8) :
    Prop where
  /-- Nothing, unless a write has failed. -/
  running : logger.writer.failed = false → filed = [] ∧ printed = []
  /-- Otherwise beginnings of the line of the next accepted record, which
  standard output gets only after the file. -/
  failed : logger.writer.failed = true → ∃ record, logger.flushed ++ [record] <+: logger.accepted ∧
    filed <+: line record ∧ printed <+: line record ∧ (printed ≠ [] → filed = line record)

theorem Delivering.excess {config : LoggingConfig} {initial : Dir} {line : ρ → List UInt8}
    {logger : LoggerState ρ} {output : Output} (h : Delivering config initial line logger output) :
    ∃ filed printed, Excess line logger filed printed ∧
      output.Reached config initial (logger.flushed.flatMap line ++ filed)
        (logger.flushed.flatMap line ++ printed) := by
  unfold Delivering at h
  split_ifs at h with hfailed
  · obtain ⟨record, hnext, filed, printed, hfiled, hprinted, horder, hreached⟩ := h
    refine ⟨filed, printed, ⟨?_, fun _ => ⟨record, hnext, hfiled, hprinted, horder⟩⟩, hreached⟩
    intro hrunning
    rw [hfailed] at hrunning
    cases hrunning
  · refine ⟨[], [], ⟨fun _ => ⟨rfl, rfl⟩, fun htrue => absurd htrue hfailed⟩, ?_⟩
    simpa using h.reached

open Pipeline in
/-- The writer delivers what it counts. Whatever producers, writes, failures
and deadlines do, the queue runs as if it had no sinks, and each sink that is
configured has received the lines of the flushed records, in order and once,
and after a failure at most a beginning of the next accepted record's line; in
the directory these bytes follow the log as it was before. -/
theorem writer_delivers (config : LoggingConfig) (initial : Dir) (line : ρ → List UInt8)
    (schedule : List Verdict) (value : PUnit) (world : World Output)
    (hspawn : (Logger.spawn config).run ⟨.boot config initial, schedule⟩ = .done (.ok value) world)
    (labels : List (PipelineLabel ρ)) (pipe : Pipeline ρ)
    (hrun : Steps.run (Pipeline.step line) ⟨.spawn ρ config.bufferSize, world.state⟩ labels =
      some pipe) :
    (∃ seen, Steps.run LoggerState.step (.spawn ρ config.bufferSize) seen = some pipe.logger) ∧
    ∃ filed printed, Excess line pipe.logger filed printed ∧
      (∀ path, config.filePath = some path → ∃ sink lost, pipe.output.file = some sink ∧
        List.Forall₂ (fun lost held => lost = [] ∨ lost = held) lost sink.rotations ∧
        lost.flatten ++ history sink.disk (chain path config.maxFiles) =
          history initial (chain path config.maxFiles) ++
            (pipe.logger.flushed.flatMap line ++ filed)) ∧
      (config.writesStdout = true → ∃ out, pipe.output.stdout = some out ∧
        out.printed = pipe.logger.flushed.flatMap line ++ printed) := by
  refine ⟨?_, ?_⟩
  · refine @Steps.run_refines _ _ _ _ (Pipeline.step line) LoggerState.step Pipeline.logger ?_ _ _ _
      hrun
    intro state label next hstep
    obtain ⟨label', hlogger⟩ := logger_of_step hstep
    exact ⟨[label'], by simpa [Steps.run_cons] using hlogger⟩
  · have hsound := sound_of_run (meets_done (meets_spawn config initial) hspawn) hrun
    obtain ⟨filed, printed, hexcess, hreached⟩ := hsound.delivering.excess
    exact ⟨filed, printed, hexcess, fun path hpath => hreached.held hpath, hreached.shown⟩

/-- The second record's write is dropped after its first byte, and a third one
is lost in the queue. -/
def torn : List (PipelineLabel UInt8) :=
  [.queue (.log 65), .queue .recv, .write [], .queue (.log 66), .queue (.log 67), .queue .recv,
    .write [.Drop 2 1], .queue .report, .queue .countLost]

/-- File and standard output. -/
theorem writer_delivers_torn :
    ∃ pipe, Steps.run (Pipeline.step fun record : UInt8 => [record, newline])
        ⟨.spawn UInt8 256, ((Logger.spawn { stdout := true }).run
          ⟨.boot { stdout := true } (fun _ => none), []⟩).world.state⟩ torn = some pipe ∧
      pipe.logger.flushed = [65] ∧ pipe.logger.accepted = [65, 66, 67] ∧
      (pipe.output.file.map fun sink => history sink.disk (chain "honeypot.jsonl" 3)) =
        some [65, newline, 66] ∧
      pipe.output.stdout.map (·.printed) = some [65, newline] ∧
      Excess (fun record : UInt8 => [record, newline]) pipe.logger [66] [] := by
  obtain ⟨world, hworld⟩ : ∃ world, (Logger.spawn { stdout := true }).run
      ⟨.boot { stdout := true } (fun _ => none), []⟩ = .done (.ok ⟨⟩) world := ⟨_, rfl⟩
  have hstart : ((Logger.spawn { stdout := true }).run
      ⟨.boot { stdout := true } (fun _ => none), []⟩).world.state = world.state :=
    congrArg (fun outcome => outcome.world.state) hworld
  have hend : (Steps.run (Pipeline.step fun record : UInt8 => [record, newline])
      ⟨.spawn UInt8 256, ((Logger.spawn { stdout := true }).run
        ⟨.boot { stdout := true } (fun _ => none), []⟩).world.state⟩ torn).any (fun pipe => decide (
          pipe.logger.flushed = [65] ∧ pipe.logger.accepted = [65, 66, 67] ∧
          (pipe.output.file.map fun sink => (history sink.disk (chain "honeypot.jsonl" 3),
            sink.rotations)) = some ([65, newline, 66], []) ∧
          pipe.output.stdout.map (·.printed) = some [65, newline])) = true := by
    decide +kernel
  obtain ⟨pipe, hrun, hfacts⟩ := (Option.any_eq_true _ _).mp hend
  obtain ⟨hflushed, haccepted, hfile, hstdout⟩ := of_decide_eq_true hfacts
  obtain ⟨_, filed, printed, hexcess, hfiled, hprinted⟩ := writer_delivers { stdout := true } _
    (fun record : UInt8 => [record, newline]) _ _ _ hworld _ _ (hstart ▸ hrun)
  obtain ⟨sink, hsink, hsame⟩ := Option.map_eq_some_iff.mp hfile
  obtain ⟨hhistory, hrotations⟩ := Prod.mk.inj hsame
  obtain ⟨out, hout, hshown⟩ := Option.map_eq_some_iff.mp hstdout
  obtain ⟨_, lost, hsink', hlost, hkept⟩ := hfiled "honeypot.jsonl" rfl
  obtain ⟨_, hout', hprinted⟩ := hprinted rfl
  obtain rfl := Option.some.inj (hsink.symm.trans hsink')
  obtain rfl := Option.some.inj (hout.symm.trans hout')
  rw [hrotations] at hlost
  cases hlost
  rw [hhistory, hflushed] at hkept
  rw [hshown, hflushed] at hprinted
  obtain rfl : [66] = filed := @List.append_cancel_left _ [65, newline] _ _ hkept
  obtain rfl : [] = printed := @List.append_cancel_left _ [65, newline] _ _ hprinted
  exact ⟨pipe, hrun, hflushed, haccepted, by rw [hsink]; exact congrArg some hhistory, hstdout,
    hexcess⟩

end Minotaur
