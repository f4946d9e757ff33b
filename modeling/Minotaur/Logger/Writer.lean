import Minotaur.Logger.Conservation
import Minotaur.Logger.Rotation

/-!
`Logger::spawn` and the write future of `run_writer` with its two sinks. The
queue only knows that a write succeeded or failed; here a write is the file
sink's `write` followed by the buffered standard output, either of which may be
absent, and a failure or the deadline may cut it at any of their operations.

`printed` is what has come out of the process. What a sink has received since
it was opened is `sent`, and a write that stops leaves a beginning of its line
behind, in the file before the standard output.
-/

namespace Minotaur

open Disk Interruptible

/-- The buffered writer around standard output. -/
structure Stdout where
  buffered : List UInt8 := []
  printed : List UInt8 := []
deriving DecidableEq, Repr

/-- The sinks of the writer. -/
structure Output where
  file : Option SinkState
  stdout : Option Stdout

abbrev OutputIo := Op Output String

def Stdout.transfer (out : Stdout) (pending : List UInt8) (reached : Nat) : Stdout :=
  ⟨pending.drop reached, out.printed ++ pending.take reached⟩

/-- `out.write_all(&line)`. -/
def printAll (line : List UInt8) : Op Stdout String PUnit :=
  operation (fun reached out => (.ok ⟨⟩, out.transfer (out.buffered ++ line) reached))
    (fun taken reached out => out.transfer (out.buffered ++ line.take taken) reached)
    "cannot write JSONL stdout"

/-- `out.flush()`. -/
def flushPrinted : Op Stdout String PUnit :=
  operation (fun _ out => (.ok ⟨⟩, ⟨[], out.printed ++ out.buffered⟩))
    (fun _ reached out => out.transfer out.buffered reached) "cannot flush JSONL stdout"

def printLine (line : List UInt8) : Op Stdout String PUnit := do
  printAll line
  flushPrinted

namespace Output

def onFile (sink : SinkState) (op : SinkIo PUnit) : OutputIo PUnit :=
  focus (fun _ => sink) (fun sink output => { output with file := some sink }) op

def onStdout (out : Stdout) (op : Op Stdout String PUnit) : OutputIo PUnit :=
  focus (fun _ => out) (fun out output => { output with stdout := some out }) op

/-- Before `Logger::spawn` has opened anything. -/
def boot (config : LoggingConfig) (disk : Dir) : Output where
  file := config.filePath.map fun path => .boot path config.maxFileBytes config.maxFiles disk
  stdout := if config.writesStdout then some {} else none

end Output

open Output (onFile onStdout)

/-- What `Logger::spawn` does before it spawns the writer. -/
def Logger.spawn (config : LoggingConfig) : OutputIo PUnit := do
  if config.bufferSize = 0 then throw "logger buffer must be positive"
  match (← state).file, config.filePath with
  | some sink, some path =>
      onFile sink (FileSink.open path config.maxFileBytes config.maxFiles)
  | _, _ => pure ⟨⟩

def fileLine (line : List UInt8) : OutputIo PUnit := do
  match (← state).file with
  | some sink => onFile sink (FileSink.write line)
  | none => pure ⟨⟩

def stdoutLine (line : List UInt8) : OutputIo PUnit := do
  match (← state).stdout with
  | some out => onStdout out (printLine line)
  | none => pure ⟨⟩

/-- The write future of one serialised record. -/
def writeLine (line : List UInt8) : OutputIo PUnit := do
  fileLine line
  stdoutLine line

/-! ### The file sink -/

/-- The sink between two writes. -/
structure Idle (path : String) (s : SinkState) : Prop where
  path_eq : s.sink.path = path
  maxFiles_pos : 1 ≤ s.sink.maxFiles
  file_eq : s.sink.file = some []
  regular : ∃ old, s.disk path = some (.Regular old)

section File

variable {path : String} {maxFiles : Nat} {initial : Dir} {base line : List UInt8} {s : SinkState}

theorem appended_transfer (s : SinkState) (pending : List UInt8) (reached : Nat) :
    (s.transfer pending reached).appended = s.appended ++ pending.take reached := rfl

/-- The rotation rule for what has been sent: a rotation sends nothing. -/
def sentRule (path : String) (maxFiles : Nat) (base : List UInt8) :
    RotationRule path maxFiles (fun s => s.appended = base) where
  flushed s := s.appended = base ∧ s.sink.path = path ∧ s.sink.maxFiles = maxFiles
  free _ s := s.appended = base ∧ s.sink.path = path ∧ s.sink.maxFiles = maxFiles
  moved s := s.appended = base ∧ s.sink.path = path ∧ s.sink.maxFiles = maxFiles
  stop_of_flushed _ h := h.1
  stop_of_free _ _ h := h.1
  stop_of_moved _ h := h.1
  remove _ _ h _ := h
  none_to_remove _ h _ := h
  rename _ _ _ _ h _ := h
  none_to_rename _ _ h _ := h
  archive_active _ _ h _ := h
  create _ h := h

theorem meets_rotate_sent (h : Idle path s) (hbase : s.appended = base) :
    Meets rotate (fun _ next => Idle path next ∧ next.appended = base)
      (fun next => next.appended = base) s := by
  refine (sentRule path s.sink.maxFiles base).meets_rotate h.maxFiles_pos h.path_eq rfl ?_ ?_
  · -- Nothing is buffered between two writes.
    rw [h.file_eq]
    unfold flushOld flushTaken
    refine meets_operation (fun _ => ⟨?_, fun _ _ => ⟨?_, h.path_eq, rfl⟩⟩) (fun _ reached => ?_)
    · simpa [SinkState.reach, takeFile, SinkState.keep] using hbase
    · simpa [SinkState.reach, takeFile, SinkState.keep] using hbase
    · simpa [SinkState.reach, takeFile, SinkState.keep] using hbase
  · rintro next old ⟨hsent, hpath, hfiles⟩ hregular _
    exact ⟨⟨hpath, hfiles ▸ h.maxFiles_pos, rfl, old, hregular⟩, hsent⟩

theorem meets_appendLine_sent (h : Idle path s) (hbase : s.appended = base) :
    Meets (appendLine line) (fun _ next => Idle path next ∧ next.appended = base ++ line)
      (fun next => ∃ part, part <+: line ∧ next.appended = base ++ part) s := by
  obtain ⟨old, hold⟩ := h.regular
  have hbuffered : s.buffered = [] := by simp [SinkState.buffered, h.file_eq]
  have htorn (pending : List UInt8) (reached : Nat) (hpending : pending <+: line) :
      ∃ part, part <+: line ∧
        (s.transfer (s.buffered ++ pending) reached).appended = base ++ part := by
    refine ⟨pending.take reached, (List.take_prefix _ _).trans hpending, ?_⟩
    rw [appended_transfer, hbuffered, hbase, List.nil_append]
  unfold appendLine
  refine meets_bind (meets_state.mpr ?_)
  rw [h.file_eq]
  unfold writeAll flush
  refine meets_bind (meets_operation (fun reached => ⟨htorn _ reached (List.prefix_refl _), ?_⟩)
    (fun taken reached => htorn _ reached (List.take_prefix _ _)))
  rintro _ _
  have hkept : (s.transfer (s.buffered ++ line) reached).buffered = line.drop reached := by
    simp [SinkState.transfer, SinkState.keep, SinkState.buffered, h.file_eq]
  have hsent : (s.transfer (s.buffered ++ line) reached).appended = base ++ line.take reached := by
    rw [appended_transfer, hbuffered, hbase, List.nil_append]
  have hall := List.take_append_drop reached line
  have hactive := append_same (append_same hold ((s.buffered ++ line).take reached))
    (line.drop reached)
  refine meets_bind (meets_operation (fun _ => ⟨?_, fun _ _ => ?_⟩) (fun _ flushed => ?_))
  · refine ⟨line, List.prefix_refl _, ?_⟩
    change (s.transfer (s.buffered ++ line) reached).appended ++ _ = _
    rw [hsent, hkept, List.append_assoc, hall]
  · refine (meets_update _).mpr ⟨⟨h.path_eq, h.maxFiles_pos, rfl,
      old ++ (s.buffered ++ line).take reached ++ line.drop reached, ?_⟩, ?_⟩
    · simp only [SinkState.reach, SinkState.keep, hkept]
      simpa only [SinkState.transfer, SinkState.reach, SinkState.keep, h.path_eq] using hactive
    · change (s.transfer (s.buffered ++ line) reached).appended ++ _ = _
      rw [hsent, hkept, List.append_assoc, hall]
  · refine ⟨line.take reached ++ (line.drop reached).take flushed, ?_, ?_⟩
    · conv_rhs => rw [← hall]
      exact (List.prefix_append_right_inj _).mpr (List.take_prefix _ _)
    · rw [hkept, appended_transfer, hsent, List.append_assoc]

/-- A write sends its line; one that stops has sent a beginning of it. -/
theorem meets_write_sent (h : Idle path s) (hbase : s.appended = base) :
    Meets (FileSink.write line) (fun _ next => Idle path next ∧ next.appended = base ++ line)
      (fun next => ∃ part, part <+: line ∧ next.appended = base ++ part) s := by
  have hnone : ∃ part, part <+: line ∧ s.appended = base ++ part :=
    ⟨[], List.nil_prefix, by rw [hbase, List.append_nil]⟩
  unfold FileSink.write rotateIfFull
  refine meets_bind (meets_state.mpr (meets_bind (meets_ensureIo _ hnone (fun _ => ?_))))
  refine meets_bind (meets_bind (meets_state.mpr ?_))
  dsimp only
  split_ifs
  · refine meets_mono (meets_rotate_sent h hbase) ?_ ?_
    · rintro _ next ⟨hidle, hnext⟩
      exact meets_appendLine_sent hidle hnext
    · intro next hnext
      exact ⟨[], List.nil_prefix, by rw [hnext, List.append_nil]⟩
  · exact (meets_pure _).mpr (meets_appendLine_sent h hbase)

/-- An opened sink has sent nothing yet. -/
theorem meets_open_sent (path : String) (maxBytes maxFiles : Nat) (initial : Dir) :
    Meets (FileSink.open path maxBytes maxFiles)
      (fun _ next => Idle path next ∧ next.sink.maxFiles = maxFiles ∧ next.appended = [])
      (fun _ => True) (.boot path maxBytes maxFiles initial) := by
  unfold FileSink.open acquireLock
  refine meets_bind (meets_ensureIo _ trivial fun hlimits => ?_)
  refine meets_bind (meets_bind (meets_symlinkMetadata _ _ trivial
    (meets_bind (meets_ensureIo _ trivial fun _ => meets_bind
      (meets_openFile _ _ trivial trivial fun _ => meets_inspect trivial ?_)))))
  refine meets_bind (meets_openLog path trivial trivial fun old hold _ => ?_)
  exact (meets_update _).mpr ⟨⟨rfl, (of_decide_eq_true hlimits).2, rfl, old, hold⟩, rfl, rfl⟩

end File

/-! ### Both sinks -/

/-- A sink is there exactly when the configuration asks for it. -/
structure Output.Configured (config : LoggingConfig) (output : Output) : Prop where
  file : output.file.isSome = config.filePath.isSome
  stdout : output.stdout.isSome = config.writesStdout

/-- What the sinks have received: `filed` the file and `printed` the standard
output, and the file is the old log with `filed` after it, less what rotations
dropped. -/
structure Output.Reached (config : LoggingConfig) (initial : Dir) (filed printed : List UInt8)
    (output : Output) : Prop where
  configured : output.Configured config
  file : ∀ sink, output.file = some sink → ∀ path, config.filePath = some path →
    sink.appended = filed ∧ Safe path config.maxFiles initial sink
  stdout : ∀ out, output.stdout = some out → out.printed = printed

/-- The log and its rotated files, as the file sink has left them. -/
theorem Output.Reached.held {config : LoggingConfig} {initial : Dir} {filed printed : List UInt8}
    {output : Output} (h : output.Reached config initial filed printed) {path : String}
    (hpath : config.filePath = some path) :
    ∃ sink lost, output.file = some sink ∧
      List.Forall₂ (fun lost held => lost = [] ∨ lost = held) lost sink.rotations ∧
      lost.flatten ++ history sink.disk (chain path config.maxFiles) =
        history initial (chain path config.maxFiles) ++ filed := by
  have hsome := h.configured.file
  rw [hpath, Option.isSome_some, Option.isSome_iff_exists] at hsome
  obtain ⟨sink, hsink⟩ := hsome
  obtain ⟨happended, lost, hconserved⟩ := h.file sink hsink path hpath
  exact ⟨sink, lost, hsink, hconserved.lost_le, happended ▸ hconserved.history_eq⟩

theorem Output.Reached.shown {config : LoggingConfig} {initial : Dir} {filed printed : List UInt8}
    {output : Output} (h : output.Reached config initial filed printed)
    (hstdout : config.writesStdout = true) :
    ∃ out, output.stdout = some out ∧ out.printed = printed := by
  have hsome := h.configured.stdout
  rw [hstdout, Option.isSome_iff_exists] at hsome
  obtain ⟨out, hout⟩ := hsome
  exact ⟨out, hout, h.stdout out hout⟩

/-- Between two writes, with `sent` received by both. -/
structure Output.Between (config : LoggingConfig) (initial : Dir) (sent : List UInt8)
    (output : Output) : Prop where
  reached : output.Reached config initial sent sent
  idle : ∀ sink, output.file = some sink → ∀ path, config.filePath = some path → Idle path sink
  empty : ∀ out, output.stdout = some out → out.buffered = []

/-- The write of `line` stopped somewhere: each sink has a beginning of it, and
the standard output none unless the file has all of it. -/
def Output.Torn (config : LoggingConfig) (initial : Dir) (sent line : List UInt8)
    (output : Output) : Prop :=
  ∃ filed printed, filed <+: line ∧ printed <+: line ∧ (printed ≠ [] → filed = line) ∧
    output.Reached config initial (sent ++ filed) (sent ++ printed)

section Output

variable {config : LoggingConfig} {initial : Dir} {sent line : List UInt8} {output : Output}

theorem Output.Between.torn (h : output.Between config initial sent) (line : List UInt8) :
    output.Torn config initial sent line := by
  refine ⟨[], [], List.nil_prefix, List.nil_prefix, fun hne => absurd rfl hne, ?_⟩
  simpa using h.reached

theorem meets_printLine {out : Stdout} (hempty : out.buffered = []) (line : List UInt8) :
    Meets (printLine line) (fun _ next => next = ⟨[], out.printed ++ line⟩)
      (fun next => ∃ part, part <+: line ∧ next.printed = out.printed ++ part) out := by
  unfold printLine printAll flushPrinted
  refine meets_bind (meets_operation (fun reached => ⟨?_, fun _ _ => ?_⟩) (fun taken reached => ?_))
  · exact ⟨line.take reached, List.take_prefix _ _, by simp [Stdout.transfer, hempty]⟩
  · have hall := List.take_append_drop reached line
    refine meets_operation (fun _ => ⟨?_, fun _ _ => ?_⟩) (fun _ flushed => ?_)
    · exact ⟨line, List.prefix_refl _, by simp [Stdout.transfer, hempty]⟩
    · simp [Stdout.transfer, hempty]
    · refine ⟨line.take reached ++ (line.drop reached).take flushed, ?_, ?_⟩
      · conv_rhs => rw [← hall]
        exact (List.prefix_append_right_inj _).mpr (List.take_prefix _ _)
      · simp [Stdout.transfer, hempty]
  · exact ⟨(line.take taken).take reached,
      (List.take_prefix _ _).trans (List.take_prefix _ _), by simp [Stdout.transfer, hempty]⟩

/-- After the file has the line and before the standard output does. -/
structure Output.Filed (config : LoggingConfig) (initial : Dir) (sent line : List UInt8)
    (output : Output) : Prop where
  reached : output.Reached config initial (sent ++ line) sent
  idle : ∀ sink, output.file = some sink → ∀ path, config.filePath = some path → Idle path sink
  empty : ∀ out, output.stdout = some out → out.buffered = []

theorem Output.Configured.filePath (h : output.Configured config) {sink : SinkState}
    (hfile : output.file = some sink) : ∃ path, config.filePath = some path := by
  have hconfigured := h.file
  rw [hfile] at hconfigured
  exact Option.isSome_iff_exists.mp hconfigured.symm

theorem Output.Filed.torn (h : output.Filed config initial sent line) :
    output.Torn config initial sent line := by
  refine ⟨line, [], List.prefix_refl _, List.nil_prefix, fun hne => absurd rfl hne, ?_⟩
  rw [List.append_nil]
  exact h.reached

theorem meets_fileLine (h : output.Between config initial sent) (line : List UInt8) :
    Meets (fileLine line) (fun _ => Output.Filed config initial sent line)
      (Output.Torn config initial sent line) output := by
  unfold fileLine
  refine meets_bind (meets_state.mpr ?_)
  cases hfile : output.file with
  | none =>
      refine (meets_pure _).mpr ⟨⟨h.reached.configured, ?_, h.reached.stdout⟩, h.idle, h.empty⟩
      rintro sink hsink
      rw [hfile] at hsink
      cases hsink
  | some sink =>
      obtain ⟨path, hpath⟩ := h.reached.configured.filePath hfile
      obtain ⟨hbase, hsafe⟩ := h.reached.file sink hfile path hpath
      have hidle := h.idle sink hfile path hpath
      obtain ⟨lost, hconserved⟩ := hsafe
      obtain ⟨n, hn⟩ : ∃ n, config.maxFiles = n + 1 := by
        have hpos := hidle.maxFiles_pos
        rw [hconserved.maxFiles_eq] at hpos
        exact ⟨config.maxFiles - 1, by omega⟩
      rw [hn] at hconserved
      have hconfigured : ∀ next : SinkState,
          Output.Configured config { output with file := some next } := fun _ =>
        ⟨by simp [hpath], h.reached.configured.stdout⟩
      refine meets_focus (meets_mono (meets_and (meets_write hconserved line)
        (meets_write_sent hidle hbase)) ?_ ?_)
      · rintro _ next ⟨hsafe, hidle, hsent⟩
        refine ⟨⟨hconfigured next, ?_, h.reached.stdout⟩, ?_, h.empty⟩
        · intro sink' hsink path' hpath'
          obtain rfl := Option.some.inj hsink
          obtain rfl := Option.some.inj (hpath.symm.trans hpath')
          exact ⟨hsent, hn ▸ hsafe⟩
        · intro sink' hsink path' hpath'
          obtain rfl := Option.some.inj hsink
          obtain rfl := Option.some.inj (hpath.symm.trans hpath')
          exact hidle
      · rintro next ⟨hsafe, part, hpart, hsent⟩
        refine ⟨part, [], hpart, List.nil_prefix, fun hne => absurd rfl hne, hconfigured next, ?_, ?_⟩
        · intro sink' hsink path' hpath'
          obtain rfl := Option.some.inj hsink
          obtain rfl := Option.some.inj (hpath.symm.trans hpath')
          exact ⟨hsent, hn ▸ hsafe⟩
        · rw [List.append_nil]
          exact h.reached.stdout

theorem meets_stdoutLine (h : output.Filed config initial sent line) :
    Meets (stdoutLine line) (fun _ => Output.Between config initial (sent ++ line))
      (Output.Torn config initial sent line) output := by
  unfold stdoutLine
  refine meets_bind (meets_state.mpr ?_)
  cases hstdout : output.stdout with
  | none =>
      refine (meets_pure _).mpr ⟨⟨h.reached.configured, h.reached.file, ?_⟩, h.idle, h.empty⟩
      rintro out hout
      rw [hstdout] at hout
      cases hout
  | some out =>
      have hprinted := h.reached.stdout out hstdout
      have hconfigured : ∀ next : Stdout,
          Output.Configured config { output with stdout := some next } := by
        intro next
        refine ⟨h.reached.configured.file, ?_⟩
        rw [← h.reached.configured.stdout, hstdout]
        rfl
      refine meets_focus (meets_mono (meets_printLine (h.empty out hstdout) line) ?_ ?_)
      · rintro _ next rfl
        refine ⟨⟨hconfigured _, h.reached.file, ?_⟩, h.idle, ?_⟩
        · intro next hnext
          obtain rfl := Option.some.inj hnext
          exact congrArg (· ++ line) hprinted
        · intro next hnext
          obtain rfl := Option.some.inj hnext
          rfl
      · rintro next ⟨part, hpart, hnext⟩
        refine ⟨line, part, List.prefix_refl _, hpart, fun _ => rfl, hconfigured _,
          h.reached.file, ?_⟩
        intro next' hnext'
        obtain rfl := Option.some.inj hnext'
        rw [hnext, hprinted]

/-- A write sends its line to every sink; one that stops tears only this
line. -/
theorem meets_writeLine (h : output.Between config initial sent) (line : List UInt8) :
    Meets (writeLine line) (fun _ => Output.Between config initial (sent ++ line))
      (Output.Torn config initial sent line) output := by
  unfold writeLine
  refine meets_bind (meets_mono (meets_fileLine h line) ?_ (fun _ hs => hs))
  rintro _ next hnext
  exact meets_stdoutLine hnext

/-- Spawning opens the sinks that are configured and sends nothing. -/
theorem meets_spawn (config : LoggingConfig) (initial : Dir) :
    Meets (Logger.spawn config) (fun _ => Output.Between config initial [])
      (fun _ => True) (.boot config initial) := by
  have hstdout : ∀ out, (Output.boot config initial).stdout = some out → out = {} := by
    intro out hout
    unfold Output.boot at hout
    dsimp only at hout
    split_ifs at hout
    exact (Option.some.inj hout).symm
  have hconfigured : (Output.boot config initial).Configured config := by
    refine ⟨Option.isSome_map, ?_⟩
    unfold Output.boot
    cases config.writesStdout <;> rfl
  unfold Logger.spawn
  split_ifs with hbuffer
  · exact meets_bind ((meets_throw _).mpr trivial)
  · refine meets_bind (meets_state.mpr ?_)
    cases hpath : config.filePath with
    | none =>
        have hnone : (Output.boot config initial).file = none := by simp [Output.boot, hpath]
        rw [hnone]
        refine (meets_pure _).mpr ⟨⟨hconfigured, ?_, ?_⟩, ?_, ?_⟩
        · intro sink hsink
          rw [hnone] at hsink
          cases hsink
        · rintro out hout
          rw [hstdout out hout]
        · intro sink hsink
          rw [hnone] at hsink
          cases hsink
        · rintro out hout
          rw [hstdout out hout]
    | some path =>
        have hsome : (Output.boot config initial).file =
            some (.boot path config.maxFileBytes config.maxFiles initial) := by
          simp [Output.boot, hpath]
        rw [hsome]
        refine meets_focus (meets_mono (meets_and (meets_open path _ _ initial)
          (meets_open_sent path config.maxFileBytes config.maxFiles initial)) ?_ (fun _ _ => trivial))
        rintro _ next ⟨⟨_, hsafe⟩, hidle, _, hsent⟩
        refine ⟨⟨⟨by simp [hpath], hconfigured.stdout⟩, ?_, ?_⟩, ?_, ?_⟩
        · intro sink hsink path' hpath'
          obtain rfl := Option.some.inj hsink
          obtain rfl := Option.some.inj (hpath.symm.trans hpath')
          exact ⟨hsent, hsafe⟩
        · rintro out hout
          rw [hstdout out hout]
        · intro sink hsink path' hpath'
          obtain rfl := Option.some.inj hsink
          obtain rfl := Option.some.inj (hpath.symm.trans hpath')
          exact hidle
        · rintro out hout
          rw [hstdout out hout]

end Output

end Minotaur
