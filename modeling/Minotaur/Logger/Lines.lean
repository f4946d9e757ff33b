import Minotaur.Base.Steps
import Minotaur.Logger.Rotation

/-!
Line integrity across failures and restarts. A record is a text without a
newline and a line is a record with one at its end, so a file that was cut off
inside a line does not end with a newline, and opening it is refused. Every
run of opens, writes, failures and restarts keeps the archives whole; what is
incomplete can only be the end of the active file, and then nobody can open it.

`Record` is the set of serialised records. That it contains no newline is what
the serialiser promises.
-/

namespace Minotaur

open Disk Interruptible

def terminated (body : List UInt8) : List UInt8 := body ++ [newline]

section Lines

variable (Record : List UInt8 → Prop)

def CompleteLines (content : List UInt8) : Prop :=
  ∃ bodies : List (List UInt8), (∀ body ∈ bodies, Record body) ∧ content = bodies.flatMap terminated

/-- An unfinished line: the beginning of a record, still without newline. -/
def Unfinished (tail : List UInt8) : Prop :=
  newline ∉ tail ∧ (tail = [] ∨ ∃ body, Record body ∧ tail <+: body)

def ActiveLog (content : List UInt8) : Prop :=
  ∃ whole tail, CompleteLines Record whole ∧ content = whole ++ tail ∧ Unfinished Record tail

/-- The active file and the archives of any number. -/
def IsLog (path other : String) : Prop := other = path ∨ ∃ index, other = archive path index

/-- Every file of an open log consists of complete lines. -/
structure Whole (path : String) (s : SinkState) : Prop where
  path_eq : s.sink.path = path
  maxFiles_pos : 1 ≤ s.sink.maxFiles
  complete : ∀ other, IsLog path other → CompleteLines Record (content s.disk other)

/-- The archives do, and the active file up to one unfinished line. -/
structure Lines (path : String) (s : SinkState) : Prop where
  path_eq : s.sink.path = path
  archives : ∀ index, CompleteLines Record (content s.disk (archive path index))
  active : ActiveLog Record (content s.disk path)

/-- A sink between two writes. -/
structure Ready (path : String) (s : SinkState) : Prop where
  whole : Whole Record path s
  file_eq : s.sink.file = some []
  regular : ∃ old, s.disk path = some (.Regular old)

end Lines

section Preservation

variable {Record : List UInt8 → Prop} {path : String} {s : SinkState}

theorem completeLines_nil : CompleteLines Record [] := ⟨[], by simp, rfl⟩

theorem CompleteLines.append_line {whole body : List UInt8} (h : CompleteLines Record whole)
    (hbody : Record body) : CompleteLines Record (whole ++ terminated body) := by
  obtain ⟨bodies, hbodies, rfl⟩ := h
  refine ⟨bodies ++ [body], ?_, by simp⟩
  intro other hother
  rcases List.mem_append.mp hother with hold | hnew
  · exact hbodies other hold
  · exact List.mem_singleton.mp hnew ▸ hbody

/-- A write that stops somewhere: the line is finished or it lacks its
newline. -/
theorem CompleteLines.append_prefix {whole body pre : List UInt8}
    (h : CompleteLines Record whole) (hbody : Record body) (hclean : newline ∉ body)
    (hbegins : pre <+: terminated body) : ActiveLog Record (whole ++ pre) := by
  rcases List.prefix_concat_iff.mp hbegins with hall | hpart
  · refine ⟨whole ++ pre, [], ?_, by simp, by simp, Or.inl rfl⟩
    rw [hall]
    exact h.append_line hbody
  · exact ⟨whole, pre, h, rfl, fun hmem => hclean (hpart.subset hmem), Or.inr ⟨body, hbody, hpart⟩⟩

theorem CompleteLines.activeLog {content : List UInt8} (h : CompleteLines Record content) :
    ActiveLog Record content :=
  ⟨content, [], h, (List.append_nil _).symm, by simp, Or.inl rfl⟩

theorem Whole.lines (h : Whole Record path s) : Lines Record path s where
  path_eq := h.path_eq
  archives index := h.complete _ (Or.inr ⟨index, rfl⟩)
  active := (h.complete path (Or.inl rfl)).activeLog

/-- What opening checks: an active file that is empty or ends with a newline
has no unfinished line. -/
theorem ActiveLog.complete {content : List UInt8} (h : ActiveLog Record content)
    (hlast : content = [] ∨ content.getLast? = some newline) : CompleteLines Record content := by
  obtain ⟨whole, tail, hwhole, heq, hclean, _⟩ := h
  rcases List.eq_nil_or_concat' tail with rfl | ⟨front, last, rfl⟩
  · rw [heq, List.append_nil]
    exact hwhole
  · rcases hlast with hnil | hlast
    · simp [hnil] at heq
    · rw [heq, ← List.append_assoc, List.getLast?_concat, Option.some.injEq] at hlast
      exact absurd (by simp [hlast]) hclean

/-- A change of the directory that keeps every file's lines complete. -/
theorem Whole.disk (h : Whole Record path s) {next : SinkState}
    (hpath : next.sink.path = s.sink.path) (hmaxFiles : next.sink.maxFiles = s.sink.maxFiles)
    (hcomplete : ∀ other, IsLog path other → content next.disk other = content s.disk other ∨
      content next.disk other = [] ∨
      ∃ source, IsLog path source ∧ content next.disk other = content s.disk source) :
    Whole Record path next where
  path_eq := hpath.trans h.path_eq
  maxFiles_pos := hmaxFiles ▸ h.maxFiles_pos
  complete := by
    intro other hother
    rcases hcomplete other hother with hsame | hnil | ⟨source, hsource, hmoved⟩
    · exact hsame ▸ h.complete other hother
    · exact hnil ▸ completeLines_nil
    · exact hmoved ▸ h.complete source hsource

theorem Whole.removed (h : Whole Record path s) (gone : String) :
    Whole Record path (s.removed gone) := by
  refine h.disk rfl rfl ?_
  intro other _
  by_cases heq : other = gone
  · exact Or.inr (Or.inl (by simp [SinkState.removed, content, unlink, heq]))
  · exact Or.inl (content_congr (set_other _ heq _))

theorem Whole.renamed (h : Whole Record path s) {source destination : String}
    (hsource : IsLog path source) (hne : destination ≠ source) :
    Whole Record path (s.renamed source destination) := by
  refine h.disk rfl rfl ?_
  intro other _
  by_cases hgone : other = source
  · exact Or.inr (Or.inl (by simp [SinkState.renamed, content, hgone, rename_source]))
  · by_cases hmoved : other = destination
    · subst hmoved
      exact Or.inr (Or.inr ⟨source, hsource, by
        simp [SinkState.renamed, content, rename_destination _ hne]⟩)
    · exact Or.inl (content_congr (rename_other _ hgone hmoved))

theorem Whole.created (h : Whole Record path s) (name : String) :
    Whole Record path (s.created name) :=
  h.disk rfl rfl (fun _ _ => Or.inl (content_create _ _ _))

/-- The rotation rule for whole files: they are moved and never cut. -/
def wholeRule (Record : List UInt8 → Prop) (path : String) (maxFiles : Nat) :
    RotationRule path maxFiles (Lines Record path) where
  flushed := Whole Record path
  free _ := Whole Record path
  moved := Whole Record path
  stop_of_flushed _ h := h.lines
  stop_of_free _ _ h := h.lines
  stop_of_moved _ h := h.lines
  remove _ _ h _ := h.removed _
  none_to_remove _ h _ := h
  rename index _ _ _ h _ := h.renamed (Or.inr ⟨index + 1, rfl⟩)
    (fun heq => absurd (archive_inj heq) (by omega))
  none_to_rename _ _ h _ := h
  archive_active _ _ h _ := h.renamed (Or.inl rfl) (suffixed_ne (by decide))
  create _ h := h.created _

theorem meets_rotate_ready (h : Ready Record path s) :
    Meets rotate (fun _ => Ready Record path) (Lines Record path) s := by
  refine (wholeRule Record path s.sink.maxFiles).meets_rotate h.whole.maxFiles_pos
    h.whole.path_eq rfl ?_ ?_
  · have htaken : Whole Record path (takeFile s) := h.whole.disk rfl rfl (fun _ _ => Or.inl rfl)
    have hflushed : Whole Record path ((takeFile s).reach []) := by
      refine htaken.disk rfl rfl (fun other _ => Or.inl ?_)
      simp only [SinkState.reach]
      by_cases heq : other = (takeFile s).sink.path
      · obtain ⟨old, hold⟩ := h.regular
        have hregular : (takeFile s).disk (takeFile s).sink.path = some (.Regular old) := by
          simpa [takeFile, SinkState.keep, h.whole.path_eq] using hold
        rw [heq]
        simp [content, append_same hregular, hregular]
      · exact content_congr (append_other _ heq _)
    rw [h.file_eq]
    unfold flushOld flushTaken
    exact meets_operation (fun _ => ⟨hflushed.lines, fun _ _ => hflushed⟩)
      (fun _ reached => by simpa using hflushed.lines)
  · intro next old hmoved hregular _
    exact ⟨hmoved.disk rfl rfl (fun _ _ => Or.inl rfl), rfl, old, hregular⟩

/-- Inside a write: `whole` was there before it and `sent` has arrived since. -/
structure Appending (Record : List UInt8 → Prop) (path : String) (whole sent : List UInt8)
    (s : SinkState) : Prop where
  path_eq : s.sink.path = path
  maxFiles_pos : 1 ≤ s.sink.maxFiles
  archives : ∀ index, CompleteLines Record (content s.disk (archive path index))
  active : s.disk path = some (.Regular (whole ++ sent))

theorem Ready.appending (h : Ready Record path s) :
    ∃ whole, CompleteLines Record whole ∧ Appending Record path whole [] s := by
  obtain ⟨old, hold⟩ := h.regular
  have hcomplete := h.whole.complete path (Or.inl rfl)
  refine ⟨old, by simpa [content, hold] using hcomplete, h.whole.path_eq,
    h.whole.maxFiles_pos, fun index => h.whole.complete _ (Or.inr ⟨index, rfl⟩), by simpa using hold⟩

namespace Appending

variable {whole sent : List UInt8}

theorem reach (h : Appending Record path whole sent s) (bytes : List UInt8)
    (file : Option (List UInt8)) :
    Appending Record path whole (sent ++ bytes) ((s.reach bytes).keep file) where
  path_eq := h.path_eq
  maxFiles_pos := h.maxFiles_pos
  archives := by
    intro index
    simp only [SinkState.reach, SinkState.keep, h.path_eq]
    rw [content_congr (append_other _ (archive_ne_path path index) _)]
    exact h.archives index
  active := by
    simp only [SinkState.reach, SinkState.keep, h.path_eq]
    rw [append_same h.active, List.append_assoc]

theorem lines (h : Appending Record path whole sent s) (hwhole : CompleteLines Record whole)
    {body : List UInt8} (hbody : Record body) (hclean : newline ∉ body)
    (hbegins : sent <+: terminated body) : Lines Record path s where
  path_eq := h.path_eq
  archives := h.archives
  active := by
    have hcontent : content s.disk path = whole ++ sent := by simp [content, h.active]
    rw [hcontent]
    exact hwhole.append_prefix hbody hclean hbegins

theorem ready (h : Appending Record path whole sent s) (hwhole : CompleteLines Record whole)
    {body : List UInt8} (hbody : Record body) (hsent : sent = terminated body)
    (hfile : s.sink.file = some []) : Ready Record path s where
  whole := by
    refine ⟨h.path_eq, h.maxFiles_pos, ?_⟩
    rintro other (rfl | ⟨index, rfl⟩)
    · have hcontent : content s.disk other = whole ++ sent := by simp [content, h.active]
      rw [hcontent, hsent]
      exact hwhole.append_line hbody
    · exact h.archives index
  file_eq := hfile
  regular := ⟨_, h.active⟩

end Appending

/-- Wherever the write stops, what has arrived is a beginning of the line. -/
theorem meets_appendLine_ready (h : Ready Record path s) {body : List UInt8}
    (hbody : Record body) (hclean : newline ∉ body) :
    Meets (appendLine (terminated body)) (fun _ => Ready Record path) (Lines Record path) s := by
  obtain ⟨whole, hwhole, happending⟩ := h.appending
  have hbuffered : s.buffered = [] := by simp [SinkState.buffered, h.file_eq]
  have htorn (line : List UInt8) (reached : Nat) (hline : line <+: terminated body) :
      Lines Record path (s.transfer (s.buffered ++ line) reached) := by
    refine (happending.reach _ _).lines hwhole hbody hclean ?_
    rw [hbuffered]
    exact (List.take_prefix _ _).trans hline
  unfold appendLine
  refine meets_bind (meets_state.mpr ?_)
  rw [h.file_eq]
  unfold writeAll flush
  refine meets_bind (meets_operation (fun reached => ⟨htorn _ reached (List.prefix_refl _), ?_⟩)
    (fun taken reached => htorn _ reached (List.take_prefix _ _)))
  rintro _ _
  have hsent : Appending Record path whole ((terminated body).take reached)
      (s.transfer (s.buffered ++ terminated body) reached) := by
    have hreach := happending.reach ((terminated body).take reached)
      (some ((terminated body).drop reached))
    simpa [SinkState.transfer, hbuffered] using hreach
  have hkept : (s.transfer (s.buffered ++ terminated body) reached).buffered =
      (terminated body).drop reached := by
    simp [SinkState.transfer, SinkState.keep, SinkState.buffered, h.file_eq]
  have hall := List.take_append_drop reached (terminated body)
  refine meets_bind (meets_operation (fun _ => ?_) (fun _ flushed => ?_))
  · have hready := (hsent.reach ((terminated body).drop reached) (some [])).ready hwhole hbody
      hall rfl
    rw [hkept]
    refine ⟨hready.whole.lines, fun _ _ => (meets_update _).mpr ?_⟩
    exact ⟨hready.whole.disk rfl rfl (fun _ _ => Or.inl rfl), hready.file_eq, hready.regular⟩
  · rw [hkept]
    refine (hsent.reach _ _).lines hwhole hbody hclean ?_
    conv_rhs => rw [← hall]
    exact (List.prefix_append_right_inj _).mpr (List.take_prefix _ _)

theorem meets_write_ready (h : Ready Record path s) {body : List UInt8}
    (hbody : Record body) (hclean : newline ∉ body) :
    Meets (FileSink.write (terminated body)) (fun _ => Ready Record path)
      (Lines Record path) s := by
  unfold FileSink.write rotateIfFull
  refine meets_bind (meets_state.mpr (meets_bind (meets_ensureIo _ h.whole.lines (fun _ => ?_))))
  refine meets_bind (meets_bind (meets_state.mpr ?_))
  dsimp only
  split_ifs
  · refine meets_mono (meets_rotate_ready h) ?_ (fun _ hs => hs)
    rintro _ next hnext
    exact meets_appendLine_ready hnext hbody hclean
  · exact (meets_pure _).mpr (meets_appendLine_ready h hbody hclean)

theorem Lines.created (h : Lines Record path s) (name : String) :
    Lines Record path (s.created name) where
  path_eq := h.path_eq
  archives := by
    intro index
    simp only [SinkState.created, content_create]
    exact h.archives index
  active := by
    simp only [SinkState.created, content_create]
    exact h.active

/-- Opening refuses an unfinished line and otherwise yields a sink between two
writes. -/
theorem meets_open_ready (h : Lines Record path s) (maxBytes maxFiles : Nat) :
    Meets (FileSink.open path maxBytes maxFiles)
      (fun _ next => CompleteLines Record (content s.disk path) ∧ Ready Record path next)
      (Lines Record path) s := by
  have hlock := h.created (suffixed path ".lock")
  have hcreated := hlock.created path
  unfold FileSink.open acquireLock
  refine meets_bind (meets_ensureIo _ h (fun hlimits => ?_))
  refine meets_bind (meets_bind (meets_symlinkMetadata _ _ h (meets_bind
    (meets_ensureIo _ h (fun _ => meets_bind
      (meets_openFile _ _ h hlock (fun _ => meets_inspect hlock ?_)))))))
  refine meets_bind (meets_openLog path hlock hcreated (fun old hold hlast => ?_))
  have hcontent : content s.disk path = old := by
    have hsame : content ((s.created (suffixed path ".lock")).created path).disk path =
        content s.disk path := by simp only [SinkState.created, content_create]
    rw [← hsame]
    simp [content, hold]
  have hcomplete := h.active.complete (hcontent ▸ hlast)
  refine (meets_update _).mpr ⟨hcomplete, ⟨rfl, (of_decide_eq_true hlimits).2, ?_⟩, rfl, old, hold⟩
  rintro other (rfl | ⟨index, rfl⟩)
  · have hsame := hcontent ▸ hcomplete
    simpa [content, hold] using hsame
  · exact hcreated.archives index

end Preservation

/-! ### Runs of the program, one after the other -/

section Runs

variable {Record : List UInt8 → Prop}

/-- `live` says whether a writer holds the sink. -/
structure LogRun where
  state : SinkState
  live : Bool

/-- `stop` is the end of a writer between two writes: all producers gone, the
other sink failed, or the process killed there. A failure, a deadline or a
crash inside an operation is in the schedule of that operation. -/
inductive LogStep (Record : List UInt8 → Prop) where
  | open (maxBytes maxFiles : Nat) (schedule : List Verdict)
  | write (body : Subtype Record) (schedule : List Verdict)
  | stop

/-- The writer goes on only after success; it gives up the sink otherwise. -/
def LogRun.after (outcome : Outcome (World SinkState) (Except String PUnit)) : LogRun :=
  match outcome with
  | .done (.ok _) world => ⟨world.state, true⟩
  | .done (.error _) world => ⟨world.state, false⟩
  | .dropped world => ⟨world.state, false⟩

def LogRun.step (path : String) (run : LogRun) : LogStep Record → Option LogRun
  | .open maxBytes maxFiles schedule =>
      if run.live then none
      else some (.after ((FileSink.open path maxBytes maxFiles).run ⟨run.state, schedule⟩))
  | .write body schedule =>
      if run.live then
        some (.after ((FileSink.write (terminated body.1)).run ⟨run.state, schedule⟩))
      else none
  | .stop => if run.live then some { run with live := false } else none

/-- What is true between two steps. -/
def LogRun.Sound (Record : List UInt8 → Prop) (path : String) (run : LogRun) : Prop :=
  if run.live then Ready Record path run.state else Lines Record path run.state

theorem LogRun.Sound.lines {path : String} {run : LogRun} (h : run.Sound Record path) :
    Lines Record path run.state := by
  unfold LogRun.Sound at h
  split_ifs at h
  · exact h.whole.lines
  · exact h

theorem LogRun.sound_after {path : String} {op : SinkIo PUnit} {s : SinkState}
    (hop : Meets op (fun _ => Ready Record path) (Lines Record path) s)
    (schedule : List Verdict) :
    (LogRun.after (op.run ⟨s, schedule⟩)).Sound Record path := by
  have hwp := hop schedule
  unfold Future.wp at hwp
  unfold LogRun.after LogRun.Sound
  cases hrun : op.run ⟨s, schedule⟩ with
  | dropped world => simpa [hrun] using hwp
  | done result world =>
      rw [hrun] at hwp
      cases result with
      | ok value => simpa using hwp
      | error error => simpa using hwp

theorem LogRun.Sound.step {path : String} (hrecord : ∀ body, Record body → newline ∉ body)
    {run next : LogRun} {label : LogStep Record} (h : run.Sound Record path)
    (hstep : run.step path label = some next) : next.Sound Record path := by
  cases label with
  | «open» maxBytes maxFiles schedule =>
      simp only [LogRun.step] at hstep
      split_ifs at hstep with hlive
      obtain rfl := Option.some.inj hstep
      exact LogRun.sound_after (meets_mono (meets_open_ready h.lines maxBytes maxFiles)
        (fun _ _ hnext => hnext.2) (fun _ hs => hs)) schedule
  | write body schedule =>
      simp only [LogRun.step] at hstep
      split_ifs at hstep with hlive
      obtain rfl := Option.some.inj hstep
      have hready : Ready Record path run.state := by simpa [LogRun.Sound, hlive] using h
      exact LogRun.sound_after
        (meets_write_ready hready body.2 (hrecord body.1 body.2)) schedule
  | stop =>
      simp only [LogRun.step] at hstep
      split_ifs at hstep with hlive
      obtain rfl := Option.some.inj hstep
      exact h.lines

/-- In every state a run reaches, the archives consist of complete records,
the active file of complete records and at most one unfinished line, and while
there is one nobody holds the sink and opening it fails under every schedule. -/
theorem line_integrity (hrecord : ∀ body, Record body → newline ∉ body) (path : String)
    (maxBytes maxFiles : Nat) (initial : Dir)
    (hinitial : ∀ other, IsLog path other → CompleteLines Record (content initial other))
    (labels : List (LogStep Record)) (run : LogRun)
    (hrun : Steps.run (LogRun.step path) ⟨.boot path maxBytes maxFiles initial, false⟩ labels =
      some run) :
    (∀ index, CompleteLines Record (content run.state.disk (archive path index))) ∧
    ∃ whole tail, CompleteLines Record whole ∧ content run.state.disk path = whole ++ tail ∧
      Unfinished Record tail ∧
      (tail ≠ [] → run.live = false ∧ ∀ maxBytes maxFiles schedule value world,
        (FileSink.open path maxBytes maxFiles).run ⟨run.state, schedule⟩ ≠
          .done (.ok value) world) := by
  have hsound : run.Sound Record path := by
    refine Steps.run_invariant (fun _ _ _ h hstep => h.step hrecord hstep) ?_ hrun
    exact ⟨rfl, fun index => hinitial _ (Or.inr ⟨index, rfl⟩),
      (hinitial path (Or.inl rfl)).activeLog⟩
  have hlines := hsound.lines
  obtain ⟨whole, tail, hwhole, hcontent, htail⟩ := hlines.active
  refine ⟨hlines.archives, whole, tail, hwhole, hcontent, htail, ?_⟩
  intro hunfinished
  have hincomplete : ¬ CompleteLines Record (content run.state.disk path) := by
    rintro ⟨bodies, _, hbodies⟩
    rcases List.eq_nil_or_concat' tail with hnil | ⟨front, last, rfl⟩
    · exact hunfinished hnil
    · rw [hcontent, ← List.append_assoc] at hbodies
      rcases List.eq_nil_or_concat' bodies with rfl | ⟨before, body, rfl⟩
      · simp at hbodies
      · rw [List.flatMap_append, List.flatMap_singleton, terminated, ← List.append_assoc] at hbodies
        have hlast : last = newline := by
          have hend := congrArg List.getLast? hbodies
          simpa [List.getLast?_concat] using hend
        exact htail.1 (by simp [hlast])
  constructor
  · cases hlive : run.live with
    | false => rfl
    | true =>
        have hready : Ready Record path run.state := by simpa [LogRun.Sound, hlive] using hsound
        exact absurd (hready.whole.complete path (Or.inl rfl)) hincomplete
  · intro maxBytes maxFiles schedule value world hdone
    exact hincomplete (meets_done (meets_open_ready hlines maxBytes maxFiles) hdone).1

/-- One whole record, one that the deadline cuts off after a byte. -/
theorem line_integrity_torn :
    ∃ run, Steps.run (LogRun.step "log")
        ⟨.boot "log" 1048576 3 (fun _ => none), false⟩
        [.open 1048576 3 [], .write ⟨[123, 125], rfl⟩ [], .write ⟨[123, 125], rfl⟩ [.Drop 2 1]] =
        some run ∧
      ∀ index, CompleteLines (· = [123, 125]) (content run.state.disk (archive "log" index)) := by
  obtain ⟨run, hrun⟩ := Option.isSome_iff_exists.mp
    (show (Steps.run (@LogRun.step (· = [123, 125]) "log")
      ⟨.boot "log" 1048576 3 (fun _ => none), false⟩
      [.open 1048576 3 [], .write ⟨[123, 125], rfl⟩ [],
        .write ⟨[123, 125], rfl⟩ [.Drop 2 1]]).isSome = true from rfl)
  exact ⟨run, hrun, (line_integrity (by rintro body rfl; decide) "log" 1048576 3 (fun _ => none)
    (fun _ _ => completeLines_nil) _ run hrun).1⟩

end Runs

end Minotaur
