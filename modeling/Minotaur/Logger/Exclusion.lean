import Minotaur.Logger.Lock
import Minotaur.Logger.SizeBound

/-!
The lock makes one writer of many processes. `WriterSpec` is what a single
writer keeps, with its calls dropped anywhere; `Sound` carries it over to any
number of processes that take their operations in any order, as long as the
operations that outlive their calls are over before the lock is taken again.
Who holds the lock, or has left an operation behind, relies on what is left of
its call; everybody else has no part in the log, and opening the lock file
changes nothing once somebody has held the lock.
-/

namespace Minotaur

open Disk Interruptible

/-- What one writer alone keeps: `idle` holds of the directory wherever its
calls are dropped, `ready` of its sink between two calls. -/
structure WriterSpec (Record : List UInt8 → Prop) (path : String) where
  idle : Dir → Prop
  ready : SinkState → Prop
  path_of_ready : ∀ s, ready s → s.sink.path = path
  files_of_ready : ∀ s, ready s → 1 ≤ s.sink.maxFiles
  idle_create : ∀ disk, idle disk → idle (create disk (lockPath path))
  opens : ∀ s maxBytes maxFiles, 0 < maxFiles → s.sink.path = path → idle s.disk →
    Meets (openSink path maxBytes maxFiles) (fun _ => ready) (fun s => idle s.disk) s
  writes : ∀ s body, Record body → ready s →
    Meets (FileSink.write (terminated body)) (fun _ => ready) (fun s => idle s.disk) s

namespace WriterSpec

variable {Record : List UInt8 → Prop} {path : String} (spec : WriterSpec Record path)

/-- What a call of a writer has yet to meet. -/
def Meets (node : Option Node) (script : SinkScript PUnit) (s : SinkState) : Prop :=
  Interruptible.Meets script.toOp (fun _ next => spec.ready next ∧ next.disk (lockPath path) = node)
    (fun next => spec.idle next.disk ∧ next.disk (lockPath path) = node) s

/-- What a task relies on as long as its phase lasts. -/
def Holds (disk : Dir) (task : SinkTask) : Prop :=
  match task.phase with
  | .Calling script | .Dropped script =>
      spec.Meets (disk (lockPath path)) script (task.now disk)
  | .Live => spec.ready (task.now disk)
  | .Over => True
  | _ => task.sink.sink.path = path ∧ 0 < task.maxFiles

theorem meets_openSink {s : SinkState} (hpath : s.sink.path = path) (hidle : spec.idle s.disk)
    {maxFiles : Nat} (hfiles : 0 < maxFiles) (maxBytes : Nat) :
    spec.Meets (s.disk (lockPath path)) (SinkScript.openSink path maxBytes maxFiles) s := by
  unfold Meets
  rw [SinkScript.toOp_openSink]
  refine meets_mono (meets_and (spec.opens s maxBytes maxFiles hfiles hpath hidle)
    (meets_openSink_beside ⟨hpath, rfl⟩ maxBytes maxFiles)) ?_ ?_
  · exact fun _ next hnext => ⟨hnext.1, hnext.2.node_eq⟩
  · exact fun next hnext => ⟨hnext.1, hnext.2.node_eq⟩

theorem meets_write {s : SinkState} (hready : spec.ready s) {body : List UInt8}
    (hbody : Record body) :
    spec.Meets (s.disk (lockPath path)) (SinkScript.write (terminated body)) s := by
  unfold Meets
  rw [SinkScript.toOp_write]
  refine meets_mono (meets_and (spec.writes s body hbody hready)
    (meets_write_beside ⟨spec.path_of_ready s hready, rfl⟩ (spec.files_of_ready s hready) _)) ?_ ?_
  · exact fun _ next hnext => ⟨hnext.1, hnext.2.node_eq⟩
  · exact fun next hnext => ⟨hnext.1, hnext.2.node_eq⟩

/-- The processes do not disturb one another. -/
structure Sound (host : LogHost) : Prop where
  idle : spec.idle host.disk
  owner : ∀ index, host.lock = some index ↔
    ∃ task, host.tasks[index]? = some task ∧ task.phase.holds = true
  alone : ∀ (first second : Nat) (task other : SinkTask), host.tasks[first]? = some task →
    host.tasks[second]? = some other → task.phase.touches = true → other.phase.touches = true →
    first = second
  lockFile : ∀ task ∈ host.tasks, task.phase.opened = true →
    LogHost.isRegular host.disk (lockPath path) = true
  tasks : ∀ task ∈ host.tasks, spec.Holds host.disk task

theorem opened_of_touches {phase : SinkPhase} (htouches : phase.touches = true) :
    phase.opened = true := by
  cases phase with
  | Securing | Calling | Live | Dropped => rfl
  | Inspecting | OpeningLock | CheckingLock | Locking | Over => cases htouches

theorem touches_of_holds {phase : SinkPhase} (hholds : phase.holds = true) :
    phase.touches = true := by
  rw [SinkPhase.touches, hholds, Bool.true_or]

/-- A task that does not touch the log does not look at it. -/
theorem Holds.congr {disk next : Dir} {task : SinkTask} (h : spec.Holds disk task)
    (hdisk : next = disk ∨ task.phase.touches = false) : spec.Holds next task := by
  obtain rfl | hphase := hdisk
  · exact h
  · unfold Holds at h ⊢
    cases hcase : task.phase with
    | Securing | Calling | Live | Dropped =>
        rw [hcase] at hphase
        cases hphase
    | Inspecting | OpeningLock | CheckingLock | Locking | Over =>
        rw [hcase] at h
        exact h

/-- Nobody else touches the log. -/
def Quiet (host : LogHost) (index : Nat) : Prop :=
  ∀ other task, other ≠ index → host.tasks[other]? = some task → task.phase.touches = false

theorem Sound.quiet {host : LogHost} (h : spec.Sound host) {index : Nat} {task : SinkTask}
    (htask : host.tasks[index]? = some task) (htouches : task.phase.touches = true) :
    Quiet host index := by
  intro place other hne hother
  refine Bool.eq_false_iff.mpr fun hphase => hne ?_
  exact h.alone place index other task hother htask hphase htouches

/-- One task moves; the others see the old directory or have no part in it. -/
theorem Sound.setTask {host : LogHost} (h : spec.Sound host) {index : Nat} {task next : SinkTask}
    (htask : host.tasks[index]? = some task) {disk : Dir} {lock : Option Nat}
    (hidle : spec.idle disk) (hdisk : disk = host.disk ∨ Quiet host index)
    (hlockFile : LogHost.isRegular host.disk (lockPath path) = true →
      LogHost.isRegular disk (lockPath path) = true)
    (hlock : lock = host.lock ∨ host.lock = none ∧ lock = some index)
    (hholds : next.phase.holds = true → lock = some index)
    (halone : next.phase.touches = true → Quiet host index)
    (hopened : next.phase.opened = true → LogHost.isRegular disk (lockPath path) = true)
    (hnext : spec.Holds disk next) :
    spec.Sound (LogHost.setTask ⟨disk, lock, host.tasks⟩ index next) := by
  have hlength : index < host.tasks.length := (List.getElem?_eq_some_iff.mp htask).1
  have hself : (host.tasks.set index next)[index]? = some next := List.getElem?_set_self hlength
  have hother : ∀ other, other ≠ index →
      (host.tasks.set index next)[other]? = host.tasks[other]? := fun other hne =>
    List.getElem?_set_ne (Ne.symm hne)
  -- Beside a task that touches the log the moved one does not.
  have hbeside : ∀ place found, place ≠ index → host.tasks[place]? = some found →
      found.phase.touches = true → next.phase.touches ≠ true := by
    intro place found hne hplace htouches hmoved
    rw [halone hmoved place found hne hplace] at htouches
    cases htouches
  refine ⟨hidle, ?_, ?_, ?_, ?_⟩
  · intro other
    simp only [LogHost.setTask]
    by_cases heq : other = index
    · subst heq
      rw [hself]
      simp only [Option.some.injEq, exists_eq_left']
      cases hphase : next.phase.holds with
      | true => simp [hholds hphase]
      | false =>
          simp only [true_and, Bool.false_eq_true, iff_false]
          split_ifs with hmine
          · nofun
          · exact hmine
    · rw [hother other heq, ← h.owner other]
      obtain rfl | ⟨hfree, rfl⟩ := hlock
      · split_ifs with hmine
        · simp [hmine.2, Ne.symm heq]
        · rfl
      · rw [hfree]
        split_ifs
        · rfl
        · simp [Ne.symm heq]
  · intro first second found found' hfirst hsecond htouches htouches'
    by_cases hmine : first = index
    · by_cases hmine' : second = index
      · rw [hmine, hmine']
      · subst hmine
        obtain rfl := Option.some.inj (hself.symm.trans hfirst)
        exact absurd htouches
          (hbeside second found' hmine' ((hother second hmine').symm.trans hsecond) htouches')
    · have hfirst' := (hother first hmine).symm.trans hfirst
      by_cases hmine' : second = index
      · subst hmine'
        obtain rfl := Option.some.inj (hself.symm.trans hsecond)
        exact absurd htouches' (hbeside first found hmine hfirst' htouches)
      · exact h.alone first second found found' hfirst'
          ((hother second hmine').symm.trans hsecond) htouches htouches'
  · intro other hmem hphase
    rcases List.mem_or_eq_of_mem_set hmem with hmem | rfl
    · exact hlockFile (h.lockFile other hmem hphase)
    · exact hopened hphase
  · intro other hmem
    obtain ⟨place, hplace⟩ := List.getElem?_of_mem hmem
    by_cases heq : place = index
    · subst heq
      obtain rfl := Option.some.inj (hself.symm.trans hplace)
      exact hnext
    · replace hplace : host.tasks[place]? = some other := (hother place heq).symm.trans hplace
      refine Holds.congr spec (h.tasks other (List.mem_of_getElem? hplace)) ?_
      exact hdisk.imp (fun hsame => hsame) (fun hquiet => hquiet place other heq hplace)

/-- A task that goes on without touching the log, or gives up. -/
theorem Sound.phase {host : LogHost} (h : spec.Sound host) {index : Nat} {task : SinkTask}
    (htask : host.tasks[index]? = some task) {phase : SinkPhase} (hquiet : phase.touches = false)
    (hopened : phase.opened = true → LogHost.isRegular host.disk (lockPath path) = true)
    (hnext : spec.Holds host.disk { task with phase := phase }) :
    spec.Sound (host.setTask index { task with phase := phase }) := by
  have hidles : phase.touches ≠ true := by rw [hquiet]; nofun
  exact h.setTask spec htask h.idle (Or.inl rfl) (fun h => h) (Or.inl rfl)
    (fun hholds => absurd (touches_of_holds hholds) hidles)
    (fun htouches => absurd htouches hidles) hopened hnext

theorem Sound.over {host : LogHost} (h : spec.Sound host) {index : Nat} {task : SinkTask}
    (htask : host.tasks[index]? = some task) :
    spec.Sound (host.setTask index { task with phase := .Over }) :=
  h.phase spec htask rfl nofun trivial

theorem Sound.spawn {host : LogHost} (h : spec.Sound host) (maxBytes maxFiles : Nat) :
    spec.Sound (host.spawn path maxBytes maxFiles) := by
  have hphase : ∀ task ∈ (host.spawn path maxBytes maxFiles).tasks, task ∈ host.tasks ∨
      task.phase.touches = false ∧ task.phase.opened = false ∧
        spec.Holds host.disk task := by
    intro task hmem
    rcases List.mem_append.mp hmem with hmem | hmem
    · exact Or.inl hmem
    · obtain rfl := List.mem_singleton.mp hmem
      unfold Holds
      dsimp only
      split_ifs with hlimits
      · exact Or.inr ⟨rfl, rfl, rfl, hlimits.2⟩
      · exact Or.inr ⟨rfl, rfl, trivial⟩
  -- The new task does not touch the log.
  have hold : ∀ {index : Nat} {task : SinkTask},
      (host.spawn path maxBytes maxFiles).tasks[index]? = some task →
      task.phase.touches = true → host.tasks[index]? = some task := by
    intro index task htask htouches
    rcases Nat.lt_or_ge index host.tasks.length with hlt | hge
    · exact (List.getElem?_append_left hlt).symm.trans htask
    · have hnew := List.mem_singleton.mp
        (List.mem_of_getElem? ((List.getElem?_append_right hge).symm.trans htask))
      rw [hnew] at htouches
      dsimp only at htouches
      split_ifs at htouches <;> cases htouches
  refine ⟨h.idle, ?_, ?_, ?_, ?_⟩
  · intro index
    rw [show (host.spawn path maxBytes maxFiles).lock = host.lock from rfl, h.owner index]
    constructor
    · rintro ⟨task, htask, hholds⟩
      refine ⟨task, ?_, hholds⟩
      exact (List.getElem?_append_left (List.getElem?_eq_some_iff.mp htask).1).trans htask
    · rintro ⟨task, htask, hholds⟩
      exact ⟨task, hold htask (touches_of_holds hholds), hholds⟩
  · intro first second task other hfirst hsecond htouches htouches'
    exact h.alone first second task other (hold hfirst htouches) (hold hsecond htouches') htouches
      htouches'
  · intro task hmem hopened
    obtain hmine | ⟨_, hclosed, _⟩ := hphase task hmem
    · exact h.lockFile task hmine hopened
    · rw [hclosed] at hopened
      cases hopened
  · intro task hmem
    obtain hmine | ⟨_, _, hholds⟩ := hphase task hmem
    · exact h.tasks task hmine
    · exact hholds

theorem isRegular_create {disk : Dir} (hother : disk (lockPath path) ≠ some .Other) :
    LogHost.isRegular (create disk (lockPath path)) (lockPath path) = true := by
  unfold LogHost.isRegular create
  cases hnode : disk (lockPath path) with
  | none => simp
  | some node =>
      cases node with
      | Regular content => simp [hnode]
      | Other => exact absurd hnode hother

theorem create_of_regular {disk : Dir} (hregular : LogHost.isRegular disk (lockPath path) = true) :
    create disk (lockPath path) = disk := by
  unfold LogHost.isRegular at hregular
  unfold create
  cases hnode : disk (lockPath path) with
  | none =>
      rw [hnode] at hregular
      cases hregular
  | some node => rfl

/-- Beside a task that touches the log, opening the lock file changes
nothing. -/
theorem Sound.create_others {host : LogHost} (h : spec.Sound host) {index : Nat} :
    create host.disk (lockPath path) = host.disk ∨ Quiet host index := by
  cases hregular : LogHost.isRegular host.disk (lockPath path) with
  | true => exact Or.inl (create_of_regular hregular)
  | false =>
      refine Or.inr fun other task _ htask => Bool.eq_false_iff.mpr fun htouches => ?_
      have hfile := h.lockFile task (List.mem_of_getElem? htask) (opened_of_touches htouches)
      rw [hregular] at hfile
      cases hfile

theorem Sound.owned {host : LogHost} (h : spec.Sound host) {index : Nat} {task : SinkTask}
    (htask : host.tasks[index]? = some task) (hholds : task.phase.holds = true) :
    host.lock = some index := (h.owner index).mpr ⟨task, htask, hholds⟩

/-- What an operation of a call leaves behind, whether or not the call goes
on. -/
theorem Sound.seen {host : LogHost} (h : spec.Sound host) {task : SinkTask}
    {script : SinkScript PUnit} {verdict : Verdict} {left : Option (SinkScript PUnit)}
    {sink : SinkState} (hmem : task ∈ host.tasks) (hopened : task.phase.opened = true)
    (hmeets : spec.Meets (host.disk (lockPath path)) script (task.now host.disk))
    (hstep : script.step verdict (task.now host.disk) = (left, sink)) :
    (spec.idle sink.disk ∧ sink.disk (lockPath path) = host.disk (lockPath path)) ∧
      LogHost.isRegular sink.disk (lockPath path) = true := by
  have hseen : spec.idle sink.disk ∧ sink.disk (lockPath path) = host.disk (lockPath path) :=
    @Script.shared_step _ _ _ _ SinkState.disk _ _ _ script left verdict
      (fun disk => spec.idle disk ∧ disk (lockPath path) = host.disk (lockPath path)) hmeets
      ⟨h.idle, rfl⟩ hstep
  refine ⟨hseen, ?_⟩
  unfold LogHost.isRegular
  rw [hseen.2]
  exact h.lockFile task hmem hopened

/-- One operation of a call. -/
theorem Sound.call {host : LogHost} (h : spec.Sound host) {index : Nat} {task : SinkTask}
    {script : SinkScript PUnit} {verdict : Verdict} {left : Option (SinkScript PUnit)}
    {sink : SinkState} (htask : host.tasks[index]? = some task)
    (hphase : task.phase = .Calling script)
    (hstep : script.step verdict (task.now host.disk) = (left, sink)) :
    spec.Sound ({ host with disk := sink.disk }.setTask index
      { task with phase := .after left, sink := sink }) := by
  have hmem := List.mem_of_getElem? htask
  have hquiet : Quiet host index := h.quiet spec htask (by rw [hphase]; rfl)
  have hmeets : spec.Meets (host.disk (lockPath path)) script (task.now host.disk) := by
    have hholds := h.tasks task hmem
    unfold Holds at hholds
    rw [hphase] at hholds
    exact hholds
  obtain ⟨hseen, hkept⟩ := h.seen spec hmem (by rw [hphase]; rfl) hmeets hstep
  refine h.setTask spec htask hseen.1 (Or.inr hquiet) (fun _ => hkept) (Or.inl rfl)
    (fun _ => h.owned spec htask (by rw [hphase]; rfl)) (fun _ => hquiet) (fun _ => hkept) ?_
  cases left with
  | none => trivial
  | some next =>
      have hrest := Script.meets_step hmeets hstep
      cases next with
      | done result =>
          cases result with
          | ok value => exact ((meets_pure value).mp hrest).1
          | error error => trivial
      | await | own =>
          unfold Holds Meets
          rw [← hseen.2] at hrest
          exact hrest

/-- The operation that outlived its call happens. -/
theorem Sound.outlived {host : LogHost} (h : spec.Sound host) {index : Nat} {task : SinkTask}
    {script : SinkScript PUnit} {verdict : Verdict} {left : Option (SinkScript PUnit)}
    {sink : SinkState} (htask : host.tasks[index]? = some task)
    (hphase : task.phase = .Dropped script)
    (hstep : script.step verdict (task.now host.disk) = (left, sink)) :
    spec.Sound ({ host with disk := sink.disk }.setTask index
      { task with phase := .Over, sink := sink }) := by
  have hmem := List.mem_of_getElem? htask
  have hquiet : Quiet host index := h.quiet spec htask (by rw [hphase]; rfl)
  have hmeets : spec.Meets (host.disk (lockPath path)) script (task.now host.disk) := by
    have hholds := h.tasks task hmem
    unfold Holds at hholds
    rw [hphase] at hholds
    exact hholds
  obtain ⟨hseen, hkept⟩ := h.seen spec hmem (by rw [hphase]; rfl) hmeets hstep
  exact h.setTask spec htask hseen.1 (Or.inr hquiet) (fun _ => hkept) (Or.inl rfl) nofun nofun
    nofun trivial

/-- Who takes the lock finds nobody in the log. -/
theorem Sound.quiet_of_free {host : LogHost} (h : spec.Sound host) (hfree : host.lock = none)
    (hover : ∀ task ∈ host.tasks, task.phase.outlives = false) (index : Nat) :
    Quiet host index := by
  intro other task _ htask
  unfold SinkPhase.touches
  rw [hover task (List.mem_of_getElem? htask), Bool.or_false]
  refine Bool.eq_false_iff.mpr fun hholds => ?_
  rw [h.owned spec htask hholds] at hfree
  cases hfree

theorem Sound.advance {host next : LogHost} (h : spec.Sound host) {index : Nat} {task : SinkTask}
    {verdict : Verdict} (htask : host.tasks[index]? = some task)
    (hsettled : host.settled (.advance index verdict : HostLabel Record) = true)
    (hstep : host.advance path index task verdict = some next) : spec.Sound next := by
  have hmem := List.mem_of_getElem? htask
  have hrelies := h.tasks task hmem
  have hgo : ∀ {after : LogHost} (phase : SinkPhase),
      spec.Sound (after.setTask index { task with phase := .Over }) →
      spec.Sound (after.setTask index { task with phase := phase }) →
      spec.Sound (after.setTask index
        { task with phase := if verdict.goes then phase else .Over }) := by
    intro after phase hover hgoes
    split_ifs
    · exact hgoes
    · exact hover
  unfold LogHost.advance at hstep
  dsimp only at hstep
  unfold Holds at hrelies
  cases hphase : task.phase with
  | Inspecting =>
      rw [hphase] at hstep hrelies
      obtain rfl := Option.some.inj hstep
      refine hgo _ (h.over spec htask) ?_
      split_ifs
      · exact h.over spec htask
      · exact h.phase spec htask rfl nofun hrelies
  | OpeningLock =>
      rw [hphase] at hstep hrelies
      dsimp only at hstep
      by_cases hother : host.disk (lockPath path) = some .Other
      · rw [if_pos hother] at hstep
        obtain rfl := Option.some.inj hstep
        exact hgo _ (h.over spec htask) (h.over spec htask)
      · rw [if_neg hother] at hstep
        obtain rfl := Option.some.inj hstep
        cases verdict with
        | Fail | Drop => exact h.over spec htask
        | DropAfter =>
            exact h.setTask spec htask (spec.idle_create _ h.idle) (h.create_others spec)
              (fun _ => isRegular_create hother) (Or.inl rfl) nofun nofun nofun trivial
        | Go =>
            exact h.setTask spec htask (spec.idle_create _ h.idle) (h.create_others spec)
              (fun _ => isRegular_create hother) (Or.inl rfl) nofun nofun
              (fun _ => isRegular_create hother) hrelies
  | CheckingLock =>
      rw [hphase] at hstep hrelies
      obtain rfl := Option.some.inj hstep
      refine hgo _ (h.over spec htask) ?_
      split_ifs with hregular
      · exact h.phase spec htask rfl (fun _ => hregular) hrelies
      · exact h.over spec htask
  | Locking =>
      rw [hphase] at hstep hrelies
      dsimp only at hstep
      by_cases htaken : (host.lock.isSome || !verdict.goes) = true
      · rw [if_pos htaken] at hstep
        obtain rfl := Option.some.inj hstep
        exact hgo _ (h.over spec htask) (h.over spec htask)
      · rw [if_neg htaken] at hstep
        obtain rfl := Option.some.inj hstep
        have hfree : host.lock = none := by
          simp only [Bool.or_eq_true, not_or] at htaken
          simpa using htaken.1
        have hopened := h.lockFile task hmem (by rw [hphase]; rfl)
        cases verdict with
        | Fail | Drop | DropAfter => simp [Verdict.goes] at htaken
        | Go reached =>
            have hover : ∀ task ∈ host.tasks, task.phase.outlives = false := by
              simpa [LogHost.settled, htask, hphase, SinkPhase.locks] using hsettled
            exact h.setTask spec htask h.idle (Or.inl rfl) (fun h => h) (Or.inr ⟨hfree, rfl⟩)
              (fun _ => rfl) (fun _ => h.quiet_of_free spec hfree hover index) (fun _ => hopened)
              hrelies
  | Securing =>
      rw [hphase] at hstep hrelies
      obtain rfl := Option.some.inj hstep
      refine hgo _ (h.over spec htask) ?_
      refine h.setTask spec htask h.idle (Or.inl rfl) (fun h => h) (Or.inl rfl) ?_ ?_ ?_ ?_
      · exact fun _ => h.owned spec htask (by rw [hphase]; rfl)
      · exact fun _ => h.quiet spec htask (by rw [hphase]; rfl)
      · exact fun _ => h.lockFile task hmem (by rw [hphase]; rfl)
      · exact @meets_openSink _ _ spec (task.now host.disk) hrelies.1 h.idle _ hrelies.2 task.maxBytes
  | Calling script =>
      rw [hphase] at hstep
      dsimp only at hstep
      cases hscript : script.step verdict (task.now host.disk) with
      | mk left sink =>
          rw [hscript] at hstep
          obtain rfl := Option.some.inj hstep
          exact h.call spec htask hphase hscript
  | Dropped script =>
      rw [hphase] at hstep
      dsimp only at hstep
      cases hscript : script.step verdict (task.now host.disk) with
      | mk left sink =>
          rw [hscript] at hstep
          obtain rfl := Option.some.inj hstep
          exact h.outlived spec htask hphase hscript
  | Live | Over =>
      rw [hphase] at hstep
      cases hstep

theorem Sound.step {host next : LogHost} (h : spec.Sound host) {label : HostLabel Record}
    (hsettled : host.settled label = true) (hstep : host.step path label = some next) :
    spec.Sound next := by
  cases label with
  | spawn maxBytes maxFiles =>
      obtain rfl := Option.some.inj hstep
      exact h.spawn spec maxBytes maxFiles
  | advance index verdict =>
      obtain ⟨task, htask, hstep⟩ := Option.bind_eq_some_iff.mp hstep
      exact h.advance spec htask hsettled hstep
  | write index body =>
      obtain ⟨task, htask, hstep⟩ := Option.bind_eq_some_iff.mp hstep
      split at hstep
      · rename_i hphase
        obtain rfl := Option.some.inj hstep
        have hmem := List.mem_of_getElem? htask
        have hready : spec.ready (task.now host.disk) := by
          have hholds := h.tasks task hmem
          unfold Holds at hholds
          rw [hphase] at hholds
          exact hholds
        refine h.setTask spec htask h.idle (Or.inl rfl) (fun h => h) (Or.inl rfl) ?_ ?_ ?_ ?_
        · exact fun _ => h.owned spec htask (by rw [hphase]; rfl)
        · exact fun _ => h.quiet spec htask (by rw [hphase]; rfl)
        · exact fun _ => h.lockFile task hmem (by rw [hphase]; rfl)
        · exact spec.meets_write hready body.2
      · cases hstep
  | detach index =>
      obtain ⟨task, htask, hstep⟩ := Option.bind_eq_some_iff.mp hstep
      split at hstep
      · rename_i script hphase
        obtain rfl := Option.some.inj hstep
        have hmem := List.mem_of_getElem? htask
        refine h.setTask spec htask h.idle (Or.inl rfl) (fun h => h) (Or.inl rfl) nofun ?_ ?_ ?_
        · exact fun _ => h.quiet spec htask (by rw [hphase]; rfl)
        · exact fun _ => h.lockFile task hmem (by rw [hphase]; rfl)
        · have hholds := h.tasks task hmem
          unfold Holds at hholds
          rw [hphase] at hholds
          exact hholds
      · cases hstep
  | stop index =>
      obtain ⟨task, htask, rfl⟩ := Option.map_eq_some_iff.mp hstep
      exact h.over spec htask

/-- What is at the path of the lock stays there once it is a file. -/
theorem Sound.lockFile_step {host next : LogHost} (h : spec.Sound host) {label : HostLabel Record}
    (hregular : LogHost.isRegular host.disk (lockPath path) = true)
    (hstep : host.step path label = some next) :
    next.disk (lockPath path) = host.disk (lockPath path) := by
  cases label with
  | spawn maxBytes maxFiles =>
      obtain rfl := Option.some.inj hstep
      rfl
  | advance index verdict =>
      obtain ⟨task, htask, hstep⟩ := Option.bind_eq_some_iff.mp hstep
      have hmem := List.mem_of_getElem? htask
      have hrelies := h.tasks task hmem
      unfold Holds at hrelies
      unfold LogHost.advance at hstep
      dsimp only at hstep
      cases hphase : task.phase with
      | Inspecting | CheckingLock | Securing =>
          rw [hphase] at hstep
          obtain rfl := Option.some.inj hstep
          rfl
      | OpeningLock =>
          rw [hphase] at hstep
          dsimp only at hstep
          by_cases hother : host.disk (lockPath path) = some .Other
          · rw [if_pos hother] at hstep
            obtain rfl := Option.some.inj hstep
            rfl
          · rw [if_neg hother, create_of_regular hregular, ite_self] at hstep
            obtain rfl := Option.some.inj hstep
            rfl
      | Locking =>
          rw [hphase] at hstep
          dsimp only at hstep
          split_ifs at hstep <;> obtain rfl := Option.some.inj hstep <;> rfl
      | Calling script | Dropped script =>
          rw [hphase] at hstep hrelies
          dsimp only at hstep
          cases hscript : script.step verdict (task.now host.disk) with
          | mk left sink =>
              rw [hscript] at hstep
              obtain rfl := Option.some.inj hstep
              exact (h.seen spec hmem (by rw [hphase]; rfl) hrelies hscript).1.2
      | Live | Over =>
          rw [hphase] at hstep
          cases hstep
  | write index body =>
      obtain ⟨task, htask, hstep⟩ := Option.bind_eq_some_iff.mp hstep
      split at hstep
      · obtain rfl := Option.some.inj hstep
        rfl
      · cases hstep
  | detach index =>
      obtain ⟨task, htask, hstep⟩ := Option.bind_eq_some_iff.mp hstep
      split at hstep
      · obtain rfl := Option.some.inj hstep
        rfl
      · cases hstep
  | stop index =>
      obtain ⟨task, htask, rfl⟩ := Option.map_eq_some_iff.mp hstep
      rfl

/-! ### Runs -/

/-- No step takes the lock while an operation of an earlier holder is
outstanding. -/
def Settled (path : String) (initial : Dir) (labels : List (HostLabel Record)) : Prop :=
  Steps.Always (LogHost.step path) (fun host label => host.settled label = true) (.new initial)
    labels

theorem sound_of_run {initial : Dir} (hinitial : spec.idle initial)
    {labels : List (HostLabel Record)} {host : LogHost} (hsettled : Settled path initial labels)
    (hrun : Steps.run (LogHost.step path) (.new initial) labels = some host) : spec.Sound host := by
  refine @Steps.run_invariant_always _ _ (LogHost.step path) spec.Sound
    (fun host label => host.settled label = true)
    (fun _ _ _ hsettled h hstep => h.step spec hsettled hstep) _ _ _ hsettled ?_ hrun
  refine ⟨hinitial, ?_, ?_, List.forall_mem_nil _, List.forall_mem_nil _⟩
  · intro index
    simp [LogHost.new]
  · intro first second task other hfirst
    simp [LogHost.new] at hfirst

/-- The lock file is never replaced. -/
theorem lockFile_of_run {initial : Dir} (hinitial : spec.idle initial)
    {first second : List (HostLabel Record)} {middle host : LogHost}
    (hsettled : Settled path initial (first ++ second))
    (hfirst : Steps.run (LogHost.step path) (.new initial) first = some middle)
    (hregular : LogHost.isRegular middle.disk (lockPath path) = true)
    (hsecond : Steps.run (LogHost.step path) middle second = some host) :
    host.disk (lockPath path) = middle.disk (lockPath path) := by
  obtain ⟨hbefore, hafter⟩ := (Steps.always_append hfirst).mp hsettled
  have hboth : spec.Sound host ∧ host.disk (lockPath path) = middle.disk (lockPath path) := by
    refine @Steps.run_invariant_always _ _ (LogHost.step path)
      (fun host => spec.Sound host ∧ host.disk (lockPath path) = middle.disk (lockPath path))
      (fun host label => host.settled label = true) ?_ _ _ _ hafter
      ⟨spec.sound_of_run hinitial hbefore hfirst, rfl⟩ hsecond
    rintro host label next hsettled ⟨h, hsame⟩ hstep
    refine ⟨h.step spec hsettled hstep, (h.lockFile_step spec ?_ hstep).trans hsame⟩
    unfold LogHost.isRegular at hregular ⊢
    rwa [hsame]
  exact hboth.2

end WriterSpec

/-! ### Lines -/

section Lines

variable {Record : List UInt8 → Prop} {path : String}

/-- Between two calls, with nothing buffered and the size of the file known. -/
structure Exact (Record : List UInt8 → Prop) (path : String) (s : SinkState) : Prop where
  ready : Ready Record path s
  sized : Sized path s.sink.maxBytes s.sink.maxFiles (content s.disk path) s

/-- The archives consist of complete lines, and the active file up to one. -/
structure Legible (Record : List UInt8 → Prop) (path : String) (disk : Dir) : Prop where
  archives : ∀ index, CompleteLines Record (content disk (archive path index))
  active : ActiveLog Record (content disk path)

theorem Legible.lines {s : SinkState} (h : Legible Record path s.disk) (hpath : s.sink.path = path) :
    Lines Record path s := ⟨hpath, h.archives, h.active⟩

theorem Lines.legible {s : SinkState} (h : Lines Record path s) : Legible Record path s.disk :=
  ⟨h.archives, h.active⟩

theorem meets_openSink_exact {s : SinkState} (h : Lines Record path s) (maxBytes : Nat)
    {maxFiles : Nat} (hfiles : 0 < maxFiles) :
    Meets (openSink path maxBytes maxFiles) (fun _ => Exact Record path)
      (fun s => Legible Record path s.disk) s := by
  have hcreated := h.created path
  unfold openSink
  refine meets_bind (meets_openLog path h.legible hcreated.legible fun old hold hlast => ?_)
  have hcontent : content (s.created path).disk path = old := by simp [content, hold]
  have hcomplete := hcreated.active.complete (hcontent ▸ hlast)
  refine (meets_update _).mpr ⟨⟨⟨rfl, hfiles, ?_⟩, rfl, old, hold⟩, ?_, ?_⟩
  · rintro other (rfl | ⟨index, rfl⟩)
    · exact hcomplete
    · exact hcreated.archives index
  · dsimp only
    rw [hcontent]
  · dsimp only
    rw [hcontent]
    exact hold

theorem meets_write_exact (hrecord : ∀ body, Record body → newline ∉ body) {s : SinkState}
    (h : Exact Record path s) {body : List UInt8} (hbody : Record body) :
    Meets (FileSink.write (terminated body)) (fun _ => Exact Record path)
      (fun s => Legible Record path s.disk) s := by
  refine meets_mono (meets_and (meets_write_ready h.ready hbody (hrecord body hbody))
    (meets_write_sized h.sized h.ready.whole.maxFiles_pos (terminated body))) ?_ ?_
  · rintro _ next ⟨hready, _, hsized⟩
    have hexact : ∀ active, Sized path s.sink.maxBytes s.sink.maxFiles active next →
        Exact Record path next := by
      intro active hactive
      refine ⟨hready, ?_⟩
      rw [content_of_regular hactive.disk_eq]
      refine ⟨?_, hactive.disk_eq⟩
      rw [hactive.sink_eq]
    split_ifs at hsized
    · exact hexact _ hsized.1
    · exact hexact _ hsized.1
  · exact fun next hnext => hnext.1.legible

/-- What the single writer keeps of its lines. -/
def linesSpec (hrecord : ∀ body, Record body → newline ∉ body) (path : String) :
    WriterSpec Record path where
  idle := Legible Record path
  ready := Exact Record path
  path_of_ready _ h := h.ready.whole.path_eq
  files_of_ready _ h := h.ready.whole.maxFiles_pos
  idle_create disk h := by
    refine ⟨fun index => ?_, ?_⟩
    · rw [content_create]
      exact h.archives index
    · rw [content_create]
      exact h.active
  opens _ maxBytes _ hfiles hpath h := meets_openSink_exact (h.lines hpath) maxBytes hfiles
  writes _ _ hbody h := meets_write_exact hrecord h hbody

open WriterSpec in
/-- Whatever processes share the log and whenever they are cut off, as long as
no operation that outlived its call is outstanding when the lock is taken: at
most one of them holds the lock, the file it locks is never replaced, the lines
of different processes never mix, and a process between two writes sees the
file it has written: complete lines, and as many bytes as it has counted. -/
theorem exclusive_log (hrecord : ∀ body, Record body → newline ∉ body) (path : String)
    (initial : Dir)
    (hinitial : ∀ other, IsLog path other → CompleteLines Record (content initial other))
    (labels : List (HostLabel Record)) (host : LogHost)
    (hsettled : Settled path initial labels)
    (hrun : Steps.run (LogHost.step path) (.new initial) labels = some host) :
    (∀ (first second : Nat) (task other : SinkTask), host.tasks[first]? = some task →
      host.tasks[second]? = some other → task.phase.holds = true → other.phase.holds = true →
      first = second) ∧
    (∀ first second middle, labels = first ++ second →
      Steps.run (LogHost.step path) (.new initial) first = some middle →
      LogHost.isRegular middle.disk (lockPath path) = true →
      host.disk (lockPath path) = middle.disk (lockPath path)) ∧
    (∀ task ∈ host.tasks, task.phase.holds = true →
      LogHost.isRegular host.disk (lockPath path) = true) ∧
    (∀ index, CompleteLines Record (content host.disk (archive path index))) ∧
    ActiveLog Record (content host.disk path) ∧
    ∀ task ∈ host.tasks, task.phase = .Live → CompleteLines Record (content host.disk path) ∧
      task.sink.sink.size = (content host.disk path).length := by
  have hidle : Legible Record path initial :=
    ⟨fun index => hinitial _ (Or.inr ⟨index, rfl⟩), (hinitial path (Or.inl rfl)).activeLog⟩
  have hsound := (linesSpec hrecord path).sound_of_run hidle hsettled hrun
  refine ⟨?_, ?_, ?_, hsound.idle.archives, hsound.idle.active, ?_⟩
  · intro first second task other hfirst hsecond hholds hholds'
    exact hsound.alone first second task other hfirst hsecond (touches_of_holds hholds)
      (touches_of_holds hholds')
  · rintro first second middle rfl hfirst hregular
    rw [Steps.run_append, hfirst] at hrun
    exact (linesSpec hrecord path).lockFile_of_run hidle hsettled hfirst hregular hrun
  · intro task hmem hholds
    exact hsound.lockFile task hmem (opened_of_touches (touches_of_holds hholds))
  · intro task hmem hlive
    have hexact : Exact Record path (task.now host.disk) := by
      have hholds := hsound.tasks task hmem
      unfold WriterSpec.Holds at hholds
      rw [hlive] at hholds
      exact hholds
    refine ⟨hexact.ready.whole.complete path (Or.inl rfl), ?_⟩
    exact congrArg FileSink.size hexact.sized.sink_eq

/-- Two processes come to the lock at the same time. The one that gets it gives
up inside its first write, which runs on while a third one comes to the lock. -/
def contention : List (HostLabel (· = [123, 125])) :=
  [.spawn 1048576 3, .spawn 1048576 3] ++
    (List.replicate 3 [.advance 0 (.Go 0), .advance 1 (.Go 0)]).flatten ++
    List.replicate 8 (.advance 0 (.Go 0)) ++ [.advance 1 (.Go 0), .write 0 ⟨[123, 125], rfl⟩] ++
    List.replicate 3 (.advance 0 (.Go 0)) ++ [.detach 0, .spawn 1048576 3] ++
    List.replicate 3 (.advance 2 (.Go 0)) ++ [.advance 0 (.Go 3)] ++
    List.replicate 10 (.advance 2 (.Go 0))

theorem exclusive_log_contention :
    ∃ host, Steps.run (LogHost.step "log") (.new fun _ => none) contention = some host ∧
      host.tasks.map (·.phase.holds) = [false, false, true] ∧
      content host.disk "log" = [123, 125, newline] ∧
      host.tasks.map (·.sink.sink.size) = [0, 0, 3] ∧
      ActiveLog (· = [123, 125]) (content host.disk "log") := by
  have hruns : ((Steps.run (LogHost.step "log") (.new fun _ => none) contention).any fun host =>
      decide (host.tasks.map (·.phase.holds) = [false, false, true] ∧
        content host.disk "log" = [123, 125, newline] ∧
        host.tasks.map (·.sink.sink.size) = [0, 0, 3])) = true := by
    decide +kernel
  obtain ⟨host, hrun, hfacts⟩ := (Option.any_eq_true _ _).mp hruns
  obtain ⟨hholds, hcontent, hsizes⟩ := of_decide_eq_true hfacts
  have hsettled : WriterSpec.Settled "log" (fun _ => none) contention := by
    unfold WriterSpec.Settled
    decide +kernel
  obtain ⟨_, _, _, _, hactive, _⟩ := exclusive_log (by rintro _ rfl; decide) "log" (fun _ => none)
    (fun _ _ => completeLines_nil) contention host hsettled hrun
  exact ⟨host, hrun, hholds, hcontent, hsizes, hactive⟩

-- Where the lock is taken before that operation is over, the new holder counts on
-- a file that changes under it.
example : ((Steps.run (LogHost.step "log") (.new fun _ => none) (
    [.spawn 1048576 3] ++ List.replicate 11 (.advance 0 (.Go 0)) ++
    [.write 0 ⟨[123, 125], rfl⟩] ++ List.replicate 3 (.advance 0 (.Go 0)) ++
    [.detach 0, .spawn 1048576 3] ++ List.replicate 11 (.advance 1 (.Go 0)) ++
    [.advance 0 (.Go 3)] : List (HostLabel (· = [123, 125])))).map fun host =>
      (host.tasks.map (·.phase.holds), host.tasks.map (·.sink.sink.size),
        (content host.disk "log").length)) = some ([false, true], [0, 0], 3) := by
  decide +kernel

end Lines

end Minotaur
