import Minotaur.Logger.FileSink
import Std.Data.String.ToNat

/-!
Rotation under interruption. The retained data is the history of the chain
`path.N, …, path.1, path`. Every operation of the sink either leaves it alone,
extends it by the bytes that reached the active file, or cuts the content of
`path.N` off its front, and only a rotation's `remove_file` does the last. The
invariant keeps one entry of `lost` for each rotation started: nothing, or what
`path.N` held when that rotation began.
-/

namespace Minotaur

open Disk Interruptible

/-! ### Names -/

theorem archive_inj {path : String} {i j : Nat} (heq : archive path i = archive path j) :
    i = j := by
  unfold archive suffixed at heq
  have htail := congrArg String.toList heq
  simp only [String.toList_append, List.append_cancel_left_eq] at htail
  exact Nat.repr_inj.mp (String.toList_inj.mp htail)

theorem suffixed_ne {path suffix : String} (hne : suffix ≠ "") : suffixed path suffix ≠ path := by
  intro heq
  have hlist := congrArg String.toList heq
  rw [suffixed, String.toList_append] at hlist
  exact hne (String.toList_eq_nil_iff.mp (List.append_right_eq_self.mp hlist))

theorem archive_ne_path (path : String) (i : Nat) : archive path i ≠ path := by
  apply suffixed_ne
  intro heq
  have hlist := congrArg String.toList heq
  simp at hlist

/-- The files of a log, oldest first. -/
def chain (path : String) : Nat → List String
  | 0 => [path]
  | index + 1 => archive path (index + 1) :: chain path index

theorem mem_chain {path other : String} {n : Nat} :
    other ∈ chain path n ↔ other = path ∨ ∃ k, 1 ≤ k ∧ k ≤ n ∧ other = archive path k := by
  induction n with
  | zero =>
      simp only [chain, List.mem_singleton]
      refine ⟨Or.inl, ?_⟩
      rintro (hpath | ⟨k, hpos, hle, _⟩)
      · exact hpath
      · omega
  | succ n ih =>
      simp only [chain, List.mem_cons, ih]
      constructor
      · rintro (hnew | hpath | ⟨k, hpos, hle, hk⟩)
        · exact Or.inr ⟨n + 1, by omega, Nat.le_refl _, hnew⟩
        · exact Or.inl hpath
        · exact Or.inr ⟨k, hpos, by omega, hk⟩
      · rintro (hpath | ⟨k, hpos, hle, hk⟩)
        · exact Or.inr (Or.inl hpath)
        · by_cases hlast : k = n + 1
          · exact Or.inl (hlast ▸ hk)
          · exact Or.inr (Or.inr ⟨k, hpos, by omega, hk⟩)

theorem nodup_chain (path : String) (n : Nat) : (chain path n).Nodup := by
  induction n with
  | zero => exact List.nodup_singleton path
  | succ n ih =>
      refine List.nodup_cons.mpr ⟨?_, ih⟩
      rw [mem_chain]
      rintro (hpath | ⟨k, _, hle, hk⟩)
      · exact archive_ne_path path (n + 1) hpath
      · have := archive_inj hk
        omega

theorem chain_older (path : String) {i n : Nat} (hle : i ≤ n) :
    ∃ older, chain path n = older ++ chain path i := by
  induction n with
  | zero => exact ⟨[], by rw [Nat.le_zero.mp hle]; rfl⟩
  | succ n ih =>
      by_cases heq : i = n + 1
      · exact ⟨[], by rw [heq]; rfl⟩
      · obtain ⟨older, holder⟩ := ih (by omega)
        exact ⟨archive path (n + 1) :: older, by rw [chain, holder]; rfl⟩

/-! ### The invariant -/

/-- Nothing retained is lost, beyond `lost`, since the directory was `initial`. -/
structure Conserved (path : String) (maxFiles : Nat) (initial : Dir) (lost : List (List UInt8))
    (s : SinkState) : Prop where
  path_eq : s.sink.path = path
  maxFiles_eq : s.sink.maxFiles = maxFiles
  lost_le : List.Forall₂ (fun lost held => lost = [] ∨ lost = held) lost s.rotations
  history_eq : lost.flatten ++ history s.disk (chain path maxFiles) =
    history initial (chain path maxFiles) ++ s.appended
  frame : ∀ other ∉ chain path maxFiles, other ≠ suffixed path ".lock" →
    s.disk other = initial other
  overwritten_eq : s.overwritten = []
  handle : s.sink.file.isSome = true → ∃ old, s.disk path = some (.Regular old)

/-- What holds wherever an operation stops. -/
def Safe (path : String) (maxFiles : Nat) (initial : Dir) (s : SinkState) : Prop :=
  ∃ lost, Conserved path maxFiles initial lost s

namespace Conserved

variable {path : String} {maxFiles : Nat} {initial : Dir} {lost : List (List UInt8)}
  {s : SinkState}

theorem safe (h : Conserved path maxFiles initial lost s) : Safe path maxFiles initial s :=
  ⟨lost, h⟩

theorem chain_eq_append (path : String) (n : Nat) :
    ∃ older, chain path n = older ++ [path] ∧ path ∉ older := by
  obtain ⟨older, holder⟩ := chain_older path (Nat.zero_le n)
  refine ⟨older, holder, ?_⟩
  have hnodup := nodup_chain path n
  rw [holder] at hnodup
  obtain ⟨_, _, hdisjoint⟩ := List.nodup_append.mp hnodup
  intro hmem
  exact hdisjoint path hmem path (by simp [chain]) rfl

/-- Bytes that arrive in the active file extend the history. -/
theorem reach (h : Conserved path maxFiles initial lost s) {old : List UInt8}
    (hregular : s.disk path = some (.Regular old)) (bytes : List UInt8) :
    Conserved path maxFiles initial lost (s.reach bytes) where
  path_eq := h.path_eq
  maxFiles_eq := h.maxFiles_eq
  lost_le := h.lost_le
  history_eq := by
    obtain ⟨older, hchain, hfresh⟩ := chain_eq_append path maxFiles
    have hold := h.history_eq
    simp only [SinkState.reach, h.path_eq]
    rw [hchain] at hold ⊢
    rw [history_append_newest hfresh hregular, ← List.append_assoc, hold, List.append_assoc]
  frame := by
    intro other hother hlock
    have hne : other ≠ path := fun heq => hother (mem_chain.mpr (Or.inl heq))
    simp only [SinkState.reach, h.path_eq]
    rw [append_other _ hne]
    exact h.frame other hother hlock
  overwritten_eq := h.overwritten_eq
  handle := by
    intro _
    simp only [SinkState.reach, h.path_eq]
    exact ⟨old ++ bytes, append_same hregular bytes⟩

theorem reach_regular (h : Conserved path maxFiles initial lost s) {old : List UInt8}
    (hregular : s.disk path = some (.Regular old)) (bytes : List UInt8) :
    (s.reach bytes).disk path = some (.Regular (old ++ bytes)) := by
  simp only [SinkState.reach, h.path_eq]
  exact append_same hregular bytes

/-- The handle and its buffer are no part of the history. -/
theorem keep (h : Conserved path maxFiles initial lost s) {file : Option (List UInt8)}
    (hhandle : file.isSome = true → ∃ old, s.disk path = some (.Regular old)) :
    Conserved path maxFiles initial lost (s.keep file) :=
  ⟨h.path_eq, h.maxFiles_eq, h.lost_le, h.history_eq, h.frame, h.overwritten_eq, hhandle⟩

theorem transfer (h : Conserved path maxFiles initial lost s) {old : List UInt8}
    (hregular : s.disk path = some (.Regular old)) (pending : List UInt8) (reached : Nat) :
    Conserved path maxFiles initial lost (s.transfer pending reached) :=
  (h.reach hregular _).keep (fun _ => ⟨_, h.reach_regular hregular _⟩)

/-- A directory change inside the chain that keeps the history. -/
theorem disk (h : Conserved path maxFiles initial lost s) {dir : Dir}
    (hhistory : history dir (chain path maxFiles) = history s.disk (chain path maxFiles))
    (hframe : ∀ other ∉ chain path maxFiles, other ≠ suffixed path ".lock" →
      dir other = s.disk other)
    (hhandle : s.sink.file.isSome = true → ∃ old, dir path = some (.Regular old)) :
    Conserved path maxFiles initial lost { s with disk := dir } where
  path_eq := h.path_eq
  maxFiles_eq := h.maxFiles_eq
  lost_le := h.lost_le
  history_eq := by rw [hhistory]; exact h.history_eq
  frame := fun other hother hlock => (hframe other hother hlock).trans (h.frame other hother hlock)
  overwritten_eq := h.overwritten_eq
  handle := hhandle

theorem create (h : Conserved path maxFiles initial lost s) :
    Conserved path maxFiles initial lost (s.created path) := by
  refine h.disk (history_congr (fun other _ => content_create _ _ _)) ?_ ?_
  · intro other hother _
    exact create_other _ (fun heq => hother (mem_chain.mpr (Or.inl heq)))
  · intro hopen
    obtain ⟨old, hold⟩ := h.handle hopen
    exact ⟨old, by simp [Disk.create, hold]⟩

/-- A file moves to the missing name before it. -/
theorem rename (h : Conserved path maxFiles initial lost s) (hclosed : s.sink.file = none)
    {source destination : String} {older newer : List String}
    (hchain : chain path maxFiles = older ++ destination :: source :: newer)
    (hmissing : s.disk destination = none) :
    Conserved path maxFiles initial lost (s.renamed source destination) := by
  have hnodup := nodup_chain path maxFiles
  rw [hchain] at hnodup
  have hhistory := history_rename_adjacent s.disk hnodup hmissing
  rw [← hchain] at hhistory
  have hmoved := h.disk hhistory (fun other hother _ => rename_other _ (fun heq => hother ?_)
    (fun heq => hother ?_)) (by simp [hclosed])
  · exact ⟨hmoved.path_eq, hmoved.maxFiles_eq, hmoved.lost_le, hmoved.history_eq, hmoved.frame,
      by simp [SinkState.renamed, hmissing, h.overwritten_eq], hmoved.handle⟩
  · rw [hchain, heq]; simp
  · rw [hchain, heq]; simp

/-- The oldest archive goes, and its whole content is charged to the rotation
that is under way. -/
theorem unlink (h : Conserved path (maxFiles + 1) initial (lost ++ [[]]) s)
    (hclosed : s.sink.file = none) {before : List (List UInt8)}
    (hheld : s.rotations = before ++ [content s.disk (archive path (maxFiles + 1))]) :
    Conserved path (maxFiles + 1) initial
      (lost ++ [content s.disk (archive path (maxFiles + 1))])
      (s.removed (archive path (maxFiles + 1))) := by
  have hfresh : archive path (maxFiles + 1) ∉ chain path maxFiles :=
    (List.nodup_cons.mp (nodup_chain path (maxFiles + 1))).1
  have hcut := history_unlink_oldest s.disk hfresh
  refine ⟨h.path_eq, h.maxFiles_eq, ?_, ?_, ?_, h.overwritten_eq,
    by simp [SinkState.removed, hclosed]⟩
  · have hlost := h.lost_le
    simp only [SinkState.removed]
    rw [hheld] at hlost ⊢
    have hlength : lost.length = before.length := by simpa using hlost.length_eq
    have hold : List.Forall₂ (fun lost held => lost = [] ∨ lost = held) lost before := by
      have htake := List.forall₂_take lost.length hlost
      simpa [hlength] using htake
    exact List.rel_append hold (List.Forall₂.cons (Or.inr rfl) List.Forall₂.nil)
  · have hold := h.history_eq
    simp only [SinkState.removed, chain, List.flatten_append, List.flatten_cons,
      List.flatten_nil, List.append_nil] at hold ⊢
    rw [List.append_assoc, hcut, hold]
  · intro other hother hlock
    have hne : other ≠ archive path (maxFiles + 1) := by
      rintro rfl
      exact hother (by simp [chain])
    exact (set_other _ hne _).trans (h.frame other hother hlock)

end Conserved

/-! ### Each part of a rotation -/

section Rotate

variable {path : String} {maxFiles : Nat} {initial : Dir} {lost : List (List UInt8)}
  {s : SinkState}

/-- Between two renames: the handle is closed and the archive `index` is free
to be the next destination. -/
structure Shifting (path : String) (maxFiles : Nat) (initial : Dir) (index : Nat)
    (s : SinkState) : Prop where
  safe : Safe path maxFiles initial s
  closed : s.sink.file = none
  free : s.disk (archive path index) = none

theorem meets_flushOld {before : List (List UInt8)}
    (h : Conserved path maxFiles initial lost s)
    (hheld : s.rotations = before ++ [content s.disk (archive path maxFiles)])
    (hclosed : s.sink.file = none) {file : Option (List UInt8)}
    (hfile : file.isSome = true → ∃ old, s.disk path = some (.Regular old)) :
    Meets (flushOld file)
      (fun _ s => Conserved path maxFiles initial lost s ∧ s.sink.file = none ∧
        s.rotations = before ++ [content s.disk (archive path maxFiles)])
      (Safe path maxFiles initial) s := by
  cases file with
  | none => exact (meets_pure _).mpr ⟨h, hclosed, hheld⟩
  | some buffered =>
      obtain ⟨old, hregular⟩ := hfile rfl
      have hkept (bytes : List UInt8) : content (s.reach bytes).disk (archive path maxFiles) =
          content s.disk (archive path maxFiles) := by
        apply content_congr
        simp only [SinkState.reach, h.path_eq]
        exact append_other _ (archive_ne_path path maxFiles) _
      unfold flushOld flushTaken
      refine meets_operation (fun _ => ⟨(h.reach hregular _).safe, ?_⟩)
        (fun _ _ => (h.reach hregular _).safe)
      rintro value _
      refine ⟨h.reach hregular _, hclosed, ?_⟩
      rw [hkept]
      exact hheld

theorem archive_one (path : String) : archive path 1 = suffixed path ".1" :=
  congrArg (suffixed path) (by decide)

theorem takeFile_conserved (h : Conserved path maxFiles initial lost s) :
    Conserved path maxFiles initial (lost ++ [[]]) (takeFile s) := by
  refine ⟨h.path_eq, h.maxFiles_eq, ?_, ?_, h.frame, h.overwritten_eq, ?_⟩
  · exact List.rel_append h.lost_le (List.Forall₂.cons (Or.inl rfl) List.Forall₂.nil)
  · simpa [takeFile, SinkState.keep] using h.history_eq
  · intro hopen
    cases hopen

/-- The rotation rule for what is retained. -/
def conservedRule (path : String) (maxFiles : Nat) (initial : Dir)
    (lost before : List (List UInt8)) :
    RotationRule path (maxFiles + 1) (Safe path (maxFiles + 1) initial) where
  flushed s := Conserved path (maxFiles + 1) initial (lost ++ [[]]) s ∧ s.sink.file = none ∧
    s.rotations = before ++ [content s.disk (archive path (maxFiles + 1))]
  free := Shifting path (maxFiles + 1) initial
  moved s := Safe path (maxFiles + 1) initial s
  stop_of_flushed _ h := h.1.safe
  stop_of_free _ _ h := h.safe
  stop_of_moved _ h := h
  remove _ _ := fun ⟨h, hclosed, hheld⟩ _ =>
    ⟨(h.unlink hclosed hheld).safe, hclosed, set_same _ _ _⟩
  none_to_remove _ := fun ⟨h, hclosed, _⟩ hmissing => ⟨h.safe, hclosed, hmissing⟩
  rename := by
    rintro index s old hle ⟨⟨charged, h⟩, hclosed, hfree⟩ _
    obtain ⟨older, hchain⟩ := chain_older path hle
    exact ⟨(h.rename hclosed hchain hfree).safe, hclosed, rename_source _ _ _⟩
  none_to_rename _ _ h hmissing := ⟨h.safe, h.closed, hmissing⟩
  archive_active := by
    rintro s old ⟨⟨charged, h⟩, hclosed, hfree⟩ _
    obtain ⟨older, hchain⟩ := chain_older path (Nat.le_add_left 1 maxFiles)
    rw [← archive_one]
    exact (h.rename hclosed hchain hfree).safe
  create _ := fun ⟨_, h⟩ => h.create.safe

/-- A rotation interrupted anywhere is safe, and so is a completed one. -/
theorem meets_rotate (h : Conserved path (maxFiles + 1) initial lost s) :
    Meets rotate (fun _ => Safe path (maxFiles + 1) initial)
      (Safe path (maxFiles + 1) initial) s := by
  have hheld : (takeFile s).rotations = s.rotations ++
      [content (takeFile s).disk (archive path (maxFiles + 1))] := by
    simp [takeFile, SinkState.keep, h.path_eq, h.maxFiles_eq]
  refine (conservedRule path maxFiles initial lost s.rotations).meets_rotate (by omega) h.path_eq
    h.maxFiles_eq (meets_flushOld (takeFile_conserved h) hheld rfl h.handle) ?_
  rintro next old ⟨charged, hnext⟩ hregular _
  exact ⟨charged, hnext.path_eq, hnext.maxFiles_eq, hnext.lost_le, hnext.history_eq, hnext.frame,
    hnext.overwritten_eq, fun _ => ⟨old, hregular⟩⟩

theorem meets_appendLine (h : Conserved path maxFiles initial lost s) (line : List UInt8) :
    Meets (appendLine line) (fun _ => Safe path maxFiles initial)
      (Safe path maxFiles initial) s := by
  unfold appendLine
  refine meets_bind (meets_state.mpr ?_)
  cases hfile : s.sink.file with
  | none => exact (meets_throw _).mpr h.safe
  | some buffered =>
      obtain ⟨old, hregular⟩ := h.handle (by simp [hfile])
      have hwritten (pending : List UInt8) (reached : Nat) :
          Safe path maxFiles initial (s.transfer pending reached) :=
        (h.transfer hregular pending reached).safe
      unfold writeAll flush
      refine meets_bind (meets_operation (fun reached => ⟨hwritten _ reached, ?_⟩)
        (fun _ reached => hwritten _ reached))
      rintro _ _
      have hafter := h.transfer hregular (s.buffered ++ line) reached
      have hregular := h.reach_regular hregular ((s.buffered ++ line).take reached)
      refine meets_bind (meets_operation (fun _ => ⟨?_, ?_⟩)
        (fun _ flushed => (hafter.transfer hregular _ flushed).safe))
      · exact ((hafter.reach hregular _).keep
          (fun _ => ⟨_, hafter.reach_regular hregular _⟩)).safe
      · rintro _ _
        have hflushed : Conserved path maxFiles initial lost
            (((s.transfer (s.buffered ++ line) reached).reach
              (s.transfer (s.buffered ++ line) reached).buffered).keep (some [])) :=
          (hafter.reach hregular _).keep (fun _ => ⟨_, hafter.reach_regular hregular _⟩)
        exact (meets_update _).mpr ⟨lost, hflushed.path_eq, hflushed.maxFiles_eq,
          hflushed.lost_le, hflushed.history_eq, hflushed.frame, hflushed.overwritten_eq,
          hflushed.handle⟩

theorem meets_write (h : Conserved path (maxFiles + 1) initial lost s) (line : List UInt8) :
    Meets (FileSink.write line) (fun _ => Safe path (maxFiles + 1) initial)
      (Safe path (maxFiles + 1) initial) s := by
  unfold FileSink.write
  refine meets_bind (meets_state.mpr (meets_bind (meets_ensureIo _ h.safe (fun _ => ?_))))
  have happend : ∀ next, Safe path (maxFiles + 1) initial next →
      Meets (appendLine line) (fun _ => Safe path (maxFiles + 1) initial)
        (Safe path (maxFiles + 1) initial) next :=
    fun next ⟨_, hnext⟩ => meets_appendLine hnext line
  refine meets_bind ?_
  unfold rotateIfFull
  refine meets_bind (meets_state.mpr ?_)
  dsimp only
  split_ifs
  · exact meets_mono (meets_rotate h) (fun _ next hnext => happend next hnext) (fun _ hs => hs)
  · exact (meets_pure _).mpr (happend s h.safe)

end Rotate

/-! ### Runs -/

/-- The state before `FileSink::open`: no handle, nothing recorded. -/
def SinkState.boot (path : String) (maxBytes maxFiles : Nat) (disk : Dir) : SinkState :=
  { disk := disk, sink := ⟨path, none, 0, maxBytes, maxFiles⟩ }

/-- One call after the other on the same sink, whatever became of the calls
before; each comes with its own schedule. -/
def writes (s : SinkState) : List (List UInt8 × List Verdict) → SinkState
  | [] => s
  | (line, schedule) :: rest =>
      writes ((FileSink.write line).run ⟨s, schedule⟩).world.state rest

/-- Opens the log and, if that succeeds, performs the calls. -/
def openAndWrite (path : String) (maxBytes maxFiles : Nat) (disk : Dir)
    (schedule : List Verdict) (calls : List (List UInt8 × List Verdict)) : SinkState :=
  match (FileSink.open path maxBytes maxFiles).run ⟨.boot path maxBytes maxFiles disk, schedule⟩ with
  | .done (.ok _) world => writes world.state calls
  | .done (.error _) world => world.state
  | .dropped world => world.state

theorem boot_conserved (path : String) (maxBytes maxFiles : Nat) (disk : Dir) :
    Conserved path maxFiles disk [] (.boot path maxBytes maxFiles disk) where
  path_eq := rfl
  maxFiles_eq := rfl
  lost_le := List.Forall₂.nil
  history_eq := by simp [SinkState.boot]
  frame _ _ _ := rfl
  overwritten_eq := rfl
  handle := by intro hopen; cases hopen

theorem meets_open (path : String) (maxBytes maxFiles : Nat) (disk : Dir) :
    Meets (FileSink.open path maxBytes maxFiles)
      (fun _ s => 0 < maxFiles ∧ Safe path maxFiles disk s) (Safe path maxFiles disk)
      (.boot path maxBytes maxFiles disk) := by
  have h := boot_conserved path maxBytes maxFiles disk
  have hlock := h.disk
    (history_congr fun other _ => content_create disk (suffixed path ".lock") other)
    (fun other _ hne => create_other _ hne) (by intro hopen; cases hopen)
  unfold FileSink.open acquireLock
  refine meets_bind (meets_ensureIo _ h.safe (fun hlimits => ?_))
  refine meets_bind (meets_bind (meets_symlinkMetadata _ _ h.safe
    (meets_bind (meets_ensureIo _ h.safe (fun _ => meets_bind
      (meets_openFile _ _ h.safe hlock.safe (fun _ => meets_inspect hlock.safe ?_)))))))
  have hcreated := hlock.create
  refine meets_bind (meets_openLog path hlock.safe hcreated.safe (fun old hold _ => ?_))
  refine (meets_update _).mpr ⟨(of_decide_eq_true hlimits).2, [], ?_⟩
  exact ⟨rfl, rfl, hcreated.lost_le, hcreated.history_eq, hcreated.frame,
    hcreated.overwritten_eq, fun _ => ⟨old, hold⟩⟩

theorem writes_safe {path : String} {maxFiles : Nat} {initial : Dir}
    (calls : List (List UInt8 × List Verdict)) {s : SinkState}
    (h : Safe path (maxFiles + 1) initial s) : Safe path (maxFiles + 1) initial (writes s calls) := by
  induction calls generalizing s with
  | nil => exact h
  | cons call rest ih =>
      obtain ⟨lost, hconserved⟩ := h
      exact ih (meets_world (meets_write hconserved call.1) call.2)

/-- Rotation never loses, duplicates or reorders retained data: for every
directory, every sequence of writes and every schedule of interruptions, the
history is the old one followed by the appended bytes, less at most what
`path.N` held at the start of each rotation; no rename hits an existing file;
no other file is touched. -/
theorem rotation_conserves (path : String) (maxBytes maxFiles : Nat) (initial : Dir)
    (schedule : List Verdict) (calls : List (List UInt8 × List Verdict)) :
    let final := openAndWrite path maxBytes maxFiles initial schedule calls
    (∃ lost, List.Forall₂ (fun lost held => lost = [] ∨ lost = held) lost final.rotations ∧
      lost.flatten ++ history final.disk (chain path maxFiles) =
        history initial (chain path maxFiles) ++ final.appended) ∧
    final.overwritten = [] ∧
    ∀ other ∉ chain path maxFiles, other ≠ suffixed path ".lock" →
      final.disk other = initial other := by
  intro final
  have hsafe : Safe path maxFiles initial final := by
    have hopen := meets_open path maxBytes maxFiles initial schedule
    unfold Future.wp at hopen
    simp only [final, openAndWrite]
    cases hrun : (FileSink.open path maxBytes maxFiles).run
        ⟨.boot path maxBytes maxFiles initial, schedule⟩ with
    | dropped world => simpa only [hrun] using hopen
    | done result world =>
        cases result with
        | error error => simpa only [hrun] using hopen
        | ok value =>
            simp only [hrun] at hopen ⊢
            obtain ⟨n, rfl⟩ : ∃ n, maxFiles = n + 1 := ⟨maxFiles - 1, by omega⟩
            exact writes_safe calls hopen.2
  obtain ⟨lost, h⟩ := hsafe
  exact ⟨⟨lost, h.lost_le, h.history_eq⟩, h.overwritten_eq, h.frame⟩

end Minotaur
