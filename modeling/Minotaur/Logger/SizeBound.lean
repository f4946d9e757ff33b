import Minotaur.Base.Steps
import Minotaur.Logger.Rotation

/-!
Sizes under rotation. The files of the chain have places: the active file is
at 0 and `path.i` at `i`, and a rotation moves every file one place up. Only
writes that succeed are considered here, so every intermediate state of a
rotation is a picture of the directory before it.
-/

namespace Minotaur

open Disk Interruptible

/-- A write that returned `Ok`. `self.size` is a `u64`, so a file that does
not fit one is an overflow. -/
def SinkState.written (s : SinkState) (call : List UInt8 × List Verdict) : Option SinkState :=
  match (FileSink.write call.1).run ⟨s, call.2⟩ with
  | .done (.ok _) world => if world.state.sink.size ≤ u64Max then some world.state else none
  | .done (.error _) _ => none
  | .dropped _ => none

/-- The sink after opening and a sequence of writes, if all of them succeed. -/
def openThenWrite (path : String) (maxBytes : UInt64) (maxFiles : Nat) (disk : Dir)
    (schedule : List Verdict) (calls : List (List UInt8 × List Verdict)) : Option SinkState :=
  match (FileSink.open path maxBytes.toNat maxFiles).run
      ⟨.boot path maxBytes.toNat maxFiles disk, schedule⟩ with
  | .done (.ok _) world => Steps.run SinkState.written world.state calls
  | .done (.error _) _ => none
  | .dropped _ => none

/-! ### The directory during a rotation -/

section Directory

variable {path : String} {maxFiles index : Nat} {before dir : Dir}

/-- The archives from `index` on have moved, the younger ones have not. -/
structure Shifted (path : String) (maxFiles : Nat) (before : Dir) (index : Nat) (dir : Dir) :
    Prop where
  moved : ∀ i, index ≤ i → i + 1 ≤ maxFiles → dir (archive path (i + 1)) = before (archive path i)
  waiting : ∀ i, i < index → dir (archive path i) = before (archive path i)
  active : dir path = before path
  frame : ∀ other ∉ chain path maxFiles, dir other = before other

/-- The active file has moved too; what is at `path` now is left open. -/
structure Rotated (path : String) (maxFiles : Nat) (before dir : Dir) : Prop where
  newest : dir (archive path 1) = before path
  moved : ∀ i, 1 ≤ i → i + 1 ≤ maxFiles → dir (archive path (i + 1)) = before (archive path i)
  frame : ∀ other ∉ chain path maxFiles, dir other = before other

theorem archive_ne_archive (path : String) {i j : Nat} (hne : i ≠ j) :
    archive path i ≠ archive path j :=
  fun heq => hne (archive_inj heq)

theorem archive_mem_chain (path : String) {i n : Nat} (hpos : 1 ≤ i) (hle : i ≤ n) :
    archive path i ∈ chain path n :=
  mem_chain.mpr (Or.inr ⟨i, hpos, hle, rfl⟩)

theorem path_mem_chain (path : String) (n : Nat) : path ∈ chain path n := mem_chain.mpr (Or.inl rfl)

theorem ne_of_notMem_chain {other member : String} {n : Nat} (hother : other ∉ chain path n)
    (hmember : member ∈ chain path n) : other ≠ member := by
  rintro rfl
  exact hother hmember

/-- With the oldest archive out of the way nothing has moved yet. -/
theorem shifted_set_oldest (path : String) (hpos : 1 ≤ maxFiles) (before : Dir) (node : Option Node) :
    Shifted path maxFiles before maxFiles (Disk.set before (archive path maxFiles) node) where
  moved i hle hlt := absurd hlt (by omega)
  waiting i hlt := set_other _ (archive_ne_archive path (by omega)) _
  active := set_other _ (archive_ne_path path maxFiles).symm _
  frame other hother := set_other _ (ne_of_notMem_chain hother (archive_mem_chain path hpos le_rfl)) _

namespace Shifted

theorem rename (h : Shifted path maxFiles before (index + 2) dir) (hle : index + 2 ≤ maxFiles) :
    Shifted path maxFiles before (index + 1)
      (Disk.rename dir (archive path (index + 1)) (archive path (index + 2))) where
  moved i hi hlt := by
    by_cases hnext : i = index + 1
    · subst hnext
      rw [rename_destination _ (archive_ne_archive path (by omega))]
      exact h.waiting _ (by omega)
    · rw [rename_other _ (archive_ne_archive path (by omega))
        (archive_ne_archive path (by omega))]
      exact h.moved i (by omega) hlt
  waiting i hi := by
    rw [rename_other _ (archive_ne_archive path (by omega))
      (archive_ne_archive path (by omega))]
    exact h.waiting i (by omega)
  active := by
    rw [rename_other _ (archive_ne_path path _).symm (archive_ne_path path _).symm]
    exact h.active
  frame other hother := by
    rw [rename_other _ (ne_of_notMem_chain hother (archive_mem_chain path (by omega) (by omega)))
      (ne_of_notMem_chain hother (archive_mem_chain path (by omega) hle))]
    exact h.frame other hother

/-- A missing archive leaves its gap behind. -/
theorem skip (h : Shifted path maxFiles before (index + 2) dir)
    (hfree : dir (archive path (index + 2)) = none)
    (hmissing : dir (archive path (index + 1)) = none) :
    Shifted path maxFiles before (index + 1) dir where
  moved i hi hlt := by
    by_cases hnext : i = index + 1
    · subst hnext
      rw [hfree, ← h.waiting _ (by omega), hmissing]
    · exact h.moved i (by omega) hlt
  waiting i hi := h.waiting i (by omega)
  active := h.active
  frame := h.frame

theorem archiveActive (h : Shifted path maxFiles before 1 dir) (hpos : 1 ≤ maxFiles) :
    Rotated path maxFiles before (Disk.rename dir path (archive path 1)) where
  newest := by
    rw [rename_destination _ (archive_ne_path path 1)]
    exact h.active
  moved i hi hlt := by
    rw [rename_other _ (archive_ne_path path _) (archive_ne_archive path (by omega))]
    exact h.moved i hi hlt
  frame other hother := by
    rw [rename_other _ (ne_of_notMem_chain hother (path_mem_chain path _))
      (ne_of_notMem_chain hother (archive_mem_chain path le_rfl hpos))]
    exact h.frame other hother

end Shifted

/-- A change of the active file alone. -/
theorem Rotated.congr {next : Dir} (h : Rotated path maxFiles before dir)
    (hnext : ∀ other ≠ path, next other = dir other) : Rotated path maxFiles before next where
  newest := (hnext _ (archive_ne_path path 1)).trans h.newest
  moved i hi hlt := (hnext _ (archive_ne_path path _)).trans (h.moved i hi hlt)
  frame other hother :=
    (hnext other (ne_of_notMem_chain hother (path_mem_chain path _))).trans (h.frame other hother)

end Directory

/-! ### One successful write -/

section Write

variable {path : String} {maxBytes maxFiles : Nat} {active : List UInt8} {s : SinkState}

/-- A sink between two successful writes, with the content of its active
file. -/
structure Sized (path : String) (maxBytes maxFiles : Nat) (active : List UInt8) (s : SinkState) :
    Prop where
  sink_eq : s.sink = ⟨path, some [], active.length, maxBytes, maxFiles⟩
  disk_eq : s.disk path = some (.Regular active)

/-- The sink inside a rotation that `before` started. -/
structure Midway (before s : SinkState) : Prop where
  sink_eq : s.sink = { before.sink with file := none }
  rotations_eq : s.rotations.length = before.rotations.length + 1

theorem content_of_regular {dir : Dir} (hregular : dir path = some (.Regular active)) :
    content dir path = active := by simp [content, hregular]

/-- The rotation rule for places. -/
def placesRule (path : String) (maxFiles : Nat) (hpos : 1 ≤ maxFiles) (before : SinkState) :
    RotationRule path maxFiles (fun _ => True) where
  flushed s := Midway before s ∧ s.disk = before.disk
  free index s := Midway before s ∧ Shifted path maxFiles before.disk index s.disk ∧
    s.disk (archive path index) = none
  moved s := Midway before s ∧ Rotated path maxFiles before.disk s.disk ∧
    (s.disk path = none ∨ s.disk path = some (.Regular []))
  stop_of_flushed _ _ := trivial
  stop_of_free _ _ _ := trivial
  stop_of_moved _ _ := trivial
  remove s old := fun ⟨hmidway, hdisk⟩ _ => by
    refine ⟨⟨hmidway.sink_eq, hmidway.rotations_eq⟩, ?_, set_same _ _ _⟩
    rw [SinkState.removed, hdisk]
    exact shifted_set_oldest path hpos before.disk none
  none_to_remove s := fun ⟨hmidway, hdisk⟩ hmissing => by
    refine ⟨hmidway, ?_, hmissing⟩
    have hsame : s.disk = Disk.set before.disk (archive path maxFiles) none := by
      rw [hdisk] at hmissing ⊢
      rw [Disk.set, ← hmissing, Function.update_eq_self]
    rw [hsame]
    exact shifted_set_oldest path hpos before.disk none
  rename _ _ _ hle := fun ⟨hmidway, hshifted, _⟩ _ =>
    ⟨⟨hmidway.sink_eq, hmidway.rotations_eq⟩, hshifted.rename hle, rename_source _ _ _⟩
  none_to_rename _ _ := fun ⟨hmidway, hshifted, hfree⟩ hmissing =>
    ⟨hmidway, hshifted.skip hfree hmissing, hmissing⟩
  archive_active s old := fun ⟨hmidway, hshifted, _⟩ _ => by
    rw [← archive_one]
    exact ⟨⟨hmidway.sink_eq, hmidway.rotations_eq⟩, hshifted.archiveActive hpos,
      Or.inl (rename_source _ _ _)⟩
  create s := fun ⟨hmidway, hrotated, hactive⟩ => by
    refine ⟨⟨hmidway.sink_eq, hmidway.rotations_eq⟩,
      hrotated.congr (fun other hne => create_other _ hne), Or.inr ?_⟩
    rcases hactive with hnone | hempty
    · simp [SinkState.created, Disk.create, hnone]
    · simp [SinkState.created, Disk.create, hempty]

/-- A rotation that returns leaves an empty active file and every other file
of the chain one place up. -/
theorem meets_rotate_places (h : Sized path maxBytes maxFiles active s) (hpos : 1 ≤ maxFiles) :
    Meets rotate (fun _ next => Sized path maxBytes maxFiles [] next ∧
      next.rotations.length = s.rotations.length + 1 ∧
      Rotated path maxFiles s.disk next.disk) (fun _ => True) s := by
  have hpath : s.sink.path = path := by rw [h.sink_eq]
  have hfiles : s.sink.maxFiles = maxFiles := by rw [h.sink_eq]
  have hfile : s.sink.file = some [] := by rw [h.sink_eq]
  refine (placesRule path maxFiles hpos s).meets_rotate hpos hpath hfiles ?_ ?_
  · -- Nothing is buffered between two writes.
    rw [hfile]
    unfold flushOld flushTaken
    refine meets_operation (fun _ => ⟨trivial, ?_⟩) (fun _ _ => trivial)
    rintro _ _
    refine ⟨⟨rfl, by simp [takeFile, SinkState.reach]⟩, ?_⟩
    exact append_nil _ _
  · rintro next old ⟨hmidway, hrotated, hactive⟩ hregular _
    have hempty : old = [] := by
      rcases hactive with hnone | hempty
      · rw [hnone] at hregular
        cases hregular
      · rw [hempty] at hregular
        cases hregular
        rfl
    subst hempty
    refine ⟨⟨?_, hregular⟩, hmidway.rotations_eq, hrotated⟩
    simp [SinkState.opened, hmidway.sink_eq, h.sink_eq]

/-- Appending touches the active file only. -/
theorem meets_appendLine_sized (h : Sized path maxBytes maxFiles active s) (line : List UInt8) :
    Meets (appendLine line) (fun _ next => Sized path maxBytes maxFiles (active ++ line) next ∧
      next.rotations = s.rotations ∧ ∀ other ≠ path, next.disk other = s.disk other)
      (fun _ => True) s := by
  have hpath : s.sink.path = path := by rw [h.sink_eq]
  have hbuffered : s.buffered = [] := by rw [SinkState.buffered, h.sink_eq]; rfl
  unfold appendLine
  refine meets_bind (meets_state.mpr ?_)
  rw [h.sink_eq]
  dsimp only
  refine meets_bind (meets_operation (fun reached => ⟨trivial, ?_⟩) (fun _ _ => trivial))
  rintro _ _
  rw [hbuffered, List.nil_append]
  refine meets_bind (meets_operation (fun _ => ⟨trivial, ?_⟩) (fun _ _ => trivial))
  rintro _ _
  refine (meets_update _).mpr ⟨⟨?_, ?_⟩, rfl, ?_⟩
  · simp [SinkState.reach, SinkState.keep, SinkState.transfer, h.sink_eq]
  · -- Wherever the transfer was cut, the flush brought the rest.
    have hfirst := append_same h.disk_eq (line.take reached)
    have hboth := append_same hfirst (line.drop reached)
    rw [List.append_assoc, List.take_append_drop] at hboth
    simpa [SinkState.reach, SinkState.keep, SinkState.transfer, SinkState.buffered, hpath] using hboth
  · intro other hne
    simp [SinkState.reach, SinkState.keep, SinkState.transfer, hpath, append_other _ hne]

/-- A write that rotated first. -/
structure WroteRotated (path : String) (maxFiles : Nat) (line : List UInt8) (s next : SinkState) :
    Prop where
  rotations_eq : next.rotations.length = s.rotations.length + 1
  places : Rotated path maxFiles s.disk next.disk
  active : next.disk path = some (.Regular line)

/-- A write that did not. -/
structure WroteAppended (path : String) (line : List UInt8) (s next : SinkState) : Prop where
  rotations_eq : next.rotations = s.rotations
  active : next.disk path = some (.Regular (content s.disk path ++ line))
  frame : ∀ other ≠ path, next.disk other = s.disk other

theorem meets_write_sized (h : Sized path maxBytes maxFiles active s) (hpos : 1 ≤ maxFiles)
    (line : List UInt8) :
    Meets (FileSink.write line) (fun _ next => line.length ≤ maxBytes ∧
      if maxBytes < min (active.length + line.length) u64Max then
        Sized path maxBytes maxFiles line next ∧ WroteRotated path maxFiles line s next
      else Sized path maxBytes maxFiles (active ++ line) next ∧ WroteAppended path line s next)
      (fun _ => True) s := by
  unfold FileSink.write rotateIfFull
  refine meets_bind (meets_state.mpr (meets_bind (meets_ensureIo _ trivial fun hfits => ?_)))
  have hline : line.length ≤ maxBytes := by simpa [h.sink_eq] using hfits
  refine meets_bind (meets_bind (meets_state.mpr ?_))
  rw [h.sink_eq]
  dsimp only
  split_ifs with hfull
  · refine meets_mono (meets_rotate_places h hpos) ?_ (fun _ hs => hs)
    rintro _ middle ⟨hempty, hrotations, hrotated⟩
    refine meets_mono (meets_appendLine_sized hempty line) ?_ (fun _ hs => hs)
    rintro _ next ⟨hsized, hkept, hframe⟩
    exact ⟨hline, hsized, hkept ▸ hrotations, hrotated.congr hframe, hsized.disk_eq⟩
  · refine (meets_pure _).mpr (meets_mono (meets_appendLine_sized h line) ?_ (fun _ hs => hs))
    rintro _ next ⟨hsized, hkept, hframe⟩
    refine ⟨hline, hsized, hkept, ?_, hframe⟩
    rw [content_of_regular h.disk_eq]
    exact hsized.disk_eq

end Write

/-! ### Runs -/

/-- Whether the file at a place was created by the sink: each rotation creates
one, and opening does where there was none. -/
def OwnFile (path : String) (initial : Dir) (s : SinkState) (place : Nat) : Prop :=
  place < s.rotations.length ∨ place = s.rotations.length ∧ initial path = none

/-- What all successful writes since the opening have kept. -/
structure SizeBounded (path : String) (maxBytes maxFiles : Nat) (initial : Dir) (s : SinkState) :
    Prop where
  sized : ∃ active, Sized path maxBytes maxFiles active s
  active_le : OwnFile path initial s 0 → (content s.disk path).length ≤ maxBytes
  archive_le : ∀ i, 1 ≤ i → i ≤ maxFiles → OwnFile path initial s i →
    ∃ held, s.disk (archive path i) = some (.Regular held) ∧ held ≠ [] ∧ held.length ≤ maxBytes
  frame : ∀ other ∉ chain path maxFiles, other ≠ suffixed path ".lock" →
    s.disk other = initial other

section Runs

variable {path : String} {maxBytes maxFiles : Nat} {initial : Dir} {s next : SinkState}

theorem meets_open_sized (path : String) (maxBytes maxFiles : Nat) (initial : Dir) :
    Meets (FileSink.open path maxBytes maxFiles)
      (fun _ s => 1 ≤ maxFiles ∧ s.rotations = [] ∧ SizeBounded path maxBytes maxFiles initial s)
      (fun _ => True) (.boot path maxBytes maxFiles initial) := by
  unfold FileSink.open acquireLock
  refine meets_bind (meets_ensureIo _ trivial fun hlimits => ?_)
  refine meets_bind (meets_bind (meets_symlinkMetadata _ _ trivial
    (meets_bind (meets_ensureIo _ trivial fun _ => meets_bind
      (meets_openFile _ _ trivial trivial fun _ => meets_inspect trivial ?_)))))
  refine meets_bind (meets_openLog path trivial trivial fun old hold _ => ?_)
  refine (meets_update _).mpr ⟨(of_decide_eq_true hlimits).2, rfl, ⟨old, rfl, hold⟩, ?_, ?_, ?_⟩
  · rintro (hlt | ⟨_, hmissing⟩)
    · cases hlt
    · have hcontent : content initial path = [] := by simp [content, hmissing]
      simp only [SinkState.created, content_create, SinkState.boot, hcontent]
      exact Nat.zero_le _
  · rintro i hpos _ (hlt | ⟨heq, _⟩)
    · cases hlt
    · cases heq
      cases hpos
  · intro other hother hlock
    have hne := ne_of_notMem_chain hother (path_mem_chain path maxFiles)
    exact (create_other _ hne).trans (create_other _ hlock)

/-- What a successful write did: it rotated exactly where the line did not
fit. The saturation of the sum is invisible, since what saturates would not
fit the `u64` either. -/
theorem written_cases {active : List UInt8} {call : List UInt8 × List Verdict}
    (h : Sized path maxBytes maxFiles active s) (hpos : 1 ≤ maxFiles)
    (hwritten : s.written call = some next) :
    call.1.length ≤ maxBytes ∧
      ((maxBytes < active.length + call.1.length ∧ active ≠ [] ∧
          Sized path maxBytes maxFiles call.1 next ∧ WroteRotated path maxFiles call.1 s next) ∨
        (active.length + call.1.length ≤ maxBytes ∧
          Sized path maxBytes maxFiles (active ++ call.1) next ∧
            WroteAppended path call.1 s next)) := by
  unfold SinkState.written at hwritten
  cases hdone : (FileSink.write call.1).run ⟨s, call.2⟩ with
  | dropped world =>
      rw [hdone] at hwritten
      cases hwritten
  | done result world =>
      rw [hdone] at hwritten
      cases result with
      | error error => cases hwritten
      | ok value =>
          dsimp only at hwritten
          split_ifs at hwritten with hu64
          obtain rfl := Option.some.inj hwritten
          obtain ⟨hline, hcases⟩ := meets_done (meets_write_sized h hpos call.1) hdone
          refine ⟨hline, ?_⟩
          split_ifs at hcases with hfull
          · refine Or.inl ⟨hfull.trans_le (min_le_left _ _), ?_, hcases⟩
            rintro rfl
            rw [List.length_nil, Nat.zero_add] at hfull
            omega
          · refine Or.inr ⟨?_, hcases⟩
            rw [hcases.1.sink_eq, List.length_append] at hu64
            dsimp only at hu64
            rw [Nat.min_eq_left hu64] at hfull
            omega

theorem SizeBounded.written (h : SizeBounded path maxBytes maxFiles initial s)
    {call : List UInt8 × List Verdict} (hpos : 1 ≤ maxFiles)
    (hwritten : s.written call = some next) :
    SizeBounded path maxBytes maxFiles initial next ∧
      (content next.disk path).length ≤ maxBytes := by
  obtain ⟨active, hsized⟩ := h.sized
  have hcontent := content_of_regular hsized.disk_eq
  obtain ⟨hline, hcases⟩ := written_cases hsized hpos hwritten
  rcases hcases with ⟨_, hne, hnext, hrotated⟩ | ⟨hfits, hnext, happended⟩
  · have hactive := content_of_regular hnext.disk_eq
    have hown {place : Nat} (hplace : OwnFile path initial next (place + 1)) :
        OwnFile path initial s place := by
      unfold OwnFile at hplace ⊢
      rw [hrotated.rotations_eq] at hplace
      exact hplace.imp (by omega) (And.imp_left (by omega))
    refine ⟨⟨⟨_, hnext⟩, fun _ => by rw [hactive]; exact hline, ?_, ?_⟩, by rw [hactive]; exact hline⟩
    · intro i hi hle hplace
      obtain ⟨place, rfl⟩ : ∃ place, i = place + 1 := ⟨i - 1, by omega⟩
      cases place with
      | zero =>
          -- The new archive is the active file of the state before.
          refine ⟨active, hrotated.places.newest.trans hsized.disk_eq, hne, ?_⟩
          rw [← hcontent]
          exact h.active_le (hown hplace)
      | succ place =>
          rw [hrotated.places.moved _ (by omega) hle]
          exact h.archive_le _ (by omega) (by omega) (hown hplace)
    · intro other hother hlock
      exact (hrotated.places.frame other hother).trans (h.frame other hother hlock)
  · have hlength : (content next.disk path).length ≤ maxBytes := by
      rw [content_of_regular hnext.disk_eq, List.length_append]
      exact hfits
    refine ⟨⟨⟨_, hnext⟩, fun _ => hlength, ?_, ?_⟩, hlength⟩
    · intro i hi hle hplace
      rw [happended.frame _ (archive_ne_path path i)]
      unfold OwnFile at hplace
      rw [happended.rotations_eq] at hplace
      exact h.archive_le i hi hle hplace
    · intro other hother hlock
      rw [happended.frame other (ne_of_notMem_chain hother (path_mem_chain path maxFiles))]
      exact h.frame other hother hlock

theorem openThenWrite_bounded {maxBytes : UInt64} {schedule : List Verdict}
    {calls : List (List UInt8 × List Verdict)}
    (hrun : openThenWrite path maxBytes maxFiles initial schedule calls = some s) :
    1 ≤ maxFiles ∧ SizeBounded path maxBytes.toNat maxFiles initial s ∧
      (calls ≠ [] → (content s.disk path).length ≤ maxBytes.toNat) := by
  unfold openThenWrite at hrun
  cases hdone : (FileSink.open path maxBytes.toNat maxFiles).run
      ⟨.boot path maxBytes.toNat maxFiles initial, schedule⟩ with
  | dropped world =>
      rw [hdone] at hrun
      cases hrun
  | done result world =>
      rw [hdone] at hrun
      cases result with
      | error error => cases hrun
      | ok value =>
          obtain ⟨hpos, _, hstart⟩ := meets_done (meets_open_sized path _ _ initial) hdone
          refine ⟨hpos, ?_⟩
          -- What the last write left is small; an opened file need not be.
          refine @Steps.run_history _ _ SinkState.written (fun calls s =>
            SizeBounded path maxBytes.toNat maxFiles initial s ∧
              (calls ≠ [] → (content s.disk path).length ≤ maxBytes.toNat)) _
            ⟨hstart, fun hne => absurd rfl hne⟩ ?_ _ _ hrun
          intro calls call middle next hmiddle hwritten
          obtain ⟨hnext, hlength⟩ := hmiddle.1.written hpos hwritten
          exact ⟨hnext, fun _ => hlength⟩

end Runs

/-- Sizes after any run of successful writes, on whatever was there before:
the cached size is the length of the file, no file the sink created outgrows
the limit, only the names of the chain are touched, and a write rotates, once,
exactly where its line does not fit. -/
theorem rotation_size_bound {path : String} {maxBytes : UInt64} {maxFiles : Nat} {initial : Dir}
    {schedule : List Verdict} {calls : List (List UInt8 × List Verdict)} {s : SinkState}
    (hrun : openThenWrite path maxBytes maxFiles initial schedule calls = some s) :
    s.sink.size = (content s.disk path).length ∧
    (calls ≠ [] → (content s.disk path).length ≤ maxBytes.toNat) ∧
    (∀ i, 1 ≤ i → i ≤ maxFiles → OwnFile path initial s i →
      ∃ held, s.disk (archive path i) = some (.Regular held) ∧ held ≠ [] ∧
        held.length ≤ maxBytes.toNat) ∧
    (∀ other, s.disk other ≠ initial other →
      other = path ∨ other = suffixed path ".lock" ∨
        ∃ i, 1 ≤ i ∧ i ≤ maxFiles ∧ other = archive path i) ∧
    ∀ call next, s.written call = some next →
      if maxBytes.toNat < (content s.disk path).length + call.1.length then
        content s.disk path ≠ [] ∧ WroteRotated path maxFiles call.1 s next
      else WroteAppended path call.1 s next := by
  obtain ⟨hpos, hbounded, hlength⟩ := openThenWrite_bounded hrun
  obtain ⟨active, hsized⟩ := hbounded.sized
  have hcontent := content_of_regular hsized.disk_eq
  refine ⟨by rw [hcontent, hsized.sink_eq], hlength, hbounded.archive_le, ?_, ?_⟩
  · intro other hchanged
    by_cases hlock : other = suffixed path ".lock"
    · exact Or.inr (Or.inl hlock)
    · have hmem : other ∈ chain path maxFiles := by
        by_contra hother
        exact hchanged (hbounded.frame other hother hlock)
      exact (mem_chain.mp hmem).imp_right Or.inr
  · intro call next hwritten
    rw [hcontent]
    obtain ⟨_, hcases⟩ := written_cases hsized hpos hwritten
    rcases hcases with ⟨hfull, hne, _, hrotated⟩ | ⟨hfits, _, happended⟩
    · rw [if_pos hfull]
      exact ⟨hne, hrotated⟩
    · rw [if_neg (by omega)]
      exact happended

/-- An inherited log of five bytes under a limit of three is archived as it
is; the next rotation replaces it by a file of the sink's own. -/
theorem rotation_size_bound_inherited :
    ∃ s, openThenWrite "log" 3 1 (Disk.set (fun _ => none) "log" (some (.Regular [1, 2, 3, 4, 10])))
        [] [([1, 2, 10], []), ([3, 10], [.Go 1])] = some s ∧
      s.sink.size = (content s.disk "log").length ∧
      ∃ held, s.disk (archive "log" 1) = some (.Regular held) ∧ held ≠ [] ∧ held.length ≤ 3 := by
  obtain ⟨s, hrun, hrotations⟩ := (Option.any_eq_true _ _).mp
    (show ((openThenWrite "log" 3 1
      (Disk.set (fun _ => none) "log" (some (.Regular [1, 2, 3, 4, 10])))
      [] [([1, 2, 10], []), ([3, 10], [.Go 1])]).any fun s => s.rotations.length == 2) = true from
      by decide +kernel)
  have hbound := rotation_size_bound hrun
  refine ⟨s, hrun, hbound.1, hbound.2.2.1 1 le_rfl le_rfl (Or.inl ?_)⟩
  rw [beq_iff_eq.mp hrotations]
  exact Nat.one_lt_two

end Minotaur
