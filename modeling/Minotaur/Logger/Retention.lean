import Minotaur.Base.SegmentRing
import Minotaur.Logger.SizeBound

/-!
The files of a log as a ring of segments. Its items are lines: the active file
is the active segment, `path.i` is place `i` and a missing archive an empty
place. What was there before the sink opened counts as one item a file. A write
that succeeds is a push, wherever its transfers were cut, so the ring's bounds
on what is kept are bounds on the log.
-/

namespace Minotaur

open Disk Interruptible

/-- What a regular file of an older log holds, as one item. -/
def inherited (dir : Dir) (path : String) : Option (List (List UInt8)) :=
  match dir path with
  | some (.Regular old) => some [old]
  | _ => none

/-- The log that a sink finds. -/
def ringOf (path : String) (maxFiles : Nat) (dir : Dir) : SegmentRing (List UInt8) where
  active := (inherited dir path).getD []
  places := (List.range maxFiles).map fun index => inherited dir (archive path (index + 1))

/-- The log after `lines` were written to it. -/
def retainedRing (path : String) (maxBytes maxFiles : Nat) (initial : Dir)
    (lines : List (List UInt8)) : SegmentRing (List UInt8) :=
  (ringOf path maxFiles initial).pushes List.length maxBytes lines

def segmentNode (segment : List (List UInt8)) : Node := .Regular segment.flatten

/-- A sink between two writes whose files are the segments of `ring`. -/
structure Pictured (path : String) (maxBytes maxFiles : Nat) (ring : SegmentRing (List UInt8))
    (s : SinkState) : Prop where
  sized : Sized path maxBytes maxFiles ring.active.flatten s
  count : ring.places.length = maxFiles
  places : ∀ index < maxFiles,
    s.disk (archive path (index + 1)) = ring.places[index]?.join.map segmentNode

section Pictured

variable {path : String} {maxBytes maxFiles : Nat} {ring : SegmentRing (List UInt8)}
  {line : List UInt8} {initial : Dir} {s next : SinkState}

theorem weight_eq (segment : List (List UInt8)) :
    SegmentRing.weight List.length segment = segment.flatten.length := by
  induction segment with
  | nil => rfl
  | cons line segment ih => rw [SegmentRing.weight, List.flatten_cons, List.length_append, ih]

theorem Pictured.rotated (h : Pictured path maxBytes maxFiles ring s)
    (hfull : maxBytes < ring.active.flatten.length + line.length)
    (hsized : Sized path maxBytes maxFiles line next)
    (hwrote : WroteRotated path maxFiles line s next) :
    Pictured path maxBytes maxFiles (ring.push List.length maxBytes line) next := by
  rw [← weight_eq] at hfull
  unfold SegmentRing.push
  rw [if_pos hfull]
  refine ⟨by simpa using hsized, ?_, ?_⟩
  · rw [List.length_take, List.length_cons, h.count]
    omega
  · intro index hindex
    dsimp only
    rw [h.count, List.getElem?_take_of_lt hindex]
    cases index with
    | zero => exact hwrote.places.newest.trans h.sized.disk_eq
    | succ index =>
        rw [List.getElem?_cons_succ, ← h.places index (by omega)]
        exact hwrote.places.moved (index + 1) (by omega) (by omega)

theorem Pictured.appended (h : Pictured path maxBytes maxFiles ring s)
    (hfits : ring.active.flatten.length + line.length ≤ maxBytes)
    (hsized : Sized path maxBytes maxFiles (ring.active.flatten ++ line) next)
    (hwrote : WroteAppended path line s next) :
    Pictured path maxBytes maxFiles (ring.push List.length maxBytes line) next := by
  rw [← weight_eq] at hfits
  unfold SegmentRing.push
  rw [if_neg (by omega)]
  refine ⟨by simpa using hsized, h.count, ?_⟩
  intro index hindex
  rw [hwrote.frame _ (archive_ne_path path _)]
  exact h.places index hindex

/-- A successful write is a push. -/
theorem Pictured.written (h : Pictured path maxBytes maxFiles ring s) (hpos : 1 ≤ maxFiles)
    {call : List UInt8 × List Verdict} (hwritten : s.written call = some next) :
    Pictured path maxBytes maxFiles (ring.push List.length maxBytes call.1) next := by
  obtain ⟨_, ⟨hfull, _, hsized, hwrote⟩ | ⟨hfits, hsized, hwrote⟩⟩ :=
    written_cases h.sized hpos hwritten
  · exact h.rotated hfull hsized hwrote
  · exact h.appended hfits hsized hwrote

/-- The same under a limit that no saturated sum can stay below. -/
theorem meets_write_pictured (h : Pictured path maxBytes maxFiles ring s) (hpos : 1 ≤ maxFiles)
    (hlimit : maxBytes < u64Max) (line : List UInt8) :
    Meets (FileSink.write line)
      (fun _ => Pictured path maxBytes maxFiles (ring.push List.length maxBytes line))
      (fun _ => True) s := by
  refine meets_mono (meets_write_sized h.sized hpos line) ?_ (fun _ _ => trivial)
  rintro _ next ⟨_, hcases⟩
  split_ifs at hcases with hfull
  · exact h.rotated (hfull.trans_le (min_le_left _ _)) hcases.1 hcases.2
  · exact h.appended (by omega) hcases.1 hcases.2

theorem archive_ne_lock (path : String) (index : Nat) : archive path index ≠ suffixed path ".lock" := by
  intro heq
  unfold archive suffixed at heq
  have htail := congrArg String.toList heq
  simp only [String.toList_append, List.append_cancel_left_eq] at htail
  have hdigits : (toString index).toList = "lock".toList := by simpa using htail
  have hmem : 'l' ∈ Nat.toDigits 10 index := by
    have hrepr : (toString index).toList = Nat.toDigits 10 index := Nat.toList_repr
    rw [← hrepr, hdigits]
    decide
  exact absurd (Nat.isDigit_of_mem_toDigits (by decide) (by decide) hmem) (by decide)

theorem flatten_inherited (dir : Dir) (path : String) :
    ((inherited dir path).getD []).flatten = content dir path := by
  unfold inherited content
  cases dir path with
  | none => rfl
  | some node => cases node <;> simp

theorem inherited_eq {dir : Dir} {path : String} (hregular : dir path ≠ some .Other) :
    dir path = (inherited dir path).map segmentNode := by
  unfold inherited
  cases hnode : dir path with
  | none => rfl
  | some node =>
      cases node with
      | Regular old => simp [segmentNode]
      | Other => exact absurd hnode hregular

theorem meets_open_pictured (path : String) (maxBytes maxFiles : Nat)
    (hregular : ∀ index < maxFiles, initial (archive path (index + 1)) ≠ some .Other) :
    Meets (FileSink.open path maxBytes maxFiles)
      (fun _ s => 1 ≤ maxFiles ∧
        Pictured path maxBytes maxFiles (ringOf path maxFiles initial) s)
      (fun _ => True) (.boot path maxBytes maxFiles initial) := by
  unfold FileSink.open acquireLock
  refine meets_bind (meets_ensureIo _ trivial fun hlimits => ?_)
  refine meets_bind (meets_bind (meets_symlinkMetadata _ _ trivial
    (meets_bind (meets_ensureIo _ trivial fun _ => meets_bind
      (meets_openFile _ _ trivial trivial fun _ => meets_inspect trivial ?_)))))
  refine meets_bind (meets_openLog path trivial trivial fun old hold _ => ?_)
  have hold' : old = (ringOf path maxFiles initial).active.flatten := by
    rw [ringOf, flatten_inherited, ← content_of_regular hold]
    simp only [SinkState.created, content_create, SinkState.boot]
  refine (meets_update _).mpr ⟨(of_decide_eq_true hlimits).2, ⟨?_, ?_⟩, ?_, ?_⟩
  · rw [← hold']
  · rw [← hold']
    exact hold
  · simp [ringOf]
  · intro index hindex
    have hsame : (((SinkState.boot path maxBytes maxFiles initial).created
        (suffixed path ".lock")).created path).disk (archive path (index + 1)) =
        initial (archive path (index + 1)) :=
      (create_other _ (archive_ne_path path _)).trans (create_other _ (archive_ne_lock path _))
    refine hsame.trans ?_
    rw [ringOf, List.getElem?_map, List.getElem?_range hindex]
    exact inherited_eq (hregular index hindex)

theorem content_of_map {dir : Dir} {name : String} {segment : Option (List (List UInt8))}
    (hnode : dir name = segment.map segmentNode) : content dir name = (segment.getD []).flatten := by
  unfold content
  rw [hnode]
  cases segment <;> simp [segmentNode]

theorem history_places (path : String) (dir : Dir) (places : List (Option (List (List UInt8))))
    (h : ∀ index < places.length,
      dir (archive path (index + 1)) = places[index]?.join.map segmentNode) :
    history dir (chain path places.length) =
      (places.reverse.flatMap (·.getD [])).flatten ++ content dir path := by
  induction places using List.reverseRecOn with
  | nil => simp [history, chain]
  | append_singleton places last ih =>
      have hlast := h places.length (by simp)
      have hrest := ih fun index hindex => by
        rw [h index (by rw [List.length_append]; omega), List.getElem?_append_left hindex]
      rw [List.getElem?_concat_length, Option.join_some] at hlast
      rw [List.length_append, List.length_singleton, chain, history, List.flatMap_cons,
        content_of_map hlast]
      simp only [history] at hrest
      simp [hrest]

theorem Pictured.history_eq (h : Pictured path maxBytes maxFiles ring s) :
    history s.disk (chain path maxFiles) = ring.kept.flatten := by
  have hplaces := history_places path s.disk ring.places (by rw [h.count]; exact h.places)
  rw [h.count, content_of_regular h.sized.disk_eq] at hplaces
  rw [hplaces, SegmentRing.kept, List.flatten_append]

end Pictured

/-! ### Runs -/

variable {path : String} {maxBytes : UInt64} {maxFiles : Nat} {initial : Dir}
  {schedule : List Verdict} {calls : List (List UInt8 × List Verdict)} {s : SinkState}

theorem pictured_of_run
    (hregular : ∀ index < maxFiles, initial (archive path (index + 1)) ≠ some .Other)
    (hrun : openThenWrite path maxBytes maxFiles initial schedule calls = some s) :
    Pictured path maxBytes.toNat maxFiles
      (retainedRing path maxBytes.toNat maxFiles initial (calls.map Prod.fst)) s := by
  unfold openThenWrite at hrun
  cases hdone : (FileSink.open path maxBytes.toNat maxFiles).run
      ⟨.boot path maxBytes.toNat maxFiles initial, schedule⟩ with
  | dropped world =>
      rw [hdone] at hrun
      cases hrun
  | done result world =>
      rw [hdone] at hrun
      cases result with
      | error error => cases hrun
      | ok value =>
          obtain ⟨hpos, hstart⟩ := meets_done (meets_open_pictured path _ _ hregular) hdone
          refine @Steps.run_history _ _ SinkState.written (fun calls s =>
            Pictured path maxBytes.toNat maxFiles
              (retainedRing path maxBytes.toNat maxFiles initial (calls.map Prod.fst)) s) _
            hstart ?_ _ _ hrun
          intro calls call middle next hmiddle hwritten
          have hnext := hmiddle.written hpos hwritten
          simpa [retainedRing, SegmentRing.pushes] using hnext

/-- A log rotates as a ring of segments. After any run of successful writes
every file of the chain is the segment at its place, so the retained log is an
end of all that was there and was written; and an end of the written lines that
is no longer than what full archives are sure to hold is in it. -/
theorem rotation_retains (bound : Nat) (hbound : bound ≤ maxBytes.toNat)
    (hregular : ∀ index < maxFiles, initial (archive path (index + 1)) ≠ some .Other)
    (hlines : ∀ call ∈ calls, call.1.length ≤ bound)
    (hrun : openThenWrite path maxBytes maxFiles initial schedule calls = some s) :
    Pictured path maxBytes.toNat maxFiles
      (retainedRing path maxBytes.toNat maxFiles initial (calls.map Prod.fst)) s ∧
    ∀ recent, recent <:+ calls.map Prod.fst →
      recent.flatten.length ≤ maxFiles * (maxBytes.toNat - bound) →
      recent.flatten <:+ history s.disk (chain path maxFiles) := by
  have hpictured := pictured_of_run hregular hrun
  refine ⟨hpictured, ?_⟩
  intro recent hrecent hlength
  obtain ⟨hpos, _, _⟩ := openThenWrite_bounded hrun
  have hcount : (ringOf path maxFiles initial).places.length = maxFiles := by simp [ringOf]
  have hkept : recent <:+
      (retainedRing path maxBytes.toNat maxFiles initial (calls.map Prod.fst)).kept := by
    refine SegmentRing.recent_kept ?_ (hrecent.trans (List.suffix_append _ _)) ?_
      ?_ hbound
    · intro line hline
      obtain ⟨call, hcall, rfl⟩ := List.mem_map.mp hline
      exact hlines call hcall
    · rw [hcount, weight_eq]
      exact hlength
    · exact List.ne_nil_of_length_pos (by omega)
  obtain ⟨older, holder⟩ := hkept
  rw [hpictured.history_eq, ← holder, List.flatten_append]
  exact List.suffix_append _ _

/-- Two lines a file and one archive; the fifth line drops the inherited file
and the first two. -/
theorem rotation_retains_newest :
    ∃ s, openThenWrite "log" 4 1 (Disk.set (fun _ => none) "log" (some (.Regular [9, 9, 9, 10]))) []
        [([1, 10], []), ([2, 10], [.Go 1]), ([3, 10], []), ([4, 10], []), ([5, 10], [])] = some s ∧
      [5, 10] <:+ history s.disk (chain "log" 1) := by
  obtain ⟨s, hrun⟩ : ∃ s, openThenWrite "log" 4 1
      (Disk.set (fun _ => none) "log" (some (.Regular [9, 9, 9, 10]))) []
      [([1, 10], []), ([2, 10], [.Go 1]), ([3, 10], []), ([4, 10], []), ([5, 10], [])] = some s :=
    Option.isSome_iff_exists.mp (by decide +kernel)
  have hregular : ∀ index < 1, Disk.set (fun _ => none) "log" (some (.Regular [9, 9, 9, 10]))
      (archive "log" (index + 1)) ≠ some .Other := by decide +kernel
  obtain ⟨_, hretains⟩ := rotation_retains 2 (by decide) hregular (by decide) hrun
  exact ⟨s, hrun, hretains [[5, 10]] (by decide) (by decide)⟩

end Minotaur
