import Minotaur.Base.JsonParse
import Minotaur.Base.Utf8.Ascii
import Minotaur.Logger.Lines
import Minotaur.Logger.Retention
import Minotaur.Session.Deserialize

/-!
Reading a log back: it is split at its newlines, and each line is decoded and
parsed. What the serialiser writes has no newline inside, so a log of whole
lines reads as the values that were written, also after a rotation has dropped
the oldest of them, and two logs with the same bytes are of the same records.
-/

namespace Minotaur

open Disk

/-- The finished lines, and what stands behind the last newline. -/
def splitLines : List UInt8 → List (List UInt8) × List UInt8
  | [] => ([], [])
  | b :: rest =>
      let split := splitLines rest
      if b = newline then ([] :: split.1, split.2)
      else match split.1 with
        | [] => ([], b :: split.2)
        | line :: lines => ((b :: line) :: lines, split.2)

def readLine (line : List UInt8) : Option Json := (Utf8.decode line).bind Json.parse

/-- The values of a log, if its last line is finished and every line reads. -/
def readLog (bytes : List UInt8) : Option (List Json) :=
  let split := splitLines bytes
  if split.2 = [] then split.1.mapM readLine else none

/-- A value on a line of its own. -/
def jsonLine (value : Json) : List UInt8 := terminated (Utf8.encode value.text)

theorem splitLines_append {first : List UInt8} (hfirst : (splitLines first).2 = [])
    (second : List UInt8) :
    splitLines (first ++ second) =
      ((splitLines first).1 ++ (splitLines second).1, (splitLines second).2) := by
  induction first with
  | nil => rfl
  | cons b first ih =>
      simp only [splitLines] at hfirst
      rw [List.cons_append, splitLines, splitLines]
      split_ifs at hfirst ⊢ with hnewline
      · rw [ih hfirst]
        rfl
      · cases hlines : (splitLines first).1 with
        | nil =>
            rw [hlines] at hfirst
            cases hfirst
        | cons line lines =>
            rw [hlines] at hfirst
            rw [ih hfirst, hlines]
            rfl

theorem splitLines_terminated {body : List UInt8} (hclean : newline ∉ body) :
    splitLines (terminated body) = ([body], []) := by
  induction body with
  | nil => rfl
  | cons b body ih =>
      rw [List.mem_cons, not_or] at hclean
      have hbody : splitLines (body ++ [newline]) = ([body], []) := ih hclean.2
      rw [terminated, List.cons_append, splitLines, if_neg (Ne.symm hclean.1), hbody]

/-- A text without control characters is one line. -/
theorem newline_notMem_encode {chars : List Char} (hclean : Json.Clean chars) :
    newline ∉ Utf8.encode chars := by
  intro hmem
  have hchar := (Utf8.mem_encode_ascii (b := newline) (by decide) chars).mp hmem
  exact absurd (hclean _ hchar) (by decide)

theorem readLog_append {first : List UInt8} {values : List Json} (hfirst : readLog first = some values)
    (second : List UInt8) :
    readLog (first ++ second) = (readLog second).map (values ++ ·) := by
  unfold readLog at hfirst ⊢
  dsimp only at hfirst ⊢
  split_ifs at hfirst with hwhole
  rw [splitLines_append hwhole]
  split_ifs
  · rw [List.mapM_append, hfirst]
    cases (splitLines second).1.mapM readLine <;> rfl
  · rfl

theorem readLog_jsonLine (value : Json) : readLog (jsonLine value) = some [value] := by
  have hread : readLine (Utf8.encode value.text) = some value := by
    unfold readLine
    rw [Utf8.decode_encode]
    exact Json.parse_text value
  unfold readLog jsonLine
  rw [splitLines_terminated (newline_notMem_encode (Json.clean_text value))]
  simp [hread]

theorem readLog_flatMap {α : Type} (line : α → List UInt8) (read : α → List Json) (items : List α)
    (hitems : ∀ item ∈ items, readLog (line item) = some (read item)) :
    readLog (items.flatMap line) = some (items.flatMap read) := by
  induction items with
  | nil => rfl
  | cons item items ih =>
      have hrest := ih fun item hmem => hitems item (List.mem_cons_of_mem _ hmem)
      rw [List.flatMap_cons, readLog_append (hitems item List.mem_cons_self), hrest]
      rfl

theorem readLog_lines (timestamp : Int → String) (records : List SessionRecord) :
    readLog (records.flatMap (SessionRecord.line timestamp)) =
      some (records.map (SessionRecord.toJson timestamp)) := by
  have hlines := readLog_flatMap (SessionRecord.line timestamp)
    (fun record => [record.toJson timestamp]) records fun record _ => readLog_jsonLine _
  rw [hlines, ← List.map_eq_flatMap]

/-- Two sequences of records with the same lines are, one by one, the same
records up to what no line shows: the text stands for the timestamp and for
both addresses. -/
theorem records_of_lines {timestamp : Int → String} {first second : List SessionRecord}
    (h : first.flatMap (SessionRecord.line timestamp) =
      second.flatMap (SessionRecord.line timestamp)) :
    List.Forall₂ (SameLine timestamp) first second := by
  have hread := readLog_lines timestamp first
  rw [h, readLog_lines, Option.some.injEq] at hread
  have hpairs : List.Forall₂ (fun a b => a.toJson timestamp = b.toJson timestamp) first second := by
    rw [← List.forall₂_map_right_iff, ← List.forall₂_map_left_iff, List.forall₂_eq_eq_eq]
    exact hread.symm
  exact hpairs.imp fun _ _ hsame => sameLine_of_toJson hsame

/-- The flow label of an IPv6 peer is not shown. -/
theorem records_of_lines_flowinfo :
    let record := fun flowinfo : UInt32 =>
      ((SessionState.new 7 0 0 { bind := .V4 0 22, protocol := .Raw } (.V6 1 4242 flowinfo 0)
        (.V4 0x7f000001 22) {}).recordBytes [104, 105]).finalize 2000000 .ClientClosed
    [record 0].flatMap (SessionRecord.line fun _ => "1970-01-01T00:00:00Z") =
        [record 1].flatMap (SessionRecord.line fun _ => "1970-01-01T00:00:00Z") ∧
      List.Forall₂ (SameLine fun _ => "1970-01-01T00:00:00Z") [record 0] [record 1] := by
  intro record
  have hlines : [record 0].flatMap (SessionRecord.line fun _ => "1970-01-01T00:00:00Z") =
      [record 1].flatMap (SessionRecord.line fun _ => "1970-01-01T00:00:00Z") := rfl
  exact ⟨hlines, records_of_lines hlines⟩

/-! ### Rotated logs -/

section Rotated

variable {path : String} {maxBytes maxFiles : Nat} {ring : SegmentRing (List UInt8)} {s : SinkState}

/-- What an item of the log reads as. -/
def readItem (item : List UInt8) : List Json := (readLog item).getD []

theorem readLog_flatten {items : List (List UInt8)}
    (hitems : ∀ item ∈ items, (readLog item).isSome = true) :
    readLog items.flatten = some (items.flatMap readItem) := by
  have hread := readLog_flatMap id readItem items fun item hitem => by
    obtain ⟨values, hvalues⟩ := Option.isSome_iff_exists.mp (hitems item hitem)
    simp [readItem, hvalues]
  simpa using hread

/-- Every file of the chain reads, and so do all of them one after the other. -/
theorem Pictured.reads (h : Pictured path maxBytes maxFiles ring s)
    (hitems : ∀ item ∈ ring.kept, (readLog item).isSome = true) :
    readLog (history s.disk (chain path maxFiles)) = some (ring.kept.flatMap readItem) ∧
      ∀ name ∈ chain path maxFiles, (readLog (content s.disk name)).isSome = true := by
  refine ⟨?_, ?_⟩
  · rw [h.history_eq]
    exact readLog_flatten hitems
  · intro name hname
    rcases mem_chain.mp hname with rfl | ⟨index, hpos, hle, rfl⟩
    · rw [content_of_regular h.sized.disk_eq, readLog_flatten]
      · rfl
      · exact fun item hitem => hitems item (SegmentRing.mem_kept.mpr (Or.inr hitem))
    · obtain ⟨place, rfl⟩ : ∃ place, index = place + 1 := ⟨index - 1, by omega⟩
      rw [content_of_map (h.places place (by omega))]
      cases hplace : ring.places[place]?.join with
      | none => rfl
      | some segment =>
          have hmem : some segment ∈ ring.places :=
            List.mem_of_getElem? (Option.join_eq_some_iff.mp hplace)
          rw [Option.getD_some, readLog_flatten]
          · rfl
          · exact fun item hitem =>
              hitems item (SegmentRing.mem_kept.mpr (Or.inl ⟨segment, hmem, hitem⟩))

theorem kept_ringOf {dir : Dir}
    (hregular : ∀ index < maxFiles, dir (archive path (index + 1)) ≠ some .Other) :
    (ringOf path maxFiles dir).kept.flatten = history dir (chain path maxFiles) := by
  have hcount : (ringOf path maxFiles dir).places.length = maxFiles := by simp [ringOf]
  have hplaces := history_places path dir (ringOf path maxFiles dir).places (fun index hindex => by
      rw [hcount] at hindex
      rw [ringOf, List.getElem?_map, List.getElem?_range hindex]
      exact inherited_eq (hregular index hindex))
  rw [hcount] at hplaces
  rw [hplaces, SegmentRing.kept, List.flatten_append, ringOf, flatten_inherited]

theorem mem_inherited {dir : Dir} {name : String} {segment : List (List UInt8)}
    (h : inherited dir name = some segment) : segment = [content dir name] := by
  unfold inherited at h
  split at h
  · rename_i old hold
    rw [content_of_regular hold]
    exact (Option.some.inj h).symm
  · cases h

/-- The items a sink finds are the files of the older log. -/
theorem mem_kept_ringOf {dir : Dir} {item : List UInt8}
    (hitem : item ∈ (ringOf path maxFiles dir).kept) :
    ∃ name ∈ chain path maxFiles, item = content dir name := by
  rcases SegmentRing.mem_kept.mp hitem with ⟨segment, hplace, hmem⟩ | hactive
  · obtain ⟨index, hindex, hsome⟩ := List.mem_map.mp hplace
    rw [mem_inherited hsome, List.mem_singleton] at hmem
    exact ⟨_, archive_mem_chain path (by omega) (List.mem_range.mp hindex), hmem⟩
  · cases hold : inherited dir path with
    | none => simp [ringOf, hold] at hactive
    | some segment =>
        rw [ringOf, hold, mem_inherited hold] at hactive
        exact ⟨path, path_mem_chain path maxFiles, List.mem_singleton.mp hactive⟩

/-- Files that read one by one read one after the other. -/
theorem readLog_history {dir : Dir} {names : List String}
    (hnames : ∀ name ∈ names, (readLog (content dir name)).isSome = true) :
    ∃ values, readLog (history dir names) = some values := by
  refine ⟨_, readLog_flatMap (content dir) (fun name => readItem (content dir name)) names ?_⟩
  intro name hname
  obtain ⟨values, hvalues⟩ := Option.isSome_iff_exists.mp (hnames name hname)
  simp [readItem, hvalues]

/-- What a reader finds after `records` were written behind an older log: every
file reads, and together they are an end of the older values and the new. -/
theorem reads_of_pictured {timestamp : Int → String} {initial : Dir} {records : List SessionRecord}
    (h : Pictured path maxBytes maxFiles (retainedRing path maxBytes maxFiles initial
      (records.map (SessionRecord.line timestamp))) s)
    (hregular : ∀ index < maxFiles, initial (archive path (index + 1)) ≠ some .Other)
    {older : List Json} (holder : readLog (history initial (chain path maxFiles)) = some older)
    (hinitial : ∀ name ∈ chain path maxFiles, (readLog (content initial name)).isSome = true) :
    (∀ name ∈ chain path maxFiles, (readLog (content s.disk name)).isSome = true) ∧
      ∃ kept, readLog (history s.disk (chain path maxFiles)) = some kept ∧
        kept <:+ older ++ records.map (SessionRecord.toJson timestamp) := by
  have hline : ∀ record : SessionRecord,
      readLog (record.line timestamp) = some [record.toJson timestamp] := fun _ => readLog_jsonLine _
  have hstart : ∀ item ∈ (ringOf path maxFiles initial).kept, (readLog item).isSome = true := by
    intro item hitem
    obtain ⟨name, hname, rfl⟩ := mem_kept_ringOf hitem
    exact hinitial name hname
  have hitems : ∀ item ∈ (retainedRing path maxBytes maxFiles initial
      (records.map (SessionRecord.line timestamp))).kept, (readLog item).isSome = true := by
    intro item hitem
    rcases SegmentRing.mem_kept_pushes hitem with hold | hnew
    · exact hstart item hold
    · obtain ⟨record, _, rfl⟩ := List.mem_map.mp hnew
      rw [hline]
      rfl
  obtain ⟨hhistory, hfiles⟩ := h.reads hitems
  refine ⟨hfiles, _, hhistory, ?_⟩
  obtain ⟨dropped, hdropped⟩ := SegmentRing.kept_pushes List.length maxBytes
    (ringOf path maxFiles initial) (records.map (SessionRecord.line timestamp))
  have holder' := readLog_flatten hstart
  rw [kept_ringOf hregular, holder, Option.some.injEq] at holder'
  have hnew : (records.map (SessionRecord.line timestamp)).flatMap readItem =
      records.map (SessionRecord.toJson timestamp) := by
    rw [List.flatMap_map, List.map_eq_flatMap]
    simp only [readItem, hline, Option.getD_some]
  have hvalues := congrArg (List.flatMap readItem) hdropped
  rw [List.flatMap_append, List.flatMap_append, ← holder', hnew] at hvalues
  exact ⟨_, hvalues⟩

end Rotated

end Minotaur
