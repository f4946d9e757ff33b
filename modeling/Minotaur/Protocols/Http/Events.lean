import Minotaur.Protocols.Http
import Minotaur.Protocols.Progress

/-!
The events of an HTTP session: nothing, one request, or one notice. `Parses`
reads both ends of a check, what it established and which notice it refuses
with; every step of the parser has one such lemma.
-/

namespace Minotaur.Http

open Future

/-- A result with `post`, or one of the notices. -/
def Parses {α : Type} (post : α → Prop) : Except String α → Prop
  | .ok value => post value
  | .error msg => msg ∈ notices

theorem parses_bind {α β : Type} {post : β → Prop} {first : Except String α}
    {next : α → Except String β} (h : Parses (fun value => Parses post (next value)) first) :
    Parses post (first >>= next) := by
  cases first with
  | ok value => exact h
  | error msg => exact h

theorem parses_ensure {cond : Bool} {msg : String} (hmsg : msg ∈ notices) :
    Parses (fun _ => cond = true) (ensure cond msg) := by
  unfold ensure
  cases cond with
  | true => rfl
  | false => exact hmsg

theorem parses_mono {α : Type} {post post' : α → Prop} {result : Except String α}
    (h : Parses post result) (himp : ∀ value, post value → post' value) : Parses post' result := by
  cases result with
  | ok value => exact himp value h
  | error msg => exact h

/-! ### The request line -/

structure RequestLine.Checked (line : RequestLine) : Prop where
  method : line.method ≠ []
  methodLength : (Utf8.encode line.method).length ≤ 32
  methodToken : (Utf8.encode line.method).all tokenByte = true
  version : line.version = "HTTP/1.0".toList ∨ line.version = "HTTP/1.1".toList
  path : line.path ≠ []
  pathTarget : (Utf8.encode line.path).all targetByte = true

theorem parses_checkRequestLine (line : RequestLine) (extra : List (List Char)) :
    Parses (fun checked => checked = line ∧ extra = [] ∧ line.Checked)
      (checkRequestLine line extra) := by
  unfold checkRequestLine
  apply parses_bind
  apply parses_mono (parses_ensure (by decide))
  intro _ hmethod
  apply parses_bind
  apply parses_mono (parses_ensure (by decide))
  intro _ hversion
  apply parses_bind
  apply parses_mono (parses_ensure (by decide))
  intro _ hpath
  simp only [Bool.and_eq_true, Bool.or_eq_true, decide_eq_true_eq] at hmethod hversion hpath
  obtain ⟨⟨⟨hextra, hnonempty⟩, hlength⟩, htoken⟩ := hmethod
  obtain ⟨⟨hpath, _⟩, htarget⟩ := hpath
  exact ⟨rfl, hextra, hnonempty, hlength, htoken, hversion, hpath, htarget⟩

theorem parses_parseRequestLine (first : List Char) :
    Parses (fun line => first.splitOn ' ' = [line.method, line.path, line.version] ∧ line.Checked)
      (parseRequestLine first) := by
  unfold parseRequestLine
  split
  · exact show _ ∈ notices by decide
  · exact show _ ∈ notices by decide
  · exact show _ ∈ notices by decide
  · rename_i method path version extra hsplit
    apply parses_mono (parses_checkRequestLine ⟨method, path, version⟩ extra)
    rintro line ⟨rfl, rfl, hchecked⟩
    exact ⟨hsplit, hchecked⟩

/-! ### The header fields -/

structure HeaderFields.Checked (fields : HeaderFields) : Prop where
  host : ∀ value, fields.host = some value → (Utf8.encode value).length ≤ 2048
  userAgent : ∀ value, fields.userAgent = some value → value.length ≤ 1024

theorem parses_hostHeader {fields : HeaderFields} (h : fields.Checked) (value : List Char) :
    Parses HeaderFields.Checked (hostHeader fields value) := by
  unfold hostHeader
  split_ifs with hbad
  · exact show _ ∈ notices by decide
  · simp only [Bool.or_eq_true, decide_eq_true_eq, not_or, Nat.not_lt] at hbad
    refine ⟨?_, h.userAgent⟩
    intro host hhost
    obtain rfl : value = host := by simpa using hhost
    exact hbad.2

theorem parses_userAgentHeader {fields : HeaderFields} (h : fields.Checked)
    (value : List Char) : Parses HeaderFields.Checked (userAgentHeader fields value) := by
  unfold userAgentHeader
  split_ifs
  · refine ⟨h.host, ?_⟩
    intro userAgent huserAgent
    obtain rfl : value.take 1024 = userAgent := by simpa using huserAgent
    exact List.length_take_le 1024 value
  · exact h

theorem parses_contentLengthHeader {fields : HeaderFields} (h : fields.Checked)
    (value : List Char) : Parses HeaderFields.Checked (contentLengthHeader fields value) := by
  unfold contentLengthHeader
  split_ifs
  · exact show _ ∈ notices by decide
  · cases parseU64 value with
    | some number => exact ⟨h.host, h.userAgent⟩
    | none => exact show _ ∈ notices by decide

theorem parses_transferEncodingHeader {fields : HeaderFields} (h : fields.Checked)
    (value : List Char) : Parses HeaderFields.Checked (transferEncodingHeader fields value) := by
  unfold transferEncodingHeader
  split_ifs
  · exact show _ ∈ notices by decide
  · exact ⟨h.host, h.userAgent⟩

theorem parses_parseHeader {fields : HeaderFields} (h : fields.Checked) (line : List Char) :
    Parses HeaderFields.Checked (parseHeader fields line) := by
  unfold parseHeader
  cases Text.splitOnce ':' line with
  | none => exact show _ ∈ notices by decide
  | some pair =>
      dsimp only
      split_ifs
      · exact show _ ∈ notices by decide
      · exact parses_hostHeader h _
      · exact parses_userAgentHeader h _
      · exact parses_contentLengthHeader h _
      · exact parses_transferEncodingHeader h _
      · exact h

theorem parses_parseHeaders (count : Nat) {fields : HeaderFields} (h : fields.Checked)
    (lines : List (List Char)) : Parses HeaderFields.Checked (parseHeaders count fields lines) := by
  induction lines generalizing count fields with
  | nil => exact h
  | cons line rest ih =>
      unfold parseHeaders
      split_ifs
      · exact h
      · exact show _ ∈ notices by decide
      · apply parses_bind
        apply parses_mono (parses_parseHeader h line)
        intro fields hfields
        exact ih (count + 1) hfields

theorem parses_checkFields (line : RequestLine) (fields : HeaderFields) :
    Parses (fun _ => True) (checkFields line fields) := by
  unfold checkFields
  apply parses_bind
  apply parses_mono (parses_ensure (by decide))
  intro _ _
  apply parses_mono (parses_ensure (by decide))
  intro _ _
  trivial

/-! ### The request -/

/-- Where the event of an accepted request comes from. -/
structure Parsed (text : List Char) (event : SessionEvent) (line : RequestLine)
    (fields : HeaderFields) : Prop where
  requestLine : ∃ first rest, Text.splitPair '\r' '\n' text = first :: rest ∧
    first.splitOn ' ' = [line.method, line.path, line.version]
  lineChecked : line.Checked
  fieldsChecked : fields.Checked
  event : event = requestEvent line fields

theorem parses_parseText (text : List Char) :
    Parses (fun event => ∃ line fields, Parsed text event line fields) (parseText text) := by
  unfold parseText
  cases hsplit : Text.splitPair '\r' '\n' text with
  | nil => exact show _ ∈ notices by decide
  | cons first rest =>
      dsimp only
      apply parses_bind
      apply parses_mono (parses_parseRequestLine first)
      rintro line ⟨hfirst, hline⟩
      apply parses_bind
      apply parses_mono (parses_parseHeaders 0 ⟨by simp, by simp⟩ rest)
      intro fields hfields
      apply parses_bind
      apply parses_mono (parses_checkFields line fields)
      intro _ _
      exact ⟨line, fields, ⟨first, rest, hsplit, hfirst⟩, hline, hfields, rfl⟩

theorem parses_parseRequest (block : List UInt8) :
    Parses (fun event => ∃ line fields, Parsed (Utf8.lossy block) event line fields)
      (parseRequest block) := by
  unfold parseRequest
  split_ifs
  · exact parses_parseText _
  · exact show _ ∈ notices by decide

theorem target_printable {path : List Char} (hall : (Utf8.encode path).all targetByte = true)
    {c : Char} (hmem : c ∈ path) : 0x21 ≤ c.toNat ∧ c.toNat ≤ 0x7e := by
  obtain ⟨hascii, htarget⟩ := Utf8.of_all_encode targetByte_ascii hall hmem
  simp only [targetByte, Bool.and_eq_true, decide_eq_true_eq, UInt8.le_iff_toNat_le,
    UInt8.toNat_ofNat', UInt8.reduceToNat] at htarget
  omega

theorem fits_of_parsed {text : List Char} {event : SessionEvent} {line : RequestLine}
    {fields : HeaderFields} (h : Parsed text event line fields) (hlength : text.length ≤ 8192) :
    event.Fits := by
  obtain ⟨first, rest, hsplit, hfirst⟩ := h.requestLine
  have hpath : line.path.length ≤ first.length :=
    Text.length_le_of_mem_splitOn ' ' first _ (by simp [hfirst])
  have htext : first.length ≤ text.length :=
    Text.length_le_of_mem_splitPair '\r' '\n' text _ (by simp [hsplit])
  have hmethod := List.length_pos_of_ne_nil h.lineChecked.method
  have hshort := Nat.le_trans (Utf8.length_le_encode _) h.lineChecked.methodLength
  rw [h.event]
  simp only [requestEvent, SessionEvent.Fits, String.length_ofList, String.toList_ofList,
    Option.map_eq_some_iff, forall_exists_index, and_imp]
  refine ⟨⟨hmethod, hshort⟩, ⟨by omega, ?_⟩, ?_, ?_, ?_⟩
  · intro c hc
    have hprintable := target_printable h.lineChecked.pathTarget hc
    omega
  · rcases h.lineChecked.version with hversion | hversion
    · exact Or.inl (by rw [hversion]; rfl)
    · exact Or.inr (by rw [hversion]; rfl)
  · rintro _ host hhost rfl
    rw [bytes, String.toList_ofList]
    exact h.fieldsChecked.host host hhost
  · rintro _ userAgent huserAgent rfl
    rw [String.length_ofList]
    exact h.fieldsChecked.userAgent userAgent huserAgent

/-! ### The handler -/

section Handler

variable (canonicalReason : UInt16 → Option String) {start : SessionState} {stream : List UInt8}

theorem wp_refuse {received : List UInt8} {world : SessionWorld}
    (h : Progress start stream received [] world) (status : UInt16) (server : String)
    {msg : String} (hmsg : msg ∈ notices) :
    wp (refuse canonicalReason status server msg) (fun _ => Recorded start stream)
      (Recorded start stream) world := by
  have hnotice : ∀ wire, wire.incoming = world.wire.incoming → Recorded start stream
      ⟨wire, world.session.notice msg⟩ := by
    intro wire hincoming
    exact h.recorded_notice hmsg rfl hincoming
  unfold refuse
  simp only [wp_bind, wp_onSession]
  apply wp_write (hnotice _ rfl)
  intro result wire hincoming _
  cases result with
  | ok value => exact hnotice wire hincoming
  | error reason => exact hnotice wire hincoming

/-- The headers are what was received so far, at most 8192 bytes of it. -/
def Reading (start : SessionState) (stream headers : List UInt8) (world : SessionWorld) : Prop :=
  headers.length ≤ maxHeaderBytes ∧ Progress start stream headers [] world

theorem Reading.append {headers buffer : List UInt8} {world after : SessionWorld}
    (h : Reading start stream headers world)
    (hroom : buffer.length ≤ maxHeaderBytes - headers.length)
    (hsession : after.session = world.session.recordBytes buffer)
    (hincoming : world.wire.incoming = buffer ++ after.wire.incoming)
    (hremaining : buffer.length ≤ world.session.remainingInput) :
    Reading start stream (headers ++ buffer) after := by
  have hlength := h.1
  refine ⟨?_, h.2.receive hsession hincoming hremaining⟩
  rw [List.length_append]
  omega

theorem wp_turn (server : String) {headers : List UInt8} {world : SessionWorld}
    (h : Reading start stream headers world) :
    wp (turn canonicalReason server headers)
      (Turn.Leaves (Reading start stream) fun result after => match result with
        | .ok (headers, _) => Reading start stream headers after
        | .error _ => Recorded start stream after)
      (Recorded start stream) world := by
  obtain ⟨hlength, hprogress⟩ := h
  unfold turn
  dsimp only
  split_ifs with hfull
  · rw [wp_bind]
    apply wp_weaken (wp_refuse canonicalReason hprogress 431 server (by decide))
    intro reason after hafter
    exact hafter
  · rw [wp_bind]
    apply wp_read hprogress.recorded_nil
    · intro patience
      unfold afterRead noticeIncomplete
      dsimp only
      split_ifs
      · exact hprogress.recorded_notice (by decide) rfl rfl
      · exact Progress.recorded_nil (hprogress.frame rfl rfl)
    · intro reason patience _
      exact Progress.recorded_nil (hprogress.frame rfl rfl)
    · intro buffer rest chunks patience _ hbuffer hremaining hincoming
      have hroom : buffer.length ≤ maxHeaderBytes - headers.length := by omega
      unfold afterRead
      dsimp only
      split
      · exact Reading.append ⟨hlength, hprogress⟩ hroom rfl hincoming hremaining
      · exact Reading.append ⟨hlength, hprogress⟩ hroom rfl hincoming hremaining

theorem wp_respond (ep : EndpointConfig) (server : String) {block received : List UInt8}
    {world : SessionWorld} (h : Progress start stream received [] world)
    (hblock : block.length ≤ maxHeaderBytes) :
    wp (respond canonicalReason ep server block) (fun _ => Recorded start stream)
      (Recorded start stream) world := by
  have hparse := parses_parseRequest block
  unfold respond
  cases hresult : parseRequest block with
  | error msg =>
      rw [hresult] at hparse
      exact wp_refuse canonicalReason h 400 server hparse
  | ok event =>
      rw [hresult] at hparse
      obtain ⟨line, fields, hparsed⟩ := hparse
      have hfits := fits_of_parsed hparsed (Nat.le_trans (Utf8.length_lossy_le block) hblock)
      have hpush : ∀ wire, wire.incoming = world.wire.incoming → Recorded start stream
          ⟨wire, world.session.pushEvent event⟩ := by
        intro wire hincoming
        apply Progress.recorded (@Progress.push _ _ _ _ _ _ h event rfl hincoming) (by simp)
        intro other hother
        obtain rfl : other = event := by simpa using hother
        exact hfits
      simp only [wp_bind, wp_onSession]
      apply wp_write (hpush _ rfl)
      intro result wire hincoming _
      cases result with
      | ok value => exact hpush wire hincoming
      | error reason => exact hpush wire hincoming

theorem wp_handle {ep : EndpointConfig} {world : SessionWorld}
    (h : Progress start stream [] [] world) :
    wp (handle canonicalReason ep) (fun _ => Recorded start stream) (Recorded start stream)
      world := by
  unfold handle
  rw [wp_bind]
  apply wp_loop (decreasing_turn canonicalReason _) (Reading start stream)
  · intro headers world hinv
    apply wp_weaken (wp_turn canonicalReason _ hinv)
    intro turn after hturn
    cases turn with
    | again headers => exact hturn
    | exit result =>
        cases result with
        | error reason => exact hturn
        | ok found =>
            apply wp_respond canonicalReason ep _ hturn.2
            exact Nat.le_trans (List.length_take_le' _ _) hturn.1
  · exact ⟨Nat.zero_le _, h⟩

end Handler

end Minotaur.Http
