import Minotaur.Base.Utf8.Split
import Minotaur.Protocols.Http.Events
import Minotaur.Protocols.Secrecy

/-!
What the HTTP decoy tells of its client: the size of an accepted request, its
method and version, and of the target what precedes the first `?` or `#`, if
paths are captured at all. The header fields are checked and forgotten.
-/

namespace Minotaur.Http

open Future

/-- The part of a target that may be recorded. -/
def publicTarget (captureHttpPath : Bool) (target : List UInt8) : List UInt8 :=
  if captureHttpPath then target.takeWhile fun b => !(bytes "?#").contains b else []

/-- A header block with its only terminator at its end that the parser
accepts, and the three parts of its request line. -/
structure AcceptedRequest (block method target version : List UInt8) : Prop where
  ended : Text.position terminator block = some (block.length - 4)
  accepted : ∃ event, parseRequest block = .ok event
  requestLine : (Text.splitPair 13 10 block).head?.map (List.splitOn 32) =
    some [method, target, version]

/-- Accepted requests of one size that differ in the header fields and in the
secret part of the target. -/
def SameBlock (captureHttpPath : Bool) (block block' : List UInt8) : Prop :=
  block.length = block'.length ∧ ∃ method version target target',
    AcceptedRequest block method target version ∧
    AcceptedRequest block' method target' version ∧
    publicTarget captureHttpPath target = publicTarget captureHttpPath target'

/-- The same input, or inputs whose requests are the same but for secrets. -/
def SameRequest (captureHttpPath : Bool) (left right : List UInt8) : Prop :=
  left = right ∨ ∃ block block' rest rest', SameBlock captureHttpPath block block' ∧
    left = block ++ rest ∧ right = block' ++ rest'

/-! ### The event -/

theorem parseRequest_accepted {block method target version : List UInt8}
    (h : AcceptedRequest block method target version) :
    ∃ fields, parseRequest block = .ok
      (requestEvent ⟨Utf8.lossy method, Utf8.lossy target, Utf8.lossy version⟩ fields) := by
  obtain ⟨event, hevent⟩ := h.accepted
  have hparses := parses_parseRequest block
  rw [hevent] at hparses
  obtain ⟨line, fields, hparsed⟩ := hparses
  obtain ⟨first, rest, hsplit, hfirst⟩ := hparsed.requestLine
  have hline := h.requestLine
  have hlines : Text.splitPair '\r' '\n' (Utf8.lossy block) =
      (Text.splitPair 13 10 block).map Utf8.lossy :=
    @Utf8.lossy_splitPair 13 10 (by decide) (by decide) (by decide) block
  rw [hsplit] at hlines
  cases hbytes : Text.splitPair 13 10 block with
  | nil => simp [hbytes] at hlines
  | cons head lines =>
      have hwords : (Utf8.lossy head).splitOn ' ' = (head.splitOn 32).map Utf8.lossy :=
        @Utf8.lossy_splitOn 32 (by decide) head
      rw [hbytes, List.map_cons, List.cons.injEq] at hlines
      rw [hbytes, List.head?_cons, Option.map_some, Option.some.injEq] at hline
      rw [← hlines.1, hfirst, hline, List.map_cons, List.map_cons, List.map_singleton] at hwords
      simp only [List.cons.injEq, and_true] at hwords
      refine ⟨fields, ?_⟩
      rw [hevent, hparsed.event, requestEvent, hwords.1, hwords.2.1, hwords.2.2]
      rfl

theorem stripQuery_lossy (target : List UInt8) :
    stripQuery (String.ofList (Utf8.lossy target)) =
      String.ofList (Utf8.lossy (publicTarget true target)) := by
  have hascii : (bytes "?#").all (fun b => decide (b.toNat < 0x80)) = true := by decide
  have hcut : (Utf8.lossy target).takeWhile
        (fun c => !((bytes "?#").map Utf8.ascii).contains c) =
      Utf8.lossy (target.takeWhile fun b => !(bytes "?#").contains b) :=
    Utf8.lossy_takeWhile (by simpa using List.all_eq_true.mp hascii) target
  have hstops : (fun c : Char => !((bytes "?#").map Utf8.ascii).contains c) =
      fun c => c != '?' && c != '#' := by
    funext c
    have hmap : (bytes "?#").map Utf8.ascii = ['?', '#'] := by decide
    rw [hmap]
    simp [bne, beq_eq_decide]
  unfold stripQuery publicTarget
  rw [if_pos rfl, ← hcut, hstops, String.toList_ofList]

theorem redact_requestEvent {privacy : PrivacyConfig} (hmode : privacy.mode = .Metadata)
    (line : RequestLine) (fields : HeaderFields) :
    privacy.redact (requestEvent line fields) =
      .HttpRequest (String.ofList line.method)
        (if !privacy.captureHttpPath then "[redacted]" else stripQuery (String.ofList line.path))
        (String.ofList line.version) none none := by
  unfold requestEvent PrivacyConfig.redact
  simp only [hmode, if_true]

/-- Metadata mode stores the public part of a request. -/
theorem redact_same {privacy : PrivacyConfig} (hmode : privacy.mode = .Metadata)
    {block block' : List UInt8} (h : SameBlock privacy.captureHttpPath block block') :
    ∃ event event', parseRequest block = .ok event ∧ parseRequest block' = .ok event' ∧
      privacy.redact event = privacy.redact event' ∧ isHead event = isHead event' := by
  obtain ⟨_, method, version, target, target', haccepted, haccepted', hpublic⟩ := h
  obtain ⟨fields, hevent⟩ := parseRequest_accepted haccepted
  obtain ⟨fields', hevent'⟩ := parseRequest_accepted haccepted'
  refine ⟨_, _, hevent, hevent', ?_, rfl⟩
  rw [redact_requestEvent hmode, redact_requestEvent hmode, stripQuery_lossy, stripQuery_lossy]
  cases hcapture : privacy.captureHttpPath with
  | false => rfl
  | true =>
      rw [hcapture] at hpublic
      rw [hpublic]

/-! ### The handler -/

section Handler

variable (canonicalReason : UInt16 → Option String)

theorem together_refuse {left right : SessionWorld} (h : Alike left right) (status : UInt16)
    (server message : String) :
    Together SameEnd Alike (refuse canonicalReason status server message)
      (refuse canonicalReason status server message) left right := by
  unfold refuse
  apply together_bind
  have hnotice := h.notice message
  apply together_bind
  apply together_write hnotice
  intro result left' right' h' _ _
  cases result with
  | ok value => exact ⟨rfl, h'⟩
  | error reason => exact ⟨rfl, h'⟩

/-- The two runs before their next read. -/
def Listens (captureHttpPath : Bool) (headers headers' : List UInt8)
    (left right : SessionWorld) : Prop :=
  Alike left right ∧ left.session.privacy.captureHttpPath = captureHttpPath ∧
    headers.length = headers'.length ∧
    ((headers = headers' ∧ left.wire.incoming = right.wire.incoming) ∨
      ∃ block block' rest rest', SameBlock captureHttpPath block block' ∧
        headers.length < block.length ∧ headers ++ left.wire.incoming = block ++ rest ∧
        headers' ++ right.wire.incoming = block' ++ rest')

/-- What the request loops of the two runs return. -/
def Captured (captureHttpPath : Bool) :
    Except CloseReason (List UInt8 × Nat) → Except CloseReason (List UInt8 × Nat) →
      SessionWorld → SessionWorld → Prop
  | .ok (headers, headerEnd), .ok (headers', headerEnd') => fun left right =>
      Alike left right ∧ left.session.privacy.captureHttpPath = captureHttpPath ∧
        (headers.take headerEnd = headers'.take headerEnd' ∨
          SameBlock captureHttpPath (headers.take headerEnd) (headers'.take headerEnd'))
  | .error reason, .error reason' => SameEnd reason reason'
  | _, _ => fun _ _ => False

theorem AcceptedRequest.four_le {block method target version : List UInt8}
    (h : AcceptedRequest block method target version) : 4 ≤ block.length := by
  have hsize := (Text.position_eq_some h.ended).1.length_le
  simp only [terminator, List.length_drop, List.length_cons, List.length_nil] at hsize
  omega

/-- The terminator of a block is found by the turn that completes the block. -/
theorem position_of_accepted {block method target version headers after rest : List UInt8}
    (h : AcceptedRequest block method target version) {before : Nat}
    (hbefore : before < block.length) (hinput : headers ++ after = block ++ rest) :
    Text.position terminator (headers.drop (before - 3)) =
      if block.length ≤ headers.length then some (block.length - 4 - (before - 3)) else none := by
  have hfour := h.four_le
  have hinputs := Text.position_append h.ended (by decide) rest
  rw [← hinput] at hinputs
  have hsearch := Text.position_drop_take hinputs (by decide)
    (show before - 3 ≤ block.length - 4 by omega) headers.length
  have hend : block.length - 4 + terminator.length = block.length := Nat.sub_add_cancel hfour
  rw [List.take_left, hend] at hsearch
  exact hsearch

/-- The block is what was read up to its end. -/
theorem take_block {headers after block rest : List UInt8}
    (hinput : headers ++ after = block ++ rest) (hcomplete : block.length ≤ headers.length) :
    headers.take block.length = block := by
  rw [← List.take_append_of_le_length hcomplete, hinput, List.take_left]

theorem afterRead_alike {captureHttpPath : Bool} {headers headers' buffer buffer' : List UInt8}
    {left right : SessionWorld} (h : Alike left right)
    (hcapture : left.session.privacy.captureHttpPath = captureHttpPath)
    (hheaders : headers.length = headers'.length) (hlength : buffer.length = buffer'.length)
    (hcase : (headers = headers' ∧
        buffer ++ left.wire.incoming = buffer' ++ right.wire.incoming) ∨
      ∃ block block' rest rest', SameBlock captureHttpPath block block' ∧
        headers.length < block.length ∧
        headers ++ (buffer ++ left.wire.incoming) = block ++ rest ∧
        headers' ++ (buffer' ++ right.wire.incoming) = block' ++ rest') :
    Together (Turn.LeaveTogether (Listens captureHttpPath) (Captured captureHttpPath)) Alike
      (afterRead headers (.ok (some buffer))) (afterRead headers' (.ok (some buffer')))
      left right := by
  unfold afterRead
  dsimp only
  rcases hcase with ⟨rfl, hequal⟩ | ⟨block, block', rest, rest', hblock, hshort, hinput, hinput'⟩
  · obtain ⟨rfl, hincoming⟩ := List.append_inj hequal hlength
    cases Text.position terminator ((headers ++ buffer).drop (headers.length - 3)) with
    | none => exact ⟨h, hcapture, rfl, Or.inl ⟨rfl, hincoming⟩⟩
    | some offset => exact ⟨h, hcapture, Or.inl rfl⟩
  · obtain ⟨hsize, method, version, target, target', haccepted, haccepted', hpublic⟩ := hblock
    rw [← List.append_assoc] at hinput hinput'
    have hgrown : (headers ++ buffer).length = (headers' ++ buffer').length := by
      rw [List.length_append, List.length_append, hheaders, hlength]
    rw [position_of_accepted haccepted hshort hinput,
      position_of_accepted haccepted' (by omega) hinput', ← hgrown, ← hsize, ← hheaders]
    have hfour := haccepted.four_le
    split_ifs with hcomplete
    · have hend : headers.length - 3 + (block.length - 4 - (headers.length - 3)) + 4 =
          block.length := by omega
      dsimp only
      rw [hend]
      refine ⟨h, hcapture, Or.inr ?_⟩
      rw [take_block hinput hcomplete, hsize, take_block hinput' (by omega)]
      exact ⟨hsize, method, version, target, target', haccepted, haccepted', hpublic⟩
    · exact ⟨h, hcapture, hgrown, Or.inr ⟨block, block', rest, rest',
        ⟨hsize, method, version, target, target', haccepted, haccepted', hpublic⟩,
        Nat.lt_of_not_le hcomplete, hinput, hinput'⟩⟩

theorem together_turn {captureHttpPath : Bool} (server : String) {headers headers' : List UInt8}
    {left right : SessionWorld} (h : Listens captureHttpPath headers headers' left right) :
    Together (Turn.LeaveTogether (Listens captureHttpPath) (Captured captureHttpPath)) Alike
      (turn canonicalReason server headers) (turn canonicalReason server headers')
      left right := by
  obtain ⟨h, hcapture, hlength, hcase⟩ := h
  have hempty : headers ≠ [] ↔ headers' ≠ [] := by
    rw [← List.length_pos_iff, ← List.length_pos_iff, hlength]
  unfold turn
  rw [← hlength]
  dsimp only
  split_ifs
  · apply together_bind
    apply together_mono (together_refuse canonicalReason h 431 server "http_headers_too_large")
    · intro reason reason' left right hend
      exact hend
    · intro left right h
      exact h
  · apply together_bind
    apply together_read h
    · intro left right h
      unfold afterRead noticeIncomplete
      dsimp only
      simp only [hempty]
      split_ifs
      · exact ⟨rfl, h.notice _⟩
      · exact ⟨rfl, h⟩
    · intro reason left right h
      exact ⟨rfl, h⟩
    · intro buffer buffer' left' right' h' hbuffer hprivacy hleft hright
      rw [← hprivacy] at hcapture
      apply afterRead_alike h' hcapture hlength hbuffer
      rwa [← hleft, ← hright]

theorem together_respond {ep : EndpointConfig} (server : String) {block block' : List UInt8}
    {left right : SessionWorld} (h : Alike left right)
    (hblock : block = block' ∨
      SameBlock left.session.privacy.captureHttpPath block block') :
    Together SameEnd Alike (respond canonicalReason ep server block)
      (respond canonicalReason ep server block') left right := by
  have haccepted : ∀ event event', parseRequest block = .ok event →
      parseRequest block' = .ok event' → left.session.privacy.redact event =
        left.session.privacy.redact event' → isHead event = isHead event' →
      Together SameEnd Alike (respond canonicalReason ep server block)
        (respond canonicalReason ep server block') left right := by
    intro event event' hparse hparse' hredact hhead
    unfold respond
    rw [hparse, hparse']
    dsimp only
    rw [hhead]
    apply together_bind
    have hpushed : Alike
        ⟨left.wire, left.session.pushEvent event⟩
        ⟨right.wire, right.session.pushEvent event'⟩ :=
      h.pushEvent hredact
    apply together_bind
    apply together_write hpushed
    intro result left' right' h' _ _
    cases result with
    | ok value => exact ⟨rfl, h'⟩
    | error reason => exact ⟨rfl, h'⟩
  rcases hblock with rfl | hblock
  · cases hparse : parseRequest block with
    | error message =>
        unfold respond
        rw [hparse]
        exact together_refuse canonicalReason h 400 server message
    | ok event => exact haccepted event event hparse hparse rfl rfl
  · obtain ⟨event, event', hparse, hparse', hredact, hhead⟩ := redact_same h.metadata hblock
    exact haccepted event event' hparse hparse' hredact hhead

/-- Requests that are the same but for secrets end in the same record. -/
theorem together_handle {ep : EndpointConfig} {left right : SessionWorld} (h : Alike left right)
    (hsame : SameRequest left.session.privacy.captureHttpPath left.wire.incoming
      right.wire.incoming) :
    Together SameEnd Alike (handle canonicalReason ep) (handle canonicalReason ep)
      left right := by
  unfold handle
  dsimp only
  apply together_bind
  apply together_mono (together_loop (decreasing_turn canonicalReason _)
    (Listens left.session.privacy.captureHttpPath)
    (fun _ _ _ _ hinv => together_turn canonicalReason _ hinv) _)
  · intro result result' left' right' hcaptured
    cases result with
    | error reason =>
        cases result' with
        | error reason' => exact hcaptured
        | ok found => exact hcaptured.elim
    | ok found =>
        cases result' with
        | error reason => exact hcaptured.elim
        | ok found' =>
            obtain ⟨h', hcapture, hblock⟩ := hcaptured
            rw [← hcapture] at hblock
            exact together_respond canonicalReason _ h' hblock
  · intro left right h
    exact h
  · refine ⟨h, rfl, rfl, ?_⟩
    rcases hsame with hequal | ⟨block, block', rest, rest', hblock, hinput, hinput'⟩
    · exact Or.inl ⟨rfl, hequal⟩
    · obtain ⟨hsize, method, version, target, target', haccepted, haccepted', hpublic⟩ := hblock
      have hfour := haccepted.four_le
      refine Or.inr ⟨block, block', rest, rest', ⟨hsize, method, version, target, target',
        haccepted, haccepted', hpublic⟩, ?_, hinput, hinput'⟩
      rw [List.length_nil]
      omega

end Handler

end Minotaur.Http
