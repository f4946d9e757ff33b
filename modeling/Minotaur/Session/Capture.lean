import Minotaur.Config.Accepted
import Minotaur.Session

/-!
A session depends on the bytes recorded in it and on the events pushed to it,
not on how the two were interleaved or how the bytes were cut into reads.
`capture` is the session after given bytes and events, and `capture_eq` its
closed form. Events that come from a handler fit the limits of `Fits`, and
redaction keeps them.
-/

namespace Minotaur

namespace SessionState

/-- A session nothing has happened to. The read budget is a `usize`. -/
structure Fresh (start : SessionState) : Prop where
  bytesReceived : start.bytesReceived = 0
  events : start.events = []
  preview : start.preview = []
  eventsTruncated : start.eventsTruncated = false
  inputLimit : start.inputLimit ≤ u64Max

theorem fresh_new {cfg : Config} (hcfg : cfg.Accepted) (id : BitVec 128) (startedAt : Nat)
    (ts : Int) (ep : EndpointConfig) (src dst : Net.SocketAddr) :
    (new id startedAt ts ep src dst cfg).Fresh where
  bytesReceived := rfl
  events := rfl
  preview := rfl
  eventsTruncated := rfl
  inputLimit := by
    have hlimit := hcfg.server.maxReadBytesPerSession.2
    change cfg.server.maxReadBytesPerSession ≤ 2 ^ 64 - 1
    omega

/-- The session after `received` and `pushed`. -/
def capture (start : SessionState) (received : List UInt8) (pushed : List SessionEvent) :
    SessionState := pushed.foldl pushEvent (start.recordBytes received)

theorem capture_nil {start : SessionState} (hfresh : start.Fresh) : start.capture [] [] = start := by
  have hzero := hfresh.bytesReceived
  have hpreview := hfresh.preview
  unfold capture recordBytes
  cases start
  simp_all

theorem recordBytes_append (self : SessionState) (first second : List UInt8) :
    (self.recordBytes first).recordBytes second = self.recordBytes (first ++ second) := by
  have hbytes : min (min (self.bytesReceived + first.length) u64Max + second.length) u64Max =
      min (self.bytesReceived + (first.length + second.length)) u64Max := by omega
  unfold recordBytes
  dsimp only
  split_ifs
  · simp only [List.length_append, List.length_take, List.append_assoc, List.take_append, hbytes]
    congr 3
    · rw [List.take_eq_take_iff]
      omega
    · rw [List.take_eq_take_iff]
      omega
  · simp only [List.length_append, hbytes]

theorem pushEvent_recordBytes (self : SessionState) (event : SessionEvent) (bytes : List UInt8) :
    (self.pushEvent event).recordBytes bytes = (self.recordBytes bytes).pushEvent event := by
  unfold pushEvent recordBytes
  dsimp only
  split_ifs <;> rfl

theorem foldl_pushEvent_recordBytes (self : SessionState) (pushed : List SessionEvent)
    (bytes : List UInt8) :
    (pushed.foldl pushEvent self).recordBytes bytes =
      pushed.foldl pushEvent (self.recordBytes bytes) := by
  induction pushed generalizing self with
  | nil => rfl
  | cons event rest ih => rw [List.foldl_cons, List.foldl_cons, ih, pushEvent_recordBytes]

theorem capture_recordBytes (start : SessionState) (received bytes : List UInt8)
    (pushed : List SessionEvent) :
    (start.capture received pushed).recordBytes bytes = start.capture (received ++ bytes) pushed := by
  unfold capture
  rw [foldl_pushEvent_recordBytes, recordBytes_append]

theorem capture_pushEvent (start : SessionState) (received : List UInt8)
    (pushed : List SessionEvent) (event : SessionEvent) :
    (start.capture received pushed).pushEvent event = start.capture received (pushed ++ [event]) := by
  unfold capture
  rw [List.foldl_append]
  rfl

theorem foldl_pushEvent (self : SessionState) (pushed : List SessionEvent)
    (hroom : self.events.length + pushed.length ≤ maxEvents) :
    pushed.foldl pushEvent self =
      { self with events := self.events ++ pushed.map self.privacy.redact } := by
  induction pushed generalizing self with
  | nil => simp
  | cons event rest ih =>
      rw [List.length_cons] at hroom
      have hpush : self.pushEvent event =
          { self with events := self.events ++ [self.privacy.redact event] } := by
        unfold pushEvent
        rw [if_neg (by omega)]
      rw [List.foldl_cons, hpush, ih]
      · simp
      · simp only [List.length_append, List.length_singleton]
        omega

/-- Everything a session has to say about the bytes and the events it saw. -/
theorem capture_eq {start : SessionState} (hfresh : start.Fresh) (received : List UInt8)
    {pushed : List SessionEvent} (hroom : pushed.length ≤ maxEvents) :
    start.capture received pushed =
      { start with
        bytesReceived := min received.length u64Max
        preview := if start.privacy.mode = .Full then received.take start.previewLimit else []
        events := pushed.map start.privacy.redact } := by
  have hrecord : start.recordBytes received =
      { start with
        bytesReceived := min received.length u64Max
        preview := if start.privacy.mode = .Full then received.take start.previewLimit else [] } := by
    unfold recordBytes
    simp only [hfresh.bytesReceived, hfresh.preview]
    split_ifs
    · simp [← List.take_take]
    · simp
  unfold capture
  rw [foldl_pushEvent, hrecord]
  · simp [hfresh.events]
  · rw [hrecord]
    simpa [hfresh.events] using hroom

theorem capture_bytesReceived {start : SessionState} (hfresh : start.Fresh)
    (received : List UInt8) (pushed : List SessionEvent) :
    (start.capture received pushed).bytesReceived = min received.length u64Max ∧
      (start.capture received pushed).inputLimit = start.inputLimit := by
  have hpush : ∀ (self : SessionState) (pushed : List SessionEvent),
      (pushed.foldl pushEvent self).bytesReceived = self.bytesReceived ∧
        (pushed.foldl pushEvent self).inputLimit = self.inputLimit := by
    intro self pushed
    induction pushed generalizing self with
    | nil => exact ⟨rfl, rfl⟩
    | cons event rest ih =>
        obtain ⟨hbytes, hlimit⟩ := ih (self.pushEvent event)
        rw [List.foldl_cons, hbytes, hlimit]
        unfold pushEvent
        split_ifs <;> exact ⟨rfl, rfl⟩
  obtain ⟨hbytes, hlimit⟩ := hpush (start.recordBytes received) pushed
  unfold capture
  rw [hbytes, hlimit]
  unfold recordBytes
  dsimp only
  split_ifs <;> simp [hfresh.bytesReceived]

theorem capture_remainingInput {start : SessionState} (hfresh : start.Fresh)
    (received : List UInt8) (pushed : List SessionEvent) :
    (start.capture received pushed).remainingInput =
      start.inputLimit - min received.length u64Max := by
  obtain ⟨hbytes, hlimit⟩ := capture_bytesReceived hfresh received pushed
  unfold remainingInput
  rw [hbytes, hlimit]
  omega

end SessionState

/-! ### Events -/

def notices : List String :=
  ["ssh_invalid_identification", "ssh_identification_too_long", "ssh_incomplete_identification",
    "http_headers_too_large", "http_incomplete_headers", "http_missing_request_line",
    "http_missing_method", "http_missing_target", "http_missing_version",
    "http_invalid_request_line", "http_unsupported_version", "http_invalid_target",
    "http_too_many_headers", "http_invalid_header", "http_invalid_host",
    "http_invalid_content_length", "http_invalid_transfer_encoding", "http_missing_host",
    "http_ambiguous_framing", "telnet_line_too_long", "telnet_incomplete_line"]

theorem bytes_append (first second : String) :
    bytes (first ++ second) = bytes first ++ bytes second := by
  unfold bytes
  rw [String.toList_append, List.flatMap_append]

theorem length_le_bytes (text : String) : text.length ≤ (bytes text).length := by
  rw [← String.length_toList]
  exact Utf8.length_le_encode text.toList

/-- What a handler can hand to `push_event`, with lengths in characters, and
in bytes for the host. The target and the constant it may be redacted to are
printable. -/
def SessionEvent.Fits : SessionEvent → Prop
  | .SshClientBanner banner => banner.length ≤ 254
  | .HttpRequest method path version host userAgent =>
      (1 ≤ method.length ∧ method.length ≤ 32) ∧
      (path.length ≤ 8192 ∧ ∀ c ∈ path.toList, 0x20 ≤ c.toNat ∧ c.toNat ≤ 0x7e) ∧
      (version = "HTTP/1.0" ∨ version = "HTTP/1.1") ∧
      (∀ value, host = some value → (bytes value).length ≤ 2048) ∧
      (∀ value, userAgent = some value → value.length ≤ 1024)
  | .TelnetLogin username password _ =>
      username.length ≤ 256 ∧ ∀ value, password = some value → value.length ≤ 256
  | .Notice msg => msg ∈ notices

theorem stripQuery_toList (path : String) :
    (stripQuery path).toList = path.toList.takeWhile fun c => c != '?' && c != '#' := by
  simp [stripQuery]

theorem redact_fits (privacy : PrivacyConfig) {event : SessionEvent} (hfits : event.Fits) :
    (privacy.redact event).Fits := by
  cases event with
  | SshClientBanner banner => exact hfits
  | Notice msg => exact hfits
  | TelnetLogin username password redacted =>
      unfold PrivacyConfig.redact
      dsimp only
      split_ifs
      · refine ⟨by decide, ?_⟩
        intro value hvalue
        cases password with
        | none => simp at hvalue
        | some password =>
            obtain rfl : "[redacted]" = value := by simpa using hvalue
            decide
      · exact hfits
  | HttpRequest method path version host userAgent =>
      obtain ⟨hmethod, ⟨hlength, hprintable⟩, hversion, hhost, huserAgent⟩ := hfits
      refine ⟨hmethod, ?_, hversion, ?_, ?_⟩
      · split_ifs
        · refine ⟨by decide, ?_⟩
          have hall : "[redacted]".toList.all
              (fun c => decide (0x20 ≤ c.toNat) && decide (c.toNat ≤ 0x7e)) = true := by decide
          intro c hc
          simpa using List.all_eq_true.mp hall c hc
        · have hsublist := List.takeWhile_sublist (l := path.toList) fun c => c != '?' && c != '#'
          constructor
          · have hle := hsublist.length_le
            rw [← stripQuery_toList, String.length_toList, String.length_toList] at hle
            omega
          · intro c hc
            rw [stripQuery_toList] at hc
            exact hprintable c (hsublist.mem hc)
        · exact ⟨hlength, hprintable⟩
      · split_ifs
        · simp
        · exact hhost
      · split_ifs
        · simp
        · exact huserAgent

end Minotaur
