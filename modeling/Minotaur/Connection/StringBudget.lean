import Minotaur.Connection.LineSize

/-!
What a queued record costs in strings. The validator reserves 65536 bytes for
everything but the previews, which are hex and ASCII text of the captured
bytes and so cost three bytes for each. An event may be an HTTP request every
time: even four of them stay within the reserve.
-/

namespace Minotaur

/-- The UTF-8 bytes of several strings. -/
def textBytes (texts : List String) : Nat := (texts.map fun text => (bytes text).length).sum

/-- The strings of an event. -/
def SessionEvent.texts : SessionEvent → List String
  | .SshClientBanner banner => [banner]
  | .HttpRequest method path version host userAgent =>
      [method, path, version] ++ host.toList ++ userAgent.toList
  | .TelnetLogin username password _ => username :: password.toList
  | .Notice msg => [msg]

def SensorConfig.texts (sensor : SensorConfig) : List String :=
  [sensor.id, sensor.environment] ++ sensor.tags.entries.flatMap fun tag => [tag.1, tag.2]

/-- Every string of a record. -/
def SessionRecord.texts (record : SessionRecord) : List String :=
  record.sensor.texts ++ [record.endpoint, record.protocol] ++
    [record.dataPreviewHex, record.dataPreviewAscii] ++ record.events.flatMap SessionEvent.texts

def SessionRecord.stringBytes (record : SessionRecord) : Nat := textBytes record.texts

@[simp] theorem textBytes_nil : textBytes [] = 0 := rfl

@[simp] theorem textBytes_cons (text : String) (rest : List String) :
    textBytes (text :: rest) = (bytes text).length + textBytes rest := rfl

@[simp] theorem textBytes_append (first second : List String) :
    textBytes (first ++ second) = textBytes first + textBytes second := by
  simp [textBytes]

theorem textBytes_flatMap_le {α : Type} {texts : α → List String} {bound : Nat} {list : List α}
    (hbound : ∀ item ∈ list, textBytes (texts item) ≤ bound) :
    textBytes (list.flatMap texts) ≤ bound * list.length := by
  have hsum : textBytes (list.flatMap texts) = (list.map fun item => textBytes (texts item)).sum := by
    induction list with
    | nil => rfl
    | cons item rest ih =>
        rw [List.flatMap_cons, textBytes_append, ih (fun item hitem =>
          hbound item (List.mem_cons_of_mem _ hitem)), List.map_cons, List.sum_cons]
  rw [hsum]
  exact sum_map_le hbound

theorem textBytes_option_le {value : Option String} {bound : Nat}
    (hvalue : ∀ text, value = some text → (bytes text).length ≤ bound) :
    textBytes value.toList ≤ bound := by
  cases value with
  | none => exact Nat.zero_le _
  | some text => exact hvalue text rfl

/-! ### Each part of a record -/

theorem length_bytes_le_four (text : String) : (bytes text).length ≤ 4 * text.length := by
  rw [← String.length_toList]
  exact Utf8.length_encode_le_four text.toList

theorem length_bytes_of_printable {text : String}
    (hprintable : ∀ c ∈ text.toList, 0x20 ≤ c.toNat ∧ c.toNat ≤ 0x7e) :
    (bytes text).length = text.length := by
  rw [← String.length_toList]
  refine Utf8.length_encode_of_ascii fun c hc => ?_
  have hle := (hprintable c hc).2
  omega

theorem event_bytes_le {event : SessionEvent} (hfits : event.Fits) :
    textBytes event.texts ≤ 14500 := by
  cases event with
  | SshClientBanner banner =>
      have hlength : banner.length ≤ 254 := hfits
      have hbanner := length_bytes_le_four banner
      simp only [SessionEvent.texts, textBytes_cons, textBytes_nil]
      omega
  | Notice msg =>
      have hlength := length_le_of_mem_notices hfits
      have hmsg := length_bytes_le_four msg
      simp only [SessionEvent.texts, textBytes_cons, textBytes_nil]
      omega
  | TelnetLogin username password redacted =>
      obtain ⟨hlength, hoptional⟩ := hfits
      have husername := length_bytes_le_four username
      have hpassword : textBytes password.toList ≤ 1024 := textBytes_option_le fun text htext =>
        Nat.le_trans (length_bytes_le_four text) (Nat.mul_le_mul_left 4 (hoptional text htext))
      simp only [SessionEvent.texts, textBytes_cons]
      omega
  | HttpRequest method path version host userAgent =>
      obtain ⟨⟨_, hmethod⟩, ⟨hpath, hprintable⟩, hversion, hhost, huserAgent⟩ := hfits
      have hmethodBytes := length_bytes_le_four method
      have hpathBytes := length_bytes_of_printable hprintable
      have hversionBytes : (bytes version).length = 8 := by
        rcases hversion with rfl | rfl <;> decide
      have hhostBytes := textBytes_option_le hhost
      have huserAgentBytes : textBytes userAgent.toList ≤ 4096 := textBytes_option_le
        fun text htext => Nat.le_trans (length_bytes_le_four text)
          (Nat.mul_le_mul_left 4 (huserAgent text htext))
      simp only [SessionEvent.texts, textBytes_append, textBytes_cons, textBytes_nil]
      omega

theorem sensor_bytes_le {sensor : SensorConfig} (h : sensor.Accepted) :
    textBytes sensor.texts ≤ 1664 := by
  have hid := h.id.length
  have henvironment := h.environment.length
  have htags : textBytes (sensor.tags.entries.flatMap fun tag => [tag.1, tag.2]) ≤
      192 * sensor.tags.entries.length := by
    refine textBytes_flatMap_le fun tag htag => ?_
    have hkey := (h.tagKey tag htag).length
    have hvalue := (h.tagValue tag htag).length
    simp only [textBytes_cons, textBytes_nil]
    omega
  have hcount := h.tagCount
  simp only [SensorConfig.texts, textBytes_append, textBytes_cons, textBytes_nil]
  omega

theorem previews_bytes (preview : List UInt8) :
    textBytes [hexEncode preview, asciiPreview preview] = 3 * preview.length := by
  have hhex := length_bytes_of_printable (hexEncode_printable preview)
  have hascii := length_bytes_of_printable (asciiPreview_printable preview)
  rw [length_hexEncode] at hhex
  rw [length_asciiPreview] at hascii
  simp only [textBytes_cons, textBytes_nil]
  omega

/-! ### The record -/

/-- The budget of one record, and that no event is missing from it. -/
structure SessionRecord.WithinBudget (cfg : Config) (record : SessionRecord) : Prop where
  stringBytes : record.stringBytes ≤ 65536 + 3 * cfg.server.maxBytesPerSession
  eventCount : record.events.length ≤ 4
  eventsTruncated : record.eventsTruncated = false

theorem Connection.record_withinBudget (canonicalReason : UInt16 → Option String) {cfg : Config}
    (hcfg : cfg.Accepted) {ep : EndpointConfig} (hserved : Served cfg ep) (conn : Connection) :
    (conn.record canonicalReason cfg ep).WithinBudget cfg := by
  obtain ⟨received, pushed, reason, _, _, hcount, hfits, hrecord⟩ :=
    @Connection.record_eq canonicalReason conn cfg ep hcfg
  rw [SessionState.capture_eq (conn.fresh_session hcfg) received
    (Nat.le_trans hcount (by decide))] at hrecord
  have hsensor := sensor_bytes_le hcfg.sensor
  have hlabel := length_bytes_le_four ep.label
  have hlabelLength := (label_length hcfg hserved).2
  have hprotocol : ∀ protocol : Protocol, (bytes protocol.asStr).length ≤ 6 := by decide
  have hname := hprotocol ep.protocol
  obtain ⟨preview, hlength, hpreview⟩ : ∃ preview : List UInt8,
      preview.length ≤ cfg.server.maxBytesPerSession ∧
      textBytes [(conn.record canonicalReason cfg ep).dataPreviewHex,
        (conn.record canonicalReason cfg ep).dataPreviewAscii] = 3 * preview.length := by
    rw [hrecord]
    refine ⟨_, ?_, previews_bytes _⟩
    change (if cfg.privacy.mode = .Full then _ else _ : List UInt8).length ≤ _
    split_ifs
    · exact List.length_take_le _ _
    · exact Nat.zero_le _
  have hevents : textBytes ((conn.record canonicalReason cfg ep).events.flatMap
      SessionEvent.texts) ≤ 14500 * pushed.length := by
    rw [hrecord]
    have hsum := @textBytes_flatMap_le _ SessionEvent.texts 14500
      (pushed.map (conn.session cfg ep).privacy.redact) ?_
    · simpa [SessionState.finalize] using hsum
    · intro event hevent
      obtain ⟨original, horiginal, rfl⟩ := List.mem_map.mp hevent
      exact event_bytes_le (redact_fits _ (hfits original horiginal))
  refine ⟨?_, ?_, ?_⟩
  · have hsensorEq : (conn.record canonicalReason cfg ep).sensor = cfg.sensor := by rw [hrecord]; rfl
    have hendpointEq : (conn.record canonicalReason cfg ep).endpoint = ep.label := by
      rw [hrecord]; rfl
    have hprotocolEq : (conn.record canonicalReason cfg ep).protocol = ep.protocol.asStr := by
      rw [hrecord]; rfl
    unfold SessionRecord.stringBytes SessionRecord.texts
    rw [textBytes_append, textBytes_append, textBytes_append, hsensorEq, hendpointEq, hprotocolEq,
      hpreview]
    simp only [textBytes_cons, textBytes_nil]
    omega
  · rw [hrecord]
    simpa [SessionState.finalize] using hcount
  · rw [hrecord]
    rfl

end Minotaur
