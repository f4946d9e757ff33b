import Minotaur.Connection.Record
import Minotaur.Logger.FileSink

/-!
No record is too large for the log. The limits of the handlers and of the
configuration bound every field of a record, escaping multiplies a text by six
at most and a printable one by two, and the sum stays below the smallest
`max_file_bytes` that validation accepts.
-/

namespace Minotaur

open Json (size stringSize memberSize)

theorem sum_map_le {α : Type} {measure : α → Nat} {bound : Nat} {list : List α}
    (hbound : ∀ item ∈ list, measure item ≤ bound) :
    (list.map measure).sum ≤ bound * list.length := by
  induction list with
  | nil => exact Nat.zero_le _
  | cons item rest ih =>
      have hhead := hbound item List.mem_cons_self
      have htail := ih fun item hitem => hbound item (List.mem_cons_of_mem _ hitem)
      rw [List.map_cons, List.sum_cons, List.length_cons, Nat.mul_succ]
      omega

theorem IsIdentifier.length_le {value : String} (h : IsIdentifier value) : value.length ≤ 64 :=
  Nat.le_trans (length_le_bytes value) h.length

theorem IsSafeText.length_le {value : String} {max : Nat} (h : IsSafeText value max) :
    value.length ≤ max :=
  Nat.le_trans (length_le_bytes value) h.length

theorem size_sensor_le {sensor : SensorConfig} (h : sensor.Accepted) :
    size sensor.toJson ≤ 12000 := by
  have hid := Json.stringSize_le sensor.id
  have henvironment := Json.stringSize_le sensor.environment
  have hidLength := h.id.length_le
  have henvironmentLength := h.environment.length_le
  have htag : ∀ tag ∈ sensor.tags.entries, memberSize (tag.1, .str tag.2) ≤ 1200 := by
    intro tag hmem
    have hkey := Json.stringSize_le tag.1
    have hvalue := Json.stringSize_le tag.2
    have hkeyLength := (h.tagKey tag hmem).length_le
    have hvalueLength := (h.tagValue tag hmem).length_le
    simp only [memberSize, Json.size_str]
    omega
  have htags : size (.obj (sensor.tags.entries.map fun tag => (tag.1, .str tag.2))) ≤ 9602 := by
    have hsum := sum_map_le htag
    have hcount := h.tagCount
    apply Nat.le_trans (Json.size_obj _)
    rw [List.map_map]
    change (sensor.tags.entries.map fun tag => memberSize (tag.1, .str tag.2)).sum + 2 ≤ 9602
    omega
  apply Nat.le_trans (Json.size_obj _)
  simp only [memberSize, Json.size_str, List.map_cons, List.map_nil, List.sum_cons, List.sum_nil,
    show stringSize "id" = 4 from rfl, show stringSize "environment" = 13 from rfl,
    show stringSize "tags" = 6 from rfl]
  omega

theorem length_hexEncode (bytes : List UInt8) : (hexEncode bytes).length = 2 * bytes.length := by
  unfold hexEncode
  rw [String.length_ofList]
  induction bytes with
  | nil => rfl
  | cons b rest ih =>
      rw [List.flatMap_cons, List.length_append, ih, List.length_cons]
      simp only [List.length_cons, List.length_nil]
      omega

theorem length_asciiPreview (bytes : List UInt8) : (asciiPreview bytes).length = bytes.length := by
  simp [asciiPreview]

theorem hexEncode_digits (bytes : List UInt8) :
    ∀ c ∈ (hexEncode bytes).toList, ∃ n < 16, c = Nat.digitChar n := by
  intro c hc
  simp only [hexEncode, String.toList_ofList, List.mem_flatMap, List.mem_cons, List.not_mem_nil,
    or_false] at hc
  obtain ⟨b, _, rfl | rfl⟩ := hc
  · have hlt := b.toNat_lt
    exact ⟨b.toNat / 16, by omega, rfl⟩
  · exact ⟨b.toNat % 16, by omega, rfl⟩

theorem asciiPreview_printable (bytes : List UInt8) :
    ∀ c ∈ (asciiPreview bytes).toList, 0x20 ≤ c.toNat ∧ c.toNat ≤ 0x7e := by
  intro c hc
  simp only [asciiPreview, String.toList_ofList, List.mem_map] at hc
  obtain ⟨b, _, rfl⟩ := hc
  unfold previewChar
  split_ifs with hprintable
  · simp only [printableByte, Bool.and_eq_true, decide_eq_true_eq, UInt8.le_iff_toNat_le,
      UInt8.reduceToNat] at hprintable
    rw [Utf8.toNat_ascii (by omega)]
    exact hprintable
  · decide

theorem hexEncode_printable (bytes : List UInt8) :
    ∀ c ∈ (hexEncode bytes).toList, 0x20 ≤ c.toNat ∧ c.toNat ≤ 0x7e := by
  have hdigit : ∀ n < 16, 0x20 ≤ (Nat.digitChar n).toNat ∧ (Nat.digitChar n).toNat ≤ 0x7e := by
    decide
  intro c hc
  obtain ⟨n, hn, rfl⟩ := hexEncode_digits bytes c hc
  exact hdigit n hn

theorem stringSize_hexEncode (bytes : List UInt8) :
    stringSize (hexEncode bytes) ≤ 4 * bytes.length + 2 := by
  have hsize := Json.stringSize_printable (hexEncode_printable bytes)
  rw [length_hexEncode] at hsize
  omega

theorem stringSize_asciiPreview (bytes : List UInt8) :
    stringSize (asciiPreview bytes) ≤ 2 * bytes.length + 2 := by
  have hsize := Json.stringSize_printable (asciiPreview_printable bytes)
  rwa [length_asciiPreview] at hsize

theorem size_events_le {events : List SessionEvent} (hcount : events.length ≤ 4)
    (hfits : ∀ event ∈ events, event.Fits) :
    size (.arr (events.map SessionEvent.toJson)) ≤ 160006 := by
  have hsum := @sum_map_le _ (fun event : SessionEvent => size event.toJson + 1) 40001 events
    fun event hevent => Nat.succ_le_succ (size_event_le (hfits event hevent))
  apply Nat.le_trans (Json.size_arr _)
  rw [List.map_map]
  change (events.map fun event => size event.toJson + 1).sum + 2 ≤ 160006
  omega

/-- The names of the members of a record, quoted. -/
theorem stringSize_names :
    (["schema_version", "ts", "session_id", "sensor", "endpoint", "protocol", "src", "dst",
      "dst_port", "duration_ms", "bytes_received", "payload_captured", "bytes_truncated",
      "data_preview_hex", "data_preview_ascii", "privacy_mode", "events", "events_truncated",
      "close_reason"].map stringSize) =
    [16, 4, 12, 8, 10, 10, 5, 5, 10, 13, 16, 18, 17, 18, 20, 14, 8, 18, 14] := by decide

theorem SessionRecord.WellFormed.length_line_le {conn : Connection} {cfg : Config}
    {ep : EndpointConfig}
    {record : SessionRecord} (h : record.WellFormed conn cfg ep) (hcfg : cfg.Accepted)
    (hserved : Served cfg ep) {timestamp : Int → String}
    (htimestamp : (timestamp record.ts).length ≤ 40) :
    (record.line timestamp).length ≤ 1048576 := by
  obtain ⟨preview, hpreview, hhex, hascii, _⟩ := h.preview
  have hts := Json.stringSize_le (timestamp record.ts)
  have hid := Json.stringSize_le (uuidText record.sessionId)
  have hidLength := length_uuidText record.sessionId
  have hsensor : size record.sensor.toJson ≤ 12000 := h.sensor ▸ size_sensor_le hcfg.sensor
  have hendpoint := Json.stringSize_le record.endpoint
  have hlabel := (label_length hcfg hserved).2
  rw [← h.endpoint] at hlabel
  have hprotocol : stringSize record.protocol ≤ 8 := by
    have hall : ∀ protocol : Protocol, stringSize protocol.asStr ≤ 8 := by decide
    exact h.protocol ▸ hall ep.protocol
  have hsrc := Json.stringSize_le record.src.show
  have hsrcLength := record.src.length_show_le
  have hdst := Json.stringSize_le record.dst.show
  have hdstLength := record.dst.length_show_le
  have hversion : size (.num record.schemaVersion) ≤ 4 := h.schemaVersion ▸ by decide
  have hport : size (.num record.dstPort.toNat) ≤ 20 :=
    @Json.size_num _ 5 (by decide) (by have hlt := record.dstPort.toNat_lt; omega)
  have hnumber : ∀ n ≤ u64Max, size (.num n) ≤ 80 := by
    intro n hn
    apply @Json.size_num _ 20 (by decide)
    unfold u64Max at hn
    omega
  have hduration := hnumber _ h.durationMs
  have hbytes := hnumber _ h.bytesReceived
  have hcaptured := Json.size_bool record.payloadCaptured
  have htruncated := Json.size_bool record.bytesTruncated
  have hhexSize := stringSize_hexEncode preview
  rw [← hhex] at hhexSize
  have hasciiSize := stringSize_asciiPreview preview
  rw [← hascii] at hasciiSize
  have hmode : stringSize record.privacyMode.asStr ≤ 10 := by
    cases record.privacyMode <;> decide
  have hevents := size_events_le h.eventCount h.event
  have hlost := Json.size_bool record.eventsTruncated
  have hreason : stringSize record.closeReason.asStr ≤ 16 := by
    cases record.closeReason <;> decide
  have hnames := stringSize_names
  simp only [List.map_cons, List.map_nil, List.cons.injEq, and_true] at hnames
  have hsize : size (record.toJson timestamp) ≤ 1048575 := by
    apply Nat.le_trans (Json.size_obj _)
    simp only [memberSize, Json.size_str, List.map_cons, List.map_nil, List.sum_cons,
      List.sum_nil]
    omega
  unfold SessionRecord.line
  rw [List.length_append, List.length_singleton]
  exact Nat.succ_le_succ hsize

theorem write_of_length_le {line : List UInt8} {s : SinkState}
    (hline : line.length ≤ s.sink.maxBytes) (schedule : List Interruptible.Verdict) :
    (FileSink.write line).run ⟨s, schedule⟩ =
      (do rotateIfFull line.length; appendLine line : SinkIo PUnit).run ⟨s, schedule⟩ := by
  have hcheck : ensureIo (decide (line.length ≤ s.sink.maxBytes))
      "one JSONL record exceeds max_file_bytes" = pure ⟨⟩ := by
    unfold ensureIo
    rw [if_pos (decide_eq_true hline)]
  change ((ensureIo (decide (line.length ≤ s.sink.maxBytes))
    "one JSONL record exceeds max_file_bytes" >>= fun _ =>
      (do rotateIfFull line.length; appendLine line : SinkIo PUnit)).run ⟨s, schedule⟩) = _
  rw [hcheck]
  rfl

/-- The line of every record fits the log file, so the size check of a write
never fails: the write goes on as if it were not there. -/
theorem record_fits_file (canonicalReason : UInt16 → Option String) {cfg : Config}
    (hvalid : cfg.validate = .ok ()) {ep : EndpointConfig} (hserved : Served cfg ep)
    {timestamp : Int → String} (htimestamp : ∀ ts, (timestamp ts).length ≤ 40)
    (conn : Connection) :
    ((conn.record canonicalReason cfg ep).line timestamp).length ≤ cfg.logging.maxFileBytes ∧
      ∀ (s : SinkState) (schedule : List Interruptible.Verdict),
        s.sink.maxBytes = cfg.logging.maxFileBytes →
        (FileSink.write ((conn.record canonicalReason cfg ep).line timestamp)).run ⟨s, schedule⟩ =
          (do
            rotateIfFull ((conn.record canonicalReason cfg ep).line timestamp).length
            appendLine ((conn.record canonicalReason cfg ep).line timestamp) : SinkIo PUnit).run
            ⟨s, schedule⟩ := by
  have hcfg := (validate_ok_iff cfg).mp hvalid
  have hsmall := (conn.record_wellFormed canonicalReason hcfg ep).length_line_le hcfg hserved
    (htimestamp _)
  have hline := Nat.le_trans hsmall hcfg.logging.maxFileBytes.1
  refine ⟨hline, ?_⟩
  intro s schedule hsink
  rw [← hsink] at hline
  exact write_of_length_le hline schedule

theorem record_fits_file_http :
    (((client "GET / HTTP/1.0\r\n\r\n" none).record (fun _ => some "Not Found") (sensorOf .Http)
      (decoy .Http)).line fun _ => "1970-01-01T00:00:00Z").length ≤ 10 * 1024 * 1024 := by
  have hserved : Served (sensorOf .Http) (decoy .Http) :=
    ⟨decoy .Http, List.mem_singleton_self _, (decoy .Http).bind, rfl⟩
  exact (record_fits_file (fun _ => some "Not Found") (by decide) hserved (fun _ => by decide)
    (client "GET / HTTP/1.0\r\n\r\n" none)).1

end Minotaur
