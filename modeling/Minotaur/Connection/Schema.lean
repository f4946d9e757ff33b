import Minotaur.Base.JsonSchema
import Minotaur.Connection.LineSize

/-!
The published schema of session records, version 2, and that every record
conforms to it. The schema is written in the order of the document.
-/

namespace Minotaur

open Schema

/-! ### The document -/

/-- `[A-Za-z0-9._-]`. -/
def identifierChar (c : Char) : Bool :=
  ('A' ≤ c && c ≤ 'Z') || ('a' ≤ c && c ≤ 'z') || ('0' ≤ c && c ≤ '9') || c = '.' || c = '_' ||
    c = '-'

/-- `^[A-Za-z0-9._-]+$`. -/
def identifierPattern (text : List Char) : Bool := !text.isEmpty && text.all identifierChar

/-- `^(?:[0-9a-f]{2})*$`. -/
def hexPattern (text : List Char) : Bool := text.length % 2 = 0 && text.all hexDigit

/-- `^[ -~]*$`. -/
def printablePattern (text : List Char) : Bool := text.all fun c => ' ' ≤ c && c ≤ '~'

def identifierSchema : Schema :=
  allOf [type [.string], minLength 1, maxLength 64, pattern identifierPattern]

def sensorSchema : Schema :=
  allOf [
    type [.object],
    properties [
      ("id", identifierSchema),
      ("environment", identifierSchema),
      ("tags", allOf [
        type [.object],
        maxProperties 8,
        propertyNames identifierSchema,
        properties [] (allOf [type [.string], maxLength 128])])] never,
    required ["id", "environment", "tags"]]

def bannerSchema : Schema :=
  allOf [
    type [.object],
    properties [
      ("type", constString "ssh_client_banner"),
      ("banner", allOf [type [.string], maxLength 254])] never,
    required ["type", "banner"]]

def requestSchema : Schema :=
  allOf [
    type [.object],
    properties [
      ("type", constString "http_request"),
      ("method", allOf [type [.string], minLength 1, maxLength 32]),
      ("path", allOf [type [.string], maxLength 8192]),
      ("version", enum ["HTTP/1.0", "HTTP/1.1"]),
      ("host", allOf [type [.string, .null], maxLength 2048]),
      ("user_agent", allOf [type [.string, .null], maxLength 1024])] never,
    required ["type", "method", "path", "version", "host", "user_agent"]]

def loginSchema : Schema :=
  allOf [
    type [.object],
    properties [
      ("type", constString "telnet_login"),
      ("username", allOf [type [.string], maxLength 256]),
      ("password", allOf [type [.string, .null], maxLength 256]),
      ("credentials_redacted", type [.boolean])] never,
    required ["type", "username", "password", "credentials_redacted"]]

def noticeSchema : Schema :=
  allOf [
    type [.object],
    properties [
      ("type", constString "notice"),
      ("msg", allOf [type [.string], maxLength 128])] never,
    required ["type", "msg"]]

def eventSchema : Schema := oneOf [bannerSchema, requestSchema, loginSchema, noticeSchema]

def recordProperties : List (String × Schema) :=
  [("schema_version", constNumber 2),
    ("ts", allOf [type [.string], pattern isDateTime]),
    ("session_id", allOf [type [.string], pattern isUuid]),
    ("sensor", sensorSchema),
    ("endpoint", allOf [type [.string], minLength 1, maxLength 80]),
    ("protocol", enum ["raw", "ssh", "http", "telnet"]),
    ("src", type [.string]),
    ("dst", type [.string]),
    ("dst_port", allOf [type [.integer], minimum 1, maximum 65535]),
    ("duration_ms", allOf [type [.integer], minimum 0]),
    ("bytes_received", allOf [type [.integer], minimum 0]),
    ("payload_captured", type [.boolean]),
    ("bytes_truncated", type [.boolean]),
    ("data_preview_hex", allOf [type [.string], pattern hexPattern, maxLength 131072]),
    ("data_preview_ascii", allOf [type [.string], pattern printablePattern, maxLength 65536]),
    ("privacy_mode", enum ["metadata", "full"]),
    ("events", allOf [type [.array], maxItems 16, items eventSchema]),
    ("events_truncated", type [.boolean]),
    ("close_reason", enum ["client_closed", "timeout", "lifetime_limit", "byte_limit",
      "protocol_error", "server_closed", "error", "shutdown"])]

def recordRequired : List String :=
  ["schema_version", "ts", "session_id", "sensor", "endpoint", "protocol", "src", "dst",
    "dst_port", "duration_ms", "bytes_received", "payload_captured", "bytes_truncated",
    "data_preview_hex", "data_preview_ascii", "privacy_mode", "events", "events_truncated",
    "close_reason"]

/-- In metadata mode nothing of the payload is there. -/
def metadataSchema : Schema :=
  ifThen (properties [("privacy_mode", constString "metadata")] any)
    (properties [
      ("payload_captured", constBool false),
      ("bytes_truncated", constBool false),
      ("data_preview_hex", constString ""),
      ("data_preview_ascii", constString "")] any)

def sessionSchema : Schema :=
  allOf [type [.object], properties recordProperties never, required recordRequired,
    allOf [metadataSchema]]

/-! ### Strings -/

section Leaves

variable {text : String} {bound : Nat}

theorem maxLength_str (h : text.length ≤ bound) : maxLength bound (.str text) = true := by
  simpa [maxLength, onString] using h

theorem string_maxLength (h : text.length ≤ bound) :
    allOf [type [.string], maxLength bound] (.str text) = true := by
  simp [type, Json.type, maxLength_str h]

theorem optional_maxLength {value : Option String}
    (h : ∀ text, value = some text → text.length ≤ bound) :
    allOf [type [.string, .null], maxLength bound] (optionalJson value) = true := by
  cases value with
  | none => rfl
  | some text => simp [optionalJson, type, Json.type, maxLength_str (h text rfl)]

end Leaves

theorem identifierByte_char {c : Char} (hascii : c.toNat < 0x80)
    (h : identifierByte (UInt8.ofNat c.toNat) = true) : identifierChar c = true := by
  have hall : ∀ n < 0x80, identifierByte (UInt8.ofNat n) = true →
      identifierChar (Char.ofNat n) = true := by decide +kernel
  have hchar := hall c.toNat hascii h
  rwa [Char.ofNat_toNat] at hchar

theorem identifierByte_ascii (b : UInt8) (h : identifierByte b = true) : b.toNat < 0x80 := by
  have hall : ∀ n < 256, identifierByte (UInt8.ofNat n) = true → n < 0x80 := by decide +kernel
  apply hall b.toNat b.toNat_lt
  rwa [UInt8.ofNat_toNat]

theorem identifier_accepts {text : String} (h : IsIdentifier text) :
    identifierSchema (.str text) = true := by
  have hlength := h.length_le
  have hchars : ∀ c ∈ text.toList, identifierChar c = true := by
    intro c hc
    obtain ⟨hascii, hbyte⟩ := Utf8.of_all_encode identifierByte_ascii
      (List.all_eq_true.mpr h.alphabet) hc
    exact identifierByte_char hascii hbyte
  have hpos : 1 ≤ text.length :=
    Nat.pos_of_ne_zero fun hzero => h.nonempty (String.length_eq_zero_iff.mp hzero)
  simp only [identifierSchema, allOf_cons, allOf_nil, type, Json.type, minLength, maxLength,
    pattern, onString, identifierPattern, Bool.and_eq_true, decide_eq_true_eq]
  exact ⟨rfl, hpos, hlength, by simpa using ⟨h.nonempty, hchars⟩, trivial⟩

theorem sensor_accepts {sensor : SensorConfig} (h : sensor.Accepted) :
    sensorSchema sensor.toJson = true := by
  have htags : allOf [type [.object], maxProperties 8, propertyNames identifierSchema,
      properties [] (allOf [type [.string], maxLength 128])]
      (.obj (sensor.tags.entries.map fun tag => (tag.1, .str tag.2))) = true := by
    simp only [allOf_cons, allOf_nil, type, Json.type, maxProperties, propertyNames, properties,
      List.length_map, List.all_map, Bool.and_eq_true, decide_eq_true_eq, List.all_eq_true,
      Function.comp_apply, List.lookup_nil, Option.getD_none]
    refine ⟨rfl, h.tagCount, ?_, ?_, trivial⟩
    · intro tag htag
      exact identifier_accepts (h.tagKey tag htag)
    · intro tag htag
      have hvalue := (h.tagValue tag htag).length_le
      exact ⟨rfl, maxLength_str hvalue, trivial⟩
  exact object_accepts (by decide)
    (.cons (matches_of (identifier_accepts h.id))
      (.cons (matches_of (identifier_accepts h.environment)) (.cons (matches_of htags) .nil)))

/-! ### Events -/

/-- The alternative of another event refuses already because of the tag. -/
theorem refuses_tag {kind other : String} (hne : other ≠ kind) {rest : List (String × Schema)}
    {names : List String} {fields : List (String × Json)} :
    allOf [type [.object], properties (("type", constString kind) :: rest) never, required names]
      (.obj (("type", .str other) :: fields)) = false := by
  simp [properties, constString, hne]

theorem banner_accepts {banner : String} (h : banner.length ≤ 254) :
    eventSchema (SessionEvent.SshClientBanner banner).toJson = true := by
  apply @oneOf_of_split [] [requestSchema, loginSchema, noticeSchema] bannerSchema
  · exact object_accepts (by decide)
      (.cons (matches_of rfl) (.cons (matches_of (string_maxLength h)) .nil))
  · simp
  · simp only [List.forall_mem_cons]
    exact ⟨refuses_tag (by decide), refuses_tag (by decide), refuses_tag (by decide), by simp⟩

theorem request_accepts {method path version : String} {host userAgent : Option String}
    (h : (SessionEvent.HttpRequest method path version host userAgent).Fits) :
    eventSchema (SessionEvent.HttpRequest method path version host userAgent).toJson = true := by
  obtain ⟨⟨hpos, hmethod⟩, ⟨hpath, _⟩, hversion, hhost, huserAgent⟩ := h
  have hmethods : allOf [type [.string], minLength 1, maxLength 32] (.str method) = true := by
    simp [type, Json.type, minLength, onString, hpos, maxLength_str hmethod]
  have hversions : enum ["HTTP/1.0", "HTTP/1.1"] (.str version) = true := by
    rcases hversion with rfl | rfl <;> rfl
  apply @oneOf_of_split [bannerSchema] [loginSchema, noticeSchema] requestSchema
  · exact object_accepts (by decide)
      (.cons (matches_of rfl)
      (.cons (matches_of hmethods)
      (.cons (matches_of (string_maxLength hpath))
      (.cons (matches_of hversions)
      (.cons (matches_of (optional_maxLength fun value hvalue =>
        Nat.le_trans (length_le_bytes value) (hhost value hvalue)))
      (.cons (matches_of (optional_maxLength huserAgent)) .nil))))))
  · simp only [List.forall_mem_cons]
    exact ⟨refuses_tag (by decide), by simp⟩
  · simp only [List.forall_mem_cons]
    exact ⟨refuses_tag (by decide), refuses_tag (by decide), by simp⟩

theorem login_accepts {username : String} {password : Option String} {redacted : Bool}
    (h : (SessionEvent.TelnetLogin username password redacted).Fits) :
    eventSchema (SessionEvent.TelnetLogin username password redacted).toJson = true := by
  obtain ⟨husername, hpassword⟩ := h
  apply @oneOf_of_split [bannerSchema, requestSchema] [noticeSchema] loginSchema
  · exact object_accepts (by decide)
      (.cons (matches_of rfl)
      (.cons (matches_of (string_maxLength husername))
      (.cons (matches_of (optional_maxLength hpassword)) (.cons (matches_of rfl) .nil))))
  · simp only [List.forall_mem_cons]
    exact ⟨refuses_tag (by decide), refuses_tag (by decide), by simp⟩
  · simp only [List.forall_mem_cons]
    exact ⟨refuses_tag (by decide), by simp⟩

theorem notice_accepts {msg : String} (h : msg ∈ notices) :
    eventSchema (SessionEvent.Notice msg).toJson = true := by
  apply @oneOf_of_split [bannerSchema, requestSchema, loginSchema] [] noticeSchema
  · exact object_accepts (by decide)
      (.cons (matches_of rfl)
      (.cons (matches_of (string_maxLength (length_le_of_mem_notices h))) .nil))
  · simp only [List.forall_mem_cons]
    exact ⟨refuses_tag (by decide), refuses_tag (by decide), refuses_tag (by decide), by simp⟩
  · simp

theorem event_accepts {event : SessionEvent} (h : event.Fits) :
    eventSchema event.toJson = true := by
  cases event with
  | SshClientBanner banner => exact banner_accepts h
  | HttpRequest method path version host userAgent => exact request_accepts h
  | TelnetLogin username password redacted => exact login_accepts h
  | Notice msg => exact notice_accepts h

/-! ### The record -/

theorem hexDigit_digitChar : ∀ n < 16, hexDigit (Nat.digitChar n) = true := by decide

theorem uuidGroup_digits (id : BitVec 128) (start count : Nat) :
    ∀ c ∈ uuidGroup id start count, hexDigit c = true := by
  intro c hc
  obtain ⟨i, _, rfl⟩ := List.mem_map.mp hc
  exact hexDigit_digitChar _ (Nat.mod_lt _ (by decide))

theorem isUuid_uuidText (id : BitVec 128) : isUuid (uuidText id).toList = true := by
  have hdash : ∀ start count, '-' ∉ uuidGroup id start count := by
    intro start count hmem
    exact absurd (uuidGroup_digits id start count '-' hmem) (by decide)
  have hsplit : (uuidText id).toList.splitOn '-' = [uuidGroup id 0 8, uuidGroup id 8 4,
      uuidGroup id 12 4, uuidGroup id 16 4, uuidGroup id 20 12] := by
    unfold uuidText
    rw [String.toList_ofList, List.splitOn_append_cons_self_of_not_mem (hdash 0 8),
      List.splitOn_append_cons_self_of_not_mem (hdash 8 4),
      List.splitOn_append_cons_self_of_not_mem (hdash 12 4),
      List.splitOn_append_cons_self_of_not_mem (hdash 16 4),
      List.splitOn_eq_singleton (hdash 20 12)]
  unfold isUuid
  rw [hsplit]
  simp only [List.map_cons, List.map_nil, length_uuidGroup, List.all_cons, List.all_nil,
    List.all_eq_true.mpr (uuidGroup_digits id _ _), decide_true, Bool.and_self]

theorem hexPattern_hexEncode (bytes : List UInt8) : hexPattern (hexEncode bytes).toList = true := by
  have hlength := length_hexEncode bytes
  unfold hexPattern
  rw [Bool.and_eq_true, decide_eq_true_eq, List.all_eq_true, String.length_toList]
  constructor
  · omega
  · intro c hc
    obtain ⟨n, hn, rfl⟩ := hexEncode_digits bytes c hc
    exact hexDigit_digitChar n hn

theorem printablePattern_asciiPreview (bytes : List UInt8) :
    printablePattern (asciiPreview bytes).toList = true := by
  unfold printablePattern
  rw [List.all_eq_true]
  intro c hc
  have hprintable := asciiPreview_printable bytes c hc
  rw [Bool.and_eq_true, decide_eq_true_eq, decide_eq_true_eq]
  exact hprintable

theorem metadata_accepts {timestamp : Int → String} {record : SessionRecord}
    (hflags : record.privacyMode = .Metadata →
      record.payloadCaptured = false ∧ record.bytesTruncated = false)
    (hpreview : record.privacyMode = .Metadata →
      record.dataPreviewHex = "" ∧ record.dataPreviewAscii = "") :
    metadataSchema (record.toJson timestamp) = true := by
  unfold metadataSchema ifThen SessionRecord.toJson
  rw [Bool.or_eq_true]
  cases hmode : record.privacyMode with
  | Full => exact Or.inl rfl
  | Metadata =>
      obtain ⟨hcaptured, htruncated⟩ := hflags hmode
      obtain ⟨hhex, hascii⟩ := hpreview hmode
      rw [hcaptured, htruncated, hhex, hascii]
      exact Or.inr rfl

theorem SessionRecord.WellFormed.accepts {conn : Connection} {cfg : Config} {ep : EndpointConfig}
    {record : SessionRecord} (h : record.WellFormed conn cfg ep) (hcfg : cfg.Accepted)
    (hserved : Served cfg ep) (hport : (conn.localAddr.getD ep.bind).port ≠ 0)
    {timestamp : Int → String} (htimestamp : isDateTime (timestamp conn.ts).toList = true) :
    sessionSchema (record.toJson timestamp) = true := by
  obtain ⟨preview, hpreview, hhex, hascii, hempty⟩ := h.preview
  have hversion : constNumber 2 (.num record.schemaVersion) = true := by
    simp [constNumber, h.schemaVersion]
  have hts : allOf [type [.string], pattern isDateTime] (.str (timestamp record.ts)) = true := by
    simp [type, Json.type, pattern, onString, h.ts, htimestamp]
  have hid : allOf [type [.string], pattern isUuid] (.str (uuidText record.sessionId)) = true := by
    simp [type, Json.type, pattern, onString, isUuid_uuidText]
  have hsensor : sensorSchema record.sensor.toJson = true := h.sensor ▸ sensor_accepts hcfg.sensor
  have hendpoint : allOf [type [.string], minLength 1, maxLength 80] (.str record.endpoint) =
      true := by
    obtain ⟨hpos, hlabel⟩ := label_length hcfg hserved
    rw [h.endpoint]
    simp only [allOf_cons, allOf_nil, type, Json.type, minLength, maxLength, onString,
      Bool.and_eq_true, decide_eq_true_eq]
    exact ⟨rfl, hpos, by omega, trivial⟩
  have hprotocol : enum ["raw", "ssh", "http", "telnet"] (.str record.protocol) = true := by
    rw [h.protocol]
    cases ep.protocol <;> rfl
  have hdstPort : allOf [type [.integer], minimum 1, maximum 65535] (.num record.dstPort.toNat) =
      true := by
    have hlt := record.dstPort.toNat_lt
    have hpos : 0 < record.dstPort.toNat := by
      rw [h.dstPort]
      exact Nat.pos_of_ne_zero fun hzero => hport (UInt16.toNat_inj.mp hzero)
    simp only [allOf_cons, allOf_nil, type, Json.type, minimum, maximum, onNumber,
      Bool.and_eq_true, decide_eq_true_eq]
    exact ⟨rfl, hpos, by omega, trivial⟩
  have hhexes : allOf [type [.string], pattern hexPattern, maxLength 131072]
      (.str record.dataPreviewHex) = true := by
    have hlength := length_hexEncode preview
    rw [hhex, allOf_cons, allOf_cons, allOf_cons, maxLength_str (by omega)]
    simp [type, Json.type, pattern, onString, hexPattern_hexEncode]
  have hasciis : allOf [type [.string], pattern printablePattern, maxLength 65536]
      (.str record.dataPreviewAscii) = true := by
    have hlength := length_asciiPreview preview
    rw [hascii, allOf_cons, allOf_cons, allOf_cons, maxLength_str (by omega)]
    simp [type, Json.type, pattern, onString, printablePattern_asciiPreview]
  have hmode : enum ["metadata", "full"] (.str record.privacyMode.asStr) = true := by
    cases record.privacyMode <;> rfl
  have hevents : allOf [type [.array], maxItems 16, items eventSchema]
      (.arr (record.events.map SessionEvent.toJson)) = true := by
    have hcount := h.eventCount
    simp only [allOf_cons, allOf_nil, type, Json.type, maxItems, items, List.length_map,
      List.all_map, Bool.and_eq_true, decide_eq_true_eq, List.all_eq_true, Function.comp_apply]
    exact ⟨rfl, by omega, fun event hevent => event_accepts (h.event event hevent), trivial⟩
  have hreason : enum ["client_closed", "timeout", "lifetime_limit", "byte_limit",
      "protocol_error", "server_closed", "error", "shutdown"] (.str record.closeReason.asStr) =
      true := by
    cases record.closeReason <;> rfl
  have hmetadata : metadataSchema (record.toJson timestamp) = true := by
    apply metadata_accepts h.metadata
    intro hmode
    rw [hhex, hascii, hempty hmode]
    exact ⟨rfl, rfl⟩
  have hmembers : allOf [type [.object], properties recordProperties never,
      required recordRequired] (record.toJson timestamp) = true :=
    object_accepts (by decide)
      (.cons (matches_of hversion) (.cons (matches_of hts) (.cons (matches_of hid)
      (.cons (matches_of hsensor) (.cons (matches_of hendpoint) (.cons (matches_of hprotocol)
      (.cons (matches_of rfl) (.cons (matches_of rfl) (.cons (matches_of hdstPort)
      (.cons (matches_of rfl) (.cons (matches_of rfl) (.cons (matches_of rfl)
      (.cons (matches_of rfl) (.cons (matches_of hhexes) (.cons (matches_of hasciis)
      (.cons (matches_of hmode) (.cons (matches_of hevents) (.cons (matches_of rfl)
      (.cons (matches_of hreason) .nil)))))))))))))))))))
  simp only [allOf_cons, allOf_nil, Bool.and_eq_true, and_true] at hmembers
  simp only [sessionSchema, allOf_cons, allOf_nil, Bool.and_eq_true, and_true]
  exact ⟨hmembers.1, hmembers.2.1, hmembers.2.2, hmetadata⟩

/-- The clock shows a year of four digits, 1970 at the earliest. -/
def InEra (ts : Int) : Prop := 0 ≤ ts ∧ ts < 253402300800 * 10 ^ 9

/-- Every record conforms to the published schema, given that the time library
writes RFC 3339 and that a connected socket has a port. -/
theorem record_conforms (canonicalReason : UInt16 → Option String) {cfg : Config}
    (hvalid : cfg.validate = .ok ()) {ep : EndpointConfig} (hserved : Served cfg ep)
    {timestamp : Int → String}
    (htimestamp : ∀ ts, InEra ts → isDateTime (timestamp ts).toList = true)
    (conn : Connection) (hclock : InEra conn.ts)
    (hport : (conn.localAddr.getD ep.bind).port ≠ 0) :
    sessionSchema ((conn.record canonicalReason cfg ep).toJson timestamp) = true := by
  have hcfg := (validate_ok_iff cfg).mp hvalid
  exact (conn.record_wellFormed canonicalReason hcfg ep).accepts hcfg hserved hport
    (htimestamp conn.ts hclock)

theorem record_conforms_http :
    sessionSchema (((client "GET / HTTP/1.0\r\n\r\n" none).record (fun _ => some "Not Found")
      (sensorOf .Http) (decoy .Http)).toJson fun _ => "1970-01-01T00:00:00Z") = true := by
  have hserved : Served (sensorOf .Http) (decoy .Http) :=
    ⟨decoy .Http, List.mem_singleton_self _, (decoy .Http).bind, rfl⟩
  exact record_conforms (fun _ => some "Not Found") (by decide) hserved (fun _ _ => by decide)
    (client "GET / HTTP/1.0\r\n\r\n" none) ⟨Int.le_refl 0, by decide⟩ (by decide)

end Minotaur
