import Minotaur.Base.Json
import Minotaur.Session.Capture

/-!
The derived serialisation of a session record, field by field in the order of
the structures, and the size of its line. The text of a timestamp is the time
library's and a parameter.
-/

namespace Minotaur

open Net

/-- `count` hexadecimal digits of an identifier, from digit `start`. -/
def uuidGroup (id : BitVec 128) (start count : Nat) : List Char :=
  (List.range count).map fun i => Nat.digitChar (id.toNat / 16 ^ (31 - (start + i)) % 16)

/-- The hyphenated form, in lower case. -/
def uuidText (id : BitVec 128) : String :=
  String.ofList (uuidGroup id 0 8 ++ '-' :: (uuidGroup id 8 4 ++ '-' :: (uuidGroup id 12 4 ++
    '-' :: (uuidGroup id 16 4 ++ '-' :: uuidGroup id 20 12))))

def PrivacyMode.asStr : PrivacyMode → String
  | .Metadata => "metadata"
  | .Full => "full"

def SensorConfig.toJson (sensor : SensorConfig) : Json :=
  .obj [("id", .str sensor.id), ("environment", .str sensor.environment),
    ("tags", .obj (sensor.tags.entries.map fun tag => (tag.1, .str tag.2)))]

/-- `Option<String>`. -/
def optionalJson (value : Option String) : Json := (value.map Json.str).getD .null

def SessionEvent.toJson : SessionEvent → Json
  | .SshClientBanner banner => .obj [("type", .str "ssh_client_banner"), ("banner", .str banner)]
  | .HttpRequest method path version host userAgent =>
      .obj [("type", .str "http_request"), ("method", .str method), ("path", .str path),
        ("version", .str version), ("host", optionalJson host),
        ("user_agent", optionalJson userAgent)]
  | .TelnetLogin username password credentialsRedacted =>
      .obj [("type", .str "telnet_login"), ("username", .str username),
        ("password", optionalJson password), ("credentials_redacted", .bool credentialsRedacted)]
  | .Notice msg => .obj [("type", .str "notice"), ("msg", .str msg)]

def SessionRecord.toJson (timestamp : Int → String) (record : SessionRecord) : Json :=
  .obj [("schema_version", .num record.schemaVersion),
    ("ts", .str (timestamp record.ts)),
    ("session_id", .str (uuidText record.sessionId)),
    ("sensor", record.sensor.toJson),
    ("endpoint", .str record.endpoint),
    ("protocol", .str record.protocol),
    ("src", .str record.src.show),
    ("dst", .str record.dst.show),
    ("dst_port", .num record.dstPort.toNat),
    ("duration_ms", .num record.durationMs),
    ("bytes_received", .num record.bytesReceived),
    ("payload_captured", .bool record.payloadCaptured),
    ("bytes_truncated", .bool record.bytesTruncated),
    ("data_preview_hex", .str record.dataPreviewHex),
    ("data_preview_ascii", .str record.dataPreviewAscii),
    ("privacy_mode", .str record.privacyMode.asStr),
    ("events", .arr (record.events.map SessionEvent.toJson)),
    ("events_truncated", .bool record.eventsTruncated),
    ("close_reason", .str record.closeReason.asStr)]

/-- The JSONL line the writer makes of a record. -/
def SessionRecord.line (timestamp : Int → String) (record : SessionRecord) : List UInt8 :=
  Utf8.encode (record.toJson timestamp).text ++ [10]

/-! ### Sizes -/

open Json (size stringSize)

theorem length_uuidGroup (id : BitVec 128) (start count : Nat) :
    (uuidGroup id start count).length = count := by
  simp only [uuidGroup, List.length_map, List.length_range]

theorem length_uuidText (id : BitVec 128) : (uuidText id).length = 36 := by
  simp only [uuidText, String.length_ofList, List.length_append, List.length_cons,
    length_uuidGroup]

theorem size_optionalJson_le {value : Option String} {bound : Nat}
    (hvalue : ∀ text, value = some text → text.length ≤ bound) :
    size (optionalJson value) ≤ 6 * bound + 4 := by
  cases value with
  | none =>
      simp only [optionalJson, Option.map_none, Option.getD_none, Json.size_null]
      omega
  | some text =>
      have hlength := hvalue text rfl
      have hsize := Json.stringSize_le text
      simp only [optionalJson, Option.map_some, Option.getD_some, Json.size_str]
      omega

theorem length_le_of_mem_notices {msg : String} (hmsg : msg ∈ notices) : msg.length ≤ 128 := by
  have hall : ∀ msg ∈ notices, msg.length ≤ 128 := by decide
  exact hall msg hmsg

theorem size_event_le {event : SessionEvent} (hfits : event.Fits) : size event.toJson ≤ 40000 := by
  cases event with
  | SshClientBanner banner =>
      have hlength : banner.length ≤ 254 := hfits
      have hbanner := Json.stringSize_le banner
      apply Nat.le_trans (Json.size_obj _)
      simp only [Json.memberSize, Json.size_str, List.map_cons, List.map_nil, List.sum_cons,
        List.sum_nil, show stringSize "type" = 6 from rfl, show stringSize "banner" = 8 from rfl,
        show stringSize "ssh_client_banner" = 19 from rfl]
      omega
  | Notice msg =>
      have hlength := length_le_of_mem_notices hfits
      have hmsg := Json.stringSize_le msg
      apply Nat.le_trans (Json.size_obj _)
      simp only [Json.memberSize, Json.size_str, List.map_cons, List.map_nil, List.sum_cons,
        List.sum_nil, show stringSize "type" = 6 from rfl, show stringSize "msg" = 5 from rfl,
        show stringSize "notice" = 8 from rfl]
      omega
  | TelnetLogin username password redacted =>
      obtain ⟨hlength, hoptional⟩ := hfits
      have husername := Json.stringSize_le username
      have hpassword := size_optionalJson_le hoptional
      have hredacted := Json.size_bool redacted
      apply Nat.le_trans (Json.size_obj _)
      simp only [Json.memberSize, Json.size_str, List.map_cons, List.map_nil, List.sum_cons,
        List.sum_nil, show stringSize "type" = 6 from rfl,
        show stringSize "telnet_login" = 14 from rfl, show stringSize "username" = 10 from rfl,
        show stringSize "password" = 10 from rfl,
        show stringSize "credentials_redacted" = 22 from rfl]
      omega
  | HttpRequest method path version host userAgent =>
      obtain ⟨⟨_, hmethod⟩, ⟨hpath, hprintable⟩, hversion, hhost, huserAgent⟩ := hfits
      have hmethodSize := Json.stringSize_le method
      have hpathSize := Json.stringSize_printable hprintable
      have hversionSize : stringSize version ≤ 10 := by
        rcases hversion with rfl | rfl <;> decide
      have hhostSize := size_optionalJson_le fun value hvalue =>
        Nat.le_trans (length_le_bytes value) (hhost value hvalue)
      have huserAgentSize := size_optionalJson_le huserAgent
      apply Nat.le_trans (Json.size_obj _)
      simp only [Json.memberSize, Json.size_str, List.map_cons, List.map_nil, List.sum_cons,
        List.sum_nil, show stringSize "type" = 6 from rfl,
        show stringSize "http_request" = 14 from rfl, show stringSize "method" = 8 from rfl,
        show stringSize "path" = 6 from rfl, show stringSize "version" = 9 from rfl,
        show stringSize "host" = 6 from rfl, show stringSize "user_agent" = 12 from rfl]
      omega

end Minotaur
