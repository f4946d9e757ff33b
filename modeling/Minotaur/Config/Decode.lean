import Minotaur.Base.NetParse
import Minotaur.Base.Toml
import Minotaur.Config.Accepted

/-!
The derived (de)serialisation of the configuration, and `Config::from_toml`
over it. The text grammar is a parameter: it turns a text into a document.
An address is its text, so the flow label of an IPv6 address is lost. The
`usize` of the targets has 64 bits.
-/

namespace Minotaur

open Net Toml

/-! ### Maps -/

namespace BTreeMap

def insertEntry (key value : String) : List (String × String) → List (String × String)
  | [] => [(key, value)]
  | entry :: rest =>
      if key < entry.1 then (key, value) :: entry :: rest
      else if key = entry.1 then (key, value) :: rest
      else entry :: insertEntry key value rest

theorem key_insertEntry {key value : String} {entries : List (String × String)}
    {entry : String × String} (hentry : entry ∈ insertEntry key value entries) :
    entry.1 = key ∨ entry ∈ entries := by
  induction entries with
  | nil => exact Or.inl (congrArg Prod.fst (List.mem_singleton.mp hentry))
  | cons first rest ih =>
      unfold insertEntry at hentry
      split_ifs at hentry
      · rcases List.mem_cons.mp hentry with rfl | hentry
        · exact Or.inl rfl
        · exact Or.inr hentry
      · rcases List.mem_cons.mp hentry with rfl | hentry
        · exact Or.inl rfl
        · exact Or.inr (List.mem_cons_of_mem _ hentry)
      · rcases List.mem_cons.mp hentry with rfl | hentry
        · exact Or.inr List.mem_cons_self
        · exact (ih hentry).imp_right (List.mem_cons_of_mem _)

theorem sorted_insertEntry (key value : String) {entries : List (String × String)}
    (hsorted : entries.Pairwise fun left right => left.1 < right.1) :
    (insertEntry key value entries).Pairwise fun left right => left.1 < right.1 := by
  induction entries with
  | nil => exact List.pairwise_singleton _ _
  | cons first rest ih =>
      obtain ⟨hfirst, hrest⟩ := List.pairwise_cons.mp hsorted
      unfold insertEntry
      split_ifs with hlt heq
      · refine List.pairwise_cons.mpr ⟨?_, hsorted⟩
        intro entry hentry
        rcases List.mem_cons.mp hentry with rfl | hentry
        · exact hlt
        · exact String.lt_trans hlt (hfirst entry hentry)
      · refine List.pairwise_cons.mpr ⟨?_, hrest⟩
        intro entry hentry
        rw [heq]
        exact hfirst entry hentry
      · refine List.pairwise_cons.mpr ⟨?_, ih hrest⟩
        intro entry hentry
        rcases key_insertEntry hentry with hkey | hentry
        · rw [hkey]
          exact Std.lt_of_le_of_ne (String.not_lt.mp hlt) (Ne.symm heq)
        · exact hfirst entry hentry

def insert (map : BTreeMap) (key value : String) : BTreeMap where
  entries := insertEntry key value map.entries
  sorted := sorted_insertEntry key value map.sorted

def ofList (entries : List (String × String)) : BTreeMap :=
  entries.foldl (fun map entry => map.insert entry.1 entry.2) empty

theorem insertEntry_last {key value : String} {entries : List (String × String)}
    (hlast : ∀ entry ∈ entries, entry.1 < key) :
    insertEntry key value entries = entries ++ [(key, value)] := by
  induction entries with
  | nil => rfl
  | cons first rest ih =>
      have hfirst := hlast first List.mem_cons_self
      have hne : key ≠ first.1 := by
        rintro rfl
        exact String.lt_irrefl _ hfirst
      rw [insertEntry, if_neg (String.lt_asymm hfirst), if_neg hne,
        ih fun entry h => hlast entry (List.mem_cons_of_mem _ h), List.cons_append]

theorem entries_foldl_insert {entries : List (String × String)} {map : BTreeMap}
    (hsorted : (map.entries ++ entries).Pairwise fun left right => left.1 < right.1) :
    (entries.foldl (fun map entry => map.insert entry.1 entry.2) map).entries =
      map.entries ++ entries := by
  induction entries generalizing map with
  | nil => simp
  | cons entry rest ih =>
      have hlast : ∀ earlier ∈ map.entries, earlier.1 < entry.1 := fun earlier h =>
        (List.pairwise_append.mp hsorted).2.2 earlier h entry List.mem_cons_self
      have hinsert : (map.insert entry.1 entry.2).entries = map.entries ++ [entry] :=
        insertEntry_last hlast
      rw [List.foldl_cons, ih (by rw [hinsert]; simpa using hsorted), hinsert]
      simp

/-- The entries of a map in their order make the map. -/
theorem ofList_entries (map : BTreeMap) : ofList map.entries = map := by
  have hentries := @entries_foldl_insert map.entries empty (by simpa [empty] using map.sorted)
  cases map with
  | mk entries sorted =>
      unfold ofList
      generalize List.foldl _ _ _ = other at hentries
      cases other with
      | mk others _ =>
          obtain rfl : others = entries := by simpa [empty] using hentries
          rfl

end BTreeMap

/-! ### Values -/

/-- A date is given to a map as one entry. -/
def readMap : Value → Option BTreeMap
  | .Table entries =>
      (entries.mapM fun entry => (readString entry.2).map fun text => (entry.1, text)).map
        BTreeMap.ofList
  | .Datetime text => some (BTreeMap.ofList [("$__toml_private_datetime", text)])
  | _ => none

def BTreeMap.serialize (map : BTreeMap) : Value :=
  .Table (map.entries.map fun entry => (entry.1, .String entry.2))

/-- `rename_all = "lowercase"`. -/
def PrivacyMode.serialize : PrivacyMode → Value
  | .Metadata => .String "metadata"
  | .Full => .String "full"

def readMode (value : Value) : Option PrivacyMode :=
  match unitVariant value with
  | some "metadata" => some .Metadata
  | some "full" => some .Full
  | _ => none

def Protocol.serialize : Protocol → Value
  | .Raw => .String "raw"
  | .Ssh => .String "ssh"
  | .Http => .String "http"
  | .Telnet => .String "telnet"

def readProtocol (value : Value) : Option Protocol :=
  match unitVariant value with
  | some "raw" => some .Raw
  | some "ssh" => some .Ssh
  | some "http" => some .Http
  | some "telnet" => some .Telnet
  | _ => none

/-- `protocol = { ssh = [] }` is `protocol = "ssh"`. -/
example : readProtocol (.Table [("ssh", .Array [])]) = some .Ssh := by decide

def readBind : Value → Option SocketAddr
  | .String text => SocketAddr.parse text
  | _ => none

def readIp : Value → Option IpAddr
  | .String text => IpAddr.parse text
  | _ => none

/-! ### Records -/

def SensorConfig.names : List String := ["id", "environment", "tags"]

def SensorConfig.deserialize (document : Value) : Option SensorConfig := do
  let field ← fields names document
  let absent : SensorConfig := {}
  return {
    id := ← field.default "id" readString absent.id
    environment := ← field.default "environment" readString absent.environment
    tags := ← field.default "tags" readMap absent.tags }

def SensorConfig.entries (self : SensorConfig) : List (String × Value) :=
  [("id", .String self.id), ("environment", .String self.environment),
    ("tags", self.tags.serialize)]

def PrivacyConfig.names : List String := ["mode", "capture_http_path"]

def PrivacyConfig.deserialize (document : Value) : Option PrivacyConfig := do
  let field ← fields names document
  let absent : PrivacyConfig := {}
  return {
    mode := ← field.default "mode" readMode absent.mode
    captureHttpPath := ← field.default "capture_http_path" readBoolean absent.captureHttpPath }

def PrivacyConfig.entries (self : PrivacyConfig) : List (String × Value) :=
  [("mode", self.mode.serialize), ("capture_http_path", .Boolean self.captureHttpPath)]

def LoggingConfig.names : List String :=
  ["output", "stdout", "buffer_size", "max_file_bytes", "max_files", "write_timeout_seconds"]

def LoggingConfig.deserialize (document : Value) : Option LoggingConfig := do
  let field ← fields names document
  let absent : LoggingConfig := {}
  return {
    output := ← field.default "output" readString absent.output
    stdout := ← field.default "stdout" readBoolean absent.stdout
    bufferSize := ← field.default "buffer_size" (readUnsigned (2 ^ 64)) absent.bufferSize
    maxFileBytes := ← field.default "max_file_bytes" (readUnsigned (2 ^ 64)) absent.maxFileBytes
    maxFiles := ← field.default "max_files" (readUnsigned (2 ^ 64)) absent.maxFiles
    writeTimeoutSeconds :=
      ← field.default "write_timeout_seconds" (readUnsigned (2 ^ 64)) absent.writeTimeoutSeconds }

def LoggingConfig.entries (self : LoggingConfig) : Option (List (String × Value)) := do
  return [("output", .String self.output), ("stdout", .Boolean self.stdout),
    ("buffer_size", ← writeUnsigned self.bufferSize),
    ("max_file_bytes", ← writeUnsigned self.maxFileBytes),
    ("max_files", ← writeUnsigned self.maxFiles),
    ("write_timeout_seconds", ← writeUnsigned self.writeTimeoutSeconds)]

def MetricsConfig.names : List String :=
  ["enabled", "bind", "allow_remote", "max_connections", "request_timeout_seconds"]

def MetricsConfig.deserialize (document : Value) : Option MetricsConfig := do
  let field ← fields names document
  let absent : MetricsConfig := {}
  return {
    enabled := ← field.default "enabled" readBoolean absent.enabled
    bind := ← field.default "bind" readBind absent.bind
    allowRemote := ← field.default "allow_remote" readBoolean absent.allowRemote
    maxConnections :=
      ← field.default "max_connections" (readUnsigned (2 ^ 64)) absent.maxConnections
    requestTimeoutSeconds := ← field.default "request_timeout_seconds" (readUnsigned (2 ^ 64))
      absent.requestTimeoutSeconds }

def MetricsConfig.entries (self : MetricsConfig) : Option (List (String × Value)) := do
  return [("enabled", .Boolean self.enabled), ("bind", .String self.bind.show),
    ("allow_remote", .Boolean self.allowRemote),
    ("max_connections", ← writeUnsigned self.maxConnections),
    ("request_timeout_seconds", ← writeUnsigned self.requestTimeoutSeconds)]

def ServerConfig.names : List String :=
  ["max_concurrent_sessions", "session_timeout_seconds", "max_session_duration_seconds",
    "shutdown_grace_seconds", "rate_limit_per_ip_per_min", "max_tracked_ips",
    "max_bytes_per_session", "max_read_bytes_per_session", "ignore_source_ips"]

def ServerConfig.deserialize (document : Value) : Option ServerConfig := do
  let field ← fields names document
  let absent : ServerConfig := {}
  return {
    maxConcurrentSessions := ← field.default "max_concurrent_sessions" (readUnsigned (2 ^ 64))
      absent.maxConcurrentSessions
    sessionTimeoutSeconds := ← field.default "session_timeout_seconds" (readUnsigned (2 ^ 64))
      absent.sessionTimeoutSeconds
    maxSessionDurationSeconds := ← field.default "max_session_duration_seconds"
      (readUnsigned (2 ^ 64)) absent.maxSessionDurationSeconds
    shutdownGraceSeconds := ← field.default "shutdown_grace_seconds" (readUnsigned (2 ^ 64))
      absent.shutdownGraceSeconds
    rateLimitPerIpPerMin := ← field.default "rate_limit_per_ip_per_min" (readUnsigned (2 ^ 32))
      absent.rateLimitPerIpPerMin
    maxTrackedIps :=
      ← field.default "max_tracked_ips" (readUnsigned (2 ^ 64)) absent.maxTrackedIps
    maxBytesPerSession := ← field.default "max_bytes_per_session" (readUnsigned (2 ^ 64))
      absent.maxBytesPerSession
    maxReadBytesPerSession := ← field.default "max_read_bytes_per_session"
      (readUnsigned (2 ^ 64)) absent.maxReadBytesPerSession
    ignoreSourceIps :=
      ← field.default "ignore_source_ips" (readList readIp) absent.ignoreSourceIps }

def ServerConfig.entries (self : ServerConfig) : Option (List (String × Value)) := do
  return [("max_concurrent_sessions", ← writeUnsigned self.maxConcurrentSessions),
    ("session_timeout_seconds", ← writeUnsigned self.sessionTimeoutSeconds),
    ("max_session_duration_seconds", ← writeUnsigned self.maxSessionDurationSeconds),
    ("shutdown_grace_seconds", ← writeUnsigned self.shutdownGraceSeconds),
    ("rate_limit_per_ip_per_min", ← writeUnsigned self.rateLimitPerIpPerMin),
    ("max_tracked_ips", ← writeUnsigned self.maxTrackedIps),
    ("max_bytes_per_session", ← writeUnsigned self.maxBytesPerSession),
    ("max_read_bytes_per_session", ← writeUnsigned self.maxReadBytesPerSession),
    ("ignore_source_ips", .Array (self.ignoreSourceIps.map fun ip => .String ip.show))]

def EndpointConfig.names : List String :=
  ["name", "bind", "protocol", "banner", "server_header", "http_status", "login_prompt"]

/-- Only `bind` and `protocol` have no default. -/
def EndpointConfig.deserialize (document : Value) : Option EndpointConfig := do
  let field ← fields names document
  return {
    name := ← field.default "name" readString ""
    bind := ← field.required "bind" readBind
    protocol := ← field.required "protocol" readProtocol
    banner := ← field.optional "banner" readString
    serverHeader := ← field.optional "server_header" readString
    httpStatus := ← field.optional "http_status" readU16
    loginPrompt := ← field.optional "login_prompt" readString }

/-- `None` is not written. -/
def EndpointConfig.entries (self : EndpointConfig) : List (String × Value) :=
  [("name", .String self.name), ("bind", .String self.bind.show),
      ("protocol", self.protocol.serialize)] ++
    (optionalEntry "banner" (self.banner.map .String) ++
    (optionalEntry "server_header" (self.serverHeader.map .String) ++
    (optionalEntry "http_status" (self.httpStatus.map fun status => .Integer status.toNat) ++
    optionalEntry "login_prompt" (self.loginPrompt.map .String))))

def Config.names : List String :=
  ["sensor", "privacy", "logging", "metrics", "server", "endpoint"]

def Config.deserialize (document : Value) : Option Config := do
  let field ← fields names document
  let absent : Config := {}
  return {
    sensor := ← field.default "sensor" SensorConfig.deserialize absent.sensor
    privacy := ← field.default "privacy" PrivacyConfig.deserialize absent.privacy
    logging := ← field.default "logging" LoggingConfig.deserialize absent.logging
    metrics := ← field.default "metrics" MetricsConfig.deserialize absent.metrics
    server := ← field.default "server" ServerConfig.deserialize absent.server
    endpoints := ← field.default "endpoint" (readList EndpointConfig.deserialize)
      absent.endpoints }

/-- A misspelt section is not ignored. -/
example : (Config.deserialize (.Table [("metric", .Table [])])).isNone = true := by
  decide

def Config.entries (self : Config) : Option (List (String × Value)) := do
  return [("sensor", .Table self.sensor.entries), ("privacy", .Table self.privacy.entries),
    ("logging", .Table (← self.logging.entries)), ("metrics", .Table (← self.metrics.entries)),
    ("server", .Table (← self.server.entries)),
    ("endpoint", .Array (self.endpoints.map fun ep => .Table ep.entries))]

/-- `Config::from_toml`; `fromStr` is the grammar of the text. -/
def Config.fromToml (fromStr : String → Option Value) (raw : String) : Except String Config := do
  ensure (decide ((bytes raw).length ≤ 65536)) "config exceeds 64 KiB"
  match (fromStr raw).bind Config.deserialize with
  | none => .error "invalid TOML configuration"
  | some cfg => do
      cfg.validate
      pure cfg

end Minotaur
