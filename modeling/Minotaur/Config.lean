import Minotaur.Base.Net
import Mathlib.Tactic.Common
import Mathlib.Data.Fintype.Defs
import Mathlib.Data.Finset.Insert

/-!
The configuration record and its semantic check, with the defaults of the
source as field defaults. `Minotaur.Config.Decode` reads one from a document.
`usize`, `u64` and `u32` fields are natural numbers; `validate` bounds every
one of them before it multiplies. `validate` is cut into one function per
section of the file, in the order in which the source checks them;
`Minotaur.Config.Accepted` reads the whole chain back as one record of facts.
-/

namespace Minotaur

open Net

/-- `u64::MAX`, and `usize::MAX` on the targets. -/
def u64Max : Nat := 2 ^ 64 - 1

/-- `BTreeMap<String, String>`: keys in strictly increasing order. -/
structure BTreeMap where
  entries : List (String × String)
  sorted : entries.Pairwise (fun left right => left.1 < right.1)

def BTreeMap.empty : BTreeMap := ⟨[], List.Pairwise.nil⟩

structure SensorConfig where
  id : String := "local-sensor"
  environment : String := "development"
  tags : BTreeMap := BTreeMap.empty

inductive PrivacyMode where
  | Metadata
  | Full
deriving DecidableEq, Repr

structure PrivacyConfig where
  mode : PrivacyMode := .Metadata
  captureHttpPath : Bool := true

structure LoggingConfig where
  output : String := "honeypot.jsonl"
  stdout : Bool := false
  bufferSize : Nat := 256
  maxFileBytes : Nat := 10 * 1024 * 1024
  maxFiles : Nat := 3
  writeTimeoutSeconds : Nat := 3

/-- Empty or "-" always selects stdout. -/
def LoggingConfig.filePath (config : LoggingConfig) : Option String :=
  if config.output = "" ∨ config.output = "-" then none else some config.output

def LoggingConfig.writesStdout (config : LoggingConfig) : Bool :=
  config.stdout || config.filePath.isNone

structure MetricsConfig where
  enabled : Bool := false
  bind : SocketAddr := .V4 0x7f000001#32 9090
  allowRemote : Bool := false
  maxConnections : Nat := 16
  requestTimeoutSeconds : Nat := 3

structure ServerConfig where
  maxConcurrentSessions : Nat := 256
  sessionTimeoutSeconds : Nat := 15
  maxSessionDurationSeconds : Nat := 60
  shutdownGraceSeconds : Nat := 10
  rateLimitPerIpPerMin : Nat := 30
  maxTrackedIps : Nat := 4096
  maxBytesPerSession : Nat := 1024
  maxReadBytesPerSession : Nat := 65536
  ignoreSourceIps : List IpAddr := []

inductive Protocol where
  | Raw
  | Ssh
  | Http
  | Telnet
deriving DecidableEq, Repr

instance : Fintype Protocol where
  elems := {.Raw, .Ssh, .Http, .Telnet}
  complete := by intro protocol; cases protocol <;> decide

def Protocol.asStr : Protocol → String
  | .Raw => "raw"
  | .Ssh => "ssh"
  | .Http => "http"
  | .Telnet => "telnet"

structure EndpointConfig where
  name : String := ""
  bind : SocketAddr
  protocol : Protocol
  banner : Option String := none
  serverHeader : Option String := none
  httpStatus : Option UInt16 := none
  loginPrompt : Option String := none

def EndpointConfig.label (ep : EndpointConfig) : String :=
  if ep.name = "" then ep.protocol.asStr ++ "-" ++ toString ep.bind.port.toNat else ep.name

structure Config where
  sensor : SensorConfig := {}
  privacy : PrivacyConfig := {}
  logging : LoggingConfig := {}
  metrics : MetricsConfig := {}
  server : ServerConfig := {}
  endpoints : List EndpointConfig := []

/-- IPv4-mapped IPv6 peers must not bypass exact-IP limits and exclusions. -/
def canonicalIp (ip : IpAddr) : IpAddr :=
  match ip with
  | .V6 v6 => ((toIpv4Mapped v6).map IpAddr.V4).getD ip
  | .V4 _ => ip

def bindsConflict (a b : SocketAddr) : Bool :=
  if a.port = 0 ∨ b.port = 0 ∨ a.port ≠ b.port then false
  else
    let ipA := canonicalIp a.ip
    let ipB := canonicalIp b.ip
    if ipA = ipB then true
    else if ipA.isIpv4 = ipB.isIpv4 then ipA.isUnspecified || ipB.isUnspecified
    else
      -- Conservative cross-platform policy for dual-stack wildcard sockets.
      (!ipA.isIpv4 && ipA.isUnspecified) || (!ipB.isIpv4 && ipB.isUnspecified)

/-! ### Validation -/

def ensure (cond : Bool) (msg : String) : Except String Unit :=
  if cond then .ok () else .error msg

def range (name : String) (value min max : Nat) : Except String Unit :=
  ensure (decide (min ≤ value ∧ value ≤ max)) s!"{name} must be in {min}..={max}"

/-- The bytes of a string, as `str::bytes` and `str::len` see them. -/
def bytes (text : String) : List UInt8 := text.toList.flatMap String.utf8EncodeChar

def asciiAlphanumeric (b : UInt8) : Bool :=
  (48 ≤ b && b ≤ 57) || (65 ≤ b && b ≤ 90) || (97 ≤ b && b ≤ 122)

def identifierByte (b : UInt8) : Bool := asciiAlphanumeric b || b == 46 || b == 95 || b == 45

def identifier (name value : String) : Except String Unit :=
  ensure (value ≠ "" && decide ((bytes value).length ≤ 64) && (bytes value).all identifierByte)
    s!"{name} must be 1..64 ASCII letters, digits, '.', '_' or '-'"

/-- Unicode category Cc. -/
def isControl (c : Char) : Bool := c.toNat < 0x20 || (0x7f ≤ c.toNat && c.toNat ≤ 0x9f)

def safeText (name value : String) (max : Nat) : Except String Unit :=
  ensure (!(decide (max < (bytes value).length) || value.toList.any isControl))
    s!"{name} must be at most {max} bytes and contain no control characters"

def printableByte (b : UInt8) : Bool := 0x20 ≤ b && b ≤ 0x7e

def validateSensor (sensor : SensorConfig) : Except String Unit := do
  identifier "sensor.id" sensor.id
  identifier "sensor.environment" sensor.environment
  ensure (decide (sensor.tags.entries.length ≤ 8)) "sensor.tags allows at most 8 entries"
  sensor.tags.entries.forM fun tag => do
    identifier "sensor tag key" tag.1
    safeText "sensor tag value" tag.2 128

/-- The duplicate check runs over canonical addresses; `ignored` is the hash
set of those already seen. -/
def validateIgnored : List IpAddr → List IpAddr → Except String Unit
  | _, [] => .ok ()
  | ignored, ip :: rest => do
      ensure (canonicalIp ip ∉ ignored) s!"duplicate ignored IP: {ip.show}"
      validateIgnored (canonicalIp ip :: ignored) rest

def validateServer (s : ServerConfig) : Except String Unit := do
  range "server.max_concurrent_sessions" s.maxConcurrentSessions 1 4096
  range "server.session_timeout_seconds" s.sessionTimeoutSeconds 1 300
  range "server.max_session_duration_seconds" s.maxSessionDurationSeconds 1 3600
  range "server.shutdown_grace_seconds" s.shutdownGraceSeconds 1 60
  range "server.rate_limit_per_ip_per_min" s.rateLimitPerIpPerMin 0 10000
  range "server.max_tracked_ips" s.maxTrackedIps 1 65536
  range "server.max_bytes_per_session" s.maxBytesPerSession 0 65536
  range "server.max_read_bytes_per_session" s.maxReadBytesPerSession 1 16777216
  ensure (decide (s.maxBytesPerSession ≤ s.maxReadBytesPerSession))
    "preview limit must not exceed the total read limit"
  ensure (decide (s.maxTrackedIps * s.rateLimitPerIpPerMin ≤ 1000000))
    "rate-limit history budget exceeds 1,000,000 timestamps"
  ensure (decide (s.ignoreSourceIps.length ≤ 256))
    "ignore_source_ips allows at most 256 addresses"
  validateIgnored [] s.ignoreSourceIps

def validateLogging (s : ServerConfig) (l : LoggingConfig) : Except String Unit := do
  ensure (!l.output.toList.contains (Char.ofNat 0)) "logging.output contains a NUL byte"
  range "logging.buffer_size" l.bufferSize 1 4096
  range "logging.max_file_bytes" l.maxFileBytes 1048576 1073741824
  range "logging.max_files" l.maxFiles 1 20
  range "logging.write_timeout_seconds" l.writeTimeoutSeconds 1 30
  let estimatedRecordBytes := 65536 + 3 * s.maxBytesPerSession
  ensure (decide (estimatedRecordBytes * l.bufferSize ≤ 268435456))
    "logging queue budget exceeds 256 MiB; reduce buffer_size or preview size"

def validateMetrics (m : MetricsConfig) : Except String Unit := do
  range "metrics.max_connections" m.maxConnections 1 256
  range "metrics.request_timeout_seconds" m.requestTimeoutSeconds 1 30
  ensure (!m.enabled || m.bind.ip.isLoopback || m.allowRemote)
    "non-loopback metrics requires allow_remote = true and a management firewall"

def validateBanner (ep : EndpointConfig) (banner : String) : Except String Unit := do
  ensure (decide ((bytes banner).length ≤ 4096)) "endpoint banner exceeds 4096 bytes"
  ensure (ep.protocol ≠ .Http) "HTTP does not use endpoint.banner"
  if ep.protocol = .Ssh then
    ensure (decide ((bytes banner).length ≤ 253)) "SSH banner exceeds 253 bytes before CRLF"
    ensure ("SSH-2.0-".toList.isPrefixOf banner.toList || "SSH-1.99-".toList.isPrefixOf banner.toList)
      "SSH banner must start with SSH-2.0- or SSH-1.99-"
    ensure ((bytes banner).all printableByte) "SSH banner must be printable ASCII without CR/LF"

def validateServerHeader (ep : EndpointConfig) (header : String) : Except String Unit := do
  ensure (ep.protocol = .Http) "server_header is HTTP-only"
  ensure (header ≠ "" && decide ((bytes header).length ≤ 256) && (bytes header).all printableByte)
    "server_header must be 1..256 printable ASCII bytes without CR/LF"

def validateStatus (ep : EndpointConfig) (status : UInt16) : Except String Unit := do
  ensure (ep.protocol = .Http) "http_status is HTTP-only"
  ensure (decide (200 ≤ status ∧ status ≤ 599)) "http_status must be a final status in 200..599"

def validatePrompt (ep : EndpointConfig) (prompt : String) : Except String Unit := do
  ensure (ep.protocol = .Telnet) "login_prompt is Telnet-only"
  safeText "login_prompt" prompt 128
  ensure (prompt ≠ "") "login_prompt must not be empty"

/-- `names` is the hash set of the explicit names seen so far. -/
def validateName (names : List String) (ep : EndpointConfig) : Except String Unit :=
  if ep.name = "" then .ok ()
  else do
    identifier "endpoint.name" ep.name
    ensure (ep.name ∉ names) s!"duplicate endpoint name: {ep.name}"

/-- `previous` are the endpoints before this one. -/
def validateEndpoint (m : MetricsConfig) (names : List String) (previous : List EndpointConfig)
    (ep : EndpointConfig) : Except String Unit := do
  validateName names ep
  previous.forM fun other =>
    ensure (!bindsConflict ep.bind other.bind)
      s!"overlapping or duplicate endpoint binds: {ep.bind.show} and {other.bind.show}"
  ensure (!m.enabled || !bindsConflict ep.bind m.bind)
    s!"endpoint {ep.bind.show} overlaps the metrics bind"
  ep.banner.forM (validateBanner ep)
  ep.serverHeader.forM (validateServerHeader ep)
  ep.httpStatus.forM (validateStatus ep)
  ep.loginPrompt.forM (validatePrompt ep)

def validateEndpoints (m : MetricsConfig) :
    List String → List EndpointConfig → List EndpointConfig → Except String Unit
  | _, _, [] => .ok ()
  | names, previous, ep :: rest => do
      validateEndpoint m names previous ep
      validateEndpoints m (if ep.name = "" then names else ep.name :: names)
        (previous ++ [ep]) rest

def Config.validate (cfg : Config) : Except String Unit := do
  ensure (!cfg.endpoints.isEmpty) "at least one [[endpoint]] is required"
  range "endpoint count" cfg.endpoints.length 1 32
  validateSensor cfg.sensor
  validateServer cfg.server
  validateLogging cfg.server cfg.logging
  validateMetrics cfg.metrics
  validateEndpoints cfg.metrics [] [] cfg.endpoints

end Minotaur
