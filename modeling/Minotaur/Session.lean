import Minotaur.Base.Utf8
import Minotaur.Config

/-!
The session record and the privacy rules an event passes on its way into it.
Identifiers and times are data the clock and the random source hand in: an
instant is a number of nanoseconds, a timestamp one since the Unix epoch.
The derived serialisation is in `Minotaur.Session.Json`.
-/

namespace Minotaur

open Net

def schemaVersion : Nat := 2

def maxEvents : Nat := 16

inductive SessionEvent where
  | SshClientBanner (banner : String)
  | HttpRequest (method path version : String) (host userAgent : Option String)
  | TelnetLogin (username : String) (password : Option String) (credentialsRedacted : Bool)
  | Notice (msg : String)
deriving DecidableEq, Repr

/-- The tag of the derived serialisation and the metric label. -/
def SessionEvent.kind : SessionEvent → String
  | .SshClientBanner _ => "ssh_client_banner"
  | .HttpRequest .. => "http_request"
  | .TelnetLogin .. => "telnet_login"
  | .Notice _ => "notice"

inductive CloseReason where
  | ClientClosed
  | Timeout
  | LifetimeLimit
  | ByteLimit
  | ProtocolError
  | ServerClosed
  | Error
  | Shutdown
deriving DecidableEq, Repr

instance : Fintype CloseReason where
  elems := {.ClientClosed, .Timeout, .LifetimeLimit, .ByteLimit, .ProtocolError, .ServerClosed,
    .Error, .Shutdown}
  complete := by intro reason; cases reason <;> decide

def CloseReason.asStr : CloseReason → String
  | .ClientClosed => "client_closed"
  | .Timeout => "timeout"
  | .LifetimeLimit => "lifetime_limit"
  | .ByteLimit => "byte_limit"
  | .ProtocolError => "protocol_error"
  | .ServerClosed => "server_closed"
  | .Error => "error"
  | .Shutdown => "shutdown"

structure SessionRecord where
  schemaVersion : Nat
  ts : Int
  sessionId : BitVec 128
  sensor : SensorConfig
  endpoint : String
  protocol : String
  src : SocketAddr
  dst : SocketAddr
  dstPort : UInt16
  durationMs : Nat
  bytesReceived : Nat
  payloadCaptured : Bool
  bytesTruncated : Bool
  dataPreviewHex : String
  dataPreviewAscii : String
  privacyMode : PrivacyMode
  events : List SessionEvent
  eventsTruncated : Bool
  closeReason : CloseReason

structure SessionState where
  id : BitVec 128
  protocol : Protocol
  src : SocketAddr
  dst : SocketAddr
  startedAt : Nat
  ts : Int
  bytesReceived : Nat
  events : List SessionEvent
  preview : List UInt8
  previewLimit : Nat
  inputLimit : Nat
  eventsTruncated : Bool
  sensor : SensorConfig
  endpoint : String
  privacy : PrivacyConfig

/-- `hex::encode`. -/
def hexEncode (bytes : List UInt8) : String :=
  String.ofList (bytes.flatMap fun b => [Nat.digitChar (b.toNat / 16), Nat.digitChar (b.toNat % 16)])

def previewChar (b : UInt8) : Char := if printableByte b then Utf8.ascii b else '.'

def asciiPreview (bytes : List UInt8) : String := String.ofList (bytes.map previewChar)

/-- The path without query and fragment. -/
def stripQuery (path : String) : String :=
  String.ofList (path.toList.takeWhile fun c => c != '?' && c != '#')

/-- What `push_event` does to an event before it stores it. -/
def PrivacyConfig.redact (privacy : PrivacyConfig) : SessionEvent → SessionEvent
  | .HttpRequest method path version host userAgent =>
      .HttpRequest method
        (if !privacy.captureHttpPath then "[redacted]"
          else if privacy.mode = .Metadata then stripQuery path else path)
        version
        (if privacy.mode = .Metadata then none else host)
        (if privacy.mode = .Metadata then none else userAgent)
  | .TelnetLogin username password credentialsRedacted =>
      if privacy.mode = .Metadata then
        .TelnetLogin "[redacted]" (password.map fun _ => "[redacted]") true
      else .TelnetLogin username password credentialsRedacted
  | .SshClientBanner banner => .SshClientBanner banner
  | .Notice msg => .Notice msg

namespace SessionState

/-- `SessionState::new` with the identifier and the two clock readings it
takes. -/
def new (id : BitVec 128) (startedAt : Nat) (ts : Int) (ep : EndpointConfig)
    (src dst : SocketAddr) (cfg : Config) : SessionState where
  id := id
  protocol := ep.protocol
  src := src
  dst := dst
  startedAt := startedAt
  ts := ts
  bytesReceived := 0
  events := []
  preview := []
  previewLimit := cfg.server.maxBytesPerSession
  inputLimit := cfg.server.maxReadBytesPerSession
  eventsTruncated := false
  sensor := cfg.sensor
  endpoint := ep.label
  privacy := cfg.privacy

def remainingInput (self : SessionState) : Nat := self.inputLimit - min self.bytesReceived u64Max

def recordBytes (self : SessionState) (bytes : List UInt8) : SessionState :=
  let self := { self with bytesReceived := min (self.bytesReceived + bytes.length) u64Max }
  if self.privacy.mode = .Full then
    let take := min (self.previewLimit - self.preview.length) bytes.length
    { self with preview := self.preview ++ bytes.take take }
  else self

def pushEvent (self : SessionState) (event : SessionEvent) : SessionState :=
  if maxEvents ≤ self.events.length then { self with eventsTruncated := true }
  else { self with events := self.events ++ [self.privacy.redact event] }

def notice (self : SessionState) (msg : String) : SessionState := self.pushEvent (.Notice msg)

/-- `now` is the reading of the clock behind `started_at.elapsed()`. -/
def finalize (self : SessionState) (now : Nat) (closeReason : CloseReason) : SessionRecord :=
  let payloadCaptured := decide (self.privacy.mode = .Full) && decide (0 < self.previewLimit)
  let durationMs := min ((now - self.startedAt) / 1000000) u64Max
  { schemaVersion := schemaVersion
    ts := self.ts
    sessionId := self.id
    sensor := self.sensor
    endpoint := self.endpoint
    protocol := self.protocol.asStr
    src := self.src
    dst := self.dst
    dstPort := self.dst.port
    durationMs := durationMs
    bytesReceived := self.bytesReceived
    payloadCaptured := payloadCaptured
    bytesTruncated := payloadCaptured && decide (self.preview.length < self.bytesReceived)
    dataPreviewHex := hexEncode self.preview
    dataPreviewAscii := asciiPreview self.preview
    privacyMode := self.privacy.mode
    events := self.events
    eventsTruncated := self.eventsTruncated
    closeReason := closeReason }

end SessionState

end Minotaur
