import Minotaur.Base.Text
import Minotaur.Protocols.Raw

/-!
The HTTP decoy: bounded header capture, a strict parser over the lossily
decoded header block, one fixed response. A `str` is a list of characters
here; where the source looks at its bytes, so does `Utf8.encode`. The reason
phrases come from the HTTP library and are a parameter.
-/

namespace Minotaur.Http

open Future

def maxHeaderBytes : Nat := 8192

def maxHeaderCount : Nat := 64

/-- CR LF CR LF. -/
def terminator : List UInt8 := [13, 10, 13, 10]

/-! ### The request parser -/

def tokenByte (b : UInt8) : Bool := asciiAlphanumeric b || (bytes "!#$%&'*+-.^_`|~").contains b

def targetByte (b : UInt8) : Bool := 0x21 ≤ b && b ≤ 0x7e

theorem targetByte_ascii (b : UInt8) (h : targetByte b = true) : b.toNat < 0x80 := by
  simp only [targetByte, Bool.and_eq_true, decide_eq_true_eq, UInt8.le_iff_toNat_le] at h
  have hle := h.2
  simp only [UInt8.reduceToNat] at hle
  omega

def badValueByte (b : UInt8) : Bool := (b < 0x20 && b != 9) || b == 0x7f

def isSpace (c : Char) : Bool := c == ' ' || c == '\t'

structure HeaderFields where
  host : Option (List Char) := none
  userAgent : Option (List Char) := none
  contentLength : Option Nat := none
  transferEncoding : Bool := false

/-- `value.parse::<u64>()` of a non-empty text of digits. -/
def parseU64 (digits : List Char) : Option Nat :=
  let number := digits.foldl (fun number c => 10 * number + (c.toNat - 48)) 0
  if number ≤ u64Max then some number else none

def hostHeader (fields : HeaderFields) (value : List Char) : Except String HeaderFields :=
  if fields.host.isSome || value = [] || decide (2048 < (Utf8.encode value).length) then
    .error "http_invalid_host"
  else .ok { fields with host := some value }

def userAgentHeader (fields : HeaderFields) (value : List Char) : Except String HeaderFields :=
  if fields.userAgent.isNone then .ok { fields with userAgent := some (value.take 1024) }
  else .ok fields

def contentLengthHeader (fields : HeaderFields) (value : List Char) : Except String HeaderFields :=
  if fields.contentLength.isSome || value = [] ||
      !(Utf8.encode value).all (fun b => 48 ≤ b && b ≤ 57) then
    .error "http_invalid_content_length"
  else match parseU64 value with
    | some number => .ok { fields with contentLength := some number }
    | none => .error "http_invalid_content_length"

def transferEncodingHeader (fields : HeaderFields) (value : List Char) :
    Except String HeaderFields :=
  if fields.transferEncoding || value.map Char.toLower ≠ "chunked".toList then
    .error "http_invalid_transfer_encoding"
  else .ok { fields with transferEncoding := true }

/-- One header line. -/
def parseHeader (fields : HeaderFields) (line : List Char) : Except String HeaderFields :=
  match Text.splitOnce ':' line with
  | none => .error "http_invalid_header"
  | some (name, value) =>
      if name = [] || !(Utf8.encode name).all tokenByte || (Utf8.encode value).any badValueByte then
        .error "http_invalid_header"
      else
        let value := Text.trim isSpace value
        let name := String.ofList (name.map Char.toLower)
        if name = "host" then hostHeader fields value
        else if name = "user-agent" then userAgentHeader fields value
        else if name = "content-length" then contentLengthHeader fields value
        else if name = "transfer-encoding" then transferEncodingHeader fields value
        else .ok fields

/-- The header lines up to the first empty one; `count` of them are read. -/
def parseHeaders : Nat → HeaderFields → List (List Char) → Except String HeaderFields
  | _, fields, [] => .ok fields
  | count, fields, line :: rest =>
      if line = [] then .ok fields
      else if maxHeaderCount ≤ count then .error "http_too_many_headers"
      else do
        let fields ← parseHeader fields line
        parseHeaders (count + 1) fields rest

structure RequestLine where
  method : List Char
  path : List Char
  version : List Char

/-- Method, target and version, each of them checked. -/
def checkRequestLine (line : RequestLine) (extra : List (List Char)) :
    Except String RequestLine := do
  ensure (extra = [] && line.method ≠ [] &&
      decide ((Utf8.encode line.method).length ≤ 32) && (Utf8.encode line.method).all tokenByte)
    "http_invalid_request_line"
  ensure (line.version = "HTTP/1.0".toList || line.version = "HTTP/1.1".toList)
    "http_unsupported_version"
  ensure (line.path ≠ [] &&
      (line.path.head? = some '/' || (line.method = "OPTIONS".toList && line.path = ['*'])) &&
      (Utf8.encode line.path).all targetByte)
    "http_invalid_target"
  pure line

def parseRequestLine (line : List Char) : Except String RequestLine :=
  match line.splitOn ' ' with
  | [] => .error "http_missing_method"
  | [_] => .error "http_missing_target"
  | [_, _] => .error "http_missing_version"
  | method :: path :: version :: extra => checkRequestLine ⟨method, path, version⟩ extra

def checkFields (line : RequestLine) (fields : HeaderFields) : Except String Unit := do
  ensure (!(line.version = "HTTP/1.1".toList && fields.host.isNone)) "http_missing_host"
  ensure (!(fields.transferEncoding && fields.contentLength.isSome)) "http_ambiguous_framing"

def requestEvent (line : RequestLine) (fields : HeaderFields) : SessionEvent :=
  .HttpRequest (String.ofList line.method) (String.ofList line.path) (String.ofList line.version)
    (fields.host.map String.ofList) (fields.userAgent.map String.ofList)

def parseText (text : List Char) : Except String SessionEvent :=
  match Text.splitPair '\r' '\n' text with
  | [] => .error "http_missing_request_line"
  | first :: lines => do
      let line ← parseRequestLine first
      let fields ← parseHeaders 0 {} lines
      checkFields line fields
      pure (requestEvent line fields)

def parseRequest (block : List UInt8) : Except String SessionEvent :=
  if terminator <:+ block then parseText (Utf8.lossy block) else .error "http_incomplete_headers"

/-! ### The response -/

def response (canonicalReason : UInt16 → Option String) (status : UInt16) (head : Bool)
    (server : String) : List UInt8 :=
  let reason := (canonicalReason status).getD "Unknown"
  let status' := toString status.toNat
  let noBodyStatus := status = 204 || status = 205 || status = 304
  let body := if noBodyStatus then "" else status' ++ " " ++ reason ++ "\n"
  let headers := "HTTP/1.1 " ++ status' ++ " " ++ reason ++ "\r\nServer: " ++ server ++
    "\r\nContent-Type: text/plain; charset=utf-8\r\nConnection: close\r\n"
  let headers := if status = 204 || status = 304 then headers
    else headers ++ "Content-Length: " ++ toString (bytes body).length ++ "\r\n"
  let headers := if status = 401 then
      headers ++ "WWW-Authenticate: Basic realm=\"Administration\"\r\n" else headers
  let headers := headers ++ "\r\n"
  bytes (if head then headers else headers ++ body)

/-! ### The handler -/

section Handler

variable (canonicalReason : UInt16 → Option String)

/-- A notice, an error response, and the reason to close. -/
def refuse (status : UInt16) (server message : String) : SessionIo CloseReason := do
  onSession (·.notice message)
  match ← write (response canonicalReason status false server) with
  | .ok _ => pure .ProtocolError
  | .error reason => pure reason

def noticeIncomplete (headers : List UInt8) : SessionIo PUnit :=
  if headers ≠ [] then onSession (·.notice "http_incomplete_headers") else pure ⟨⟩

/-- What a turn does with the outcome of its read. -/
def afterRead (headers : List UInt8) :
    Except CloseReason (Option (List UInt8)) →
      SessionIo (Turn (List UInt8) (Except CloseReason (List UInt8 × Nat)))
  | .ok none => do
      noticeIncomplete headers
      pure (.exit (.error .ClientClosed))
  | .ok (some buffer) =>
      let scanFrom := headers.length - 3
      let headers := headers ++ buffer
      match Text.position terminator (headers.drop scanFrom) with
      | some offset => pure (.exit (.ok (headers, scanFrom + offset + 4)))
      | none => pure (.again headers)
  | .error reason => pure (.exit (.error reason))

/-- Reads headers until the terminator: the bytes read and where it ends. -/
def turn (server : String) (headers : List UInt8) :
    SessionIo (Turn (List UInt8) (Except CloseReason (List UInt8 × Nat))) :=
  let remaining := maxHeaderBytes - headers.length
  if remaining = 0 then do
    let reason ← refuse canonicalReason 431 server "http_headers_too_large"
    pure (.exit (.error reason))
  else read (min remaining 2048) >>= afterRead headers

def isHead : SessionEvent → Bool
  | .HttpRequest method _ _ _ _ => method = "HEAD"
  | _ => false

def respond (ep : EndpointConfig) (server : String) (block : List UInt8) :
    SessionIo CloseReason := do
  match parseRequest block with
  | .error message => refuse canonicalReason 400 server message
  | .ok event => do
      onSession (·.pushEvent event)
      match ← write (response canonicalReason (ep.httpStatus.getD 404) (isHead event) server) with
      | .ok _ => pure .ServerClosed
      | .error reason => pure reason

def handle (ep : EndpointConfig) : SessionIo CloseReason := do
  let server := ep.serverHeader.getD "nginx"
  match ← loop unread (turn canonicalReason server) [] with
  | .error reason => pure reason
  | .ok (headers, headerEnd) => respond canonicalReason ep server (headers.take headerEnd)

variable {canonicalReason} in
/-- A turn that goes round again has read more, and no more than there is room
for. -/
theorem wp_turn_again {server : String} {headers : List UInt8} {world : SessionWorld}
    {again : List UInt8 → SessionWorld → Prop}
    (hmore : ∀ buffer after, unread after < unread world →
      (headers ++ buffer).length ≤ maxHeaderBytes → again (headers ++ buffer) after) :
    wp (turn canonicalReason server headers) (Turn.Leaves again (fun _ _ => True))
      (fun _ => True) world := by
  unfold turn
  dsimp only
  split_ifs
  · unfold refuse
    simp only [wp_bind, wp_onSession]
    apply wp_write trivial
    rintro result wire _ (rfl | rfl | rfl) <;> trivial
  · rw [wp_bind]
    apply wp_read trivial
    · intro patience
      unfold afterRead noticeIncomplete
      split_ifs <;> trivial
    · intro reason patience _
      trivial
    · intro buffer rest chunks patience hnonempty hbuffer _ hincoming
      have hroom : (headers ++ buffer).length ≤ maxHeaderBytes := by
        rw [List.length_append]
        omega
      unfold afterRead
      dsimp only
      cases Text.position terminator ((headers ++ buffer).drop (headers.length - 3)) with
      | some offset => trivial
      | none => exact hmore _ _ (length_lt_of_read hnonempty hincoming) hroom

theorem decreasing_turn (server : String) : Decreasing unread (turn canonicalReason server) := by
  apply decreasing_of_wp
  intro headers world
  apply wp_turn_again
  intro buffer after hless _
  exact hless

end Handler

end Minotaur.Http
