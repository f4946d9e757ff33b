import Minotaur.Protocols.Raw

/-!
The Telnet decoy. The decoder strips negotiation byte by byte, `consume` is
the line reader's decision about one data byte, and `pump` empties the pending
bytes through both. The reader is a local of the handler, so the loop of
`read_line` carries it.
-/

namespace Minotaur.Telnet

open Future

def maxLine : Nat := 256

def maxAttempts : Nat := 3

inductive DecodeState where
  | Data
  | Iac
  | Option
  | Subnegotiation
  | SubnegotiationIac
deriving DecidableEq, Repr

structure TelnetDecoder where
  state : DecodeState := .Data
deriving DecidableEq, Repr

/-- The next decoder and the data byte, if there is one. -/
def TelnetDecoder.feed (decoder : TelnetDecoder) (byte : UInt8) : TelnetDecoder × Option UInt8 :=
  match decoder.state with
  | .Data => if byte = 255 then (⟨.Iac⟩, none) else (⟨.Data⟩, some byte)
  | .Iac =>
      if byte = 255 then (⟨.Data⟩, some 255)
      else if 251 ≤ byte ∧ byte ≤ 254 then (⟨.Option⟩, none)
      else if byte = 250 then (⟨.Subnegotiation⟩, none)
      else (⟨.Data⟩, none)
  | .Option => (⟨.Data⟩, none)
  | .Subnegotiation =>
      if byte = 255 then (⟨.SubnegotiationIac⟩, none) else (⟨.Subnegotiation⟩, none)
  | .SubnegotiationIac =>
      if byte = 240 then (⟨.Data⟩, none) else (⟨.Subnegotiation⟩, none)

/-! ### The line reader -/

structure LineReader where
  pending : List UInt8 := []
  decoder : TelnetDecoder := {}
  line : List UInt8 := []
  pendingCr : Bool := false

/-- `none` stands for the line that is too long. -/
def append (line : List UInt8) (byte : UInt8) : Option (List UInt8) :=
  if maxLine ≤ line.length then none else some (line ++ [byte])

/-- What a data byte does to the line. -/
inductive Consumed where
  | complete (line : List UInt8)
  | more (line : List UInt8) (pendingCr : Bool)
  | tooLong

def consumeByte (line : List UInt8) (byte : UInt8) : Consumed :=
  if byte = 13 then .more line true
  else if byte = 10 then .complete line
  else match append line byte with
    | some line => .more line false
    | none => .tooLong

def consume (line : List UInt8) (pendingCr : Bool) (byte : UInt8) : Consumed :=
  if pendingCr then
    if byte = 10 then .complete line
    else match append line 13 with
      | some line => if byte = 0 then .more line false else consumeByte line byte
      | none => .tooLong
  else consumeByte line byte

/-- What the pending bytes give: a line and the reader after it, an empty
queue, or a line that is too long. -/
inductive Pumped where
  | complete (line : List UInt8) (reader : LineReader)
  | drained (reader : LineReader)
  | tooLong

def pump (decoder : TelnetDecoder) (line : List UInt8) (pendingCr : Bool) : List UInt8 → Pumped
  | [] => .drained ⟨[], decoder, line, pendingCr⟩
  | byte :: pending =>
      match decoder.feed byte with
      | (decoder, none) => pump decoder line pendingCr pending
      | (decoder, some byte) =>
          match consume line pendingCr byte with
          | .complete line => .complete line ⟨pending, decoder, [], false⟩
          | .more line pendingCr => pump decoder line pendingCr pending
          | .tooLong => .tooLong

def noticeIncomplete (reader : LineReader) : SessionIo PUnit :=
  if reader.line ≠ [] || reader.pendingCr then onSession (·.notice "telnet_incomplete_line")
  else pure ⟨⟩

abbrev LineResult := Except CloseReason (Option (List UInt8) × LineReader)

def afterRead (reader : LineReader) :
    Except CloseReason (Option (List UInt8)) → SessionIo (Turn LineReader LineResult)
  | .ok none => do
      noticeIncomplete reader
      pure (.exit (.ok (none, reader)))
  | .ok (some buffer) => pure (.again { reader with pending := reader.pending ++ buffer })
  | .error reason => pure (.exit (.error reason))

def turn (reader : LineReader) : SessionIo (Turn LineReader LineResult) :=
  match pump reader.decoder reader.line reader.pendingCr reader.pending with
  | .complete line reader => pure (.exit (.ok (some line, reader)))
  | .tooLong => do
      onSession (·.notice "telnet_line_too_long")
      pure (.exit (.error .ProtocolError))
  | .drained reader => read 256 >>= afterRead reader

def readLine (reader : LineReader) : SessionIo LineResult := loop unread turn reader

/-! ### The dialogue -/

def loginEvent (username : List UInt8) (password : Option (List UInt8)) : SessionEvent :=
  .TelnetLogin (String.ofList (Utf8.lossy username))
    (password.map fun password => String.ofList (Utf8.lossy password)) false

def login (username : List UInt8) (password : Option (List UInt8)) : SessionIo PUnit :=
  onSession (·.pushEvent (loginEvent username password))

def afterPassword (username : List UInt8) (next : LineReader → SessionIo CloseReason) :
    LineResult → SessionIo CloseReason
  | .ok (some password, reader) => do
      login username (some password)
      match ← write (bytes "Login incorrect\r\n") with
      | .error reason => pure reason
      | .ok _ => next reader
  | .ok (none, _) => do
      login username none
      pure .ClientClosed
  | .error reason => do
      login username none
      pure reason

/-- The password half of an attempt. -/
def askPassword (username : List UInt8) (reader : LineReader)
    (next : LineReader → SessionIo CloseReason) : SessionIo CloseReason := do
  match ← write (bytes "Password: ") with
  | .error reason => do
      login username none
      pure reason
  | .ok _ => readLine reader >>= afterPassword username next

/-- An empty username spends the attempt without an event. -/
def afterUsername (next : LineReader → SessionIo CloseReason) :
    LineResult → SessionIo CloseReason
  | .ok (some username, reader) =>
      if String.ofList (Utf8.lossy username) = "" then next reader
      else askPassword username reader next
  | .ok (none, _) => pure .ClientClosed
  | .error reason => pure reason

/-- The attempts left; the last of them is followed by the farewell. -/
def attempts (prompt : List UInt8) : Nat → LineReader → SessionIo CloseReason
  | 0, _ => do
      match ← write (bytes "Too many attempts. Disconnecting.\r\n") with
      | .ok _ => pure .ServerClosed
      | .error reason => pure reason
  | left + 1, reader => do
      match ← write prompt with
      | .error reason => pure reason
      | .ok _ => readLine reader >>= afterUsername (attempts prompt left)

def greeting (banner : String) : List UInt8 :=
  bytes (if banner.toList.getLast? = some '\n' then banner else banner ++ "\r\n")

def handle (ep : EndpointConfig) : SessionIo CloseReason := do
  match ← sendOptional (ep.banner.map greeting) with
  | .error reason => pure reason
  | .ok _ => attempts (bytes (ep.loginPrompt.getD "login: ")) maxAttempts {}

@[simp] theorem wp_login {complete : PUnit → SessionWorld → Prop} {drop : SessionWorld → Prop}
    {world : SessionWorld} (username : List UInt8) (password : Option (List UInt8)) :
    wp (login username password) complete drop world ↔
      complete ⟨⟩ ⟨world.wire, world.session.pushEvent (loginEvent username password)⟩ := Iff.rfl

theorem decreasing_turn : Decreasing unread turn := by
  apply decreasing_of_wp
  intro reader world
  unfold turn
  cases pump reader.decoder reader.line reader.pendingCr reader.pending with
  | complete line reader => trivial
  | tooLong => trivial
  | drained reader =>
      rw [wp_bind]
      apply wp_read trivial
      · intro patience
        unfold afterRead noticeIncomplete
        split_ifs <;> trivial
      · intro reason patience _
        trivial
      · intro buffer rest chunks patience hnonempty _ _ hincoming
        exact length_lt_of_read hnonempty hincoming

end Minotaur.Telnet
