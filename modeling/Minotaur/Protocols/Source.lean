import Minotaur.Base.Relational
import Minotaur.Protocols.Http
import Minotaur.Protocols.Ssh
import Minotaur.Protocols.Telnet

/-!
The handlers take no notice of the peer's address. It is in the session from
the start, no handler reads it, and it comes out as it went in; so a session
with another peer address reads, writes and records the same.
-/

namespace Minotaur

open Future Net

/-- The session of another peer. -/
def SessionState.withSrc (src : SocketAddr) (self : SessionState) : SessionState :=
  { self with src := src }

def SessionWorld.withSrc (src : SocketAddr) (world : SessionWorld) : SessionWorld :=
  { world with session := world.session.withSrc src }

section Operations

variable {src : SocketAddr}

theorem SessionState.withSrc_pushEvent (self : SessionState) (event : SessionEvent) :
    (self.withSrc src).pushEvent event = (self.pushEvent event).withSrc src := by
  unfold pushEvent withSrc
  dsimp only
  split_ifs <;> rfl

theorem SessionState.withSrc_recordBytes (self : SessionState) (bytes : List UInt8) :
    (self.withSrc src).recordBytes bytes = (self.recordBytes bytes).withSrc src := by
  unfold recordBytes withSrc
  dsimp only
  split_ifs <;> rfl

theorem commutes_pushEvent (event : SessionEvent) :
    Commutes (SessionWorld.withSrc src) (onSession (·.pushEvent event)) := by
  apply commutes_modify
  intro world
  simp only [SessionWorld.withSrc, SessionState.withSrc_pushEvent]

theorem commutes_notice (msg : String) :
    Commutes (SessionWorld.withSrc src) (onSession (·.notice msg)) := commutes_pushEvent _

theorem commutes_awaiting {α : Type} {act : SessionWorld → α × SessionWorld}
    (hact : ∀ world, act (world.withSrc src) = ((act world).1, (act world).2.withSrc src)) :
    Commutes (SessionWorld.withSrc src) (awaiting act) := by
  intro world
  unfold awaiting
  cases hpatience : world.wire.patience with
  | none =>
      have hchanged := hact { world with wire := { world.wire with patience := none } }
      simp only [SessionWorld.withSrc, hpatience, Option.map_none] at hchanged ⊢
      rw [hchanged]
      rfl
  | some left =>
      cases left with
      | zero => simp [SessionWorld.withSrc, Outcome.mapWorld, hpatience]
      | succ left =>
          have hchanged := hact { world with wire := { world.wire with patience := some left } }
          simp only [SessionWorld.withSrc, hpatience, Option.map_some, Nat.add_sub_cancel]
            at hchanged ⊢
          rw [hchanged]
          rfl

theorem commutes_read (bufLen : Nat) : Commutes (SessionWorld.withSrc src) (read bufLen) := by
  unfold read
  apply commutes_get
  · intro world
    rfl
  · intro world
    dsimp only
    split_ifs
    · exact commutes_pure _
    · unfold receive
      apply commutes_awaiting
      intro world
      dsimp only [SessionWorld.withSrc]
      split_ifs
      · cases world.wire.terminal <;> rfl
      · simp only [SessionState.withSrc_recordBytes]

theorem commutes_write (message : List UInt8) :
    Commutes (SessionWorld.withSrc src) (write message) := by
  unfold write
  apply commutes_awaiting
  intro world
  dsimp only [SessionWorld.withSrc]
  cases world.wire.writes.headD .Sent <;> rfl

theorem commutes_sendOptional (message : Option (List UInt8)) :
    Commutes (SessionWorld.withSrc src) (sendOptional message) := by
  cases message with
  | none => exact commutes_pure _
  | some message => exact commutes_write message

theorem unread_withSrc (world : SessionWorld) : unread (world.withSrc src) = unread world := rfl

end Operations

/-! ### The decoys -/

section Decoys

variable {src : SocketAddr}

theorem Raw.commutes_handle (ep : EndpointConfig) :
    Commutes (SessionWorld.withSrc src) (Raw.handle ep) := by
  unfold Raw.handle
  apply commutes_bind (commutes_sendOptional _)
  intro result
  cases result with
  | error reason => exact commutes_pure reason
  | ok value =>
      apply commutes_loop unread_withSrc
      intro locals
      unfold Raw.turn
      apply commutes_bind (commutes_read _)
      rintro (reason | _ | buffer) <;> exact commutes_pure _

namespace Ssh

theorem commutes_scan (identification buffer : List UInt8) :
    Commutes (SessionWorld.withSrc src) (scan identification buffer) := by
  induction buffer generalizing identification with
  | nil => exact commutes_pure _
  | cons byte rest ih =>
      unfold scan
      dsimp only
      split_ifs
      · exact commutes_bind (commutes_pushEvent _) fun _ => commutes_pure _
      · exact commutes_bind (commutes_notice _) fun _ => commutes_pure _
      · exact commutes_bind (commutes_notice _) fun _ => commutes_pure _
      · exact ih _

theorem commutes_noticeIncomplete (identification : List UInt8) (identified : Bool) :
    Commutes (SessionWorld.withSrc src) (noticeIncomplete identification identified) := by
  unfold noticeIncomplete
  split_ifs
  · exact commutes_notice _
  · exact commutes_pure _

theorem commutes_turn (locals : List UInt8 × Bool) :
    Commutes (SessionWorld.withSrc src) (turn locals) := by
  apply commutes_bind (commutes_read _)
  rintro (reason | _ | buffer)
  · exact commutes_pure _
  · exact commutes_bind (commutes_noticeIncomplete _ _) fun _ => commutes_pure _
  · unfold afterRead
    dsimp only
    split_ifs
    · exact commutes_pure _
    · exact commutes_scan _ _

theorem commutes_handle (ep : EndpointConfig) :
    Commutes (SessionWorld.withSrc src) (handle ep) := by
  apply commutes_bind (commutes_write _)
  rintro (reason | value)
  · exact commutes_pure reason
  · exact commutes_loop unread_withSrc commutes_turn _

end Ssh

namespace Http

variable (canonicalReason : UInt16 → Option String)

theorem commutes_refuse (status : UInt16) (server message : String) :
    Commutes (SessionWorld.withSrc src) (refuse canonicalReason status server message) := by
  apply commutes_bind (commutes_notice _)
  intro _
  apply commutes_bind (commutes_write _)
  rintro (reason | value) <;> exact commutes_pure _

theorem commutes_noticeIncomplete (headers : List UInt8) :
    Commutes (SessionWorld.withSrc src) (noticeIncomplete headers) := by
  unfold noticeIncomplete
  split_ifs
  · exact commutes_notice _
  · exact commutes_pure _

theorem commutes_turn (server : String) (headers : List UInt8) :
    Commutes (SessionWorld.withSrc src) (turn canonicalReason server headers) := by
  unfold turn
  dsimp only
  split_ifs
  · exact commutes_bind (commutes_refuse canonicalReason _ _ _) fun _ => commutes_pure _
  · apply commutes_bind (commutes_read _)
    rintro (reason | _ | buffer)
    · exact commutes_pure _
    · exact commutes_bind (commutes_noticeIncomplete _) fun _ => commutes_pure _
    · unfold afterRead
      dsimp only
      split <;> exact commutes_pure _

theorem commutes_respond (ep : EndpointConfig) (server : String) (block : List UInt8) :
    Commutes (SessionWorld.withSrc src) (respond canonicalReason ep server block) := by
  unfold respond
  cases parseRequest block with
  | error message => exact commutes_refuse canonicalReason _ _ _
  | ok event =>
      apply commutes_bind (commutes_pushEvent event)
      intro _
      apply commutes_bind (commutes_write _)
      rintro (reason | value) <;> exact commutes_pure _

theorem commutes_handle (ep : EndpointConfig) :
    Commutes (SessionWorld.withSrc src) (handle canonicalReason ep) := by
  apply commutes_bind (commutes_loop unread_withSrc (commutes_turn canonicalReason _) _)
  rintro (reason | ⟨headers, headerEnd⟩)
  · exact commutes_pure reason
  · exact commutes_respond canonicalReason _ _ _

end Http

namespace Telnet

theorem commutes_noticeIncomplete (reader : LineReader) :
    Commutes (SessionWorld.withSrc src) (noticeIncomplete reader) := by
  unfold noticeIncomplete
  split_ifs
  · exact commutes_notice _
  · exact commutes_pure _

theorem commutes_readLine (reader : LineReader) :
    Commutes (SessionWorld.withSrc src) (readLine reader) := by
  apply commutes_loop unread_withSrc
  intro reader
  unfold turn
  split
  · exact commutes_pure _
  · exact commutes_bind (commutes_notice _) fun _ => commutes_pure _
  · apply commutes_bind (commutes_read _)
    rintro (reason | _ | buffer)
    · exact commutes_pure _
    · exact commutes_bind (commutes_noticeIncomplete _) fun _ => commutes_pure _
    · exact commutes_pure _

theorem commutes_login (username : List UInt8) (password : Option (List UInt8)) :
    Commutes (SessionWorld.withSrc src) (login username password) := by
  apply commutes_modify
  intro world
  simp only [SessionWorld.withSrc, SessionState.withSrc_pushEvent]

variable {next : LineReader → SessionIo CloseReason}

theorem commutes_afterPassword (hnext : ∀ reader, Commutes (SessionWorld.withSrc src) (next reader))
    (username : List UInt8) (result : LineResult) :
    Commutes (SessionWorld.withSrc src) (afterPassword username next result) := by
  rcases result with reason | ⟨_ | password, reader⟩
  · exact commutes_bind (commutes_login _ _) fun _ => commutes_pure _
  · exact commutes_bind (commutes_login _ _) fun _ => commutes_pure _
  · apply commutes_bind (commutes_login _ _)
    intro _
    apply commutes_bind (commutes_write _)
    rintro (reason | value)
    · exact commutes_pure reason
    · exact hnext reader

theorem commutes_askPassword (hnext : ∀ reader, Commutes (SessionWorld.withSrc src) (next reader))
    (username : List UInt8) (reader : LineReader) :
    Commutes (SessionWorld.withSrc src) (askPassword username reader next) := by
  apply commutes_bind (commutes_write _)
  rintro (reason | value)
  · exact commutes_bind (commutes_login _ _) fun _ => commutes_pure _
  · exact commutes_bind (commutes_readLine reader) (commutes_afterPassword hnext username)

theorem commutes_afterUsername (hnext : ∀ reader, Commutes (SessionWorld.withSrc src) (next reader))
    (result : LineResult) : Commutes (SessionWorld.withSrc src) (afterUsername next result) := by
  rcases result with reason | ⟨_ | username, reader⟩
  · exact commutes_pure _
  · exact commutes_pure _
  · unfold afterUsername
    dsimp only
    split_ifs
    · exact hnext reader
    · exact commutes_askPassword hnext username reader

theorem commutes_attempts (prompt : List UInt8) (left : Nat) (reader : LineReader) :
    Commutes (SessionWorld.withSrc src) (attempts prompt left reader) := by
  induction left generalizing reader with
  | zero =>
      apply commutes_bind (commutes_write _)
      rintro (reason | value) <;> exact commutes_pure _
  | succ left ih =>
      apply commutes_bind (commutes_write _)
      rintro (reason | value)
      · exact commutes_pure reason
      · exact commutes_bind (commutes_readLine reader) (commutes_afterUsername ih)

theorem commutes_handle (ep : EndpointConfig) :
    Commutes (SessionWorld.withSrc src) (handle ep) := by
  apply commutes_bind (commutes_sendOptional _)
  rintro (reason | value)
  · exact commutes_pure reason
  · exact commutes_attempts _ _ _

end Telnet

end Decoys

end Minotaur
