import Minotaur.Base.Relational
import Minotaur.Protocols.Raw

/-!
Two sessions that metadata mode cannot tell apart. The clients may have sent
different bytes, as many and in chunks of the same sizes; the sessions agree
in everything but the identifier and the clock readings they were opened with.
Reads, writes and pushes of events with the same redaction keep them alike.
-/

namespace Minotaur

open Future

/-- A session without its identifier and its clock readings. -/
def SessionState.unlabelled (self : SessionState) : SessionState :=
  { self with id := 0, startedAt := 0, ts := 0 }

structure Alike (left right : SessionWorld) : Prop where
  chunks : left.wire.chunks = right.wire.chunks
  terminal : left.wire.terminal = right.wire.terminal
  writes : left.wire.writes = right.wire.writes
  patience : left.wire.patience = right.wire.patience
  unread : left.wire.incoming.length = right.wire.incoming.length
  session : left.session.unlabelled = right.session.unlabelled
  metadata : left.session.privacy.mode = .Metadata

namespace SessionState

theorem unlabelled_recordBytes {self : SessionState} (hmode : self.privacy.mode = .Metadata)
    (bytes : List UInt8) :
    (self.recordBytes bytes).unlabelled =
      { self.unlabelled with
        bytesReceived := min (self.unlabelled.bytesReceived + bytes.length) u64Max } := by
  unfold recordBytes
  dsimp only
  rw [if_neg (by simp [hmode])]
  rfl

theorem unlabelled_pushEvent (self : SessionState) (event : SessionEvent) :
    (self.pushEvent event).unlabelled = self.unlabelled.pushEvent event := by
  unfold pushEvent unlabelled
  dsimp only
  split_ifs <;> rfl

theorem pushEvent_congr {self : SessionState} {event event' : SessionEvent}
    (h : self.privacy.redact event = self.privacy.redact event') :
    self.pushEvent event = self.pushEvent event' := by
  unfold pushEvent
  rw [h]

theorem privacy_recordBytes (self : SessionState) (bytes : List UInt8) :
    (self.recordBytes bytes).privacy = self.privacy := by
  unfold recordBytes
  dsimp only
  split_ifs <;> rfl

theorem privacy_pushEvent (self : SessionState) (event : SessionEvent) :
    (self.pushEvent event).privacy = self.privacy := by
  unfold pushEvent
  split_ifs <;> rfl

end SessionState

namespace Alike

variable {left right : SessionWorld}

theorem remainingInput (h : Alike left right) :
    left.session.remainingInput = right.session.remainingInput := by
  have hremaining := congrArg SessionState.remainingInput h.session
  exact hremaining

theorem privacy (h : Alike left right) : left.session.privacy = right.session.privacy := by
  have hprivacy := congrArg SessionState.privacy h.session
  exact hprivacy

theorem incoming_nil (h : Alike left right) :
    left.wire.incoming = [] ↔ right.wire.incoming = [] := by
  rw [← List.length_eq_zero_iff, ← List.length_eq_zero_iff, h.unread]

/-- Chunks of the same size. -/
theorem receive (h : Alike left right) {bytes bytes' rest rest' : List UInt8} {chunks : List Nat}
    {patience : Option Nat}
    (hlength : bytes.length = bytes'.length) (hrest : rest.length = rest'.length) :
    Alike
      ⟨{ left.wire with incoming := rest, chunks := chunks, patience := patience },
        left.session.recordBytes bytes⟩
      ⟨{ right.wire with incoming := rest', chunks := chunks, patience := patience },
        right.session.recordBytes bytes'⟩ := by
  have hmode : right.session.privacy.mode = .Metadata := by
    rw [← h.privacy]
    exact h.metadata
  refine ⟨rfl, h.terminal, h.writes, rfl, hrest, ?_, ?_⟩
  · change (left.session.recordBytes bytes).unlabelled = (right.session.recordBytes bytes').unlabelled
    rw [SessionState.unlabelled_recordBytes h.metadata, SessionState.unlabelled_recordBytes hmode,
      h.session, hlength]
  · change (left.session.recordBytes bytes).privacy.mode = _
    rw [SessionState.privacy_recordBytes]
    exact h.metadata

/-- Events that the privacy rules map to the same event. -/
theorem pushEvent (h : Alike left right) {event event' : SessionEvent}
    (hredact : left.session.privacy.redact event = left.session.privacy.redact event') :
    Alike ⟨left.wire, left.session.pushEvent event⟩
      ⟨right.wire, right.session.pushEvent event'⟩ := by
  refine ⟨h.chunks, h.terminal, h.writes, h.patience, h.unread, ?_, ?_⟩
  · have hright : right.session.privacy.redact event = right.session.privacy.redact event' := by
      rw [← h.privacy]
      exact hredact
    change (left.session.pushEvent event).unlabelled = (right.session.pushEvent event').unlabelled
    rw [← SessionState.pushEvent_congr hright, SessionState.unlabelled_pushEvent,
      SessionState.unlabelled_pushEvent, h.session]
  · change (left.session.pushEvent event).privacy.mode = _
    rw [SessionState.privacy_pushEvent]
    exact h.metadata

theorem notice (h : Alike left right) (msg : String) :
    Alike ⟨left.wire, left.session.notice msg⟩ ⟨right.wire, right.session.notice msg⟩ :=
  h.pushEvent rfl

end Alike

/-! ### Rules -/

section Rules

variable {left right : SessionWorld}

theorem together_awaiting {α α' : Type} {act : SessionWorld → α × SessionWorld}
    {act' : SessionWorld → α' × SessionWorld} {complete : α → α' → SessionWorld → SessionWorld → Prop}
    (h : Alike left right)
    (hact : ∀ patience, complete
      (act { left with wire := { left.wire with patience := patience } }).1
      (act' { right with wire := { right.wire with patience := patience } }).1
      (act { left with wire := { left.wire with patience := patience } }).2
      (act' { right with wire := { right.wire with patience := patience } }).2) :
    Together complete Alike (awaiting act) (awaiting act') left right := by
  have hpatience := h.patience
  unfold Together awaiting
  rw [← hpatience]
  cases hleft : left.wire.patience with
  | none => simpa [hleft] using hact none
  | some patience =>
      cases patience with
      | zero => simpa [hleft] using h
      | succ patience => simpa [hleft] using hact (some patience)

theorem together_read {bufLen : Nat}
    {complete : Except CloseReason (Option (List UInt8)) →
      Except CloseReason (Option (List UInt8)) → SessionWorld → SessionWorld → Prop}
    (h : Alike left right)
    (hend : ∀ left' right', Alike left' right' → complete (.ok none) (.ok none) left' right')
    (herror : ∀ reason left' right', Alike left' right' →
      complete (.error reason) (.error reason) left' right')
    (hbytes : ∀ bytes bytes' left' right', Alike left' right' → bytes.length = bytes'.length →
      left'.session.privacy = left.session.privacy →
      left.wire.incoming = bytes ++ left'.wire.incoming →
      right.wire.incoming = bytes' ++ right'.wire.incoming →
      complete (.ok (some bytes)) (.ok (some bytes')) left' right') :
    Together complete Alike (read bufLen) (read bufLen) left right := by
  unfold read
  apply together_bind
  rw [together_get, ← h.remainingInput]
  dsimp only
  split_ifs with hnone
  · exact herror .ByteLimit left right h
  · unfold receive
    apply together_awaiting h
    intro patience
    have hterminal := h.terminal
    have hempty := h.incoming_nil
    have hlength := h.unread
    dsimp only
    split_ifs with hleft hright hright
    · rw [← hterminal]
      split
      · exact hend _ _ ⟨h.chunks, rfl, h.writes, rfl, h.unread, h.session, h.metadata⟩
      · exact herror _ _ _ ⟨h.chunks, rfl, h.writes, rfl, h.unread, h.session, h.metadata⟩
      · exact herror _ _ _ ⟨h.chunks, rfl, h.writes, rfl, h.unread, h.session, h.metadata⟩
    · exact absurd (hempty.mp hleft) hright
    · exact absurd (hempty.mpr hright) hleft
    · rw [← h.chunks, ← h.unread]
      apply hbytes
      · exact h.receive (by rw [List.length_take, List.length_take, hlength])
          (by rw [List.length_drop, List.length_drop, hlength])
      · rw [List.length_take, List.length_take, hlength]
      · exact SessionState.privacy_recordBytes _ _
      · exact (List.take_append_drop _ _).symm
      · exact (List.take_append_drop _ _).symm

/-- Both runs send the same message. -/
theorem together_write {message : List UInt8}
    {complete : Except CloseReason PUnit → Except CloseReason PUnit → SessionWorld →
      SessionWorld → Prop}
    (h : Alike left right)
    (hwritten : ∀ result left' right', Alike left' right' →
      left'.wire.incoming = left.wire.incoming → right'.wire.incoming = right.wire.incoming →
      complete result result left' right') :
    Together complete Alike (write message) (write message) left right := by
  unfold write
  apply together_awaiting h
  intro patience
  have hwrites := h.writes
  have htail := congrArg List.tail hwrites
  dsimp only
  rw [← hwrites]
  split
  · exact hwritten _ _ _ ⟨h.chunks, h.terminal, rfl, rfl, h.unread, h.session, h.metadata⟩ rfl rfl
  · exact hwritten _ _ _ ⟨h.chunks, h.terminal, rfl, rfl, h.unread, h.session, h.metadata⟩ rfl rfl
  · exact hwritten _ _ _ ⟨h.chunks, h.terminal, rfl, rfl, h.unread, h.session, h.metadata⟩ rfl rfl

end Rules

/-- Both handlers return the same reason, and the sessions are still alike. -/
def SameEnd (reason reason' : CloseReason) (left right : SessionWorld) : Prop :=
  reason = reason' ∧ Alike left right

theorem together_sendOptional {left right : SessionWorld} (message : Option (List UInt8))
    {complete : Except CloseReason PUnit → Except CloseReason PUnit → SessionWorld →
      SessionWorld → Prop}
    (h : Alike left right)
    (hsent : ∀ result left' right', Alike left' right' →
      left'.wire.incoming = left.wire.incoming → right'.wire.incoming = right.wire.incoming →
      complete result result left' right') :
    Together complete Alike (sendOptional message) (sendOptional message) left right := by
  cases message with
  | none => exact hsent _ _ _ h rfl rfl
  | some message => exact together_write h hsent

/-- The raw decoy looks at no byte. -/
theorem Raw.together_handle {ep : EndpointConfig} {left right : SessionWorld}
    (h : Alike left right) :
    Together SameEnd Alike (Raw.handle ep) (Raw.handle ep) left right := by
  unfold Raw.handle
  apply together_bind
  apply together_sendOptional _ h
  intro result left right h _ _
  cases result with
  | error reason => exact ⟨rfl, h⟩
  | ok value =>
      apply together_loop Raw.decreasing_turn (fun _ _ => Alike) _ h
      intro _ _ left right h
      unfold Raw.turn
      apply together_bind
      apply together_read h
      · intro left right h
        exact ⟨rfl, h⟩
      · intro reason left right h
        exact ⟨rfl, h⟩
      · intro bytes bytes' left right h _ _ _ _
        exact h

end Minotaur
