import Minotaur.Protocols.Raw
import Minotaur.Session.Capture

/-!
What a handler has done so far: the bytes it received are a prefix of the
client's stream within the read budget, and its session is the one captured
from them and from the events pushed. Reads, writes and pushes each move this
record on; a handler's invariant adds which events those are.
-/

namespace Minotaur

open Future

structure Progress (start : SessionState) (stream received : List UInt8)
    (pushed : List SessionEvent) (world : SessionWorld) : Prop where
  fresh : start.Fresh
  session : world.session = start.capture received pushed
  stream : received ++ world.wire.incoming = stream
  budget : received.length ≤ start.inputLimit

namespace Progress

variable {start : SessionState} {stream received : List UInt8} {pushed : List SessionEvent}
  {world : SessionWorld}

theorem init (hfresh : world.session.Fresh) :
    Progress world.session world.wire.incoming [] [] world :=
  ⟨hfresh, (SessionState.capture_nil hfresh).symm, rfl, Nat.zero_le _⟩

/-- Neither the client's bytes nor the session changed. -/
theorem frame {after : SessionWorld} (h : Progress start stream received pushed world)
    (hsession : after.session = world.session)
    (hincoming : after.wire.incoming = world.wire.incoming) :
    Progress start stream received pushed after :=
  ⟨h.fresh, hsession ▸ h.session, hincoming ▸ h.stream, h.budget⟩

theorem push {after : SessionWorld} (h : Progress start stream received pushed world)
    {event : SessionEvent} (hsession : after.session = world.session.pushEvent event)
    (hincoming : after.wire.incoming = world.wire.incoming) :
    Progress start stream received (pushed ++ [event]) after := by
  refine ⟨h.fresh, ?_, hincoming ▸ h.stream, h.budget⟩
  rw [hsession, h.session, SessionState.capture_pushEvent]

theorem quiet (h : Progress start stream received pushed world) :
    Progress start stream received (pushed ++ []) world := by
  rw [List.append_nil]
  exact h

theorem bytesReceived (h : Progress start stream received pushed world) :
    world.session.bytesReceived = received.length := by
  rw [h.session, (SessionState.capture_bytesReceived h.fresh received pushed).1]
  exact Nat.min_eq_left (Nat.le_trans h.budget h.fresh.inputLimit)

theorem remainingInput (h : Progress start stream received pushed world) :
    world.session.remainingInput = start.inputLimit - received.length := by
  rw [h.session, SessionState.capture_remainingInput h.fresh]
  have hlimit := h.fresh.inputLimit
  have hbudget := h.budget
  omega

theorem receive {after : SessionWorld} (h : Progress start stream received pushed world)
    {bytes : List UInt8} (hsession : after.session = world.session.recordBytes bytes)
    (hincoming : world.wire.incoming = bytes ++ after.wire.incoming)
    (hremaining : bytes.length ≤ world.session.remainingInput) :
    Progress start stream (received ++ bytes) pushed after := by
  refine ⟨h.fresh, ?_, ?_, ?_⟩
  · rw [hsession, h.session, SessionState.capture_recordBytes]
  · rw [List.append_assoc, ← hincoming]
    exact h.stream
  · rw [h.remainingInput] at hremaining
    have hbudget := h.budget
    rw [List.length_append]
    omega

end Progress

/-- A session that ended with at most four events, all of them fitting. -/
def Recorded (start : SessionState) (stream : List UInt8) (world : SessionWorld) : Prop :=
  ∃ received pushed, Progress start stream received pushed world ∧ pushed.length ≤ 4 ∧
    ∀ event ∈ pushed, event.Fits

theorem Progress.recorded {start : SessionState} {stream received : List UInt8}
    {pushed : List SessionEvent} {world : SessionWorld}
    (h : Progress start stream received pushed world) (hcount : pushed.length ≤ 4)
    (hfits : ∀ event ∈ pushed, event.Fits) : Recorded start stream world :=
  ⟨received, pushed, h, hcount, hfits⟩

theorem Progress.recorded_nil {start : SessionState} {stream received : List UInt8}
    {world : SessionWorld} (h : Progress start stream received [] world) :
    Recorded start stream world := h.recorded (Nat.zero_le _) (by simp)

theorem Progress.recorded_notice {start : SessionState} {stream received : List UInt8}
    {world after : SessionWorld} (h : Progress start stream received [] world) {msg : String}
    (hmsg : msg ∈ notices) (hsession : after.session = world.session.notice msg)
    (hincoming : after.wire.incoming = world.wire.incoming) : Recorded start stream after := by
  apply (h.push hsession hincoming).recorded (by simp)
  intro event hevent
  obtain rfl : event = .Notice msg := by simpa using hevent
  exact hmsg

namespace Raw

theorem wp_loop {start : SessionState} {stream received : List UInt8} {world : SessionWorld}
    (h : Progress start stream received [] world) :
    wp (loop unread turn ⟨⟩) (fun _ => Recorded start stream) (Recorded start stream) world := by
  apply Future.wp_loop decreasing_turn
    (fun _ world => ∃ received, Progress start stream received [] world) ?_ ⟨received, h⟩
  intro locals world hinv
  obtain ⟨received, h⟩ := hinv
  unfold turn
  rw [wp_bind]
  apply wp_read h.recorded_nil
  · intro patience
    exact Progress.recorded_nil (h.frame rfl rfl)
  · intro reason patience _
    exact Progress.recorded_nil (h.frame rfl rfl)
  · intro buffer rest chunks patience _ _ hremaining hincoming
    exact ⟨_, h.receive rfl hincoming hremaining⟩

theorem wp_sendOptional {start : SessionState} {stream received : List UInt8}
    {pushed : List SessionEvent} {world : SessionWorld} (message : Option (List UInt8))
    {complete : Except CloseReason PUnit → SessionWorld → Prop} {drop : SessionWorld → Prop}
    (h : Progress start stream received pushed world) (hdrop : drop world)
    (hsent : ∀ result after, Progress start stream received pushed after →
      (result = .ok ⟨⟩ → after.wire.sent = world.wire.sent ++ message.toList) →
      complete result after) :
    wp (sendOptional message) complete drop world := by
  cases message with
  | none => exact hsent _ _ h fun _ => (List.append_nil _).symm
  | some message =>
      apply wp_write_sent hdrop
      intro result wire hincoming hresult
      have hafter : Progress start stream received pushed ⟨wire, world.session⟩ :=
        h.frame rfl hincoming
      apply hsent _ _ hafter
      rintro rfl
      simpa using hresult

theorem wp_handle {ep : EndpointConfig} {start : SessionState} {stream received : List UInt8}
    {world : SessionWorld} (h : Progress start stream received [] world) :
    wp (handle ep) (fun _ => Recorded start stream) (Recorded start stream) world := by
  unfold handle
  rw [wp_bind]
  apply wp_sendOptional _ h h.recorded_nil
  intro result after hafter _
  cases result with
  | error reason => exact hafter.recorded_nil
  | ok value => exact wp_loop hafter

end Raw

end Minotaur
