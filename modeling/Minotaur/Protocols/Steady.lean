import Minotaur.Protocols.Progress

/-!
Sessions nobody interferes with: the supervisor waits for the handler and every
write goes through. What such a handler does is a function of the client's
bytes, and does not depend on how they are cut into reads. `Reply` is the value
of that function; `Replied` says that a handler gave it.
-/

namespace Minotaur

open Future

structure Wire.Steady (wire : Wire) : Prop where
  patience : wire.patience = none
  writes : ∀ result ∈ wire.writes, result = .Sent

/-- How a session ends when the client sends no more. -/
def Terminal.reason : Terminal → CloseReason
  | .Eof => .ClientClosed
  | .Timeout => .Timeout
  | .Error => .Error

/-- What a read returns then. -/
def Terminal.result : Terminal → Except CloseReason (Option (List UInt8))
  | .Eof => .ok none
  | .Timeout => .error .Timeout
  | .Error => .error .Error

theorem Terminal.result_of_ne {terminal : Terminal} (hnot : terminal ≠ .Eof) :
    terminal.result = .error terminal.reason := by
  cases terminal with
  | Eof => exact absurd rfl hnot
  | Timeout => rfl
  | Error => rfl

/-- Why a session closes, the events it records and the messages it sends. -/
structure Reply where
  reason : CloseReason
  events : List SessionEvent := []
  sent : List (List UInt8) := []
deriving DecidableEq, Repr

/-- The handler that started in `start` gave `reply`, having read at most
`bound` bytes. -/
structure Replied (start : SessionWorld) (reply : Reply) (bound : Nat) (reason : CloseReason)
    (after : SessionWorld) : Prop where
  reason : reason = reply.reason
  events : after.session.events = reply.events.map start.session.privacy.redact
  sent : after.wire.sent = start.wire.sent ++ reply.sent
  received : after.session.bytesReceived ≤ bound
  stream : after.wire.incoming = start.wire.incoming.drop after.session.bytesReceived

/-- A session so far, in which nothing was dropped and every write was sent. -/
structure Serving (start : SessionWorld) (received : List UInt8) (pushed : List SessionEvent)
    (sent : List (List UInt8)) (world : SessionWorld) : Prop where
  progress : Progress start.session start.wire.incoming received pushed world
  steady : world.wire.Steady
  terminal : world.wire.terminal = start.wire.terminal
  sent : world.wire.sent = start.wire.sent ++ sent

theorem single_le_maxEvents (event : SessionEvent) : [event].length ≤ maxEvents := by
  unfold maxEvents
  simp

namespace Serving

variable {start : SessionWorld} {received : List UInt8} {pushed : List SessionEvent}
  {sent : List (List UInt8)} {world : SessionWorld}

theorem init (hfresh : start.session.Fresh) (hsteady : start.wire.Steady) :
    Serving start [] [] [] start :=
  ⟨Progress.init hfresh, hsteady, rfl, (List.append_nil _).symm⟩

theorem push {after : SessionWorld} (h : Serving start received pushed sent world)
    {event : SessionEvent} (hsession : after.session = world.session.pushEvent event)
    (hwire : after.wire = world.wire) : Serving start received (pushed ++ [event]) sent after := by
  refine ⟨h.progress.push hsession (congrArg Wire.incoming hwire), ?_, ?_, ?_⟩
  · exact hwire ▸ h.steady
  · exact hwire ▸ h.terminal
  · exact hwire ▸ h.sent

theorem frame {after : SessionWorld} (h : Serving start received pushed sent world)
    (hsession : after.session = world.session) (hwire : after.wire = world.wire) :
    Serving start received pushed sent after := by
  refine ⟨h.progress.frame hsession (congrArg Wire.incoming hwire), ?_, ?_, ?_⟩
  · exact hwire ▸ h.steady
  · exact hwire ▸ h.terminal
  · exact hwire ▸ h.sent

/-- What was received is the start of the stream. -/
theorem received_eq (h : Serving start received pushed sent world) :
    start.wire.incoming.take received.length = received := by
  rw [← h.progress.stream, List.take_left]

theorem length_le (h : Serving start received pushed sent world) :
    received.length ≤ start.wire.incoming.length := by
  rw [← h.progress.stream, List.length_append]
  exact Nat.le_add_right _ _

theorem replied (h : Serving start received pushed sent world) (hroom : pushed.length ≤ maxEvents)
    {bound : Nat} (hbound : received.length ≤ bound) (reason : CloseReason) :
    Replied start ⟨reason, pushed, sent⟩ bound reason world := by
  have hbudget := h.progress.budget
  have hlimit := h.progress.fresh.inputLimit
  have hsession := h.progress.session
  rw [SessionState.capture_eq h.progress.fresh received hroom,
    Nat.min_eq_left (Nat.le_trans hbudget hlimit)] at hsession
  constructor
  · rfl
  · rw [hsession]
  · exact h.sent
  · rw [hsession]
    exact hbound
  · rw [hsession, ← h.progress.stream, List.drop_left]

end Serving

/-! ### Reads and writes -/

section Rules

variable {start : SessionWorld} {received : List UInt8} {pushed : List SessionEvent}
  {sent : List (List UInt8)} {world : SessionWorld}

theorem wp_awaiting_steady {α : Type} {act : SessionWorld → α × SessionWorld}
    {complete : α → SessionWorld → Prop} {drop : SessionWorld → Prop}
    (hpatience : world.wire.patience = none) :
    wp (awaiting act) complete drop world ↔ complete (act world).1 (act world).2 := by
  obtain ⟨⟨incoming, chunks, terminal, writes, patience, sent⟩, session⟩ := world
  obtain rfl : patience = none := hpatience
  exact Iff.rfl

/-- A read finds the budget used up, the end of the stream or more of it. -/
theorem wp_read_serving {bufLen : Nat} (hpos : 0 < bufLen)
    (h : Serving start received pushed sent world)
    {complete : Except CloseReason (Option (List UInt8)) → SessionWorld → Prop}
    (hbudget : received.length = start.session.inputLimit → complete (.error .ByteLimit) world)
    (hend : received.length < start.session.inputLimit → received = start.wire.incoming →
      complete start.wire.terminal.result world)
    (hbytes : ∀ buffer after, buffer ≠ [] → buffer.length ≤ bufLen →
      Serving start (received ++ buffer) pushed sent after → complete (.ok (some buffer)) after) :
    wp (read bufLen) complete (fun _ => False) world := by
  have hremaining := h.progress.remainingInput
  have hle := h.progress.budget
  unfold read
  simp only [wp_bind, wp_get]
  split_ifs with hnone
  · apply hbudget
    omega
  · unfold receive
    rw [wp_awaiting_steady h.steady.patience]
    split_ifs with hempty
    · have hall := h.progress.stream
      rw [hempty, List.append_nil] at hall
      have hcomplete := hend (by omega) hall
      rw [← h.terminal] at hcomplete
      cases hterminal : world.wire.terminal <;> rw [hterminal] at hcomplete <;> exact hcomplete
    · have hone := chunkSize_pos world.wire.chunks (min world.session.remainingInput bufLen)
        world.wire.incoming.length
      have hmost := chunkSize_le (Nat.pos_of_ne_zero hnone) world.wire.chunks
        world.wire.incoming.length
      have hwaiting := List.length_pos_iff.mpr hempty
      apply hbytes
      · apply List.ne_nil_of_length_pos
        rw [List.length_take]
        omega
      · rw [List.length_take]
        omega
      · refine ⟨h.progress.receive rfl (List.take_append_drop _ _).symm ?_, ?_, h.terminal, h.sent⟩
        · rw [List.length_take]
          omega
        · exact ⟨h.steady.patience, h.steady.writes⟩

theorem wp_write_serving {message : List UInt8} (h : Serving start received pushed sent world)
    {complete : Except CloseReason PUnit → SessionWorld → Prop}
    (hsent : ∀ after, Serving start received pushed (sent ++ [message]) after →
      complete (.ok ⟨⟩) after) :
    wp (write message) complete (fun _ => False) world := by
  have hnext : world.wire.writes.headD .Sent = .Sent := by
    cases hwrites : world.wire.writes with
    | nil => rfl
    | cons result rest => exact h.steady.writes result (hwrites ▸ List.mem_cons_self)
  unfold write
  rw [wp_awaiting_steady h.steady.patience, hnext]
  apply hsent
  constructor
  · exact h.progress.frame rfl rfl
  · exact ⟨h.steady.patience,
      fun result hresult => h.steady.writes result (List.mem_of_mem_tail hresult)⟩
  · exact h.terminal
  · change world.wire.sent ++ [message] = start.wire.sent ++ (sent ++ [message])
    rw [h.sent, List.append_assoc]

end Rules

end Minotaur
