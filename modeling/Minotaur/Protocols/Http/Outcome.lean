import Minotaur.Connection
import Minotaur.Protocols.Steady

/-!
The HTTP decoy as a function of the client's bytes. The header block ends at
the first CR LF CR LF, if that comes within 8192 bytes and within the read
budget; the handler answers that block, or says why it has none.
-/

namespace Minotaur.Http

open Future Text

section Outcome

variable (canonicalReason : UInt16 → Option String) (ep : EndpointConfig)

/-! ### The reference -/

def serverName : String := ep.serverHeader.getD "nginx"

/-- The size of the header block, if the handler gets to see all of it. -/
def blockSize (limit : Nat) (stream : List UInt8) : Option Nat :=
  ((position terminator stream).map (· + 4)).filter fun size => size ≤ min maxHeaderBytes limit

def answer (block : List UInt8) : Reply :=
  match parseRequest block with
  | .ok event => ⟨.ServerClosed, [event],
      [response canonicalReason (ep.httpStatus.getD 404) (isHead event) (serverName ep)]⟩
  | .error message => ⟨.ProtocolError, [.Notice message],
      [response canonicalReason 400 false (serverName ep)]⟩

/-- What happens to a stream without a header block. -/
def unterminated (limit : Nat) (terminal : Terminal) (stream : List UInt8) : Reply :=
  if maxHeaderBytes ≤ stream.length ∧ maxHeaderBytes ≤ limit then
    ⟨.ProtocolError, [.Notice "http_headers_too_large"],
      [response canonicalReason 431 false (serverName ep)]⟩
  else if limit ≤ stream.length then { reason := .ByteLimit }
  else
    { reason := terminal.reason
      events := if terminal = .Eof ∧ stream ≠ [] then [.Notice "http_incomplete_headers"] else [] }

/-- The reply to a client that sends `stream` and then ends it so. -/
def reference (limit : Nat) (terminal : Terminal) (stream : List UInt8) : Reply :=
  match blockSize limit stream with
  | some size => answer canonicalReason ep (stream.take size)
  | none => unterminated canonicalReason ep limit terminal stream

/-! ### The handler -/

/-- The reply to the stream that `start` faces. -/
abbrev Answered (start : SessionWorld) : CloseReason → SessionWorld → Prop :=
  Replied start
    (reference canonicalReason ep start.session.inputLimit start.wire.terminal start.wire.incoming)
    (min maxHeaderBytes start.session.inputLimit)

/-- The loop invariant: headers whose end has not been received. -/
structure Collecting (start : SessionWorld) (headers : List UInt8) (world : SessionWorld) :
    Prop where
  serving : Serving start headers [] [] world
  length : headers.length ≤ maxHeaderBytes
  unfinished : ∀ first, position terminator start.wire.incoming = some first →
    headers.length < first + 4

/-- What the loop leaves with: a whole header block, or the end of the session. -/
def Collected (start : SessionWorld) :
    Except CloseReason (List UInt8 × Nat) → SessionWorld → Prop
  | .ok (headers, size), world => Serving start headers [] [] world ∧
      headers.length ≤ maxHeaderBytes ∧ size ≤ headers.length ∧
      blockSize start.session.inputLimit start.wire.incoming = some size
  | .error reason, world => Answered canonicalReason ep start reason world

variable {canonicalReason ep} {start world : SessionWorld} {headers : List UInt8}

theorem answered_of {pushed : List SessionEvent} {sent : List (List UInt8)} {reason : CloseReason}
    (h : Serving start headers pushed sent world) (hlength : headers.length ≤ maxHeaderBytes)
    (hreply : reference canonicalReason ep start.session.inputLimit start.wire.terminal
      start.wire.incoming = ⟨reason, pushed, sent⟩) (hroom : pushed.length ≤ maxEvents) :
    Answered canonicalReason ep start reason world := by
  unfold Answered
  rw [hreply]
  exact h.replied hroom (Nat.le_min.mpr ⟨hlength, h.progress.budget⟩) reason

theorem Collecting.unterminated (h : Collecting start headers world)
    (hend : headers.length = min maxHeaderBytes start.session.inputLimit ∨
      headers = start.wire.incoming) :
    reference canonicalReason ep start.session.inputLimit start.wire.terminal
      start.wire.incoming = Http.unterminated canonicalReason ep start.session.inputLimit
        start.wire.terminal start.wire.incoming := by
  have hsize : blockSize start.session.inputLimit start.wire.incoming = none := by
    unfold blockSize
    rw [Option.filter_eq_none_iff]
    intro size hsome
    obtain ⟨first, hfirst, rfl⟩ := Option.map_eq_some_iff.mp hsome
    have hbefore := h.unfinished first hfirst
    rw [decide_eq_true_eq]
    rcases hend with hend | hend
    · omega
    · have hfits := (position_eq_some hfirst).1.length_le
      have hfour : terminator.length = 4 := rfl
      rw [List.length_drop, hfour, ← hend] at hfits
      omega
  unfold reference
  rw [hsize]

theorem wp_refuse_serving (h : Serving start headers [] [] world) (status : UInt16)
    (server message : String)
    {complete : CloseReason → SessionWorld → Prop}
    (hcomplete : ∀ after, Serving start headers [.Notice message]
      [response canonicalReason status false server] after → complete .ProtocolError after) :
    wp (refuse canonicalReason status server message) complete (fun _ => False) world := by
  unfold refuse
  simp only [wp_bind, wp_onSession]
  have hnoted : Serving start headers [.Notice message] []
      { world with session := world.session.notice message } := h.push rfl rfl
  apply wp_write_serving hnoted
  intro after hafter
  exact hcomplete after hafter

/-- The stream ends before the header block does. -/
theorem wp_ended (h : Collecting start headers world) (hall : headers = start.wire.incoming)
    (hunder : headers.length < start.session.inputLimit)
    (hroom : headers.length < maxHeaderBytes) :
    wp (afterRead headers start.wire.terminal.result)
      (Turn.Leaves (Collecting start) (Collected canonicalReason ep start)) (fun _ => False)
      world := by
  have hreference := @h.unterminated canonicalReason ep _ _ _ (Or.inr hall)
  rw [Http.unterminated, ← hall, if_neg (by omega), if_neg (by omega), hall] at hreference
  have hreply : ∀ pushed after, Serving start headers pushed [] after →
      pushed = (if start.wire.terminal = .Eof ∧ start.wire.incoming ≠ [] then
        [.Notice "http_incomplete_headers"] else []) →
      Answered canonicalReason ep start start.wire.terminal.reason after := by
    rintro pushed after hafter rfl
    apply answered_of hafter h.length hreference
    split_ifs <;> decide
  rw [← hall] at hreply
  by_cases hterminal : start.wire.terminal = .Eof
  · rw [hterminal] at hreply ⊢
    unfold Terminal.result afterRead noticeIncomplete
    by_cases hnone : headers = []
    · rw [if_neg (by simp [hnone])]
      exact hreply [] world h.serving (by simp [hnone])
    · rw [if_pos hnone]
      exact hreply _ _ (h.serving.push rfl rfl) (by simp [hnone])
  · rw [Terminal.result_of_ne hterminal]
    exact hreply [] world h.serving (by simp [hterminal])

/-- More of the stream: the window of the search is enough to find the end of
the block, because it did not end before. -/
theorem position_window {stream buffer rest : List UInt8}
    (hstream : headers ++ buffer ++ rest = stream)
    (hunfinished : ∀ first, position terminator stream = some first → headers.length < first + 4) :
    (∃ offset, position terminator ((headers ++ buffer).drop (headers.length - 3)) = some offset ∧
        position terminator stream = some (headers.length - 3 + offset) ∧
        headers.length - 3 + offset + 4 ≤ (headers ++ buffer).length) ∨
      (position terminator ((headers ++ buffer).drop (headers.length - 3)) = none ∧
        ∀ first, position terminator stream = some first →
          (headers ++ buffer).length < first + 4) := by
  have htake : stream.take (headers ++ buffer).length = headers ++ buffer := by
    rw [← hstream, List.take_left]
  cases hposition : position terminator stream with
  | none =>
      refine Or.inr ⟨?_, nofun⟩
      rw [← htake]
      exact position_drop_take_none hposition _ _
  | some first =>
      have hbefore := hunfinished first hposition
      have hwindow : position terminator ((headers ++ buffer).drop (headers.length - 3)) =
          if first + 4 ≤ (headers ++ buffer).length then some (first - (headers.length - 3))
          else none := by
        conv => lhs; rw [← htake]
        exact position_drop_take hposition (by decide) (by omega) _
      by_cases hfound : first + 4 ≤ (headers ++ buffer).length
      · rw [if_pos hfound] at hwindow
        have hfirst : headers.length - 3 + (first - (headers.length - 3)) = first := by omega
        exact Or.inl ⟨_, hwindow, by rw [hfirst], by omega⟩
      · rw [if_neg hfound] at hwindow
        refine Or.inr ⟨hwindow, ?_⟩
        rintro other hother
        obtain rfl := Option.some.inj hother
        exact Nat.not_le.mp hfound

theorem wp_received (h : Collecting start headers world) {buffer : List UInt8}
    {after : SessionWorld} (hafter : Serving start (headers ++ buffer) [] [] after)
    (hroom : buffer.length ≤ maxHeaderBytes - headers.length) :
    wp (afterRead headers (.ok (some buffer)))
      (Turn.Leaves (Collecting start) (Collected canonicalReason ep start)) (fun _ => False)
      after := by
  have hlength := h.length
  have hwithin : (headers ++ buffer).length ≤ maxHeaderBytes := by
    rw [List.length_append]
    omega
  unfold afterRead
  dsimp only
  obtain ⟨offset, hwindow, hposition, hfits⟩ | ⟨hwindow, hunfinished⟩ :=
    position_window hafter.progress.stream h.unfinished
  · rw [hwindow]
    refine ⟨hafter, hwithin, hfits, ?_⟩
    have hbudget := hafter.progress.budget
    rw [blockSize, hposition, Option.map_some, Option.filter_some, if_pos]
    rw [decide_eq_true_eq]
    omega
  · rw [hwindow]
    exact ⟨hafter, hwithin, hunfinished⟩

theorem wp_turn_collecting (h : Collecting start headers world) :
    wp (turn canonicalReason (serverName ep) headers)
      (Turn.Leaves (Collecting start) (Collected canonicalReason ep start)) (fun _ => False)
      world := by
  have hlength := h.length
  have hbudget := h.serving.progress.budget
  unfold turn
  dsimp only
  split_ifs with hfull
  · rw [wp_bind]
    apply wp_refuse_serving h.serving
    intro after hafter
    have hreference := @h.unterminated canonicalReason ep _ _ _ (Or.inl (by omega))
    have hstream := h.serving.length_le
    rw [Http.unterminated, if_pos ⟨by omega, by omega⟩] at hreference
    exact answered_of hafter hlength hreference (single_le_maxEvents _)
  · rw [wp_bind]
    apply wp_read_serving (by omega) h.serving
    · intro hused
      have hreference := @h.unterminated canonicalReason ep _ _ _ (Or.inl (by omega))
      have hstream := h.serving.length_le
      rw [Http.unterminated, if_neg (by omega), if_pos (by omega)] at hreference
      exact answered_of h.serving hlength hreference (Nat.zero_le _)
    · intro hunder hall
      exact wp_ended h hall hunder (by omega)
    · intro buffer after _ hbuffer hafter
      exact wp_received h hafter (by omega)

theorem wp_respond_serving (h : Serving start headers [] [] world)
    (hlength : headers.length ≤ maxHeaderBytes) {size : Nat} (hsize : size ≤ headers.length)
    (hblock : blockSize start.session.inputLimit start.wire.incoming = some size) :
    wp (respond canonicalReason ep (serverName ep) (headers.take size))
      (Answered canonicalReason ep start) (fun _ => False) world := by
  have hreference : reference canonicalReason ep start.session.inputLimit start.wire.terminal
      start.wire.incoming = answer canonicalReason ep (headers.take size) := by
    unfold reference
    rw [hblock, ← h.received_eq, List.take_take, Nat.min_eq_left hsize]
  unfold answer at hreference
  unfold respond
  cases hparse : parseRequest (headers.take size) with
  | error message =>
      rw [hparse] at hreference
      apply wp_refuse_serving h
      intro after hafter
      exact answered_of hafter hlength hreference (single_le_maxEvents _)
  | ok event =>
      rw [hparse] at hreference
      simp only [wp_bind, wp_onSession]
      have hpushed : Serving start headers [event] []
          { world with session := world.session.pushEvent event } := h.push rfl rfl
      apply wp_write_serving hpushed
      intro after hafter
      exact answered_of hafter hlength hreference (single_le_maxEvents _)

end Outcome

/-- The subtraction at the head of a turn does not underflow. -/
theorem headers_within (canonicalReason : UInt16 → Option String) {server : String}
    {world next : SessionWorld} {headers : List UInt8}
    (hreaches : Reaches (turn canonicalReason server) [] world headers next) :
    headers.length ≤ maxHeaderBytes := by
  apply reaches_invariant (fun headers _ => headers.length ≤ maxHeaderBytes) ?_ hreaches
    (Nat.zero_le _)
  intro headers world _
  apply wp_turn_again
  intro buffer after _ hroom
  exact hroom

theorem wp_handle_answered (canonicalReason : UInt16 → Option String) (ep : EndpointConfig)
    {world : SessionWorld} (hfresh : world.session.Fresh) (hsteady : world.wire.Steady) :
    wp (handle canonicalReason ep) (Answered canonicalReason ep world) (fun _ => False) world := by
  unfold handle
  rw [wp_bind]
  apply wp_loop (decreasing_turn canonicalReason _) (Collecting world)
  · intro headers after hcollecting
    apply wp_weaken (wp_turn_collecting hcollecting)
    intro turn after hturn
    cases turn with
    | again headers => exact hturn
    | exit result =>
        cases result with
        | error reason => exact hturn
        | ok found =>
            obtain ⟨hserving, hlength, hsize, hblock⟩ := hturn
            exact wp_respond_serving hserving hlength hsize hblock
  · refine ⟨Serving.init hfresh hsteady, Nat.zero_le _, ?_⟩
    intro first _
    exact Nat.succ_pos _

/-- The handler is the reference function of the stream. -/
theorem request_outcome (canonicalReason : UInt16 → Option String) (ep : EndpointConfig)
    {world : SessionWorld} (hfresh : world.session.Fresh) (hsteady : world.wire.Steady) :
    (∃ reason after, handle canonicalReason ep world = .done reason after ∧
      Replied world (reference canonicalReason ep world.session.inputLimit world.wire.terminal
        world.wire.incoming) (min maxHeaderBytes world.session.inputLimit) reason after) ∧
    ∀ headers next, Reaches (turn canonicalReason (ep.serverHeader.getD "nginx")) [] world
      headers next → headers.length ≤ maxHeaderBytes := by
  constructor
  · exact wp_completes (wp_handle_answered canonicalReason ep hfresh hsteady)
  · intro headers next hreaches
    exact headers_within canonicalReason hreaches

theorem request_outcome_head :
    let world := (client "HEAD / HTTP/1.0\r\n\r\nbody" none).world (sensorOf .Http) (decoy .Http)
    (∃ reason after, handle (fun _ => some "Not Found") (decoy .Http) world = .done reason after ∧
      Replied world ⟨.ServerClosed, [.HttpRequest "HEAD" "/" "HTTP/1.0" none none],
        [response (fun _ => some "Not Found") 404 true "nginx"]⟩ 8192 reason after) ∧
    ∀ headers next, Reaches (turn (fun _ => some "Not Found") "nginx") [] world headers next →
      headers.length ≤ 8192 :=
  request_outcome (fun _ => some "Not Found") (decoy .Http) ⟨rfl, rfl, rfl, rfl, by decide⟩
    ⟨rfl, nofun⟩

end Minotaur.Http
