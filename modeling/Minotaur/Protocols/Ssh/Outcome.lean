import Minotaur.Base.Text
import Minotaur.Connection
import Minotaur.Protocols.Steady

/-!
The SSH decoy as a function of the client's bytes. The first LF decides, if it
comes within the first 255 bytes and within the read budget; `reference` says
what follows from the line before it, or from there being none.
-/

namespace Minotaur.Ssh

open Future

/-! ### The reference -/

/-- One of the two protocol versions, then software that does not start with a
space, all printable. -/
def Identification (line : List UInt8) : Prop :=
  (∃ software, (line = bytes "SSH-2.0-" ++ software ∨ line = bytes "SSH-1.99-" ++ software) ∧
    software ≠ [] ∧ software.head? ≠ some 32) ∧ line.all printableByte = true

theorem stripPrefix_eq_some {start line software : List UInt8} :
    stripPrefix start line = some software ↔ line = start ++ software := by
  unfold stripPrefix
  split_ifs with hprefix
  · obtain ⟨rest, rfl⟩ := List.isPrefixOf_iff_prefix.mp hprefix
    rw [List.drop_left, Option.some.injEq, List.append_cancel_left_eq]
  · simp only [false_iff]
    rintro rfl
    exact hprefix (List.isPrefixOf_iff_prefix.mpr (List.prefix_append _ _))

theorem validIdentification_iff (line : List UInt8) :
    validIdentification line = true ↔ Identification line := by
  have hexclusive : ∀ software, stripPrefix (bytes "SSH-2.0-") (bytes "SSH-1.99-" ++ software) =
      none := by
    intro software
    rfl
  unfold validIdentification Identification
  rw [Bool.and_eq_true, Option.any_eq_true]
  apply and_congr_left
  intro _
  simp only [Bool.and_eq_true, decide_eq_true_eq]
  apply exists_congr
  intro software
  apply and_congr_left
  intro _
  constructor
  · intro hor
    rcases Option.or_eq_some_iff.mp hor with hnew | ⟨_, hold⟩
    · exact Or.inl (stripPrefix_eq_some.mp hnew)
    · exact Or.inr (stripPrefix_eq_some.mp hold)
  · rintro (hnew | rfl)
    · rw [stripPrefix_eq_some.mpr hnew, Option.some_or]
    · rw [hexclusive, Option.none_or, stripPrefix_eq_some.mpr rfl]

instance : DecidablePred Identification :=
  fun line => decidable_of_iff _ (validIdentification_iff line)

/-- The index of the first LF, if the handler gets to see it. -/
def lineEnd (limit : Nat) (stream : List UInt8) : Option Nat :=
  (stream.idxOf? 10).filter fun index => index ≤ 254 ∧ index < limit

/-- What happens to a stream without a line end. -/
def unidentified (limit : Nat) (terminal : Terminal) (stream : List UInt8) :
    CloseReason × List SessionEvent :=
  if 255 ≤ stream.length ∧ 255 ≤ limit then
    (.ProtocolError, [.Notice "ssh_identification_too_long"])
  else if limit ≤ stream.length then (.ByteLimit, [])
  else (terminal.reason,
    if terminal = .Eof ∧ stream ≠ [] then [.Notice "ssh_incomplete_identification"] else [])

def identify (limit : Nat) (terminal : Terminal) (stream : List UInt8) :
    CloseReason × List SessionEvent :=
  match lineEnd limit stream with
  | some index =>
      let line := stripLast 13 (stream.take index)
      if Identification line then
        (if limit ≤ stream.length then .ByteLimit else terminal.reason, [bannerEvent line])
      else (.ProtocolError, [.Notice "ssh_invalid_identification"])
  | none => unidentified limit terminal stream

/-- The reply to a client that sends `stream` and then ends it so. -/
def reference (ep : EndpointConfig) (limit : Nat) (terminal : Terminal) (stream : List UInt8) :
    Reply where
  reason := (identify limit terminal stream).1
  events := (identify limit terminal stream).2
  sent := [greeting ep]

theorem length_identify_le (limit : Nat) (terminal : Terminal) (stream : List UInt8) :
    (identify limit terminal stream).2.length ≤ 1 := by
  unfold identify unidentified
  cases lineEnd limit stream with
  | some index => dsimp only; split_ifs <;> exact Nat.le_refl 1
  | none => dsimp only; split_ifs <;> simp

/-! ### The handler -/

theorem lineEnd_append {limit : Nat} {first : List UInt8} (hfirst : 10 ∉ first)
    (hshort : first.length ≤ 254) (hlimit : first.length < limit) (rest : List UInt8) :
    lineEnd limit (first ++ 10 :: rest) = some first.length := by
  unfold lineEnd
  rw [Text.idxOf?_append_cons hfirst, Option.filter_some, if_pos (by simp [hshort, hlimit])]

theorem lineEnd_eq_none {limit : Nat} {first rest : List UInt8} (hfirst : 10 ∉ first)
    (hfar : 254 < first.length ∨ limit ≤ first.length ∨ rest = []) :
    lineEnd limit (first ++ rest) = none := by
  unfold lineEnd
  rw [Option.filter_eq_none_iff]
  intro index hindex
  have hle := Text.le_of_idxOf? hfirst hindex
  obtain ⟨hbound, _⟩ := List.idxOf?_eq_some_iff.mp hindex
  rw [List.length_append] at hbound
  simp only [decide_eq_true_eq, not_and, Nat.not_lt]
  rcases hfar with hfar | hfar | rfl
  · omega
  · omega
  · rw [List.length_nil] at hbound
    omega

variable {ep : EndpointConfig} {start : SessionWorld}

/-- The reply to the stream that `start` faces. -/
abbrev Answered (ep : EndpointConfig) (start : SessionWorld) : CloseReason → SessionWorld → Prop :=
  Replied start (reference ep start.session.inputLimit start.wire.terminal start.wire.incoming)
    start.session.inputLimit

/-- The line ends where the client's first LF is. -/
theorem identify_line {limit : Nat} {terminal : Terminal} {stream first rest : List UInt8}
    (hfirst : 10 ∉ first) (hshort : first.length ≤ 254) (hlimit : first.length < limit)
    (hstream : first ++ 10 :: rest = stream) :
    identify limit terminal stream =
      if Identification (stripLast 13 first) then
        (if limit ≤ stream.length then .ByteLimit else terminal.reason,
          [bannerEvent (stripLast 13 first)])
      else (.ProtocolError, [.Notice "ssh_invalid_identification"]) := by
  subst hstream
  unfold identify
  rw [lineEnd_append hfirst hshort hlimit]
  dsimp only
  rw [List.take_left]

theorem identificationLine_append (line : List UInt8) :
    identificationLine (line ++ [10]) = stripLast 13 line := by
  simp [identificationLine, stripLast]

theorem identify_none {limit : Nat} (terminal : Terminal) {stream first rest : List UInt8}
    (hfirst : 10 ∉ first) (hfar : 254 < first.length ∨ limit ≤ first.length ∨ rest = [])
    (hstream : first ++ rest = stream) :
    identify limit terminal stream = unidentified limit terminal stream := by
  subst hstream
  unfold identify
  rw [lineEnd_eq_none hfirst hfar]

/-- The loop invariant: a line without its end yet, or a line recorded. -/
def Heard (ep : EndpointConfig) (start : SessionWorld) (locals : List UInt8 × Bool)
    (world : SessionWorld) : Prop :=
  (locals.2 = false ∧ 10 ∉ locals.1 ∧ locals.1.length ≤ 254 ∧
    Serving start locals.1 [] [greeting ep] world) ∨
  (locals.2 = true ∧ ∃ received line,
    Serving start received [bannerEvent line] [greeting ep] world ∧
    identify start.session.inputLimit start.wire.terminal start.wire.incoming =
      (if start.session.inputLimit ≤ start.wire.incoming.length then .ByteLimit
        else start.wire.terminal.reason, [bannerEvent line]))

theorem answered_of {received : List UInt8} {pushed : List SessionEvent} {world : SessionWorld}
    {reason : CloseReason} (h : Serving start received pushed [greeting ep] world)
    (hidentify : identify start.session.inputLimit start.wire.terminal start.wire.incoming =
      (reason, pushed)) (hroom : pushed.length ≤ maxEvents) : Answered ep start reason world := by
  unfold Answered reference
  rw [hidentify]
  exact h.replied hroom h.progress.budget reason

/-- Scanning the part of the received bytes that comes after `identification`. -/
theorem wp_scan_heard {received : List UInt8} {world : SessionWorld}
    (h : Serving start received [] [greeting ep] world) (identification buffer : List UInt8)
    (hreceived : identification ++ buffer = received) (hline : 10 ∉ identification)
    (hshort : identification.length ≤ 254) :
    wp (scan identification buffer) (Turn.Leaves (Heard ep start) (Answered ep start))
      (fun _ => False) world := by
  induction buffer generalizing identification with
  | nil =>
      rw [List.append_nil] at hreceived
      subst hreceived
      exact Or.inl ⟨rfl, hline, hshort, h⟩
  | cons byte rest ih =>
      have hbudget := h.progress.budget
      have hstream := h.progress.stream
      rw [← hreceived, List.append_assoc] at hstream
      rw [← hreceived, List.length_append, List.length_cons] at hbudget
      unfold scan
      dsimp only
      split_ifs with hend hvalid hlong
      · subst hend
        rw [identificationLine_append] at hvalid ⊢
        have hidentify := @identify_line start.session.inputLimit start.wire.terminal _ _ _
          hline hshort (by omega) hstream
        rw [if_pos ((validIdentification_iff _).mp hvalid)] at hidentify
        exact Or.inr ⟨rfl, received, stripLast 13 identification, h.push rfl rfl, hidentify⟩
      · subst hend
        rw [identificationLine_append] at hvalid
        have hidentify := @identify_line start.session.inputLimit start.wire.terminal _ _ _ hline
          hshort (by omega) hstream
        rw [if_neg (fun hline => hvalid ((validIdentification_iff _).mpr hline))] at hidentify
        exact answered_of (h.push rfl rfl) hidentify (single_le_maxEvents _)
      · have hnoEnd : 10 ∉ identification ++ [byte] := by simp [hline, Ne.symm hend]
        rw [List.length_append, List.length_singleton] at hlong
        have hlimit : maxIdentificationBytes = 255 := rfl
        have hcut : identification ++ [byte] ++ (rest ++ world.wire.incoming) =
            start.wire.incoming := by simpa using hstream
        have hidentify := @identify_none start.session.inputLimit start.wire.terminal _ _ _ hnoEnd
          (Or.inl (by rw [List.length_append, List.length_singleton]; omega)) hcut
        have hlength := congrArg List.length hstream
        simp only [List.length_append, List.length_cons] at hlength
        unfold unidentified at hidentify
        rw [if_pos ⟨by omega, by omega⟩] at hidentify
        exact answered_of (h.push rfl rfl) hidentify (single_le_maxEvents _)
      · rw [List.length_append, List.length_singleton] at hlong
        have hlimit : maxIdentificationBytes = 255 := rfl
        apply ih
        · simpa using hreceived
        · simp [hline, Ne.symm hend]
        · rw [List.length_append, List.length_singleton]
          omega

/-- The stream ends before the line does. -/
theorem wp_ended {line : List UInt8} {world : SessionWorld}
    (h : Serving start line [] [greeting ep] world) (hall : line = start.wire.incoming)
    (hidentify : identify start.session.inputLimit start.wire.terminal start.wire.incoming =
      (start.wire.terminal.reason, if start.wire.terminal = .Eof ∧ start.wire.incoming ≠ [] then
        [.Notice "ssh_incomplete_identification"] else [])) :
    wp (afterRead (line, false) start.wire.terminal.result)
      (Turn.Leaves (Heard ep start) (Answered ep start)) (fun _ => False) world := by
  have hreply : ∀ pushed after, Serving start line pushed [greeting ep] after →
      pushed = (if start.wire.terminal = .Eof ∧ line ≠ [] then
        [.Notice "ssh_incomplete_identification"] else []) →
      Answered ep start start.wire.terminal.reason after := by
    rintro pushed after hafter rfl
    rw [← hall] at hidentify
    apply answered_of hafter (hall ▸ hidentify)
    split_ifs <;> decide
  by_cases hterminal : start.wire.terminal = .Eof
  · rw [hterminal] at hreply ⊢
    unfold Terminal.result afterRead noticeIncomplete
    by_cases hline : line = []
    · rw [if_neg (by simp [hline])]
      exact hreply [] world h (by simp [hline])
    · rw [if_pos (by simp [hline])]
      exact hreply _ _ (h.push rfl rfl) (by simp [hline])
  · rw [Terminal.result_of_ne hterminal]
    exact hreply [] world h (by simp [hterminal])

theorem wp_turn_heard {locals : List UInt8 × Bool} {world : SessionWorld}
    (h : Heard ep start locals world) :
    wp (turn locals) (Turn.Leaves (Heard ep start) (Answered ep start)) (fun _ => False) world := by
  unfold turn
  rw [wp_bind]
  obtain ⟨line, identified⟩ := locals
  rcases h with ⟨hflag, hline, hshort, h⟩ | ⟨hflag, received, first, h, hidentify⟩
  · obtain rfl : identified = false := hflag
    apply wp_read_serving (by decide) h
    · intro hused
      have hidentify := @identify_none start.session.inputLimit start.wire.terminal _ _ _ hline
        (Or.inr (Or.inl (by omega))) h.progress.stream
      rw [unidentified, if_neg (by omega), if_pos (hused ▸ h.length_le)] at hidentify
      exact answered_of h hidentify (Nat.zero_le _)
    · intro hunder hall
      have hidentify := @identify_none start.session.inputLimit start.wire.terminal _ line [] hline
        (Or.inr (Or.inr rfl)) ((List.append_nil line).trans hall)
      rw [unidentified, ← hall, if_neg (by omega), if_neg (by omega), hall] at hidentify
      exact wp_ended h hall hidentify
    · intro buffer after _ _ hafter
      exact wp_scan_heard hafter line buffer rfl hline hshort
  · obtain rfl : identified = true := hflag
    apply wp_read_serving (by decide) h
    · intro hused
      rw [if_pos (hused ▸ h.length_le)] at hidentify
      exact answered_of h hidentify (single_le_maxEvents _)
    · intro hunder hall
      rw [if_neg (by rw [← hall]; omega)] at hidentify
      have hanswered := answered_of h hidentify (single_le_maxEvents _)
      cases hterminal : start.wire.terminal <;> rw [hterminal] at hanswered <;> exact hanswered
    · intro buffer after _ _ hafter
      exact Or.inr ⟨rfl, _, first, hafter, hidentify⟩

theorem wp_handle_answered (ep : EndpointConfig) {world : SessionWorld}
    (hfresh : world.session.Fresh) (hsteady : world.wire.Steady) :
    wp (handle ep) (Answered ep world) (fun _ => False) world := by
  unfold handle
  rw [wp_bind]
  apply wp_write_serving (Serving.init hfresh hsteady)
  intro greeted hgreeted
  apply wp_loop decreasing_turn (Heard ep world)
  · intro locals after hheard
    exact wp_turn_heard hheard
  · exact Or.inl ⟨rfl, List.not_mem_nil, Nat.zero_le _, hgreeted⟩

/-- The handler is the reference function of the stream. -/
theorem identification_outcome (ep : EndpointConfig) {world : SessionWorld}
    (hfresh : world.session.Fresh) (hsteady : world.wire.Steady) :
    ∃ reason after, handle ep world = .done reason after ∧
      Replied world
        (reference ep world.session.inputLimit world.wire.terminal world.wire.incoming)
        world.session.inputLimit reason after ∧
      after.session.events.length ≤ 1 := by
  apply wp_completes
  apply wp_weaken (wp_handle_answered ep hfresh hsteady)
  intro reason after hafter
  refine ⟨hafter, ?_⟩
  rw [hafter.events, List.length_map]
  exact length_identify_le _ _ _

theorem identification_outcome_openssh :
    let world := (client "SSH-2.0-OpenSSH_9.9\r\n" none).world (sensorOf .Ssh) (decoy .Ssh)
    ∃ reason after, handle (decoy .Ssh) world = .done reason after ∧
      Replied world ⟨.ClientClosed, [.SshClientBanner "SSH-2.0-OpenSSH_9.9"],
        [bytes "SSH-2.0-OpenSSH_9.6\r\n"]⟩ 65536 reason after ∧
      after.session.events.length ≤ 1 :=
  identification_outcome (decoy .Ssh) ⟨rfl, rfl, rfl, rfl, by decide⟩ ⟨rfl, nofun⟩

end Minotaur.Ssh
