import Minotaur.Connection
import Minotaur.Protocols.Steady
import Minotaur.Protocols.Telnet.Lines

/-!
The Telnet decoy as a function of the client's bytes. The data within the read
budget are split into lines, and the dialogue takes them as usernames and
passwords in turn; `dialogue` is that conversation, without a reader, a queue or
a decoder.
-/

namespace Minotaur.Telnet

open Future

/-! ### The reference -/

/-- A reason to close and what is noted with it. -/
structure Ending where
  reason : CloseReason
  notices : List SessionEvent := []

def tooLong : Ending := ⟨.ProtocolError, [.Notice "telnet_line_too_long"]⟩

/-- How the client's input ends. -/
def inputEnd (limit : Nat) (terminal : Terminal) (stream : List UInt8) : Ending :=
  if limit ≤ stream.length then ⟨.ByteLimit, []⟩
  else ⟨terminal.reason,
    if terminal = .Eof ∧ ¬ AtLineEnd (dataOf stream) then [.Notice "telnet_incomplete_line"]
    else []⟩

/-- The session closes, with `last` after the notices. -/
def Ending.reply (ending : Ending) (last : List SessionEvent) : Reply where
  reason := ending.reason
  events := ending.notices ++ last

def say (message : List UInt8) (reply : Reply) : Reply :=
  { reply with sent := message :: reply.sent }

def report (event : SessionEvent) (reply : Reply) : Reply :=
  { reply with events := event :: reply.events }

/-- A password is asked for and read from the lines. -/
def askFor (username : List UInt8) (ending : Ending) (next : List (List UInt8) → Reply)
    (lines : List (List UInt8)) : Reply :=
  match nextLine lines with
  | .line password rest =>
      report (loginEvent username (some password)) (say (bytes "Login incorrect\r\n") (next rest))
  | .oversized => tooLong.reply [loginEvent username none]
  | .ended => ending.reply [loginEvent username none]

/-- The attempts left, and then the farewell. -/
def dialogue (prompt : List UInt8) (ending : Ending) : Nat → List (List UInt8) → Reply
  | 0, _ => say (bytes "Too many attempts. Disconnecting.\r\n") { reason := .ServerClosed }
  | left + 1, lines => say prompt
      (match nextLine lines with
      | .line username rest =>
          if username = [] then dialogue prompt ending left rest
          else say (bytes "Password: ")
            (askFor username ending (dialogue prompt ending left) rest)
      | .oversized => tooLong.reply []
      | .ended => ending.reply [])

/-- The reply to a client that sends `stream` and then ends it so. -/
def reference (ep : EndpointConfig) (limit : Nat) (terminal : Terminal) (stream : List UInt8) :
    Reply :=
  let talk := dialogue (bytes (ep.loginPrompt.getD "login: ")) (inputEnd limit terminal stream)
    maxAttempts (nvtLines (dataOf (stream.take limit)))
  match ep.banner with
  | some banner => say (greeting banner) talk
  | none => talk

/-! ### The bytes to come -/

variable {start world : SessionWorld} {received : List UInt8} {pushed : List SessionEvent}
  {sent : List (List UInt8)} {lines : List (List UInt8)} {reader : LineReader}

/-- What the handler can still receive. -/
def coming (start : SessionWorld) (received : List UInt8) : List UInt8 :=
  (start.wire.incoming.take start.session.inputLimit).drop received.length

theorem received_append_coming (h : Serving start received pushed sent world) :
    received ++ coming start received = start.wire.incoming.take start.session.inputLimit := by
  have hstart : (start.wire.incoming.take start.session.inputLimit).take received.length =
      received := by
    rw [List.take_take, Nat.min_eq_left h.progress.budget, h.received_eq]
  unfold coming
  conv => lhs; lhs; rw [← hstart]
  exact List.take_append_drop _ _

theorem coming_append {buffer : List UInt8} {after : SessionWorld}
    (h : Serving start received pushed sent world)
    (hafter : Serving start (received ++ buffer) pushed sent after) :
    coming start received = buffer ++ coming start (received ++ buffer) := by
  have hboth := (received_append_coming h).trans (received_append_coming hafter).symm
  rw [List.append_assoc] at hboth
  exact List.append_cancel_left hboth

theorem coming_eq_nil (hend : start.session.inputLimit ≤ received.length ∨
    start.wire.incoming.length ≤ received.length) : coming start received = [] := by
  unfold coming
  apply List.drop_eq_nil_of_le
  rw [List.length_take]
  omega

/-- The reader has these lines to find, of all that was and will be received. -/
def Facing (start : SessionWorld) (reader : LineReader) (lines : List (List UInt8))
    (pushed : List SessionEvent) (sent : List (List UInt8)) (world : SessionWorld) : Prop :=
  ∃ processed, Serving start (processed ++ reader.pending) pushed sent world ∧
    reader.At processed (coming start (processed ++ reader.pending)) lines

/-- The session is about to end so. -/
def Ends (start : SessionWorld) (ending : Ending) (pushed : List SessionEvent)
    (sent : List (List UInt8)) (result : LineResult) (world : SessionWorld) : Prop :=
  (result = .error ending.reason ∨
    (∃ reader, result = .ok (none, reader)) ∧ ending.reason = .ClientClosed) ∧
  ∃ received, Serving start received (pushed ++ ending.notices) sent world

/-- How the client's input ends. -/
def ending (start : SessionWorld) : Ending :=
  inputEnd start.session.inputLimit start.wire.terminal start.wire.incoming

/-- What `read_line` returns, in terms of the lines. -/
def NextRead (start : SessionWorld) (lines : List (List UInt8)) (pushed : List SessionEvent)
    (sent : List (List UInt8)) (result : LineResult) (world : SessionWorld) : Prop :=
  match nextLine lines with
  | .line content rest => ∃ reader, result = .ok (some content, reader) ∧
      Facing start reader rest pushed sent world
  | .oversized => Ends start tooLong pushed sent result world
  | .ended => Ends start (ending start) pushed sent result world

/-! ### Reading a line -/

/-- The input is at its end: the reader has the last line. -/
theorem LineReader.At.nextLine_ended {processed : List UInt8}
    (h : reader.At processed (coming start processed) lines)
    (hempty : reader.pending = [])
    (hend : start.session.inputLimit ≤ processed.length ∨
      start.wire.incoming.length ≤ processed.length) : nextLine lines = .ended := by
  have hlines := h.lines
  have hshort := h.short
  rw [hempty, coming_eq_nil hend] at hlines
  change resume _ _ [] = _ at hlines
  rw [resume_end] at hlines
  rw [← hlines, nextLine, if_neg (by omega)]

/-- The client sends no more. -/
theorem wp_ended (h : Serving start received pushed sent world)
    (hmidway : (reader.line ≠ [] ∨ reader.pendingCr = true) ↔
      ¬ AtLineEnd (dataOf start.wire.incoming))
    (hunder : start.wire.incoming.length < start.session.inputLimit) :
    wp (afterRead reader start.wire.terminal.result)
      (Turn.Leaves (fun _ _ => False) (Ends start (ending start) pushed sent)) (fun _ => False)
      world := by
  have hending : ∀ result after notices, Serving start received (pushed ++ notices) sent after →
      notices = (if start.wire.terminal = .Eof ∧ ¬ AtLineEnd (dataOf start.wire.incoming) then
        [.Notice "telnet_incomplete_line"] else []) →
      (result = .error start.wire.terminal.reason ∨
        (∃ reader, result = .ok (none, reader)) ∧ start.wire.terminal.reason = .ClientClosed) →
      Ends start (ending start) pushed sent result after := by
    rintro result after notices hafter rfl hresult
    rw [ending, inputEnd, if_neg (by omega)]
    exact ⟨hresult, received, hafter⟩
  by_cases hterminal : start.wire.terminal = .Eof
  · rw [hterminal] at hending ⊢
    unfold Terminal.result afterRead noticeIncomplete
    by_cases hopen : reader.line ≠ [] ∨ reader.pendingCr = true
    · have hdata := hmidway.mp hopen
      rw [if_pos (by simpa using hopen)]
      exact hending _ _ _ (h.push rfl rfl) (by simp [hdata]) (Or.inr ⟨⟨reader, rfl⟩, rfl⟩)
    · have hdata := not_not.mp (mt hmidway.mpr hopen)
      rw [if_neg (by simpa using hopen)]
      exact hending _ _ [] (by simpa using h) (by simp [hdata]) (Or.inr ⟨⟨reader, rfl⟩, rfl⟩)
  · rw [Terminal.result_of_ne hterminal]
    exact hending _ _ [] (by simpa using h) (by simp [hterminal]) (Or.inl rfl)

theorem wp_turn_facing (h : Facing start reader lines pushed sent world) :
    wp (turn reader)
      (Turn.Leaves (fun reader => Facing start reader lines pushed sent)
        (NextRead start lines pushed sent))
      (fun _ => False) world := by
  obtain ⟨processed, hserving, hat⟩ := h
  have hgives := pump_gives hat
  unfold turn
  cases hpump : pump reader.decoder reader.line reader.pendingCr reader.pending with
  | complete line after =>
      rw [hpump] at hgives
      obtain ⟨rest, used, rfl, hrest, hshort, hused, hafter⟩ := hgives
      dsimp only
      simp only [wp_pure, Turn.Leaves, NextRead, nextLine_cons hshort hrest]
      refine ⟨after, rfl, processed ++ used, ?_, ?_⟩
      · rw [List.append_assoc, hused]
        exact hserving
      · rw [List.append_assoc, hused]
        exact hafter
  | tooLong =>
      rw [hpump] at hgives
      obtain ⟨line, rest, rfl, hlong⟩ := hgives
      have hended : Ends start tooLong pushed sent (.error .ProtocolError)
          { world with session := world.session.notice "telnet_line_too_long" } :=
        ⟨Or.inl rfl, _, hserving.push rfl rfl⟩
      simp only [wp_bind, wp_onSession, wp_pure, Turn.Leaves, NextRead, nextLine_long hlong]
      exact hended
  | drained after =>
      rw [hpump] at hgives
      obtain ⟨hempty, hafter⟩ := hgives
      dsimp only
      rw [wp_bind]
      apply wp_read_serving (by decide) hserving
      · intro hused
        have hend := hafter.nextLine_ended hempty (Or.inl (Nat.le_of_eq hused.symm))
        have hlimit := hserving.length_le
        simp only [afterRead, wp_pure, Turn.Leaves, NextRead, hend]
        refine ⟨Or.inl ?_, processed ++ reader.pending, ?_⟩
        · rw [ending, inputEnd, if_pos (by omega)]
        · rw [ending, inputEnd, if_pos (by omega), List.append_nil]
          exact hserving
      · intro hunder hall
        have hend := hafter.nextLine_ended hempty (Or.inr (Nat.le_of_eq (by rw [hall])))
        rw [hall] at hafter hunder
        apply wp_weaken (wp_ended hserving hafter.midway (by omega))
        intro turn next hturn
        cases turn with
        | again other => exact hturn.elim
        | exit result =>
            simp only [Turn.Leaves, NextRead, hend]
            exact hturn
      · intro buffer next _ _ hnext
        refine ⟨processed ++ reader.pending, ?_, ?_⟩
        · rw [hempty]
          exact hnext
        · obtain ⟨hdecoder, hshort, hmidway, hlines⟩ := hafter
          rw [hempty, List.nil_append, coming_append hserving hnext] at hlines
          refine ⟨hdecoder, hshort, hmidway, ?_⟩
          rw [hempty, List.nil_append]
          exact hlines

theorem wp_readLine_facing (h : Facing start reader lines pushed sent world) :
    wp (readLine reader) (NextRead start lines pushed sent) (fun _ => False) world := by
  apply wp_loop decreasing_turn (fun reader => Facing start reader lines pushed sent) ?_ h
  intro reader world hfacing
  exact wp_turn_facing hfacing

/-! ### The dialogue -/

/-- The session ends with `reply`, after what was pushed and sent before. -/
def Concludes (start : SessionWorld) (pushed : List SessionEvent) (sent : List (List UInt8))
    (reply : Reply) (reason : CloseReason) (world : SessionWorld) : Prop :=
  reason = reply.reason ∧
    ∃ received, Serving start received (pushed ++ reply.events) (sent ++ reply.sent) world

theorem concludes_say (message : List UInt8) (reply : Reply) :
    Concludes start pushed sent (say message reply) =
      Concludes start pushed (sent ++ [message]) reply := by
  funext reason world
  unfold Concludes say
  dsimp only
  rw [List.append_assoc, List.singleton_append]

theorem concludes_report (event : SessionEvent) (reply : Reply) :
    Concludes start pushed sent (report event reply) =
      Concludes start (pushed ++ [event]) sent reply := by
  funext reason world
  unfold Concludes report
  dsimp only
  rw [List.append_assoc, List.singleton_append]

/-- The rest of the handler does what `next` says of the lines. -/
def Follows (start : SessionWorld) (handler : LineReader → SessionIo CloseReason)
    (next : List (List UInt8) → Reply) : Prop :=
  ∀ reader lines pushed sent world, Facing start reader lines pushed sent world →
    wp (handler reader) (Concludes start pushed sent (next lines)) (fun _ => False) world

variable {username : List UInt8} {next : LineReader → SessionIo CloseReason}
  {reply : List (List UInt8) → Reply} {result : LineResult}

theorem wp_afterPassword_ends {last : Ending} (h : Ends start last pushed sent result world) :
    wp (afterPassword username next result)
      (Concludes start pushed sent (last.reply [loginEvent username none])) (fun _ => False)
      world := by
  obtain ⟨hresult, received, hserving⟩ := h
  have hlogged : ∀ reason, reason = last.reason →
      Concludes start pushed sent (last.reply [loginEvent username none]) reason
        ⟨world.wire, world.session.pushEvent (loginEvent username none)⟩ := by
    intro reason hreason
    refine ⟨hreason, received, ?_⟩
    rw [Ending.reply, ← List.append_assoc, List.append_nil]
    exact hserving.push rfl rfl
  rcases hresult with rfl | ⟨⟨reader, rfl⟩, hclosed⟩
  · unfold afterPassword
    simp only [wp_bind, wp_login, wp_pure]
    exact hlogged _ rfl
  · unfold afterPassword
    simp only [wp_bind, wp_login, wp_pure]
    exact hlogged _ hclosed.symm

theorem wp_afterPassword_follows (hnext : Follows start next reply)
    (h : NextRead start lines pushed sent result world) :
    wp (afterPassword username next result)
      (Concludes start pushed sent (askFor username (ending start) reply lines)) (fun _ => False)
      world := by
  unfold NextRead at h
  unfold askFor
  cases hline : nextLine lines with
  | oversized =>
      rw [hline] at h
      exact wp_afterPassword_ends h
  | ended =>
      rw [hline] at h
      exact wp_afterPassword_ends h
  | line password rest =>
      rw [hline] at h
      obtain ⟨reader, rfl, processed, hserving, hat⟩ := h
      have hlogged : Serving start (processed ++ reader.pending)
          (pushed ++ [loginEvent username (some password)]) sent
          ⟨world.wire, world.session.pushEvent (loginEvent username (some password))⟩ :=
        hserving.push rfl rfl
      unfold afterPassword
      simp only [wp_bind, wp_login, concludes_report, concludes_say]
      apply wp_write_serving hlogged
      intro after hafter
      exact hnext reader rest _ _ after ⟨processed, hafter, hat⟩

theorem wp_askPassword_follows (hnext : Follows start next reply)
    (h : Facing start reader lines pushed sent world) :
    wp (askPassword username reader next)
      (Concludes start pushed sent
        (say (bytes "Password: ") (askFor username (ending start) reply lines)))
      (fun _ => False) world := by
  obtain ⟨processed, hserving, hat⟩ := h
  unfold askPassword
  simp only [wp_bind, concludes_say]
  apply wp_write_serving hserving
  intro after hafter
  dsimp only
  rw [wp_bind]
  have hfacing : Facing start reader lines pushed (sent ++ [bytes "Password: "]) after :=
    ⟨processed, hafter, hat⟩
  apply wp_weaken (wp_readLine_facing hfacing)
  intro result world hread
  exact wp_afterPassword_follows hnext hread

theorem wp_afterUsername_ends {last : Ending} (h : Ends start last pushed sent result world) :
    wp (afterUsername next result) (Concludes start pushed sent (last.reply [])) (fun _ => False)
      world := by
  obtain ⟨hresult, received, hserving⟩ := h
  have hconcludes : ∀ reason, reason = last.reason →
      Concludes start pushed sent (last.reply []) reason world := by
    intro reason hreason
    refine ⟨hreason, received, ?_⟩
    rw [Ending.reply, List.append_nil, List.append_nil]
    exact hserving
  rcases hresult with rfl | ⟨⟨reader, rfl⟩, hclosed⟩
  · exact hconcludes _ rfl
  · exact hconcludes _ hclosed.symm

theorem wp_afterUsername_follows (hnext : Follows start next reply)
    (h : NextRead start lines pushed sent result world) :
    wp (afterUsername next result)
      (Concludes start pushed sent (match nextLine lines with
        | .line username rest =>
            if username = [] then reply rest
            else say (bytes "Password: ") (askFor username (ending start) reply rest)
        | .oversized => tooLong.reply []
        | .ended => (ending start).reply []))
      (fun _ => False) world := by
  unfold NextRead at h
  cases hline : nextLine lines with
  | oversized =>
      rw [hline] at h
      exact wp_afterUsername_ends h
  | ended =>
      rw [hline] at h
      exact wp_afterUsername_ends h
  | line username rest =>
      rw [hline] at h
      obtain ⟨reader, rfl, hfacing⟩ := h
      have hempty := lossy_eq_empty_iff username
      unfold afterUsername
      dsimp only
      by_cases hnone : username = []
      · rw [if_pos (hempty.mpr hnone), if_pos hnone]
        exact hnext reader rest _ _ world hfacing
      · rw [if_neg (mt hempty.mp hnone), if_neg hnone]
        exact wp_askPassword_follows hnext hfacing

/-- The attempts, by induction on how many are left. -/
theorem attempts_follows (prompt : List UInt8) (left : Nat) :
    Follows start (attempts prompt left) (dialogue prompt (ending start) left) := by
  induction left with
  | zero =>
      rintro reader lines pushed sent world ⟨processed, hserving, _⟩
      unfold attempts dialogue
      simp only [wp_bind, concludes_say]
      apply wp_write_serving hserving
      intro after hafter
      exact ⟨rfl, _, by simpa using hafter⟩
  | succ left ih =>
      rintro reader lines pushed sent world ⟨processed, hserving, hat⟩
      unfold attempts dialogue
      simp only [wp_bind, concludes_say]
      apply wp_write_serving hserving
      intro after hafter
      dsimp only
      rw [wp_bind]
      have hfacing : Facing start reader lines pushed (sent ++ [prompt]) after :=
        ⟨processed, hafter, hat⟩
      apply wp_weaken (wp_readLine_facing hfacing)
      intro result world hread
      exact wp_afterUsername_follows ih hread

/-! ### The events -/

section Events

variable {last : Ending} {holds : SessionEvent → Prop}

theorem all_askFor (hlast : ∀ event ∈ last.notices, holds event)
    (hlong : ∀ event ∈ tooLong.notices, holds event)
    (hlogin : ∀ username password, holds (loginEvent username password))
    (hreply : ∀ lines, ∀ event ∈ (reply lines).events, holds event) (lines : List (List UInt8)) :
    ∀ event ∈ (askFor username last reply lines).events, holds event := by
  have hends : ∀ ending : Ending, (∀ event ∈ ending.notices, holds event) →
      ∀ event ∈ (ending.reply [loginEvent username none]).events, holds event := by
    intro ending hnotices event hevent
    rcases List.mem_append.mp hevent with hevent | hevent
    · exact hnotices event hevent
    · rw [List.mem_singleton.mp hevent]
      exact hlogin _ _
  unfold askFor
  cases nextLine lines with
  | line password rest => exact List.forall_mem_cons.mpr ⟨hlogin _ _, hreply rest⟩
  | oversized => exact hends tooLong hlong
  | ended => exact hends last hlast

theorem all_dialogue (hlast : ∀ event ∈ last.notices, holds event)
    (hlong : ∀ event ∈ tooLong.notices, holds event)
    (hlogin : ∀ username password, holds (loginEvent username password)) (prompt : List UInt8)
    (left : Nat) (lines : List (List UInt8)) :
    ∀ event ∈ (dialogue prompt last left lines).events, holds event := by
  have hends : ∀ ending : Ending, (∀ event ∈ ending.notices, holds event) →
      ∀ event ∈ (ending.reply []).events, holds event := by
    intro ending hnotices event hevent
    rw [Ending.reply, List.append_nil] at hevent
    exact hnotices event hevent
  induction left generalizing lines with
  | zero => exact List.forall_mem_nil _
  | succ left ih =>
      unfold dialogue
      cases nextLine lines with
      | line username rest =>
          dsimp only [say]
          split_ifs
          · exact ih rest
          · exact all_askFor hlast hlong hlogin ih rest
      | oversized => exact hends tooLong hlong
      | ended => exact hends last hlast

theorem length_dialogue_le (hlast : last.notices.length ≤ 1) (prompt : List UInt8) (left : Nat)
    (lines : List (List UInt8)) : (dialogue prompt last left lines).events.length ≤ left + 1 := by
  have hlong : tooLong.notices.length = 1 := rfl
  induction left generalizing lines with
  | zero => exact Nat.zero_le _
  | succ left ih =>
      unfold dialogue
      cases nextLine lines with
      | line username rest =>
          dsimp only [say]
          split_ifs
          · exact Nat.le_succ_of_le (ih rest)
          · unfold askFor
            cases nextLine rest with
            | line password rest => exact Nat.succ_le_succ (ih rest)
            | oversized => simp [Ending.reply, hlong]
            | ended =>
                simp only [Ending.reply, List.length_append, List.length_singleton]
                omega
      | oversized => simp [say, Ending.reply, hlong]
      | ended =>
          simp only [say, Ending.reply, List.append_nil]
          omega

theorem logins_reply {username : List UInt8} (hlast : last.notices.filter isLogin = []) :
    (last.reply [loginEvent username none]).events.filter isLogin =
      loginEvents [⟨username, none⟩] := by
  rw [Ending.reply, List.filter_append, hlast]
  rfl

/-- Once all its messages are sent, the dialogue has reported the attempts that
were read. -/
theorem logins_dialogue (hlast : last.notices.filter isLogin = []) (prompt : List UInt8)
    (left : Nat) {messages : Nat} (lines : List (List UInt8))
    (hsent : (dialogue prompt last left lines).sent.length ≤ messages) :
    (dialogue prompt last left lines).events.filter isLogin =
      loginEvents (attemptsRead left messages lines) := by
  have hlong : tooLong.notices.filter isLogin = [] := rfl
  induction left generalizing lines messages with
  | zero => rfl
  | succ left ih =>
      obtain ⟨messages, rfl⟩ := Nat.exists_eq_add_one_of_ne_zero
        (Nat.ne_of_gt (Nat.lt_of_lt_of_le (Nat.zero_lt_succ _) hsent))
      unfold dialogue at hsent ⊢
      rw [attemptsRead]
      cases hline : nextLine lines with
      | oversized => exact hlong
      | ended => simpa [say, Ending.reply, loginEvents] using hlast
      | line username rest =>
          rw [hline] at hsent
          dsimp only [say] at hsent ⊢
          by_cases hempty : username = []
          · rw [if_pos hempty] at hsent
            rw [if_pos hempty, if_pos hempty]
            exact ih rest (Nat.le_of_succ_le_succ hsent)
          · rw [if_neg hempty] at hsent
            rw [if_neg hempty, if_neg hempty]
            unfold askFor at hsent ⊢
            unfold passwordRead
            cases hpassword : nextLine rest with
            | line password others =>
                rw [hpassword] at hsent
                dsimp only [say, report, List.length_cons] at hsent ⊢
                obtain ⟨more, rfl⟩ : ∃ more, messages = more + 2 := ⟨messages - 2, by omega⟩
                rw [List.filter_cons_of_pos rfl]
                exact congrArg (_ :: ·) (ih others (by omega))
            | oversized => cases messages <;> exact logins_reply hlong
            | ended => cases messages <;> exact logins_reply hlast

end Events

theorem length_notices_le (limit : Nat) (terminal : Terminal) (stream : List UInt8) :
    (inputEnd limit terminal stream).notices.length ≤ 1 := by
  unfold inputEnd
  split_ifs <;> simp

/-- In full mode the events of a dialogue are recorded as they are. -/
theorem map_redact_dialogue {privacy : PrivacyConfig} (hmode : privacy.mode = .Full)
    (prompt : List UInt8) (limit : Nat) (terminal : Terminal) (stream : List UInt8) (left : Nat)
    (lines : List (List UInt8)) :
    (dialogue prompt (inputEnd limit terminal stream) left lines).events.map privacy.redact =
      (dialogue prompt (inputEnd limit terminal stream) left lines).events := by
  have hnotices : ∀ event ∈ (inputEnd limit terminal stream).notices,
      privacy.redact event = event := by
    unfold inputEnd
    split_ifs
    · exact List.forall_mem_nil _
    · intro event hevent
      rw [List.mem_singleton.mp hevent]
      rfl
    · exact List.forall_mem_nil _
  have hlong : ∀ event ∈ tooLong.notices, privacy.redact event = event := by
    intro event hevent
    rw [List.mem_singleton.mp hevent]
    rfl
  have hlogin : ∀ username password,
      privacy.redact (loginEvent username password) = loginEvent username password := by
    intro username password
    unfold PrivacyConfig.redact loginEvent
    dsimp only
    rw [if_neg (by rw [hmode]; exact nofun)]
  conv => rhs; rw [← List.map_id (dialogue _ _ _ _).events]
  exact List.map_congr_left (all_dialogue hnotices hlong hlogin prompt left lines)

theorem facing_init (hserving : Serving start [] pushed sent world) :
    Facing start {} (nvtLines (dataOf (start.wire.incoming.take start.session.inputLimit))) pushed
      sent world := by
  refine ⟨[], hserving, rfl, Nat.zero_le _, ?_, ?_⟩
  · simp [AtLineEnd, dataOf, TelnetDecoder.decode]
  · change resume [] false _ = _
    rw [resume_nil]
    rfl

theorem events_reference (ep : EndpointConfig) (limit : Nat) (terminal : Terminal)
    (stream : List UInt8) :
    (reference ep limit terminal stream).events =
      (dialogue (bytes (ep.loginPrompt.getD "login: ")) (inputEnd limit terminal stream)
        maxAttempts (nvtLines (dataOf (stream.take limit)))).events := by
  unfold reference
  cases ep.banner <;> rfl

theorem length_reference_le (ep : EndpointConfig) (limit : Nat) (terminal : Terminal)
    (stream : List UInt8) : (reference ep limit terminal stream).events.length ≤ maxEvents := by
  rw [events_reference]
  exact Nat.le_trans (length_dialogue_le (length_notices_le _ _ _) _ _ _) (by decide)

theorem wp_handle_concludes (ep : EndpointConfig) {world : SessionWorld}
    (hfresh : world.session.Fresh) (hsteady : world.wire.Steady) :
    wp (handle ep)
      (Concludes world [] []
        (reference ep world.session.inputLimit world.wire.terminal world.wire.incoming))
      (fun _ => False) world := by
  have hinit := Serving.init hfresh hsteady
  have htalk : ∀ sent after, Serving world [] [] sent after →
      wp (attempts (bytes (ep.loginPrompt.getD "login: ")) maxAttempts {})
        (Concludes world [] sent (dialogue (bytes (ep.loginPrompt.getD "login: ")) (ending world)
          maxAttempts (nvtLines (dataOf (world.wire.incoming.take world.session.inputLimit)))))
        (fun _ => False) after := by
    intro sent after hserving
    exact attempts_follows _ _ _ _ _ _ _ (facing_init hserving)
  unfold handle reference
  rw [wp_bind]
  cases ep.banner with
  | none => exact htalk [] world hinit
  | some banner =>
      dsimp only
      rw [concludes_say]
      apply wp_write_serving hinit
      intro after hafter
      exact htalk _ after hafter

/-- The handler is the dialogue over the lines of the stream. -/
theorem dialogue_outcome (ep : EndpointConfig) {world : SessionWorld}
    (hfresh : world.session.Fresh) (hsteady : world.wire.Steady) :
    ∃ reason after, handle ep world = .done reason after ∧
      Replied world
        (reference ep world.session.inputLimit world.wire.terminal world.wire.incoming)
        world.session.inputLimit reason after ∧
      (world.session.privacy.mode = .Full → after.session.events =
        (reference ep world.session.inputLimit world.wire.terminal world.wire.incoming).events) := by
  apply wp_completes
  apply wp_weaken (wp_handle_concludes ep hfresh hsteady)
  rintro reason after ⟨rfl, received, hserving⟩
  have hreplied := hserving.replied (length_reference_le ep _ _ _) hserving.progress.budget
    (reference ep world.session.inputLimit world.wire.terminal world.wire.incoming).reason
  refine ⟨hreplied, ?_⟩
  intro hmode
  rw [hreplied.events, events_reference]
  exact map_redact_dialogue hmode _ _ _ _ _ _

theorem dialogue_outcome_admin :
    let world := (client "admin\r\nhunter2\r\n\r" none).world
      { sensorOf .Telnet with privacy := { mode := .Full } } (decoy .Telnet)
    ∃ reason after, handle (decoy .Telnet) world = .done reason after ∧
      Replied world ⟨.ClientClosed,
        [.TelnetLogin "admin" (some "hunter2") false, .Notice "telnet_incomplete_line"],
        [bytes "login: ", bytes "Password: ", bytes "Login incorrect\r\n", bytes "login: "]⟩
        65536 reason after ∧
      after.session.events =
        [.TelnetLogin "admin" (some "hunter2") false, .Notice "telnet_incomplete_line"] := by
  intro world
  obtain ⟨reason, after, hrun, hreplied, hevents⟩ :=
    @dialogue_outcome (decoy .Telnet) world ⟨rfl, rfl, rfl, rfl, by decide⟩ ⟨rfl, nofun⟩
  exact ⟨reason, after, hrun, hreplied, hevents rfl⟩

end Minotaur.Telnet
