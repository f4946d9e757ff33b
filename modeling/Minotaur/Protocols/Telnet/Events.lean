import Minotaur.Protocols.Progress
import Minotaur.Protocols.Telnet.Lines

/-!
The events of a Telnet session. `attemptsRead` says which lines were read as
usernames and passwords, given the lines that were received and how many
messages of the dialogue were sent. A handler that returns has recorded all of
these attempts; one that is dropped has recorded those that have a password.
There is at most one notice.
-/

namespace Minotaur.Telnet

open Future

/-! ### The reference -/

/-- A line read as username, and the line read as its password. -/
structure Attempt where
  username : List UInt8
  password : Option (List UInt8)
deriving DecidableEq

def Attempt.answered (attempt : Attempt) : Bool := attempt.password.isSome

/-- What is read once `username` is; `next` comes after its password. -/
def passwordRead (username : List UInt8) (messages : Nat)
    (next : List (List UInt8) → List Attempt) (lines : List (List UInt8)) : List Attempt :=
  match messages, nextLine lines with
  | _ + 1, .line password rest => ⟨username, some password⟩ :: next rest
  | _, _ => [⟨username, none⟩]

/-- A username is read once its prompt is sent, and a password once the prompt
for that one is; the password is answered with one more message. -/
def attemptsRead : Nat → Nat → List (List UInt8) → List Attempt
  | 0, _, _ => []
  | _ + 1, 0, _ => []
  | left + 1, messages + 1, lines =>
      match nextLine lines with
      | .line username rest =>
          if username = [] then attemptsRead left messages rest
          else passwordRead username messages (attemptsRead left (messages - 2)) rest
      | _ => []

/-- The attempts of a session that has received these bytes and has sent so
many messages after its banner. -/
def typedIn (received : List UInt8) (messages : Nat) : List Attempt :=
  attemptsRead maxAttempts messages (nvtLines (dataOf received))

theorem attemptsRead_unsent (left : Nat) (lines : List (List UInt8)) :
    attemptsRead left 0 lines = [] := by
  cases left <;> rfl

theorem typedIn_nil (messages : Nat) : typedIn [] messages = [] := by
  cases messages <;> rfl

section Reference

variable {username password : List UInt8} {lines rest : List (List UInt8)}
  {next : List (List UInt8) → List Attempt} {left messages : Nat}

theorem attemptsRead_line (hline : nextLine lines = .line username rest) :
    attemptsRead (left + 1) (messages + 1) lines =
      if username = [] then attemptsRead left messages rest
      else passwordRead username messages (attemptsRead left (messages - 2)) rest := by
  rw [attemptsRead, hline]

theorem attemptsRead_stuck (hstuck : Stuck lines) :
    attemptsRead (left + 1) (messages + 1) lines = [] := by
  rw [attemptsRead]
  split
  · rename_i content rest hline
    exact absurd hline (hstuck content rest)
  · rfl

theorem passwordRead_line (hline : nextLine lines = .line password rest) :
    passwordRead username (messages + 1) next lines = ⟨username, some password⟩ :: next rest := by
  simp only [passwordRead, hline]

theorem passwordRead_stuck (hstuck : Stuck lines) :
    passwordRead username messages next lines = [⟨username, none⟩] := by
  unfold passwordRead
  split
  · rename_i content rest hline
    exact absurd hline (hstuck content rest)
  · rfl

/-- Non-empty username, and neither line longer than the reader allows. -/
structure Proper (attempt : Attempt) : Prop where
  nonempty : attempt.username ≠ []
  username : attempt.username.length ≤ maxLine
  password : ∀ line, attempt.password = some line → line.length ≤ maxLine

theorem proper_passwordRead (hnonempty : username ≠ []) (husername : username.length ≤ maxLine)
    (hnext : ∀ lines, ∀ attempt ∈ next lines, Proper attempt) :
    ∀ attempt ∈ passwordRead username messages next lines, Proper attempt := by
  unfold passwordRead
  split
  · rename_i password rest hline
    refine List.forall_mem_cons.mpr ⟨⟨hnonempty, husername, ?_⟩, hnext rest⟩
    intro line hpassword
    obtain rfl := Option.some.inj hpassword
    exact nextLine_short hline
  · exact List.forall_mem_cons.mpr ⟨⟨hnonempty, husername, nofun⟩, List.forall_mem_nil _⟩

theorem proper_attemptsRead (left messages : Nat) (lines : List (List UInt8)) :
    ∀ attempt ∈ attemptsRead left messages lines, Proper attempt := by
  induction left generalizing messages lines with
  | zero => exact List.forall_mem_nil _
  | succ left ih =>
      cases messages with
      | zero => exact List.forall_mem_nil _
      | succ messages =>
          rw [attemptsRead]
          split
          · rename_i username rest hline
            split_ifs with hempty
            · exact ih messages rest
            · exact proper_passwordRead hempty (nextLine_short hline) (ih _)
          · exact List.forall_mem_nil _

theorem length_attemptsRead (left messages : Nat) (lines : List (List UInt8)) :
    (attemptsRead left messages lines).length ≤ left := by
  induction left generalizing messages lines with
  | zero => exact Nat.le_refl 0
  | succ left ih =>
      cases messages with
      | zero => exact Nat.zero_le _
      | succ messages =>
          rw [attemptsRead]
          split
          · split_ifs
            · exact Nat.le_succ_of_le (ih _ _)
            · unfold passwordRead
              split
              · exact Nat.succ_le_succ (ih _ _)
              · exact Nat.succ_le_succ (Nat.zero_le left)
          · exact Nat.zero_le _

end Reference

/-! ### Logins -/

def isLogin : SessionEvent → Bool
  | .TelnetLogin .. => true
  | _ => false

def loginEvents (list : List Attempt) : List SessionEvent :=
  list.map fun attempt => loginEvent attempt.username attempt.password

theorem loginEvents_append (first second : List Attempt) :
    loginEvents (first ++ second) = loginEvents first ++ loginEvents second := List.map_append

def Noticed (list : List SessionEvent) : Prop := list = [] ∨ ∃ msg ∈ notices, list = [.Notice msg]

theorem fits_loginEvent {attempt : Attempt} (h : Proper attempt) :
    (loginEvent attempt.username attempt.password).Fits := by
  have hlimit : maxLine = 256 := rfl
  have hlossy : ∀ line : List UInt8, line.length ≤ maxLine →
      (String.ofList (Utf8.lossy line)).length ≤ 256 := by
    intro line hline
    have hle := Utf8.length_lossy_le line
    rw [String.length_ofList]
    omega
  refine ⟨hlossy _ h.username, ?_⟩
  intro value hvalue
  obtain ⟨line, hline, rfl⟩ := Option.map_eq_some_iff.mp hvalue
  exact hlossy line (h.password line hline)

theorem fits_loginEvents {list : List Attempt} (h : ∀ attempt ∈ list, Proper attempt) :
    ∀ event ∈ loginEvents list, event.Fits := by
  intro event hevent
  obtain ⟨attempt, hattempt, rfl⟩ := List.mem_map.mp hevent
  exact fits_loginEvent (h attempt hattempt)

theorem filter_isLogin_loginEvents (list : List Attempt) :
    (loginEvents list).filter isLogin = loginEvents list := by
  rw [List.filter_eq_self]
  intro event hevent
  obtain ⟨attempt, _, rfl⟩ := List.mem_map.mp hevent
  rfl

theorem filter_isLogin_noticed {noticed : List SessionEvent} (h : Noticed noticed) :
    noticed.filter isLogin = [] ∧ noticed.length ≤ 1 ∧ ∀ event ∈ noticed, event.Fits := by
  rcases h with rfl | ⟨msg, hmsg, rfl⟩
  · simp
  · refine ⟨rfl, Nat.le_refl 1, ?_⟩
    intro event hevent
    obtain rfl : event = .Notice msg := by simpa using hevent
    exact hmsg

/-- Lossy decoding leaves nothing of an empty line only. -/
theorem lossy_eq_empty_iff (line : List UInt8) :
    String.ofList (Utf8.lossy line) = "" ↔ line = [] := by
  rw [← Utf8.lossy_eq_nil line]
  exact String.ofList_eq_empty_iff

section Dialogue

variable {start : SessionState} {stream received : List UInt8} {base : Nat} {reader : LineReader}
  {earlier last : List Attempt} {noticed : List SessionEvent} {keeps : Attempt → Bool}
  {next next' : List (List UInt8) → Nat → List Attempt} {world after : SessionWorld}
  {username password : List UInt8}

/-- The logins of the session are those of the attempts that `keeps` selects.
`base` messages were sent before the dialogue. -/
def Logged (keeps : Attempt → Bool) (start : SessionState) (stream : List UInt8) (base : Nat)
    (world : SessionWorld) : Prop :=
  ∃ received pushed, Progress start stream received pushed world ∧
    pushed.filter isLogin =
      loginEvents ((typedIn received (world.wire.sent.length - base)).filter keeps) ∧
    pushed.length ≤ 4 ∧ ∀ event ∈ pushed, event.Fits

/-- The one notice can stand before the last login, never anywhere else. -/
theorem logged_of (first last : List Attempt)
    (h : Progress start stream received (loginEvents first ++ noticed ++ loginEvents last) world)
    (hnoticed : Noticed noticed)
    (htyped : (typedIn received (world.wire.sent.length - base)).filter keeps = first ++ last) :
    Logged keeps start stream base world := by
  obtain ⟨hfilter, hone, hfits⟩ := filter_isLogin_noticed hnoticed
  have hproper : ∀ attempt ∈ first ++ last, Proper attempt := by
    intro attempt hattempt
    rw [← htyped] at hattempt
    exact proper_attemptsRead _ _ _ attempt (List.mem_of_mem_filter hattempt)
  have hcount : (first ++ last).length ≤ maxAttempts := by
    rw [← htyped]
    exact Nat.le_trans (List.length_filter_le _ _) (length_attemptsRead _ _ _)
  have hattempts : maxAttempts = 3 := rfl
  refine ⟨received, _, h, ?_, ?_, ?_⟩
  · rw [htyped, List.filter_append, List.filter_append, hfilter, filter_isLogin_loginEvents,
      filter_isLogin_loginEvents, List.append_nil, loginEvents_append]
  · simp only [loginEvents, List.length_append, List.length_map] at hcount ⊢
    omega
  · obtain ⟨hfirst, hlast⟩ := List.forall_mem_append.mp hproper
    exact List.forall_mem_append.mpr
      ⟨List.forall_mem_append.mpr ⟨fits_loginEvents hfirst, hfits⟩, fits_loginEvents hlast⟩

theorem logged_nil (h : Progress start stream [] [] world) :
    Logged keeps start stream base world := by
  apply logged_of [] [] h (Or.inl rfl)
  rw [typedIn_nil]
  rfl

theorem Logged.toRecorded (h : Logged keeps start stream base world) :
    Minotaur.Recorded start stream world := by
  obtain ⟨received, pushed, hprogress, _, hcount, hfits⟩ := h
  exact hprogress.recorded hcount hfits

/-- No more is read: `earlier` is recorded, and `last` is in the frame. -/
structure Halted (start : SessionState) (stream : List UInt8) (base : Nat)
    (earlier last : List Attempt) (noticed : List SessionEvent) (world : SessionWorld) : Prop where
  reads : ∃ received, Progress start stream received (loginEvents earlier ++ noticed) world ∧
    typedIn received (world.wire.sent.length - base) = earlier ++ last
  answered : ∀ attempt ∈ earlier, attempt.answered = true

theorem Halted.logged (h : Halted start stream base earlier [] noticed world)
    (hnoticed : Noticed noticed)
    (hkeeps : ∀ attempt, attempt.answered = true → keeps attempt = true) :
    Logged keeps start stream base world := by
  obtain ⟨received, hprogress, htyped⟩ := h.reads
  apply logged_of earlier [] (by simpa [loginEvents] using hprogress) hnoticed
  rw [htyped, List.append_nil, List.filter_eq_self]
  exact fun attempt hattempt => hkeeps attempt (h.answered attempt hattempt)

/-- Nothing is in the frame. -/
theorem Halted.closed (h : Halted start stream base earlier [] [] world) :
    Logged (fun _ => true) start stream base world := h.logged (Or.inl rfl) fun _ _ => rfl

theorem Halted.dropped (h : Halted start stream base earlier [] [] world) :
    Logged Attempt.answered start stream base world := h.logged (Or.inl rfl) fun _ h => h

/-- The username that is in the frame is lost with it. -/
theorem Halted.lost (h : Halted start stream base earlier [⟨username, none⟩] [] world) :
    Logged Attempt.answered start stream base world := by
  obtain ⟨received, hprogress, htyped⟩ := h.reads
  apply logged_of earlier [] (by simpa [loginEvents] using hprogress) (Or.inl rfl)
  rw [htyped, List.filter_append, List.filter_eq_self.mpr h.answered]
  rfl

/-- It is recorded before the handler returns. -/
theorem Halted.login (h : Halted start stream base earlier [⟨username, none⟩] noticed world)
    (hnoticed : Noticed noticed) :
    Logged (fun _ => true) start stream base
      ⟨world.wire, world.session.pushEvent (loginEvent username none)⟩ := by
  obtain ⟨received, hprogress, htyped⟩ := h.reads
  have hpushed : Progress start stream received
      (loginEvents earlier ++ noticed ++ loginEvents [⟨username, none⟩])
      ⟨world.wire, world.session.pushEvent (loginEvent username none)⟩ := hprogress.push rfl rfl
  apply logged_of earlier [⟨username, none⟩] hpushed hnoticed
  rw [List.filter_eq_self.mpr fun _ _ => rfl]
  exact htyped

/-! ### The dialogue so far -/

/-- The dialogue has read `earlier`, and will have read what `next` says of the
lines and the messages that follow. -/
structure Talking (start : SessionState) (stream : List UInt8) (base : Nat) (reader : LineReader)
    (earlier : List Attempt) (next : List (List UInt8) → Nat → List Attempt)
    (world : SessionWorld) : Prop where
  reads : ∃ received, Progress start stream received (loginEvents earlier) world ∧
    reader.Reading received ∧ ∀ future more,
      typedIn (received ++ future) (world.wire.sent.length - base + more) =
        earlier ++ next (reader.rest future) more
  base : base ≤ world.wire.sent.length
  answered : ∀ attempt ∈ earlier, attempt.answered = true

namespace Talking

theorem halted (h : Talking start stream base reader earlier next world) :
    Halted start stream base earlier (next (reader.rest []) 0) [] world := by
  obtain ⟨received, hprogress, _, htyped⟩ := h.reads
  refine ⟨⟨received, hprogress.quiet, ?_⟩, h.answered⟩
  simpa using htyped [] 0

theorem halted_notice (h : Talking start stream base reader earlier next world) (msg : String) :
    Halted start stream base earlier (next (reader.rest []) 0) [.Notice msg]
      ⟨world.wire, world.session.notice msg⟩ := by
  obtain ⟨received, hprogress, _, htyped⟩ := h.reads
  refine ⟨⟨received, hprogress.push rfl rfl, ?_⟩, h.answered⟩
  simpa using htyped [] 0

theorem congr (h : Talking start stream base reader earlier next world)
    (hnext : ∀ lines more, lines ≠ [] → next lines more = next' lines more) :
    Talking start stream base reader earlier next' world := by
  obtain ⟨received, hprogress, hreading, htyped⟩ := h.reads
  refine ⟨⟨received, hprogress, hreading, fun future more => ?_⟩, h.base, h.answered⟩
  rw [htyped, hnext _ _ (reader.rest_ne_nil future)]

theorem frame (h : Talking start stream base reader earlier next world) {wire : Wire}
    (hincoming : wire.incoming = world.wire.incoming) (hsent : wire.sent = world.wire.sent) :
    Talking start stream base reader earlier next ⟨wire, world.session⟩ := by
  obtain ⟨received, hprogress, hreading, htyped⟩ := h.reads
  have hbase := h.base
  rw [← hsent] at htyped hbase
  exact ⟨⟨received, hprogress.frame rfl hincoming, hreading, htyped⟩, hbase, h.answered⟩

theorem sent (h : Talking start stream base reader earlier next world) {wire : Wire}
    {message : List UInt8} (hincoming : wire.incoming = world.wire.incoming)
    (hsent : wire.sent = world.wire.sent ++ [message]) :
    Talking start stream base reader earlier (fun lines more => next lines (more + 1))
      ⟨wire, world.session⟩ := by
  obtain ⟨received, hprogress, hreading, htyped⟩ := h.reads
  have hbase := h.base
  have hlength : wire.sent.length = world.wire.sent.length + 1 := by
    rw [hsent, List.length_append, List.length_singleton]
  refine ⟨⟨received, hprogress.frame rfl hincoming, hreading, fun future more => ?_⟩,
    by dsimp only; omega, h.answered⟩
  rw [← htyped future (more + 1)]
  congr 1
  dsimp only
  omega

theorem login (h : Talking start stream base reader earlier
    (fun lines more => ⟨username, some password⟩ :: next lines more) world) :
    Talking start stream base reader (earlier ++ [⟨username, some password⟩]) next
      ⟨world.wire, world.session.pushEvent (loginEvent username (some password))⟩ := by
  obtain ⟨received, hprogress, hreading, htyped⟩ := h.reads
  refine ⟨⟨received, ?_, hreading, fun future more => ?_⟩, h.base, ?_⟩
  · rw [loginEvents_append]
    exact hprogress.push rfl rfl
  · rw [List.append_assoc]
    exact htyped future more
  · exact List.forall_mem_append.mpr ⟨h.answered, by simp [Attempt.answered]⟩

end Talking

/-! ### Reading a line -/

/-- What `read_line` leaves behind. -/
def LineRead (start : SessionState) (stream : List UInt8) (base : Nat) (earlier : List Attempt)
    (next : List (List UInt8) → Nat → List Attempt) (result : LineResult) (world : SessionWorld) :
    Prop :=
  match result with
  | .ok (some line, reader) => line.length ≤ maxLine ∧
      Talking start stream base reader earlier (fun lines => next (line :: lines)) world
  | _ => ∃ lines noticed, Stuck lines ∧ Noticed noticed ∧
      Halted start stream base earlier (next lines 0) noticed world

def LineDropped (start : SessionState) (stream : List UInt8) (base : Nat) (earlier : List Attempt)
    (next : List (List UInt8) → Nat → List Attempt) (world : SessionWorld) : Prop :=
  ∃ lines, Stuck lines ∧ Halted start stream base earlier (next lines 0) [] world

theorem wp_readLine (h : Talking start stream base reader earlier next world) :
    wp (readLine reader) (LineRead start stream base earlier next)
      (LineDropped start stream base earlier next) world := by
  unfold readLine
  apply wp_loop decreasing_turn
    (fun reader after => Talking start stream base reader earlier next after) ?_ h
  intro reader world h
  obtain ⟨received, hprogress, hreading, htyped⟩ := h.reads
  have hpumps := hreading.pump
  unfold turn
  cases hpump : pump reader.decoder reader.line reader.pendingCr reader.pending with
  | complete line after =>
      rw [hpump] at hpumps
      obtain ⟨hshort, hafter, hrest⟩ := hpumps
      refine ⟨hshort, ⟨received, hprogress, hafter, fun future more => ?_⟩, h.base, h.answered⟩
      rw [htyped, hrest]
  | tooLong =>
      rw [hpump] at hpumps
      exact ⟨_, _, hpumps, Or.inr ⟨_, by decide, rfl⟩, h.halted_notice _⟩
  | drained after =>
      rw [hpump] at hpumps
      obtain ⟨hafter, hstuck, hrest⟩ := hpumps
      rw [wp_bind]
      apply wp_read ⟨_, hstuck, h.halted⟩
      · intro patience
        have hend : Talking start stream base reader earlier next
            ⟨{ world.wire with patience := patience }, world.session⟩ := h.frame rfl rfl
        unfold afterRead noticeIncomplete
        dsimp only
        split_ifs
        · exact ⟨_, _, hstuck, Or.inr ⟨_, by decide, rfl⟩, hend.halted_notice _⟩
        · exact ⟨_, _, hstuck, Or.inl rfl, hend.halted⟩
      · intro reason patience _
        have hend : Talking start stream base reader earlier next
            ⟨{ world.wire with patience := patience }, world.session⟩ := h.frame rfl rfl
        exact ⟨_, _, hstuck, Or.inl rfl, hend.halted⟩
      · intro buffer rest chunks patience _ _ hremaining hincoming
        refine ⟨⟨_, hprogress.receive rfl hincoming hremaining, hafter.receive buffer,
          fun future more => ?_⟩, h.base, h.answered⟩
        rw [LineReader.rest_receive, ← hrest, List.append_assoc]
        exact htyped (buffer ++ future) more

/-! ### The attempts -/

variable {left : Nat} {handler : LineReader → SessionIo CloseReason}

/-- The rest of the handler reads what `next` says of the lines and messages. -/
def Continues (start : SessionState) (stream : List UInt8) (base : Nat)
    (handler : LineReader → SessionIo CloseReason)
    (next : List (List UInt8) → Nat → List Attempt) : Prop :=
  ∀ reader earlier world, Talking start stream base reader earlier next world →
    wp (handler reader) (fun _ => Logged (fun _ => true) start stream base)
      (Logged Attempt.answered start stream base) world

/-- A message after which `next` goes on; without it nothing more is read. -/
theorem wp_write_talking {message : List UInt8}
    {complete : Except CloseReason PUnit → SessionWorld → Prop} {drop : SessionWorld → Prop}
    (h : Talking start stream base reader earlier next world)
    (hhalted : ∀ after, Halted start stream base earlier (next (reader.rest []) 0) [] after →
      drop after ∧ ∀ reason, complete (.error reason) after)
    (hsent : ∀ after,
      Talking start stream base reader earlier (fun lines more => next lines (more + 1)) after →
        complete (.ok ⟨⟩) after) : wp (write message) complete drop world := by
  apply wp_write_sent (hhalted world h.halted).1
  rintro result wire hincoming (⟨rfl, hwritten⟩ | ⟨hfailed, hwritten⟩)
  · exact hsent _ (h.sent hincoming hwritten)
  · have hend := h.frame hincoming hwritten
    rcases hfailed with rfl | rfl
    · exact (hhalted _ hend.halted).2 .Timeout
    · exact (hhalted _ hend.halted).2 .Error

theorem wp_afterPassword
    (hnext : Continues start stream base handler fun lines more => attemptsRead left more lines)
    {result : LineResult}
    (h : LineRead start stream base earlier
      (fun lines more => passwordRead username (more + 1) (attemptsRead left (more - 1)) lines)
      result world) :
    wp (afterPassword username handler result)
      (fun _ => Logged (fun _ => true) start stream base)
      (Logged Attempt.answered start stream base) world := by
  unfold afterPassword
  rcases result with reason | ⟨_ | password, reader⟩
  · obtain ⟨lines, noticed, hstuck, hnoticed, hhalted⟩ := h
    dsimp only at hhalted
    rw [passwordRead_stuck hstuck] at hhalted
    exact hhalted.login hnoticed
  · obtain ⟨lines, noticed, hstuck, hnoticed, hhalted⟩ := h
    dsimp only at hhalted
    rw [passwordRead_stuck hstuck] at hhalted
    exact hhalted.login hnoticed
  · obtain ⟨hshort, htalking⟩ := h
    have hanswered : Talking start stream base reader earlier (fun lines more =>
        ⟨username, some password⟩ :: attemptsRead left (more - 1) lines) world :=
      htalking.congr fun lines more hlines => passwordRead_line (nextLine_cons hshort hlines)
    simp only [wp_bind, wp_login]
    apply wp_write_talking hanswered.login
    · intro after hhalted
      rw [attemptsRead_unsent] at hhalted
      exact ⟨hhalted.dropped, fun _ => hhalted.closed⟩
    · intro after hafter
      exact hnext reader _ after hafter

theorem wp_askPassword
    (hnext : Continues start stream base handler fun lines more => attemptsRead left more lines)
    (h : Talking start stream base reader earlier
      (fun lines more => passwordRead username more (attemptsRead left (more - 2)) lines) world) :
    wp (askPassword username reader handler) (fun _ => Logged (fun _ => true) start stream base)
      (Logged Attempt.answered start stream base) world := by
  unfold askPassword
  rw [wp_bind]
  apply wp_write_talking h
  · intro after hhalted
    exact ⟨hhalted.lost, fun _ => hhalted.login (Or.inl rfl)⟩
  · intro after hafter
    dsimp only
    rw [wp_bind]
    apply wp_mono (wp_readLine hafter)
    · intro result after hread
      exact wp_afterPassword hnext hread
    · rintro after ⟨lines, hstuck, hhalted⟩
      dsimp only at hhalted
      rw [passwordRead_stuck hstuck] at hhalted
      exact hhalted.lost

theorem wp_afterUsername
    (hnext : Continues start stream base handler fun lines more => attemptsRead left more lines)
    {result : LineResult}
    (h : LineRead start stream base earlier
      (fun lines more => attemptsRead (left + 1) (more + 1) lines) result world) :
    wp (afterUsername handler result) (fun _ => Logged (fun _ => true) start stream base)
      (Logged Attempt.answered start stream base) world := by
  unfold afterUsername
  rcases result with reason | ⟨_ | username, reader⟩
  · obtain ⟨lines, noticed, hstuck, hnoticed, hhalted⟩ := h
    dsimp only at hhalted
    rw [attemptsRead_stuck hstuck] at hhalted
    exact hhalted.logged hnoticed fun _ _ => rfl
  · obtain ⟨lines, noticed, hstuck, hnoticed, hhalted⟩ := h
    dsimp only at hhalted
    rw [attemptsRead_stuck hstuck] at hhalted
    exact hhalted.logged hnoticed fun _ _ => rfl
  · obtain ⟨hshort, htalking⟩ := h
    have hline : ∀ lines more, lines ≠ [] → attemptsRead (left + 1) (more + 1) (username :: lines) =
        if username = [] then attemptsRead left more lines
        else passwordRead username more (attemptsRead left (more - 2)) lines :=
      fun lines more hlines => attemptsRead_line (nextLine_cons hshort hlines)
    dsimp only
    by_cases hempty : username = []
    · rw [if_pos ((lossy_eq_empty_iff username).mpr hempty)]
      apply hnext reader earlier world
      exact htalking.congr fun lines more hlines => (hline lines more hlines).trans (if_pos hempty)
    · rw [if_neg (mt (lossy_eq_empty_iff username).mp hempty)]
      apply wp_askPassword hnext
      exact htalking.congr fun lines more hlines => (hline lines more hlines).trans (if_neg hempty)

/-- The attempts, by induction on how many are left. -/
theorem wp_attempts (prompt : List UInt8) (left : Nat) :
    Continues start stream base (attempts prompt left)
      fun lines more => attemptsRead left more lines := by
  induction left with
  | zero =>
      intro reader earlier world h
      unfold attempts
      rw [wp_bind]
      apply wp_write_talking h
      · intro after hhalted
        exact ⟨hhalted.dropped, fun _ => hhalted.closed⟩
      · intro after hafter
        exact hafter.halted.closed
  | succ left ih =>
      intro reader earlier world h
      unfold attempts
      rw [wp_bind]
      apply wp_write_talking h
      · intro after hhalted
        exact ⟨hhalted.dropped, fun _ => hhalted.closed⟩
      · intro after hafter
        dsimp only
        rw [wp_bind]
        apply wp_mono (wp_readLine hafter)
        · intro result after hread
          exact wp_afterUsername ih hread
        · rintro after ⟨lines, hstuck, hhalted⟩
          dsimp only at hhalted
          rw [attemptsRead_stuck hstuck] at hhalted
          exact hhalted.dropped

theorem talking_new (h : Progress start stream [] [] world)
    (hbase : world.wire.sent.length = base) :
    Talking start stream base {} [] (fun lines more => attemptsRead maxAttempts more lines)
      world := by
  refine ⟨⟨[], h, LineReader.reading_new, fun future more => ?_⟩, hbase.ge, List.forall_mem_nil _⟩
  rw [hbase, Nat.sub_self, Nat.zero_add, LineReader.rest_new]
  rfl

theorem wp_handle {ep : EndpointConfig} (h : Progress start stream [] [] world)
    (hbase : world.wire.sent.length + ep.banner.toList.length = base) :
    wp (handle ep) (fun _ => Logged (fun _ => true) start stream base)
      (Logged Attempt.answered start stream base) world := by
  unfold handle
  rw [wp_bind]
  apply Raw.wp_sendOptional _ h (logged_nil h)
  intro result after hafter hsent
  cases result with
  | error reason => exact logged_nil hafter
  | ok value =>
      apply wp_attempts _ maxAttempts {} [] after (talking_new hafter _)
      rw [hsent rfl, List.length_append, ← hbase]
      cases ep.banner <;> rfl

end Dialogue

end Minotaur.Telnet
