import Minotaur.Connection.Record
import Minotaur.Protocols.Http.Outcome

/-!
The replies of the HTTP decoy on the wire. Whatever the client sends and
however the session ends, the handler sends one reply or none, and which reply
depends on the branch it took only. Each reply is one message: its lines end
at its first CR LF CR LF, and what follows is as long as they say.
-/

namespace Minotaur.Http

open Future Text

/-! ### One reply or none -/

/-- Where a handler that replies can be. -/
inductive Branch where
  | tooLarge
  | malformed
  | answered (head : Bool)
deriving DecidableEq, Repr

def Branch.status (ep : EndpointConfig) : Branch → UInt16
  | .tooLarge => 431
  | .malformed => 400
  | .answered _ => ep.httpStatus.getD 404

def Branch.head : Branch → Bool
  | .answered head => head
  | _ => false

def Branch.output (canonicalReason : UInt16 → Option String) (ep : EndpointConfig)
    (branch : Branch) : List UInt8 :=
  response canonicalReason (branch.status ep) branch.head (serverName ep)

/-- The streams on which the handler can get there: those without a header
block in their first 8192 bytes, and those with one that parses so. -/
def Branch.Reached (stream : List UInt8) : Branch → Prop
  | .tooLarge => blockSize maxHeaderBytes stream = none ∧ maxHeaderBytes ≤ stream.length
  | .malformed => ∃ size message, blockSize maxHeaderBytes stream = some size ∧
      parseRequest (stream.take size) = .error message
  | .answered head => ∃ size event, blockSize maxHeaderBytes stream = some size ∧
      parseRequest (stream.take size) = .ok event ∧ isHead event = head

section Handler

variable (canonicalReason : UInt16 → Option String) (ep : EndpointConfig)

/-- Nothing was sent, or the reply of a branch. -/
def Replies (start after : SessionWorld) : Prop :=
  after.wire.sent = start.wire.sent ∨ ∃ branch : Branch, branch.Reached start.wire.incoming ∧
    after.wire.sent = start.wire.sent ++ [branch.output canonicalReason ep]

/-- The loop invariant: the headers are what was received, without the end of a
block, and nothing was sent. -/
structure Silent (start : SessionWorld) (headers : List UInt8) (world : SessionWorld) : Prop where
  stream : headers ++ world.wire.incoming = start.wire.incoming
  sent : world.wire.sent = start.wire.sent
  length : headers.length ≤ maxHeaderBytes
  unfinished : ∀ first, position terminator start.wire.incoming = some first →
    headers.length < first + 4

/-- A block was received; nothing was sent. -/
structure Ready (start : SessionWorld) (headers : List UInt8) (size : Nat)
    (world : SessionWorld) : Prop where
  block : headers.take size = start.wire.incoming.take size
  sent : world.wire.sent = start.wire.sent
  size : blockSize maxHeaderBytes start.wire.incoming = some size

variable {canonicalReason ep} {start world : SessionWorld} {headers : List UInt8}

theorem Silent.replies (h : Silent start headers world) : Replies canonicalReason ep start world :=
  Or.inl h.sent

theorem Silent.tooLarge (h : Silent start headers world) (hfull : maxHeaderBytes ≤ headers.length) :
    Branch.tooLarge.Reached start.wire.incoming := by
  constructor
  · unfold blockSize
    rw [Option.filter_eq_none_iff]
    intro size hsome
    obtain ⟨first, hfirst, rfl⟩ := Option.map_eq_some_iff.mp hsome
    have hbefore := h.unfinished first hfirst
    have hlength := h.length
    rw [decide_eq_true_eq]
    omega
  · rw [← h.stream, List.length_append]
    omega

theorem wp_reply (branch : Branch) (hsent : world.wire.sent = start.wire.sent)
    (hreached : branch.Reached start.wire.incoming)
    {next : Except CloseReason PUnit → SessionIo CloseReason}
    (hnext : ∀ result, ∃ reason, next result = pure reason) :
    wp (write (branch.output canonicalReason ep) >>= next)
      (fun _ => Replies canonicalReason ep start) (Replies canonicalReason ep start) world := by
  rw [wp_bind]
  apply wp_write_sent (Or.inl hsent)
  intro result wire _ hresult
  obtain ⟨reason, hreason⟩ := hnext result
  rw [hreason, wp_pure]
  rcases hresult with ⟨_, hwire⟩ | ⟨_, hwire⟩
  · rw [hsent] at hwire
    exact Or.inr ⟨branch, hreached, hwire⟩
  · exact Or.inl (hwire.trans hsent)

theorem wp_refuse_replies (branch : Branch) (hsent : world.wire.sent = start.wire.sent)
    (hreached : branch.Reached start.wire.incoming) {status : UInt16} (message : String)
    (houtput : response canonicalReason status false (serverName ep) =
      branch.output canonicalReason ep) :
    wp (refuse canonicalReason status (serverName ep) message)
      (fun _ => Replies canonicalReason ep start) (Replies canonicalReason ep start) world := by
  unfold refuse
  rw [wp_bind, wp_onSession, houtput]
  apply wp_reply branch ?_ hreached
  · rintro (reason | value)
    · exact ⟨reason, rfl⟩
    · exact ⟨.ProtocolError, rfl⟩
  · exact hsent

theorem wp_turn_replies (h : Silent start headers world) :
    wp (turn canonicalReason (serverName ep) headers)
      (Turn.Leaves (Silent start) fun result after => match result with
        | .ok (headers, size) => Ready start headers size after
        | .error _ => Replies canonicalReason ep start after)
      (Replies canonicalReason ep start) world := by
  unfold turn
  dsimp only
  split_ifs with hfull
  · rw [wp_bind]
    exact wp_refuse_replies .tooLarge h.sent (h.tooLarge (Nat.le_of_sub_eq_zero hfull)) _ rfl
  · rw [wp_bind]
    apply wp_read h.replies
    · intro patience
      unfold afterRead noticeIncomplete
      split_ifs <;> exact Or.inl h.sent
    · intro reason patience _
      exact Or.inl h.sent
    · intro buffer rest chunks patience _ hbuffer _ hincoming
      have hlength := h.length
      have hafter : (headers ++ buffer) ++ rest = start.wire.incoming := by
        rw [List.append_assoc, ← hincoming, h.stream]
      have hwithin : (headers ++ buffer).length ≤ maxHeaderBytes := by
        rw [List.length_append]
        omega
      unfold afterRead
      dsimp only
      obtain ⟨offset, hwindow, hposition, hfits⟩ | ⟨hwindow, hunfinished⟩ :=
        position_window hafter h.unfinished
      · rw [hwindow]
        refine ⟨?_, h.sent, ?_⟩
        · rw [← hafter, List.take_append_of_le_length hfits]
        · rw [blockSize, hposition, Option.map_some, Option.filter_some, if_pos]
          rw [decide_eq_true_eq]
          omega
      · rw [hwindow]
        exact ⟨hafter, h.sent, hwithin, hunfinished⟩

theorem wp_respond_replies {size : Nat} (h : Ready start headers size world) :
    wp (respond canonicalReason ep (serverName ep) (headers.take size))
      (fun _ => Replies canonicalReason ep start) (Replies canonicalReason ep start) world := by
  rw [h.block]
  unfold respond
  cases hparse : parseRequest (start.wire.incoming.take size) with
  | error message =>
      exact wp_refuse_replies .malformed h.sent ⟨size, message, h.size, hparse⟩ _ rfl
  | ok event =>
      rw [wp_bind, wp_onSession]
      apply wp_reply (.answered (isHead event)) ?_ ⟨size, event, h.size, hparse, rfl⟩
      · rintro (reason | value)
        · exact ⟨reason, rfl⟩
        · exact ⟨.ServerClosed, rfl⟩
      · exact h.sent

theorem wp_handle_replies (start : SessionWorld) :
    wp (handle canonicalReason ep) (fun _ => Replies canonicalReason ep start)
      (Replies canonicalReason ep start) start := by
  unfold handle
  rw [wp_bind]
  apply wp_loop (decreasing_turn canonicalReason _) (Silent start)
  · intro headers world hsilent
    apply wp_weaken (wp_turn_replies hsilent)
    intro turn after hturn
    cases turn with
    | again headers => exact hturn
    | exit result =>
        cases result with
        | error reason => exact hturn
        | ok found => exact wp_respond_replies hturn
  · exact ⟨rfl, rfl, Nat.zero_le _, fun first _ => Nat.succ_pos _⟩

end Handler

/-! ### One message -/

def phrase (canonicalReason : UInt16 → Option String) (status : UInt16) : String :=
  (canonicalReason status).getD "Unknown"

/-- The lines of a reply, the status line first. -/
def headerLines (phrase server : String) (status : UInt16) (length : Nat) : List String :=
  ["HTTP/1.1 " ++ toString status.toNat ++ " " ++ phrase, "Server: " ++ server,
      "Content-Type: text/plain; charset=utf-8", "Connection: close"] ++
    (if status = 204 ∨ status = 304 then [] else ["Content-Length: " ++ toString length]) ++
    (if status = 401 then ["WWW-Authenticate: Basic realm=\"Administration\""] else [])

/-- The text after the lines, to anything but HEAD. -/
def representation (phrase : String) (status : UInt16) : String :=
  if status = 204 ∨ status = 205 ∨ status = 304 then ""
  else toString status.toNat ++ " " ++ phrase ++ "\n"

/-- The lines of the reply, joined. -/
def headerBlock (canonicalReason : UInt16 → Option String) (status : UInt16) (server : String) :
    List UInt8 :=
  [13, 10].intercalate ((headerLines (phrase canonicalReason status) server status
    (bytes (representation (phrase canonicalReason status) status)).length).map bytes)

theorem response_eq (canonicalReason : UInt16 → Option String) (status : UInt16) (head : Bool)
    (server : String) :
    response canonicalReason status head server =
      headerBlock canonicalReason status server ++ (terminator ++
        if head then [] else bytes (representation (phrase canonicalReason status) status)) := by
  have hserver : bytes "\r\nServer: " = 13 :: 10 :: bytes "Server: " := by decide
  have hplain : bytes "\r\nContent-Type: text/plain; charset=utf-8\r\nConnection: close\r\n" =
      13 :: 10 :: (bytes "Content-Type: text/plain; charset=utf-8" ++
        13 :: 10 :: (bytes "Connection: close" ++ [13, 10])) := by decide
  have hend : bytes "\r\n" = [13, 10] := by decide
  have hbasic : bytes "WWW-Authenticate: Basic realm=\"Administration\"\r\n" =
      bytes "WWW-Authenticate: Basic realm=\"Administration\"" ++ [13, 10] := by decide
  have hnone : bytes "" = [] := rfl
  unfold response headerBlock headerLines representation phrase
  by_cases hlength : status = 204 ∨ status = 304
  · have hbasicless : status ≠ 401 := by
      rintro rfl
      revert hlength
      decide
    rcases hlength with rfl | rfl <;> cases head <;>
      simp [bytes_append, hserver, hplain, hend, hnone, terminator, List.intercalate_cons_cons,
        List.intercalate_singleton]
  · obtain ⟨hnotNone, hnotSame⟩ := not_or.mp hlength
    by_cases hbasicless : status = 401 <;> by_cases hreset : status = 205 <;> cases head <;>
      simp [hnotNone, hnotSame, hbasicless, hreset, bytes_append, hserver, hplain, hend, hnone,
        hbasic, terminator, List.intercalate_cons_cons, List.intercalate_singleton]

/-- A text that can stand in a line: printable ASCII, so neither CR nor LF. -/
def Printable (text : String) : Prop := (bytes text).all printableByte = true

instance (text : String) : Decidable (Printable text) :=
  inferInstanceAs (Decidable (_ = true))

theorem Printable.append {first second : String} (hfirst : Printable first)
    (hsecond : Printable second) : Printable (first ++ second) := by
  unfold Printable
  rw [bytes_append, List.all_append, hfirst, hsecond]
  rfl

theorem printable_toString (n : Nat) : Printable (toString n) := by
  apply List.all_eq_true.mpr
  intro b hb
  obtain ⟨c, hc, hbyte⟩ := List.mem_flatMap.mp hb
  have hdigit : c.isDigit = true :=
    Nat.isDigit_of_mem_toDigits (b := 10) (n := n) (by decide) (by decide) (by simpa using hc)
  have hzero : '0'.toNat = 48 := rfl
  have hnine : '9'.toNat = 57 := rfl
  rw [Char.isDigit_iff_toNat, hzero, hnine] at hdigit
  rw [Utf8.encodeChar_of_ascii (by omega), List.mem_singleton] at hbyte
  simp only [hbyte, printableByte, Bool.and_eq_true, decide_eq_true_eq, UInt8.le_iff_toNat_le,
    UInt8.toNat_ofNat', UInt8.reduceToNat]
  omega

theorem headerLines_plain {phrase server : String} (hphrase : Printable phrase)
    (hserver : Printable server) (status : UInt16) (length : Nat) :
    ∀ line ∈ (headerLines phrase server status length).map bytes, line ≠ [] ∧ 13 ∉ line := by
  have hstart : ∀ start rest : String, bytes start ≠ [] → Printable start → Printable rest →
      bytes (start ++ rest) ≠ [] ∧ Printable (start ++ rest) := by
    intro start rest hne hstart hrest
    refine ⟨?_, hstart.append hrest⟩
    rw [bytes_append]
    exact List.append_ne_nil_of_left_ne_nil hne _
  have hspace : Printable " " := by decide
  have hall : ∀ line ∈ headerLines phrase server status length,
      bytes line ≠ [] ∧ Printable line := by
    intro line hline
    unfold headerLines at hline
    rcases List.mem_append.mp hline with hline | hline
    · rcases List.mem_append.mp hline with hline | hline
      · simp only [List.mem_cons, List.not_mem_nil, or_false] at hline
        rcases hline with rfl | rfl | rfl | rfl
        · rw [String.append_assoc, String.append_assoc]
          exact hstart _ _ (by decide) (by decide)
            ((printable_toString _).append (hspace.append hphrase))
        · exact hstart _ _ (by decide) (by decide) hserver
        · exact ⟨by decide, by decide⟩
        · exact ⟨by decide, by decide⟩
      · split_ifs at hline
        · cases hline
        · rw [List.mem_singleton.mp hline]
          exact hstart _ _ (by decide) (by decide) (printable_toString _)
    · split_ifs at hline
      · rw [List.mem_singleton.mp hline]
        exact ⟨by decide, by decide⟩
      · cases hline
  intro line hline
  obtain ⟨text, htext, rfl⟩ := List.mem_map.mp hline
  obtain ⟨hne, hprintable⟩ := hall text htext
  refine ⟨hne, fun hmem => ?_⟩
  have hreturn := List.all_eq_true.mp hprintable 13 hmem
  revert hreturn
  decide

/-- A reply is one message: up to the first CR LF CR LF its lines, after it
nothing or as many bytes as they say. A reply to HEAD is the lines alone. -/
def Framed (canonicalReason : UInt16 → Option String) (status : UInt16) (server : String)
    (head : Bool) (reply : List UInt8) : Prop :=
  ∃ size length, position terminator reply = some size ∧
    splitPair 13 10 (reply.take size) =
      (headerLines (phrase canonicalReason status) server status length).map bytes ∧
    (reply.drop (size + 4)).length =
      (if head ∨ status = 204 ∨ status = 205 ∨ status = 304 then 0 else length) ∧
    response canonicalReason status true server =
      (response canonicalReason status false server).take (size + 4)

theorem framed_response {canonicalReason : UInt16 → Option String} {status : UInt16}
    {server : String} (hphrase : Printable (phrase canonicalReason status))
    (hserver : Printable server) (head : Bool) :
    Framed canonicalReason status server head (response canonicalReason status head server) := by
  have hlines := @headerLines_plain _ _ hphrase hserver status
    (bytes (representation (phrase canonicalReason status) status)).length
  have hsome : (headerLines (phrase canonicalReason status) server status
      (bytes (representation (phrase canonicalReason status) status)).length).map bytes ≠ [] := by
    simp [headerLines]
  have hsize : (headerBlock canonicalReason status server ++ terminator).length =
      (headerBlock canonicalReason status server).length + 4 := List.length_append
  refine ⟨(headerBlock canonicalReason status server).length,
    (bytes (representation (phrase canonicalReason status) status)).length, ?_, ?_, ?_, ?_⟩
  · rw [response_eq]
    exact position_intercalate (by decide) hsome hlines _
  · rw [response_eq, List.take_left]
    apply splitPair_intercalate (by decide) hsome
    intro line hline
    exact pairFree_of_not_mem (hlines line hline).2 10
  · rw [response_eq, ← List.append_assoc, List.drop_left' hsize]
    unfold representation
    cases head with
    | true => simp
    | false =>
        by_cases hempty : status = 204 ∨ status = 205 ∨ status = 304
        · simp [hempty, bytes]
        · simp [hempty]
  · rw [response_eq, response_eq, ← List.append_assoc, ← List.append_assoc, List.take_left' hsize]
    exact List.append_nil _

/-- Every reply is one framed message that does not reflect the client, given
that the reason phrases of the HTTP library are printable. -/
theorem reply_framed {canonicalReason : UInt16 → Option String}
    (hphrases : ∀ status reason, canonicalReason status = some reason → Printable reason)
    {cfg : Config} (hvalid : cfg.validate = .ok ()) {ep : EndpointConfig}
    (hserved : Served cfg ep) (world : SessionWorld) (hsilent : world.wire.sent = []) :
    ((handle canonicalReason ep world).world.wire.sent = [] ∨
      ∃ branch : Branch, branch.Reached world.wire.incoming ∧
        (handle canonicalReason ep world).world.wire.sent = [branch.output canonicalReason ep]) ∧
    ∀ status, status = 431 ∨ status = 400 ∨ status = ep.httpStatus.getD 404 → ∀ head,
      Framed canonicalReason status (serverName ep) head
        (response canonicalReason status head (serverName ep)) := by
  constructor
  · have hreplies := wp_world (@wp_handle_replies canonicalReason ep world)
    unfold Replies at hreplies
    rw [hsilent] at hreplies
    exact hreplies
  · intro status _ head
    apply framed_response
    · unfold phrase
      cases hreason : canonicalReason status with
      | none => decide
      | some reason => exact hphrases status reason hreason
    · obtain ⟨configured, hmem, bind, rfl⟩ := hserved
      have haccepted := (((validate_ok_iff cfg).mp hvalid).endpoint configured hmem).serverHeader
      unfold serverName
      dsimp only
      cases hheader : configured.serverHeader with
      | none => decide
      | some header => exact List.all_eq_true.mpr (haccepted header hheader).2.2.2

/-- The phrases of the statuses a default decoy replies with. -/
def samplePhrase (status : UInt16) : Option String :=
  if status = 400 then some "Bad Request"
  else if status = 404 then some "Not Found"
  else if status = 431 then some "Request Header Fields Too Large"
  else none

theorem reply_framed_get :
    let world := (client "GET / HTTP/1.0\r\n\r\n" none).world (sensorOf .Http) (decoy .Http)
    ((handle samplePhrase (decoy .Http) world).world.wire.sent = [] ∨
      ∃ branch : Branch, branch.Reached world.wire.incoming ∧
        (handle samplePhrase (decoy .Http) world).world.wire.sent =
          [branch.output samplePhrase (decoy .Http)]) ∧
    ∀ status, status = 431 ∨ status = 400 ∨ status = 404 → ∀ head,
      Framed samplePhrase status "nginx" head (response samplePhrase status head "nginx") := by
  have hphrases : ∀ status reason, samplePhrase status = some reason → Printable reason := by
    intro status reason hreason
    unfold samplePhrase at hreason
    split_ifs at hreason <;> obtain rfl := Option.some.inj hreason <;> decide
  have hvalid : (sensorOf .Http).validate = .ok () := by decide
  have hserved : Served (sensorOf .Http) (decoy .Http) :=
    ⟨decoy .Http, List.mem_singleton_self _, (decoy .Http).bind, rfl⟩
  exact reply_framed hphrases hvalid hserved _ rfl

end Minotaur.Http
