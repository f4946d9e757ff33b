import Minotaur.Connection

/-!
Which usernames reach the record. The bytes a session received and the messages
it sent say which lines its handler read as usernames and passwords. A handler
that returns has recorded these attempts; one that is dropped has not recorded
a username whose password it was still to read. So the record is complete
exactly when the supervisor does not end the session between the two lines.
-/

namespace Minotaur

open Future

namespace Telnet

/-- The events the attempts should leave in a record. -/
def expectedLogins (privacy : PrivacyConfig) (list : List Attempt) : List SessionEvent :=
  (loginEvents list).map privacy.redact

theorem isLogin_redact (privacy : PrivacyConfig) (event : SessionEvent) :
    isLogin (privacy.redact event) = isLogin event := by
  cases event with
  | TelnetLogin username password redacted =>
      unfold PrivacyConfig.redact
      split_ifs <;> rfl
  | SshClientBanner banner => rfl
  | HttpRequest method path version host userAgent => rfl
  | Notice msg => rfl

theorem filter_isLogin_redact (privacy : PrivacyConfig) (pushed : List SessionEvent) :
    (pushed.map privacy.redact).filter isLogin = (pushed.filter isLogin).map privacy.redact := by
  rw [List.filter_map]
  congr 1
  apply List.filter_congr
  intro event _
  exact isLogin_redact privacy event

theorem length_expectedLogins (privacy : PrivacyConfig) (list : List Attempt) :
    (expectedLogins privacy list).length = list.length := by
  simp [expectedLogins, loginEvents]

end Telnet

open Telnet

section

variable (canonicalReason : UInt16 → Option String) {cfg : Config} {ep : EndpointConfig}
  (conn : Connection)

/-- The lines that were read as usernames, with their passwords. -/
def Connection.attempts (cfg : Config) (ep : EndpointConfig) : List Attempt :=
  let world := (conn.run canonicalReason cfg ep).world
  typedIn (conn.wire.incoming.take world.session.bytesReceived)
    (world.wire.sent.length - (conn.wire.sent.length + ep.banner.toList.length))

theorem wp_supervised (hcfg : cfg.Accepted) (htelnet : ep.protocol = .Telnet) :
    wp (supervised canonicalReason ep)
      (fun _ => Logged (fun _ => true) (conn.session cfg ep) conn.wire.incoming
        (conn.wire.sent.length + ep.banner.toList.length))
      (Logged Attempt.answered (conn.session cfg ep) conn.wire.incoming
        (conn.wire.sent.length + ep.banner.toList.length)) (conn.world cfg ep) := by
  apply conn.wp_run canonicalReason hcfg
  · intro world hprogress
    exact logged_nil hprogress
  · intro world hprogress hsent
    unfold Protocols.handle
    rw [htelnet]
    exact Telnet.wp_handle hprogress (by rw [hsent])

/-- The logins in the record are those of the attempts that were logged. -/
theorem logins_record {keeps : Attempt → Bool}
    (hlogged : Logged keeps (conn.session cfg ep) conn.wire.incoming
      (conn.wire.sent.length + ep.banner.toList.length) (conn.run canonicalReason cfg ep).world) :
    (conn.record canonicalReason cfg ep).events.filter isLogin =
      expectedLogins cfg.privacy ((conn.attempts canonicalReason cfg ep).filter keeps) := by
  obtain ⟨received, pushed, hprogress, hlogins, hcount, _⟩ := hlogged
  have hroom : pushed.length ≤ maxEvents := by
    unfold maxEvents
    omega
  have hreceived : conn.wire.incoming.take
      (conn.run canonicalReason cfg ep).world.session.bytesReceived = received := by
    rw [hprogress.bytesReceived, ← hprogress.stream, List.take_left]
  unfold Connection.attempts expectedLogins
  dsimp only
  rw [hreceived, ← hlogins, ← filter_isLogin_redact]
  unfold Connection.record
  simp only [SessionState.finalize, hprogress.session,
    SessionState.capture_eq hprogress.fresh _ hroom]
  rfl

theorem logins_of_done (hcfg : cfg.Accepted) (htelnet : ep.protocol = .Telnet)
    {reason : CloseReason} {world : SessionWorld}
    (hrun : conn.run canonicalReason cfg ep = .done reason world) :
    (conn.record canonicalReason cfg ep).events.filter isLogin =
      expectedLogins cfg.privacy (conn.attempts canonicalReason cfg ep) := by
  have hlogged := wp_done (wp_supervised canonicalReason conn hcfg htelnet) hrun
  rw [@logins_record canonicalReason cfg ep conn (fun _ => true) (by rw [hrun]; exact hlogged),
    List.filter_eq_self.mpr fun _ _ => rfl]

theorem logins_of_dropped (hcfg : cfg.Accepted) (htelnet : ep.protocol = .Telnet)
    {world : SessionWorld} (hrun : conn.run canonicalReason cfg ep = .dropped world) :
    (conn.record canonicalReason cfg ep).events.filter isLogin =
      expectedLogins cfg.privacy
        ((conn.attempts canonicalReason cfg ep).filter Attempt.answered) := by
  have hlogged := wp_dropped (wp_supervised canonicalReason conn hcfg htelnet) hrun
  exact @logins_record canonicalReason cfg ep conn Attempt.answered (by rw [hrun]; exact hlogged)

/-- Every username that was read has its login in the record, one for one and in
order, with the password exactly if a password line was read. -/
def RecordsCredentials (cfg : Config) (ep : EndpointConfig) : Prop :=
  (conn.record canonicalReason cfg ep).events.filter isLogin =
    expectedLogins cfg.privacy (conn.attempts canonicalReason cfg ep)

/-- A session records its credentials exactly when its supervisor does not drop
the handler after a username and before its password. -/
theorem credentials_recorded_iff (hvalid : cfg.validate = .ok ())
    (htelnet : ep.protocol = .Telnet) :
    RecordsCredentials canonicalReason conn cfg ep ↔
      ∀ world, conn.run canonicalReason cfg ep = .dropped world →
        ∀ attempt ∈ conn.attempts canonicalReason cfg ep, attempt.answered = true := by
  have hcfg := (validate_ok_iff cfg).mp hvalid
  unfold RecordsCredentials
  cases hrun : conn.run canonicalReason cfg ep with
  | done reason world =>
      refine iff_of_true (logins_of_done canonicalReason conn hcfg htelnet hrun) ?_
      intro after hdropped
      cases hdropped
  | dropped world =>
      rw [logins_of_dropped canonicalReason conn hcfg htelnet hrun]
      constructor
      · intro hlogins _ _
        have hlength := congrArg List.length hlogins
        rw [length_expectedLogins, length_expectedLogins] at hlength
        exact List.length_filter_eq_length_iff.mp hlength
      · intro hanswered
        rw [List.filter_eq_self.mpr (hanswered world rfl)]

end

/-- The fifth await of the session is the read of the password line; shutdown
finds the handler there, and the record has no login. -/
theorem credentials_lost_on_shutdown :
    (client "admin\r\n" (some 4)).attempts (fun _ => none) (sensorOf .Telnet) (decoy .Telnet) =
      [⟨bytes "admin", none⟩] ∧
    ((client "admin\r\n" (some 4)).record (fun _ => none) (sensorOf .Telnet)
      (decoy .Telnet)).events = [] ∧
    ¬ RecordsCredentials (fun _ => none) (client "admin\r\n" (some 4)) (sensorOf .Telnet)
      (decoy .Telnet) := by
  refine ⟨by decide +kernel, by decide +kernel, ?_⟩
  unfold RecordsCredentials
  decide +kernel

/-- The same client, not interrupted, ends the session itself; one that is
interrupted while it is asked for another username has told its password. -/
theorem credentials_recorded_iff_admin :
    ((client "admin\r\n" none).attempts (fun _ => none) (sensorOf .Telnet) (decoy .Telnet) =
        [⟨bytes "admin", none⟩] ∧
      RecordsCredentials (fun _ => none) (client "admin\r\n" none) (sensorOf .Telnet)
        (decoy .Telnet)) ∧
    (client "admin\r\nsecret\r\n" (some 6)).attempts (fun _ => none) (sensorOf .Telnet)
        (decoy .Telnet) = [⟨bytes "admin", some (bytes "secret")⟩] ∧
      RecordsCredentials (fun _ => none) (client "admin\r\nsecret\r\n" (some 6))
        (sensorOf .Telnet) (decoy .Telnet) := by
  refine ⟨⟨by decide +kernel, ?_⟩, by decide +kernel, ?_⟩
  · apply (credentials_recorded_iff (fun _ => none) _ (by decide) rfl).mpr
    have hclosed : (client "admin\r\n" none).reason ((client "admin\r\n" none).run (fun _ => none)
        (sensorOf .Telnet) (decoy .Telnet)) = .ClientClosed := by decide +kernel
    intro world hdropped
    rw [hdropped] at hclosed
    cases hclosed
  · apply (credentials_recorded_iff (fun _ => none) _ (by decide) rfl).mpr
    intro _ _
    decide +kernel

end Minotaur
