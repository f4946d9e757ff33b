import Minotaur.Connection
import Minotaur.Protocols.Http.Secrecy
import Minotaur.Protocols.Ssh.Secrecy
import Minotaur.Protocols.Telnet.Secrecy

/-!
Metadata mode keeps secrets. Two clients that behave alike, and whose inputs
differ only in what the decoy they talk to keeps secret, leave the same record
up to the identifier and the clock readings.
-/

namespace Minotaur

open Future

/-- A record without its identifier and its clock readings. -/
def SessionRecord.unlabelled (record : SessionRecord) : SessionRecord :=
  { record with sessionId := 0, ts := 0, durationMs := 0 }

/-- Inputs that differ only in secrets: all bytes of a raw session, what
follows the first accepted SSH identification, the query and the header fields
of an accepted HTTP request, the text of Telnet lines. -/
def SameButSecrets (privacy : PrivacyConfig) : Protocol → List UInt8 → List UInt8 → Prop
  | .Raw => fun left right => left.length = right.length
  | .Ssh => Ssh.SameIdentification
  | .Http => Http.SameRequest privacy.captureHttpPath
  | .Telnet => Telnet.Blurred {}

/-- Clients at one address whose bytes come in chunks of the same sizes, with
the same end, and whose sessions are interrupted at the same await if at all. -/
structure SameVisit (left right : Connection) : Prop where
  peer : left.peer = right.peer
  localAddr : left.localAddr = right.localAddr
  unread : left.wire.incoming.length = right.wire.incoming.length
  chunks : left.wire.chunks = right.wire.chunks
  terminal : left.wire.terminal = right.wire.terminal
  writes : left.wire.writes = right.wire.writes
  patience : left.wire.patience = right.wire.patience
  interrupt : left.interrupt = right.interrupt

section

variable (canonicalReason : UInt16 → Option String) {cfg : Config} {ep : EndpointConfig}

theorem SessionState.unlabelled_finalize (self : SessionState) (now : Nat) (reason : CloseReason) :
    (self.finalize now reason).unlabelled = (self.unlabelled.finalize 0 reason).unlabelled := rfl

theorem SessionState.finalize_alike {self other : SessionState}
    (h : self.unlabelled = other.unlabelled) (now now' : Nat) (reason : CloseReason) :
    (self.finalize now reason).unlabelled = (other.finalize now' reason).unlabelled := by
  rw [unlabelled_finalize self, h, ← unlabelled_finalize other now' reason]

theorem alike_world {left right : Connection} (hmode : cfg.privacy.mode = .Metadata)
    (hvisit : SameVisit left right) : Alike (left.world cfg ep) (right.world cfg ep) := by
  refine ⟨hvisit.chunks, hvisit.terminal, hvisit.writes, hvisit.patience, hvisit.unread, ?_, hmode⟩
  unfold Connection.world Connection.session
  rw [hvisit.peer, hvisit.localAddr]
  rfl

theorem together_protocols {left right : SessionWorld} (h : Alike left right)
    (hinput : SameButSecrets left.session.privacy ep.protocol left.wire.incoming
      right.wire.incoming) :
    Together SameEnd Alike (Protocols.handle canonicalReason ep)
      (Protocols.handle canonicalReason ep) left right := by
  unfold Protocols.handle
  cases hprotocol : ep.protocol with
  | Raw => exact Raw.together_handle h
  | Ssh =>
      rw [hprotocol] at hinput
      exact Ssh.together_handle h hinput
  | Http =>
      rw [hprotocol] at hinput
      exact Http.together_handle canonicalReason h hinput
  | Telnet =>
      rw [hprotocol] at hinput
      exact Telnet.together_handle h hinput

theorem together_run {left right : Connection} (hmode : cfg.privacy.mode = .Metadata)
    (hvisit : SameVisit left right)
    (hinput : SameButSecrets cfg.privacy ep.protocol left.wire.incoming right.wire.incoming) :
    Together SameEnd Alike (supervised canonicalReason ep) (supervised canonicalReason ep)
      (left.world cfg ep) (right.world cfg ep) := by
  have halike : Alike (left.world cfg ep) (right.world cfg ep) := alike_world hmode hvisit
  unfold supervised
  apply together_bind
  apply together_awaiting halike
  intro patience
  apply together_protocols canonicalReason _ hinput
  exact ⟨halike.chunks, halike.terminal, halike.writes, rfl, halike.unread, halike.session, hmode⟩

/-- Nothing secret that a client sends has an influence on its record. -/
theorem metadata_noninterference {left right : Connection}
    (hmode : cfg.privacy.mode = .Metadata) (hvisit : SameVisit left right)
    (hinput : SameButSecrets cfg.privacy ep.protocol left.wire.incoming right.wire.incoming) :
    (left.record canonicalReason cfg ep).unlabelled =
      (right.record canonicalReason cfg ep).unlabelled := by
  have hrun := together_run canonicalReason hmode hvisit hinput
  unfold Connection.record Connection.run
  unfold Together at hrun
  dsimp only
  cases hleft : supervised canonicalReason ep (left.world cfg ep) with
  | done reason world =>
      cases hright : supervised canonicalReason ep (right.world cfg ep) with
      | done reason' world' =>
          rw [hleft, hright] at hrun
          obtain ⟨rfl, halike⟩ := hrun
          exact SessionState.finalize_alike halike.session _ _ reason
      | dropped world' =>
          rw [hleft, hright] at hrun
          exact hrun.elim
  | dropped world =>
      cases hright : supervised canonicalReason ep (right.world cfg ep) with
      | done reason' world' =>
          rw [hleft, hright] at hrun
          exact hrun.elim
      | dropped world' =>
          rw [hleft, hright] at hrun
          have halike : Alike world world' := hrun
          simp only [Outcome.world, Connection.reason, hvisit.interrupt]
          exact SessionState.finalize_alike halike.session _ _ _

/-- Two logins with names and passwords of the same lengths. -/
theorem metadata_noninterference_telnet :
    ((client "admin\r\nhunter2\r\n" none).record (fun _ => none) (sensorOf .Telnet)
        (decoy .Telnet)).unlabelled =
      ((client "guest\r\nletmein\r\n" none).record (fun _ => none) (sensorOf .Telnet)
        (decoy .Telnet)).unlabelled := by
  apply metadata_noninterference
  · rfl
  · exact ⟨rfl, rfl, by decide, rfl, rfl, rfl, rfl, rfl⟩
  · change Telnet.Blurred {} _ _
    decide

end

end Minotaur
