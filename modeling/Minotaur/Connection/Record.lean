import Minotaur.Connection
import Minotaur.Session.Json

/-!
What every record has in common, whatever the client sent and however the
session ended: the limits of the configuration and of the handlers, collected
in one record of facts. The size of the line and its conformance to the
published schema both follow from it alone.
-/

namespace Minotaur

open Net

/-- An endpoint as it is served: a configured one, with the address its
listener was really bound to. -/
def Served (cfg : Config) (ep : EndpointConfig) : Prop :=
  ∃ configured ∈ cfg.endpoints, ∃ bind, ep = { configured with bind := bind }

theorem label_length {cfg : Config} (hcfg : cfg.Accepted) {ep : EndpointConfig}
    (hserved : Served cfg ep) : 1 ≤ ep.label.length ∧ ep.label.length ≤ 64 := by
  obtain ⟨configured, hmem, bind, rfl⟩ := hserved
  have hport : (toString bind.port.toNat).length ≤ 5 := by
    have hlt := bind.port.toNat_lt
    exact length_repr_le (by decide) (by omega)
  have hprotocol : ∀ protocol : Protocol,
      3 ≤ protocol.asStr.length ∧ protocol.asStr.length ≤ 6 := by decide
  have hdash : "-".length = 1 := by decide
  unfold EndpointConfig.label
  dsimp only
  split_ifs with hempty
  · have hname := hprotocol configured.protocol
    simp only [String.length_append, hdash]
    omega
  · have hname := (hcfg.endpoint configured hmem).name hempty
    have hle := length_le_bytes configured.name
    have hmax := hname.length
    constructor
    · exact Nat.pos_of_ne_zero fun hzero => hempty (String.length_eq_zero_iff.mp hzero)
    · exact Nat.le_trans hle hmax

namespace SessionRecord

structure WellFormed (conn : Connection) (cfg : Config) (ep : EndpointConfig)
    (record : SessionRecord) : Prop where
  schemaVersion : record.schemaVersion = 2
  ts : record.ts = conn.ts
  sensor : record.sensor = cfg.sensor
  endpoint : record.endpoint = ep.label
  protocol : record.protocol = ep.protocol.asStr
  dstPort : record.dstPort = (conn.localAddr.getD ep.bind).port
  durationMs : record.durationMs ≤ u64Max
  bytesReceived : record.bytesReceived ≤ u64Max
  preview : ∃ preview : List UInt8, preview.length ≤ 65536 ∧
    record.dataPreviewHex = hexEncode preview ∧ record.dataPreviewAscii = asciiPreview preview ∧
    (record.privacyMode = .Metadata → preview = [])
  metadata : record.privacyMode = .Metadata →
    record.payloadCaptured = false ∧ record.bytesTruncated = false
  eventCount : record.events.length ≤ 4
  event : ∀ event ∈ record.events, event.Fits

end SessionRecord

theorem Connection.record_wellFormed (canonicalReason : UInt16 → Option String) {cfg : Config}
    (hcfg : cfg.Accepted) (ep : EndpointConfig) (conn : Connection) :
    (conn.record canonicalReason cfg ep).WellFormed conn cfg ep := by
  obtain ⟨received, pushed, reason, _, _, hcount, hfits, hrecord⟩ :=
    @Connection.record_eq canonicalReason conn cfg ep hcfg
  have hroom : pushed.length ≤ maxEvents := by
    unfold maxEvents
    omega
  have hlimit := hcfg.server.maxBytesPerSession
  rw [hrecord, SessionState.capture_eq (conn.fresh_session hcfg) received hroom]
  refine ⟨rfl, rfl, rfl, rfl, rfl, rfl, Nat.min_le_right _ _, Nat.min_le_right _ _,
    ⟨_, ?_, rfl, rfl, ?_⟩, ?_, ?_, ?_⟩
  · dsimp only
    split_ifs
    · exact Nat.le_trans (List.length_take_le _ _) hlimit
    · exact Nat.zero_le _
  · intro hmode
    change cfg.privacy.mode = .Metadata at hmode
    change (if cfg.privacy.mode = .Full then _ else _) = _
    rw [hmode]
    rfl
  · intro hmode
    change cfg.privacy.mode = .Metadata at hmode
    constructor
    · simp [SessionState.finalize, session, SessionState.new, hmode]
    · simp [SessionState.finalize, session, SessionState.new, hmode]
  · simpa [SessionState.finalize] using hcount
  · intro event hevent
    obtain ⟨pushed, hpushed, rfl⟩ := List.mem_map.mp hevent
    exact redact_fits _ (hfits pushed hpushed)

end Minotaur
