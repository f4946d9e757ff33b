import Minotaur.Connection

/-!
The input budget and the preview. What a session received is a prefix of the
client's stream within the read budget, and the preview is a prefix of that
within a limit of its own; both are functions of the number of bytes received,
whatever the reads were and however the session ended.
-/

namespace Minotaur

open Future

/-! ### Reading a preview back -/

/-- The value of a lower-case hexadecimal digit. -/
def hexValue (c : Char) : Option Nat :=
  if 48 ≤ c.toNat ∧ c.toNat ≤ 57 then some (c.toNat - 48)
  else if 97 ≤ c.toNat ∧ c.toNat ≤ 102 then some (c.toNat - 87)
  else none

def hexPairs : List Char → Option (List UInt8)
  | [] => some []
  | [_] => none
  | high :: low :: rest => do
      let high ← hexValue high
      let low ← hexValue low
      let bytes ← hexPairs rest
      pure (UInt8.ofNat (16 * high + low) :: bytes)

/-- `hex::decode`. -/
def hexDecode (text : String) : Option (List UInt8) := hexPairs text.toList

theorem hexValue_digitChar : ∀ digit < 16, hexValue (Nat.digitChar digit) = some digit := by
  decide

theorem hexDecode_hexEncode (bytes : List UInt8) : hexDecode (hexEncode bytes) = some bytes := by
  unfold hexDecode hexEncode
  rw [String.toList_ofList]
  induction bytes with
  | nil => rfl
  | cons b rest ih =>
      have hb := b.toNat_lt
      have hhigh := hexValue_digitChar (b.toNat / 16) (by omega)
      have hlow := hexValue_digitChar (b.toNat % 16) (by omega)
      have hwhole : 16 * (b.toNat / 16) + b.toNat % 16 = b.toNat := Nat.div_add_mod _ _
      rw [List.flatMap_cons, List.cons_append, List.singleton_append, hexPairs, hhigh, hlow, ih]
      change some (UInt8.ofNat (16 * (b.toNat / 16) + b.toNat % 16) :: rest) = _
      rw [hwhole, UInt8.ofNat_toNat]

/-- A byte as the preview shows it. -/
def image (b : UInt8) : Char := if 0x20 ≤ b ∧ b ≤ 0x7e then Char.ofNat b.toNat else '.'

theorem previewChar_eq : previewChar = image := by
  funext b
  simp [previewChar, image, printableByte, Utf8.ascii]

/-! ### The budget -/

theorem wp_receive_reason (available : Nat) (world : SessionWorld) :
    wp (receive available) (fun result _ => result ≠ .error .ByteLimit) (fun _ => True) world := by
  unfold receive
  apply wp_awaiting trivial
  intro patience
  dsimp only
  split_ifs
  · split <;> exact nofun
  · exact nofun

/-- A read refuses for the budget if and only if nothing is left of it. -/
theorem read_byteLimit_iff {bufLen : Nat} (hpos : 0 < bufLen) (world : SessionWorld) :
    (∃ after, read bufLen world = .done (.error .ByteLimit) after) ↔
      world.session.remainingInput = 0 := by
  have hrun : read bufLen world = (if min world.session.remainingInput bufLen = 0 then
      pure (.error .ByteLimit) else receive (min world.session.remainingInput bufLen)) world := rfl
  rw [hrun]
  constructor
  · rintro ⟨after, hlimit⟩
    by_contra hleft
    rw [if_neg (by omega)] at hlimit
    exact wp_done (wp_receive_reason _ world) hlimit rfl
  · intro hnone
    rw [if_pos (by omega)]
    exact ⟨world, rfl⟩

/-- Reads after `total` of `limit` bytes: a read is refused when they are used
up, and one that is not counts what it takes from the stream. -/
structure ReadLaw (world : SessionWorld) (total limit : Nat) : Prop where
  byteLimit : ∀ bufLen, 0 < bufLen →
    ((∃ after, read bufLen world = .done (.error .ByteLimit) after) ↔ total = limit)
  counted : ∀ bufLen bytes after, read bufLen world = .done (.ok (some bytes)) after →
    after.session.bytesReceived = total + bytes.length ∧ total + bytes.length ≤ limit ∧
      world.wire.incoming = bytes ++ after.wire.incoming

theorem Progress.readLaw {start : SessionState} {stream received : List UInt8}
    {pushed : List SessionEvent} {world other : SessionWorld}
    (h : Progress start stream received pushed world) (hsession : other.session = world.session) :
    ReadLaw other received.length start.inputLimit := by
  have hbudget := h.budget
  have hremaining := h.remainingInput
  rw [← hsession] at hremaining
  constructor
  · intro bufLen hpos
    rw [read_byteLimit_iff hpos, hremaining]
    omega
  · intro bufLen bytes after hread
    have hlaw : wp (read bufLen) (fun result after => ∀ bytes, result = .ok (some bytes) →
        after.session = other.session.recordBytes bytes ∧
          bytes.length ≤ other.session.remainingInput ∧
          other.wire.incoming = bytes ++ after.wire.incoming) (fun _ => True) other := by
      apply wp_read trivial
      · exact fun patience bytes => nofun
      · exact fun reason patience _ bytes => nofun
      · intro bytes rest chunks patience _ _ hfits hincoming other hother
        obtain rfl := Option.some.inj (Except.ok.inj hother)
        exact ⟨rfl, hfits, hincoming⟩
    obtain ⟨hafter, hfits, hincoming⟩ := wp_done hlaw hread bytes rfl
    have hlimit := h.fresh.inputLimit
    refine ⟨?_, by omega, hincoming⟩
    have hcount := h.bytesReceived
    rw [← hsession] at hcount
    have hrecord : after.session.bytesReceived =
        min (other.session.bytesReceived + bytes.length) u64Max := by
      rw [hafter]
      unfold SessionState.recordBytes
      dsimp only
      split_ifs <;> rfl
    omega

/-! ### The record -/

/-- What a record says of the first bytes of a stream of which `total` bytes
were received. -/
structure SessionRecord.Previews (record : SessionRecord) (cfg : Config) (stream : List UInt8)
    (total : Nat) : Prop where
  bytesReceived : record.bytesReceived = total
  full : cfg.privacy.mode = .Full →
    hexDecode record.dataPreviewHex =
        some (stream.take (min cfg.server.maxBytesPerSession total)) ∧
      record.dataPreviewAscii =
        String.ofList ((stream.take (min cfg.server.maxBytesPerSession total)).map image) ∧
      (record.payloadCaptured = true ↔ 0 < cfg.server.maxBytesPerSession) ∧
      (record.bytesTruncated = true ↔
        record.payloadCaptured = true ∧ cfg.server.maxBytesPerSession < total)
  metadata : cfg.privacy.mode = .Metadata →
    record.dataPreviewHex = "" ∧ record.dataPreviewAscii = "" ∧
      record.payloadCaptured = false ∧ record.bytesTruncated = false

/-- The preview fields of a record. -/
def SessionRecord.previewFields (record : SessionRecord) : String × String × Bool × Bool :=
  (record.dataPreviewHex, record.dataPreviewAscii, record.payloadCaptured, record.bytesTruncated)

/-- The preview fields after the first `total` bytes of `stream`. -/
def previewOf (cfg : Config) (stream : List UInt8) (total : Nat) : String × String × Bool × Bool :=
  let limit := cfg.server.maxBytesPerSession
  if cfg.privacy.mode = .Full then
    (hexEncode (stream.take (min limit total)), asciiPreview (stream.take (min limit total)),
      decide (0 < limit), decide (0 < limit) && decide (limit < total))
  else ("", "", false, false)

theorem SessionRecord.previews_of {record : SessionRecord} {cfg : Config} {stream : List UInt8}
    {total : Nat} (hbytes : record.bytesReceived = total)
    (hfields : record.previewFields = previewOf cfg stream total) :
    record.Previews cfg stream total := by
  unfold previewFields previewOf at hfields
  dsimp only at hfields
  refine ⟨hbytes, fun hmode => ?_, fun hmode => ?_⟩
  · rw [if_pos hmode] at hfields
    simp only [Prod.mk.injEq] at hfields
    obtain ⟨hhex, hascii, hcaptured, htruncated⟩ := hfields
    rw [hhex, hascii, hcaptured, htruncated, asciiPreview, previewChar_eq]
    exact ⟨hexDecode_hexEncode _, rfl, by simp, by simp⟩
  · rw [if_neg (by rw [hmode]; exact nofun)] at hfields
    simpa using hfields

section

variable (canonicalReason : UInt16 → Option String) {cfg : Config} (conn : Connection)
  (ep : EndpointConfig)

/-- However the session went, its preview fields depend on the stream and on how
much of it was received. -/
theorem Connection.previewFields_record (hcfg : cfg.Accepted) :
    (conn.record canonicalReason cfg ep).previewFields =
      previewOf cfg conn.wire.incoming (conn.record canonicalReason cfg ep).bytesReceived := by
  obtain ⟨received, pushed, reason, hstream, hbudget, hcount, _, hrecord⟩ :=
    @record_eq canonicalReason conn cfg ep hcfg
  have hfresh := @fresh_session conn cfg ep hcfg
  have htotal : min received.length u64Max = received.length :=
    Nat.min_eq_left (Nat.le_trans hbudget hfresh.inputLimit)
  have hpreview : conn.wire.incoming.take (min cfg.server.maxBytesPerSession received.length) =
      received.take cfg.server.maxBytesPerSession := by
    conv => rhs; rw [List.prefix_iff_eq_take.mp hstream, List.take_take]
  rw [hrecord, SessionState.capture_eq hfresh received (Nat.le_trans hcount (by decide))]
  unfold SessionState.finalize session SessionState.new SessionRecord.previewFields previewOf
  dsimp only
  rw [htotal, hpreview]
  cases hmode : cfg.privacy.mode with
  | Metadata => rfl
  | Full => simp

/-- The budget and preview law, for every handler, stream, division into reads
and ending. -/
theorem input_budget_law (hvalid : cfg.validate = .ok ()) :
    (∃ received, received ++ (conn.run canonicalReason cfg ep).world.wire.incoming =
        conn.wire.incoming ∧
      received.length ≤ cfg.server.maxReadBytesPerSession ∧
      (conn.record canonicalReason cfg ep).Previews cfg conn.wire.incoming received.length ∧
      ∀ world, world.session = (conn.run canonicalReason cfg ep).world.session →
        ReadLaw world received.length cfg.server.maxReadBytesPerSession) ∧
    ∀ other : Connection, other.wire.incoming = conn.wire.incoming →
      (other.record canonicalReason cfg ep).bytesReceived =
        (conn.record canonicalReason cfg ep).bytesReceived →
      (other.record canonicalReason cfg ep).previewFields =
        (conn.record canonicalReason cfg ep).previewFields := by
  have hcfg := (validate_ok_iff cfg).mp hvalid
  have hfields := @Connection.previewFields_record canonicalReason cfg
  constructor
  · obtain ⟨received, pushed, hprogress, _⟩ := @Connection.recorded canonicalReason conn cfg ep hcfg
    have hbytes : (conn.record canonicalReason cfg ep).bytesReceived = received.length :=
      hprogress.bytesReceived
    refine ⟨received, hprogress.stream, hprogress.budget, ?_, ?_⟩
    · exact SessionRecord.previews_of hbytes (hbytes ▸ hfields conn ep hcfg)
    · intro world hsession
      exact hprogress.readLaw hsession
  · intro other hstream htotal
    rw [hfields other ep hcfg, hfields conn ep hcfg, hstream, htotal]

end

/-- Full mode, with room for four bytes of the payload. -/
def fullSsh : Config :=
  { sensorOf .Ssh with
    privacy := { mode := .Full }
    server := { maxBytesPerSession := 4 } }

/-- A session that is dropped in metadata mode, and one whose preview in full
mode is cut off. -/
theorem input_budget_law_dropped :
    (let conn := client "SSH-2.0-x\r\n" (some 2)
    let cfg := sensorOf .Ssh
    let run := fun conn : Connection => conn.run (fun _ => none) cfg (decoy .Ssh)
    let record := fun conn : Connection => conn.record (fun _ => none) cfg (decoy .Ssh)
    (∃ received, received ++ (run conn).world.wire.incoming = conn.wire.incoming ∧
      received.length ≤ 65536 ∧ (record conn).Previews cfg conn.wire.incoming received.length ∧
      ∀ world, world.session = (run conn).world.session → ReadLaw world received.length 65536) ∧
    ∀ other : Connection, other.wire.incoming = conn.wire.incoming →
      (record other).bytesReceived = (record conn).bytesReceived →
      (record other).previewFields = (record conn).previewFields) ∧
    (let conn := client "SSH-2.0-x\r\n" none
    let record := conn.record (fun _ => none) fullSsh (decoy .Ssh)
    (∃ received, received ++ (conn.run (fun _ => none) fullSsh (decoy .Ssh)).world.wire.incoming =
        conn.wire.incoming ∧
      received.length ≤ 65536 ∧ record.Previews fullSsh conn.wire.incoming received.length) ∧
    record.bytesReceived = 11 ∧ record.previewFields = ("5353482d", "SSH-", true, true)) := by
  constructor
  · exact input_budget_law (fun _ => none) (client "SSH-2.0-x\r\n" (some 2)) (decoy .Ssh)
      (by decide)
  · obtain ⟨⟨received, hstream, hbudget, hpreviews, _⟩, _⟩ := @input_budget_law (fun _ => none)
      fullSsh (client "SSH-2.0-x\r\n" none) (decoy .Ssh) (by decide)
    exact ⟨⟨received, hstream, hbudget, hpreviews⟩, by decide +kernel, by decide +kernel⟩

end Minotaur
