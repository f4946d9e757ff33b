import Minotaur.Protocols.Secrecy
import Minotaur.Protocols.Telnet

/-!
What the Telnet decoy tells of its client: the negotiation, the line ends and
the length of every line, but no other byte of a line. `Blurred` relates two
inputs that agree in the former; the decoder passes through the same states on
both, so the line reader sees the same line ends.
-/

namespace Minotaur.Telnet

open Future

/-- A byte that ends no line and starts no command. -/
def plain (byte : UInt8) : Bool := byte != 13 && byte != 10 && byte != 0 && byte != 255

/-- Inputs that differ in plain bytes the decoder takes as line data. -/
def Blurred : TelnetDecoder → List UInt8 → List UInt8 → Prop
  | _, [], [] => True
  | decoder, byte :: rest, byte' :: rest' =>
      (byte = byte' ∨ (decoder.state = .Data ∧ plain byte = true ∧ plain byte' = true)) ∧
        Blurred (decoder.feed byte).1 rest rest'
  | _, _, _ => False

instance : ∀ (decoder : TelnetDecoder) (input input' : List UInt8),
    Decidable (Blurred decoder input input')
  | _, [], [] => inferInstanceAs (Decidable True)
  | _, [], _ :: _ => inferInstanceAs (Decidable False)
  | _, _ :: _, [] => inferInstanceAs (Decidable False)
  | decoder, byte :: rest, byte' :: rest' =>
      let _ := instDecidableBlurred (decoder.feed byte).1 rest rest'
      inferInstanceAs (Decidable
        ((byte = byte' ∨ (decoder.state = .Data ∧ plain byte = true ∧ plain byte' = true)) ∧
          Blurred (decoder.feed byte).1 rest rest'))

theorem plain_iff {byte : UInt8} :
    plain byte = true ↔ byte ≠ 13 ∧ byte ≠ 10 ∧ byte ≠ 0 ∧ byte ≠ 255 := by
  simp only [plain, Bool.and_eq_true, bne_iff_ne, and_assoc]

/-- In data state a plain byte is passed on. -/
theorem feed_plain {decoder : TelnetDecoder} {byte : UInt8} (hstate : decoder.state = .Data)
    (hplain : plain byte = true) : decoder.feed byte = (⟨.Data⟩, some byte) := by
  unfold TelnetDecoder.feed
  rw [hstate]
  dsimp only
  rw [if_neg (plain_iff.mp hplain).2.2.2]

/-! ### Line data -/

/-- Bytes that mean the same to the line reader. -/
def SameByte (byte byte' : UInt8) : Prop :=
  byte = byte' ∨ (plain byte = true ∧ plain byte' = true)

inductive ConsumedAlike : Consumed → Consumed → Prop where
  | complete {line line' : List UInt8} (hline : line.length = line'.length) :
      ConsumedAlike (.complete line) (.complete line')
  | more {line line' : List UInt8} (hline : line.length = line'.length) (pendingCr : Bool) :
      ConsumedAlike (.more line pendingCr) (.more line' pendingCr)
  | tooLong : ConsumedAlike .tooLong .tooLong

variable {line line' : List UInt8} {byte byte' : UInt8}

theorem SameByte.eq_iff (h : SameByte byte byte') (special : UInt8)
    (hspecial : plain special = false) : byte = special ↔ byte' = special := by
  rcases h with rfl | ⟨hplain, hplain'⟩
  · exact Iff.rfl
  · constructor
    · rintro rfl
      rw [hplain] at hspecial
      cases hspecial
    · rintro rfl
      rw [hplain'] at hspecial
      cases hspecial

theorem append_alike (hline : line.length = line'.length) (byte byte' : UInt8) :
    (append line byte = none ∧ append line' byte' = none) ∨
      (append line byte = some (line ++ [byte]) ∧ append line' byte' = some (line' ++ [byte'])) := by
  unfold append
  rw [← hline]
  split_ifs
  · exact Or.inl ⟨rfl, rfl⟩
  · exact Or.inr ⟨rfl, rfl⟩

theorem consumeByte_alike (hline : line.length = line'.length) (h : SameByte byte byte') :
    ConsumedAlike (consumeByte line byte) (consumeByte line' byte') := by
  have hcr := h.eq_iff 13 (by decide)
  have hlf := h.eq_iff 10 (by decide)
  unfold consumeByte
  simp only [hcr, hlf]
  split_ifs
  · exact .more hline true
  · exact .complete hline
  · rcases append_alike hline byte byte' with ⟨happend, happend'⟩ | ⟨happend, happend'⟩
    · rw [happend, happend']
      exact .tooLong
    · rw [happend, happend']
      exact .more (by simp [hline]) false

theorem consume_alike (hline : line.length = line'.length) (pendingCr : Bool)
    (h : SameByte byte byte') :
    ConsumedAlike (consume line pendingCr byte) (consume line' pendingCr byte') := by
  have hlf := h.eq_iff 10 (by decide)
  have hnul := h.eq_iff 0 (by decide)
  unfold consume
  cases pendingCr with
  | false => exact consumeByte_alike hline h
  | true =>
      rw [if_pos rfl, if_pos rfl]
      simp only [hlf, hnul]
      rcases append_alike hline 13 13 with ⟨happend, happend'⟩ | ⟨happend, happend'⟩
      · rw [happend, happend']
        dsimp only
        split_ifs
        · exact .complete hline
        · exact .tooLong
      · rw [happend, happend']
        dsimp only
        split_ifs
        · exact .complete hline
        · exact .more (by simp [hline]) false
        · exact consumeByte_alike (by simp [hline]) h

/-! ### The line reader -/

/-- Two readers with their clients' remaining input. -/
structure ReadersAlike (incoming incoming' : List UInt8) (reader reader' : LineReader) : Prop where
  decoder : reader.decoder = reader'.decoder
  line : reader.line.length = reader'.line.length
  pendingCr : reader.pendingCr = reader'.pendingCr
  pending : reader.pending.length = reader'.pending.length
  blurred : Blurred reader.decoder (reader.pending ++ incoming) (reader'.pending ++ incoming')

inductive PumpedAlike (incoming incoming' : List UInt8) : Pumped → Pumped → Prop where
  | complete {line line' : List UInt8} {reader reader' : LineReader}
      (hline : line.length = line'.length)
      (hreaders : ReadersAlike incoming incoming' reader reader') :
      PumpedAlike incoming incoming' (.complete line reader) (.complete line' reader')
  | drained {reader reader' : LineReader} (hpending : reader.pending = [])
      (hpending' : reader'.pending = [])
      (hreaders : ReadersAlike incoming incoming' reader reader') :
      PumpedAlike incoming incoming' (.drained reader) (.drained reader')
  | tooLong : PumpedAlike incoming incoming' .tooLong .tooLong

theorem feed_alike {decoder : TelnetDecoder}
    (h : byte = byte' ∨ (decoder.state = .Data ∧ plain byte = true ∧ plain byte' = true)) :
    ∃ next, (decoder.feed byte = (next, none) ∧ decoder.feed byte' = (next, none)) ∨
      ∃ data data', SameByte data data' ∧ decoder.feed byte = (next, some data) ∧
        decoder.feed byte' = (next, some data') := by
  rcases h with rfl | ⟨hstate, hplain, hplain'⟩
  · cases hfeed : decoder.feed byte with
    | mk next output =>
        cases output with
        | none => exact ⟨next, Or.inl ⟨rfl, rfl⟩⟩
        | some data => exact ⟨next, Or.inr ⟨data, data, Or.inl rfl, rfl, rfl⟩⟩
  · exact ⟨⟨.Data⟩, Or.inr ⟨byte, byte', Or.inr ⟨hplain, hplain'⟩, feed_plain hstate hplain,
      feed_plain hstate hplain'⟩⟩

theorem pump_alike {incoming incoming' : List UInt8} {decoder : TelnetDecoder}
    (hline : line.length = line'.length) (pendingCr : Bool) {pending pending' : List UInt8}
    (hpending : pending.length = pending'.length)
    (hblurred : Blurred decoder (pending ++ incoming) (pending' ++ incoming')) :
    PumpedAlike incoming incoming' (pump decoder line pendingCr pending)
      (pump decoder line' pendingCr pending') := by
  induction pending generalizing decoder line line' pendingCr pending' with
  | nil =>
      obtain rfl : pending' = [] := List.length_eq_zero_iff.mp hpending.symm
      exact .drained rfl rfl ⟨rfl, hline, rfl, rfl, hblurred⟩
  | cons byte rest ih =>
      cases pending' with
      | nil => simp at hpending
      | cons byte' rest' =>
          rw [List.length_cons, List.length_cons, Nat.succ_inj] at hpending
          obtain ⟨hbyte, hrest⟩ := hblurred
          rw [pump, pump]
          obtain ⟨next, ⟨hfeed, hfeed'⟩ | ⟨data, data', hdata, hfeed, hfeed'⟩⟩ := feed_alike hbyte
          · rw [hfeed] at hrest
            rw [hfeed, hfeed']
            exact ih hline pendingCr hpending hrest
          · rw [hfeed] at hrest
            rw [hfeed, hfeed']
            have hconsumed := consume_alike hline pendingCr hdata
            dsimp only
            generalize consume line pendingCr data = consumed at hconsumed ⊢
            generalize consume line' pendingCr data' = consumed' at hconsumed ⊢
            cases hconsumed with
            | complete hfound => exact .complete hfound ⟨rfl, rfl, rfl, hpending, hrest⟩
            | more hlonger cr => exact ih hlonger cr hpending hrest
            | tooLong => exact .tooLong

/-! ### Reading a line -/

/-- The two runs while a line is being read. -/
def Reads (reader reader' : LineReader) (left right : SessionWorld) : Prop :=
  Alike left right ∧ ReadersAlike left.wire.incoming right.wire.incoming reader reader'

inductive ResultsAlike : LineResult → LineResult → SessionWorld → SessionWorld → Prop where
  | found {line line' : List UInt8} {reader reader' : LineReader} {left right : SessionWorld}
      (hline : line.length = line'.length) (h : Reads reader reader' left right) :
      ResultsAlike (.ok (some line, reader)) (.ok (some line', reader')) left right
  | ended {reader reader' : LineReader} {left right : SessionWorld} (h : Alike left right) :
      ResultsAlike (.ok (none, reader)) (.ok (none, reader')) left right
  | failed {reason : CloseReason} {left right : SessionWorld} (h : Alike left right) :
      ResultsAlike (.error reason) (.error reason) left right

theorem together_turn {reader reader' : LineReader} {left right : SessionWorld}
    (h : Reads reader reader' left right) :
    Together (Turn.LeaveTogether Reads ResultsAlike) Alike (turn reader) (turn reader')
      left right := by
  obtain ⟨h, hreaders⟩ := h
  have hpumped := pump_alike hreaders.line reader.pendingCr hreaders.pending hreaders.blurred
  unfold turn
  rw [← hreaders.decoder, ← hreaders.pendingCr]
  generalize pump reader.decoder reader.line reader.pendingCr reader.pending = pumped
    at hpumped ⊢
  generalize pump reader.decoder reader'.line reader.pendingCr reader'.pending = pumped'
    at hpumped ⊢
  cases hpumped with
  | complete hline hreaders => exact .found hline ⟨h, hreaders⟩
  | tooLong => exact .failed (h.notice _)
  | @drained next next' hempty hempty' hreaders =>
      have hlineEmpty : next.line ≠ [] ↔ next'.line ≠ [] := by
        rw [← List.length_pos_iff, ← List.length_pos_iff, hreaders.line]
      dsimp only
      apply together_bind
      apply together_read h
      · intro left right h
        unfold afterRead noticeIncomplete
        dsimp only
        simp only [hlineEmpty, hreaders.pendingCr]
        split_ifs
        · exact .ended (h.notice _)
        · exact .ended h
      · intro reason left right h
        exact .failed h
      · intro bytes bytes' left' right' h' hlength _ hincoming hincoming'
        refine ⟨h', hreaders.decoder, hreaders.line, hreaders.pendingCr, ?_, ?_⟩
        · rw [hempty, hempty']
          exact hlength
        · have hblurred := hreaders.blurred
          rw [hempty, hempty', hincoming, hincoming'] at hblurred
          rw [hempty, hempty']
          exact hblurred

theorem together_readLine {reader reader' : LineReader} {left right : SessionWorld}
    (h : Reads reader reader' left right) :
    Together ResultsAlike Alike (readLine reader) (readLine reader') left right :=
  together_loop decreasing_turn Reads (fun _ _ _ _ hinv => together_turn hinv) h

/-! ### The dialogue -/

/-- In metadata mode a login says only whether there was a password. -/
theorem redact_loginEvent {privacy : PrivacyConfig} (hmode : privacy.mode = .Metadata)
    (username username' : List UInt8) {password password' : Option (List UInt8)}
    (hpassword : password.isSome = password'.isSome) :
    privacy.redact (loginEvent username password) =
      privacy.redact (loginEvent username' password') := by
  unfold loginEvent PrivacyConfig.redact
  dsimp only
  rw [if_pos hmode, if_pos hmode]
  cases password with
  | none =>
      cases password' with
      | none => rfl
      | some _ => simp at hpassword
  | some _ =>
      cases password' with
      | none => simp at hpassword
      | some _ => rfl

section Dialogue

variable {left right : SessionWorld} {username username' : List UInt8}
  {next next' : LineReader → SessionIo CloseReason}

theorem Reads.frame {reader reader' : LineReader} (h : Reads reader reader' left right)
    {left' right' : SessionWorld} (halike : Alike left' right')
    (hleft : left'.wire.incoming = left.wire.incoming)
    (hright : right'.wire.incoming = right.wire.incoming) : Reads reader reader' left' right' := by
  refine ⟨halike, ?_⟩
  rw [hleft, hright]
  exact h.2

def ContinueAlike (next next' : LineReader → SessionIo CloseReason) : Prop :=
  ∀ reader reader' left right, Reads reader reader' left right →
    Together SameEnd Alike (next reader) (next' reader') left right

theorem together_login (h : Alike left right) (password password' : Option (List UInt8))
    (hpassword : password.isSome = password'.isSome)
    {complete : PUnit → PUnit → SessionWorld → SessionWorld → Prop}
    (hlogin : ∀ left' right', Alike left' right' → left'.wire = left.wire →
      right'.wire = right.wire → complete ⟨⟩ ⟨⟩ left' right') :
    Together complete Alike (login username password) (login username' password') left right :=
  hlogin _ _ (h.pushEvent (redact_loginEvent h.metadata username username' hpassword)) rfl rfl

theorem together_afterPassword (hnext : ContinueAlike next next') {result result' : LineResult}
    (hresult : ResultsAlike result result' left right) :
    Together SameEnd Alike (afterPassword username next result)
      (afterPassword username' next' result') left right := by
  cases hresult with
  | @found line line' reader reader' _ _ hline hreads =>
      unfold afterPassword
      apply together_bind
      apply together_login hreads.1 (some line) (some line') rfl
      intro left' right' h' hleft hright
      apply together_bind
      apply together_write h'
      intro result left'' right'' h'' hleft' hright'
      cases result with
      | error reason => exact ⟨rfl, h''⟩
      | ok value =>
          apply hnext
          apply hreads.frame h''
          · rw [hleft', hleft]
          · rw [hright', hright]
  | ended h =>
      unfold afterPassword
      apply together_bind
      apply together_login h none none rfl
      intro left' right' h' _ _
      exact ⟨rfl, h'⟩
  | failed h =>
      unfold afterPassword
      apply together_bind
      apply together_login h none none rfl
      intro left' right' h' _ _
      exact ⟨rfl, h'⟩

theorem together_askPassword {reader reader' : LineReader} (hreads : Reads reader reader' left right)
    (hnext : ContinueAlike next next') :
    Together SameEnd Alike (askPassword username reader next)
      (askPassword username' reader' next') left right := by
  unfold askPassword
  apply together_bind
  apply together_write hreads.1
  intro result left' right' h' hleft hright
  cases result with
  | error reason =>
      apply together_bind
      apply together_login h' none none rfl
      intro left'' right'' h'' _ _
      exact ⟨rfl, h''⟩
  | ok value =>
      apply together_bind
      apply together_mono (together_readLine (hreads.frame h' hleft hright))
      · intro result result' left'' right'' hresult
        exact together_afterPassword hnext hresult
      · intro left right h
        exact h

theorem together_afterUsername (hnext : ContinueAlike next next') {result result' : LineResult}
    (hresult : ResultsAlike result result' left right) :
    Together SameEnd Alike (afterUsername next result) (afterUsername next' result')
      left right := by
  cases hresult with
  | @found line line' reader reader' _ _ hline hreads =>
      have hempty : String.ofList (Utf8.lossy line) = "" ↔
          String.ofList (Utf8.lossy line') = "" := by
        have hnil : ∀ line : List UInt8, String.ofList (Utf8.lossy line) = "" ↔ line = [] := by
          intro line
          rw [← Utf8.lossy_eq_nil]
          exact String.ofList_eq_empty_iff
        rw [hnil, hnil, ← List.length_eq_zero_iff, ← List.length_eq_zero_iff, hline]
      unfold afterUsername
      simp only [hempty]
      split_ifs
      · exact hnext _ _ _ _ hreads
      · exact together_askPassword hreads hnext
  | ended h => exact ⟨rfl, h⟩
  | failed h => exact ⟨rfl, h⟩

theorem together_attempts (prompt : List UInt8) (left : Nat) :
    ContinueAlike (attempts prompt left) (attempts prompt left) := by
  induction left with
  | zero =>
      intro reader reader' left right hreads
      unfold attempts
      apply together_bind
      apply together_write hreads.1
      intro result left right h _ _
      cases result with
      | ok value => exact ⟨rfl, h⟩
      | error reason => exact ⟨rfl, h⟩
  | succ left ih =>
      intro reader reader' left right hreads
      unfold attempts
      apply together_bind
      apply together_write hreads.1
      intro result left' right' h' hleft hright
      cases result with
      | error reason => exact ⟨rfl, h'⟩
      | ok value =>
          apply together_bind
          apply together_mono (together_readLine (hreads.frame h' hleft hright))
          · intro result result' left'' right'' hresult
            exact together_afterUsername ih hresult
          · intro left right h
            exact h

/-- Blurred inputs end in the same record. -/
theorem together_handle {ep : EndpointConfig} (h : Alike left right)
    (hblurred : Blurred {} left.wire.incoming right.wire.incoming) :
    Together SameEnd Alike (handle ep) (handle ep) left right := by
  unfold handle
  apply together_bind
  apply together_sendOptional _ h
  intro result left' right' h' hleft hright
  cases result with
  | error reason => exact ⟨rfl, h'⟩
  | ok value =>
      apply together_attempts
      refine ⟨h', rfl, rfl, rfl, rfl, ?_⟩
      rw [hleft, hright]
      exact hblurred

end Dialogue

end Minotaur.Telnet
