import Minotaur.Protocols.Telnet

/-!
What the decoder takes apart. A stream is a sequence of tokens, some of which
carry a data byte, and perhaps the beginning of one more. The decoder's output
is the data of the tokens that are complete, and its state says which token has
begun.
-/

namespace Minotaur.Telnet

/-! ### Streams of bytes -/

/-- Feeds the bytes in order and collects the data. -/
def TelnetDecoder.decode : TelnetDecoder → List UInt8 → TelnetDecoder × List UInt8
  | decoder, [] => (decoder, [])
  | decoder, byte :: rest =>
      let (decoder, data) := decoder.feed byte
      let (decoder, more) := decode decoder rest
      (decoder, data.toList ++ more)

/-- Feeds one read after the other. -/
def TelnetDecoder.decodeReads : TelnetDecoder → List (List UInt8) → TelnetDecoder × List UInt8
  | decoder, [] => (decoder, [])
  | decoder, chunk :: rest =>
      let (decoder, data) := decoder.decode chunk
      let (decoder, more) := decodeReads decoder rest
      (decoder, data ++ more)

namespace TelnetDecoder

theorem decode_cons (decoder : TelnetDecoder) (byte : UInt8) (rest : List UInt8) :
    decoder.decode (byte :: rest) = (((decoder.feed byte).1.decode rest).1,
      (decoder.feed byte).2.toList ++ ((decoder.feed byte).1.decode rest).2) := rfl

theorem decode_append (decoder : TelnetDecoder) (first second : List UInt8) :
    decoder.decode (first ++ second) = (((decoder.decode first).1.decode second).1,
      (decoder.decode first).2 ++ ((decoder.decode first).1.decode second).2) := by
  induction first generalizing decoder with
  | nil => rfl
  | cons byte rest ih =>
      rw [List.cons_append, decode_cons, ih, decode_cons, List.append_assoc]

theorem decodeReads_eq (decoder : TelnetDecoder) (chunks : List (List UInt8)) :
    decoder.decodeReads chunks = decoder.decode chunks.flatten := by
  induction chunks generalizing decoder with
  | nil => rfl
  | cons chunk rest ih =>
      rw [List.flatten_cons, decode_append, ← ih]
      rfl

end TelnetDecoder

/-! ### Tokens -/

/-- What stands inside a subnegotiation: a byte, or an escape that does not end
it. -/
inductive Item where
  | plain (byte : UInt8) (hplain : byte ≠ 255)
  | escaped (byte : UInt8) (hinside : byte ≠ 240)

def Item.bytes : Item → List UInt8
  | .plain byte _ => [byte]
  | .escaped byte _ => [255, byte]

/-- A byte of the payload, doubled if it is 255. -/
def Item.payload (byte : UInt8) : Item :=
  if hiac : byte = 255 then .escaped 255 (by decide) else .plain byte hiac

inductive Token where
  | data (byte : UInt8)
  | command (code : UInt8) (hcode : code < 250)
  | negotiation (verb option : UInt8) (hverb : 251 ≤ verb ∧ verb ≤ 254)
  | subnegotiation (body : List Item)

def Token.bytes : Token → List UInt8
  | .data byte => if byte = 255 then [255, 255] else [byte]
  | .command code _ => [255, code]
  | .negotiation verb option _ => [255, verb, option]
  | .subnegotiation body => [255, 250] ++ body.flatMap Item.bytes ++ [255, 240]

def Token.output : Token → List UInt8
  | .data byte => [byte]
  | _ => []

/-- The beginning of a token. -/
inductive Incomplete where
  | escape
  | negotiation (verb : UInt8) (hverb : 251 ≤ verb ∧ verb ≤ 254)
  | subnegotiation (body : List Item)
  | subnegotiationEscape (body : List Item)

def Incomplete.bytes : Incomplete → List UInt8
  | .escape => [255]
  | .negotiation verb _ => [255, verb]
  | .subnegotiation body => [255, 250] ++ body.flatMap Item.bytes
  | .subnegotiationEscape body => [255, 250] ++ body.flatMap Item.bytes ++ [255]

def Incomplete.state : Incomplete → DecodeState
  | .escape => .Iac
  | .negotiation _ _ => .Option
  | .subnegotiation _ => .Subnegotiation
  | .subnegotiationEscape _ => .SubnegotiationIac

/-- Complete tokens, and then at most one that is not. -/
structure Tokens where
  complete : List Token
  begun : Option Incomplete

def Tokens.bytes (tokens : Tokens) : List UInt8 :=
  tokens.complete.flatMap Token.bytes ++ (tokens.begun.map Incomplete.bytes).getD []

def Tokens.output (tokens : Tokens) : List UInt8 := tokens.complete.flatMap Token.output

def Tokens.state (tokens : Tokens) : DecodeState :=
  (tokens.begun.map Incomplete.state).getD .Data

/-! ### What the decoder makes of them -/

section Decode

variable {byte : UInt8}

@[simp] theorem feed_iac : (⟨.Data⟩ : TelnetDecoder).feed 255 = (⟨.Iac⟩, none) := rfl

theorem feed_data (hdata : byte ≠ 255) :
    (⟨.Data⟩ : TelnetDecoder).feed byte = (⟨.Data⟩, some byte) := if_neg hdata

theorem feed_command (hcode : byte < 250) :
    (⟨.Iac⟩ : TelnetDecoder).feed byte = (⟨.Data⟩, none) := by
  have hlt := UInt8.lt_iff_toNat_lt.mp hcode
  have hiac : byte ≠ 255 := by
    rintro rfl
    exact absurd hcode (by decide)
  have hsub : byte ≠ 250 := by
    rintro rfl
    exact absurd hcode (by decide)
  have hverb : ¬ (251 ≤ byte ∧ byte ≤ 254) := by
    rintro ⟨hle, _⟩
    have hle := UInt8.le_iff_toNat_le.mp hle
    simp only [UInt8.toNat_ofNat] at hlt hle
    omega
  simp [TelnetDecoder.feed, hiac, hsub, hverb]

theorem feed_verb (hverb : 251 ≤ byte ∧ byte ≤ 254) :
    (⟨.Iac⟩ : TelnetDecoder).feed byte = (⟨.Option⟩, none) := by
  have hiac : byte ≠ 255 := by
    rintro rfl
    exact absurd hverb.2 (by decide)
  simp [TelnetDecoder.feed, hiac, hverb]

@[simp] theorem feed_option : (⟨.Option⟩ : TelnetDecoder).feed byte = (⟨.Data⟩, none) := rfl

@[simp] theorem feed_subnegotiation_iac :
    (⟨.Subnegotiation⟩ : TelnetDecoder).feed 255 = (⟨.SubnegotiationIac⟩, none) := rfl

theorem feed_subnegotiation (hplain : byte ≠ 255) :
    (⟨.Subnegotiation⟩ : TelnetDecoder).feed byte = (⟨.Subnegotiation⟩, none) := if_neg hplain

@[simp] theorem feed_end :
    (⟨.SubnegotiationIac⟩ : TelnetDecoder).feed 240 = (⟨.Data⟩, none) := rfl

theorem feed_escaped (hinside : byte ≠ 240) :
    (⟨.SubnegotiationIac⟩ : TelnetDecoder).feed byte = (⟨.Subnegotiation⟩, none) :=
  if_neg hinside

end Decode

open TelnetDecoder

theorem decode_body (body : List Item) :
    (⟨.Subnegotiation⟩ : TelnetDecoder).decode (body.flatMap Item.bytes) =
      (⟨.Subnegotiation⟩, []) := by
  induction body with
  | nil => rfl
  | cons item rest ih =>
      rw [List.flatMap_cons, decode_append]
      cases item with
      | plain byte hplain => simp [Item.bytes, decode, feed_subnegotiation hplain, ih]
      | escaped byte hinside => simp [Item.bytes, decode, feed_escaped hinside, ih]

theorem decode_token (token : Token) :
    (⟨.Data⟩ : TelnetDecoder).decode token.bytes = (⟨.Data⟩, token.output) := by
  cases token with
  | data byte =>
      by_cases hiac : byte = 255
      · subst hiac
        rfl
      · simp [Token.bytes, Token.output, hiac, decode, feed_data hiac]
  | command code hcode => simp [Token.bytes, Token.output, decode, feed_command hcode]
  | negotiation verb option hverb => simp [Token.bytes, Token.output, decode, feed_verb hverb]
  | subnegotiation body =>
      have hopen : (⟨.Data⟩ : TelnetDecoder).decode [255, 250] = (⟨.Subnegotiation⟩, []) := rfl
      simp only [Token.bytes, Token.output, decode_append, hopen, decode_body]
      rfl

theorem decode_incomplete (begun : Incomplete) :
    (⟨.Data⟩ : TelnetDecoder).decode begun.bytes = (⟨begun.state⟩, []) := by
  have hopen : (⟨.Data⟩ : TelnetDecoder).decode [255, 250] = (⟨.Subnegotiation⟩, []) := rfl
  cases begun with
  | escape => rfl
  | negotiation verb hverb => simp [Incomplete.bytes, Incomplete.state, decode, feed_verb hverb]
  | subnegotiation body =>
      simp only [Incomplete.bytes, decode_append, hopen, decode_body]
      rfl
  | subnegotiationEscape body =>
      simp only [Incomplete.bytes, decode_append, hopen, decode_body]
      rfl

theorem decode_complete (complete : List Token) :
    (⟨.Data⟩ : TelnetDecoder).decode (complete.flatMap Token.bytes) =
      (⟨.Data⟩, complete.flatMap Token.output) := by
  induction complete with
  | nil => rfl
  | cons token rest ih =>
      rw [List.flatMap_cons, decode_append, decode_token, ih, List.flatMap_cons]

theorem decode_tokens (tokens : Tokens) :
    (⟨.Data⟩ : TelnetDecoder).decode tokens.bytes = (⟨tokens.state⟩, tokens.output) := by
  unfold Tokens.bytes Tokens.state Tokens.output
  rw [decode_append, decode_complete]
  cases tokens.begun with
  | none => simp [decode]
  | some begun => simp [decode_incomplete]

/-! ### Every stream is one of tokens -/

theorem command_of_not {byte : UInt8} (hiac : byte ≠ 255) (hsub : byte ≠ 250)
    (hverb : ¬ (251 ≤ byte ∧ byte ≤ 254)) : byte < 250 := by
  have hlt := byte.toNat_lt
  rw [UInt8.le_iff_toNat_le, UInt8.le_iff_toNat_le] at hverb
  rw [ne_eq, ← UInt8.toNat_inj] at hiac hsub
  rw [UInt8.lt_iff_toNat_lt]
  simp only [UInt8.toNat_ofNat] at hiac hsub hverb ⊢
  omega

/-- The tokens of a stream that goes on for one more byte. -/
def Tokens.extend (tokens : Tokens) (byte : UInt8) : Tokens :=
  match tokens.begun with
  | none =>
      if byte = 255 then ⟨tokens.complete, some .escape⟩
      else ⟨tokens.complete ++ [.data byte], none⟩
  | some .escape =>
      if hiac : byte = 255 then ⟨tokens.complete ++ [.data 255], none⟩
      else if hverb : 251 ≤ byte ∧ byte ≤ 254 then
        ⟨tokens.complete, some (.negotiation byte hverb)⟩
      else if hsub : byte = 250 then ⟨tokens.complete, some (.subnegotiation [])⟩
      else ⟨tokens.complete ++ [.command byte (command_of_not hiac hsub hverb)], none⟩
  | some (.negotiation verb hverb) =>
      ⟨tokens.complete ++ [.negotiation verb byte hverb], none⟩
  | some (.subnegotiation body) =>
      if hplain : byte = 255 then ⟨tokens.complete, some (.subnegotiationEscape body)⟩
      else ⟨tokens.complete, some (.subnegotiation (body ++ [.plain byte hplain]))⟩
  | some (.subnegotiationEscape body) =>
      if hinside : byte = 240 then ⟨tokens.complete ++ [.subnegotiation body], none⟩
      else ⟨tokens.complete, some (.subnegotiation (body ++ [.escaped byte hinside]))⟩

theorem bytes_extend (tokens : Tokens) (byte : UInt8) :
    (tokens.extend byte).bytes = tokens.bytes ++ [byte] := by
  obtain ⟨complete, begun⟩ := tokens
  unfold Tokens.extend
  cases begun with
  | none =>
      dsimp only
      split_ifs with hiac
      · simp [Tokens.bytes, Incomplete.bytes, hiac]
      · simp [Tokens.bytes, Token.bytes, hiac]
  | some begun =>
      cases begun with
      | escape =>
          dsimp only
          split_ifs with hiac hverb hsub
          · simp [Tokens.bytes, Token.bytes, Incomplete.bytes, hiac]
          · simp [Tokens.bytes, Incomplete.bytes]
          · simp [Tokens.bytes, Incomplete.bytes, hsub]
          · simp [Tokens.bytes, Token.bytes, Incomplete.bytes]
      | negotiation verb hverb => simp [Tokens.bytes, Token.bytes, Incomplete.bytes]
      | subnegotiation body =>
          dsimp only
          split_ifs with hplain
          · simp [Tokens.bytes, Incomplete.bytes, hplain]
          · simp [Tokens.bytes, Incomplete.bytes, Item.bytes]
      | subnegotiationEscape body =>
          dsimp only
          split_ifs with hinside
          · simp [Tokens.bytes, Token.bytes, Incomplete.bytes, hinside]
          · simp [Tokens.bytes, Incomplete.bytes, Item.bytes]

theorem exists_tokens (stream : List UInt8) : ∃ tokens : Tokens, tokens.bytes = stream := by
  induction stream using List.reverseRecOn with
  | nil => exact ⟨⟨[], none⟩, rfl⟩
  | append_singleton stream byte ih =>
      obtain ⟨tokens, rfl⟩ := ih
      exact ⟨tokens.extend byte, bytes_extend tokens byte⟩

/-- A payload is sent with each 255 doubled. -/
theorem bytes_payload (payload : List UInt8) :
    (Token.subnegotiation (payload.map Item.payload)).bytes = [255, 250] ++
      payload.flatMap (fun byte => if byte = 255 then [255, 255] else [byte]) ++ [255, 240] := by
  have hitem : ∀ byte, (Item.payload byte).bytes =
      if byte = 255 then [255, 255] else [byte] := by
    intro byte
    unfold Item.payload
    split_ifs <;> rfl
  simp only [Token.bytes, List.flatMap_map, hitem]

/-- The decoder inverts the escaping of Telnet, and nothing but the data of
complete tokens leaves it, however the stream is read. -/
theorem decoder_inverts_escaping :
    (∀ payload : List UInt8,
      (Token.subnegotiation (payload.map Item.payload)).bytes = [255, 250] ++
        payload.flatMap (fun byte => if byte = 255 then [255, 255] else [byte]) ++ [255, 240]) ∧
    (∀ complete : List Token,
      ({} : TelnetDecoder).decode (complete.flatMap Token.bytes) =
        (⟨.Data⟩, complete.flatMap Token.output)) ∧
    (∀ stream, ∃ tokens : Tokens, tokens.bytes = stream) ∧
    (∀ tokens : Tokens,
      ({} : TelnetDecoder).decode tokens.bytes = (⟨tokens.state⟩, tokens.output)) ∧
    ∀ chunks : List (List UInt8),
      ({} : TelnetDecoder).decodeReads chunks = ({} : TelnetDecoder).decode chunks.flatten :=
  ⟨bytes_payload, decode_complete, exists_tokens, decode_tokens, decodeReads_eq {}⟩

example : ({} : TelnetDecoder).decode [255, 250, 24, 255, 255, 240, 255, 240, 255, 251, 255, 10] =
    (⟨.Data⟩, [10]) := by decide

end Minotaur.Telnet
