import Mathlib.Tactic.Common
import Mathlib.Tactic.NormNum

/-!
Lossy decoding of UTF-8, one byte at a time. Between two bytes the decoder
either owes nothing or is inside a character: `need` continuation bytes are
still missing, the next one has to lie in `lo..=hi`, and `acc` holds the bits
read so far. A byte out of that range ends the broken character with U+FFFD
and is then read as a first byte, so every maximal broken part is replaced by
one replacement character.

The facts used elsewhere are that ASCII bytes pass through unchanged and
separate what is around them, that no other byte decodes to an ASCII
character, and that text grows by at most a factor of three.
-/

namespace Utf8

structure Owing where
  need : Nat
  lo : Nat
  hi : Nat
  acc : Nat

def replacement : Char := Char.ofNat 0xFFFD

/-- What a byte above ASCII begins. -/
def lead (n : Nat) : Option Owing :=
  if n < 0xC2 then none
  else if n < 0xE0 then some ⟨1, 0x80, 0xBF, n - 0xC0⟩
  else if n = 0xE0 then some ⟨2, 0xA0, 0xBF, 0⟩
  else if n = 0xED then some ⟨2, 0x80, 0x9F, n - 0xE0⟩
  else if n < 0xF0 then some ⟨2, 0x80, 0xBF, n - 0xE0⟩
  else if n = 0xF0 then some ⟨3, 0x90, 0xBF, 0⟩
  else if n < 0xF4 then some ⟨3, 0x80, 0xBF, n - 0xF0⟩
  else if n = 0xF4 then some ⟨3, 0x80, 0x8F, n - 0xF0⟩
  else none

/-- A byte between two characters. -/
def start (b : UInt8) : Option Owing × List Char :=
  if b.toNat < 0x80 then (none, [Char.ofNat b.toNat])
  else match lead b.toNat with
    | some p => (some p, [])
    | none => (none, [replacement])

def feed (owed : Option Owing) (b : UInt8) : Option Owing × List Char :=
  match owed with
  | none => start b
  | some p =>
      if p.lo ≤ b.toNat ∧ b.toNat ≤ p.hi then
        let acc := p.acc * 64 + (b.toNat - 0x80)
        if p.need = 1 then (none, [Char.ofNat acc]) else (some ⟨p.need - 1, 0x80, 0xBF, acc⟩, [])
      else ((start b).1, replacement :: (start b).2)

def decodeFrom : Option Owing → List UInt8 → List Char
  | none, [] => []
  | some _, [] => [replacement]
  | owed, b :: rest => (feed owed b).2 ++ decodeFrom (feed owed b).1 rest

/-- `String::from_utf8_lossy`, as characters. -/
def lossy (bytes : List UInt8) : List Char := decodeFrom none bytes

@[simp] theorem lossy_nil : lossy [] = [] := rfl

theorem decodeFrom_cons (owed : Option Owing) (b : UInt8) (rest : List UInt8) :
    decodeFrom owed (b :: rest) = (feed owed b).2 ++ decodeFrom (feed owed b).1 rest := by
  cases owed <;> rfl

/-! ### The decoder stays inside the scalar values -/

def Owing.least (p : Owing) : Nat := (p.acc * 64 + (p.lo - 0x80)) * 64 ^ (p.need - 1)

def Owing.most (p : Owing) : Nat := (p.acc * 64 + (p.hi - 0x80) + 1) * 64 ^ (p.need - 1) - 1

/-- Whatever the missing bytes are, the character is a scalar value above
ASCII. -/
structure Owing.Sound (p : Owing) : Prop where
  need_pos : 1 ≤ p.need
  need_le : p.need ≤ 3
  lo_ge : 0x80 ≤ p.lo
  hi_le : p.hi ≤ 0xBF
  above : 0x80 ≤ p.least
  scalar : p.most < 0xD800 ∨ (0xE000 ≤ p.least ∧ p.most < 0x110000)

def Sound (owed : Option Owing) : Prop := ∀ p, owed = some p → p.Sound

theorem sound_none : Sound none := by
  intro p hsome
  cases hsome

theorem sound_lead (n : Nat) : Sound (lead n) := by
  intro p hsome
  unfold lead at hsome
  split_ifs at hsome <;> obtain rfl := Option.some.inj hsome <;> constructor <;>
    simp only [Owing.least, Owing.most] <;> omega

theorem sound_start (b : UInt8) : Sound (start b).1 := by
  unfold start
  split_ifs
  · exact sound_none
  · have hlead := sound_lead b.toNat
    cases hsome : lead b.toNat with
    | none => exact sound_none
    | some p =>
        rw [hsome] at hlead
        exact hlead

/-- One more byte narrows the range of the character. -/
theorem Owing.Sound.continue {p : Owing} {byte : Nat} (h : p.Sound)
    (hrange : p.lo ≤ byte ∧ byte ≤ p.hi) (hmore : ¬ p.need = 1) :
    Owing.Sound ⟨p.need - 1, 0x80, 0xBF, p.acc * 64 + (byte - 0x80)⟩ := by
  let next : Owing := ⟨p.need - 1, 0x80, 0xBF, p.acc * 64 + (byte - 0x80)⟩
  have hpos := h.need_pos
  have hle := h.need_le
  have hpower : 64 ^ (p.need - 1) = 64 * 64 ^ (p.need - 1 - 1) := by
    rw [← pow_succ', Nat.sub_add_cancel (by omega)]
  have hleast : p.least ≤ next.least := by
    have hbyte : p.acc * 64 + (p.lo - 0x80) ≤ p.acc * 64 + (byte - 0x80) := by omega
    have hnext : next.least = (p.acc * 64 + (byte - 0x80)) * 64 ^ (p.need - 1) := by
      have hsum : (p.acc * 64 + (byte - 0x80)) * 64 + (0x80 - 0x80) =
          (p.acc * 64 + (byte - 0x80)) * 64 := by omega
      simp only [next, Owing.least, hsum]
      rw [hpower, ← Nat.mul_assoc]
    rw [hnext]
    exact Nat.mul_le_mul_right _ hbyte
  have hmost : next.most ≤ p.most := by
    have hbyte : p.acc * 64 + (byte - 0x80) + 1 ≤ p.acc * 64 + (p.hi - 0x80) + 1 := by omega
    have hscale := Nat.mul_le_mul_right (64 ^ (p.need - 1)) hbyte
    have hnext : next.most = (p.acc * 64 + (byte - 0x80) + 1) * 64 ^ (p.need - 1) - 1 := by
      have hsum : (p.acc * 64 + (byte - 0x80)) * 64 + (0xBF - 0x80) + 1 =
          (p.acc * 64 + (byte - 0x80) + 1) * 64 := by omega
      simp only [next, Owing.most, hsum]
      rw [hpower, ← Nat.mul_assoc]
    have hmost : p.most = (p.acc * 64 + (p.hi - 0x80) + 1) * 64 ^ (p.need - 1) - 1 := rfl
    omega
  have habove := h.above
  have hscalar := h.scalar
  change next.Sound
  refine ⟨?_, ?_, Nat.le_refl _, Nat.le_refl _, by omega, by omega⟩
  · change 1 ≤ p.need - 1
    omega
  · change p.need - 1 ≤ 3
    omega

theorem sound_feed {owed : Option Owing} (h : Sound owed) (b : UInt8) : Sound (feed owed b).1 := by
  cases owed with
  | none => exact sound_start b
  | some p =>
      have hp := h p rfl
      simp only [feed]
      split_ifs with hrange hlast
      · exact sound_none
      · intro next hsome
        simp only [Option.some.injEq] at hsome
        subst hsome
        exact hp.continue hrange hlast
      · exact sound_start b

/-! ### What a byte decodes to -/

def ascii (b : UInt8) : Char := Char.ofNat b.toNat

theorem toNat_ofNat_of_valid {n : Nat} (hvalid : n < 0xD800 ∨ (0xE000 ≤ n ∧ n < 0x110000)) :
    (Char.ofNat n).toNat = n := by
  have hscalar : n.isValidChar := by
    unfold Nat.isValidChar
    omega
  unfold Char.ofNat
  rw [dif_pos hscalar]
  rfl

theorem toNat_ascii {b : UInt8} (hascii : b.toNat < 0x80) : (ascii b).toNat = b.toNat :=
  toNat_ofNat_of_valid (by omega)

theorem toNat_replacement : replacement.toNat = 0xFFFD := toNat_ofNat_of_valid (by omega)

theorem ascii_inj {a b : UInt8} (ha : a.toNat < 0x80) (hb : b.toNat < 0x80)
    (heq : ascii a = ascii b) : a = b := by
  have hnat := congrArg Char.toNat heq
  rw [toNat_ascii ha, toNat_ascii hb] at hnat
  exact UInt8.toNat_inj.mp hnat

theorem start_ascii {b : UInt8} (hascii : b.toNat < 0x80) : start b = (none, [ascii b]) := by
  simp [start, hascii, ascii]

/-- An ASCII byte ends whatever was owed before it. -/
theorem feed_ascii {owed : Option Owing} (h : Sound owed) {b : UInt8} (hascii : b.toNat < 0x80) :
    feed owed b = (none, decodeFrom owed [] ++ [ascii b]) := by
  cases owed with
  | none => simp [feed, start_ascii hascii, decodeFrom]
  | some p =>
      have hlow := (h p rfl).lo_ge
      have hout : ¬ (p.lo ≤ b.toNat ∧ b.toNat ≤ p.hi) := by omega
      simp [feed, hout, start_ascii hascii, decodeFrom]

theorem start_emits {b : UInt8} {c : Char} (hmem : c ∈ (start b).2) :
    (c = ascii b ∧ b.toNat < 0x80) ∨ 0x80 ≤ c.toNat := by
  unfold start at hmem
  split_ifs at hmem with hascii
  · exact Or.inl ⟨List.mem_singleton.mp hmem, hascii⟩
  · cases hlead : lead b.toNat with
    | some p => simp [hlead] at hmem
    | none =>
        simp only [hlead, List.mem_singleton] at hmem
        rw [hmem, toNat_replacement]
        omega

/-- Only an ASCII byte produces an ASCII character. -/
theorem feed_emits {owed : Option Owing} (h : Sound owed) {b : UInt8} {c : Char}
    (hmem : c ∈ (feed owed b).2) : (c = ascii b ∧ b.toNat < 0x80) ∨ 0x80 ≤ c.toNat := by
  cases owed with
  | none => exact start_emits hmem
  | some p =>
      have hp := h p rfl
      simp only [feed] at hmem
      split_ifs at hmem with hrange hlast
      · -- The last byte of a character: the range says it is above ASCII.
        have habove := hp.above
        have hscalar := hp.scalar
        have hlow := hp.lo_ge
        simp only [Owing.least, Owing.most, hlast, Nat.sub_self, pow_zero, Nat.mul_one]
          at habove hscalar
        simp only [List.mem_singleton] at hmem
        rw [hmem, toNat_ofNat_of_valid (by omega)]
        omega
      · cases hmem
      · rcases List.mem_cons.mp hmem with rfl | hmem
        · rw [toNat_replacement]
          omega
        · exact start_emits hmem

theorem mem_decodeFrom_ascii {owed : Option Owing} (h : Sound owed) {bytes : List UInt8}
    {c : Char} (hmem : c ∈ decodeFrom owed bytes) (hascii : c.toNat < 0x80) :
    ∃ b ∈ bytes, b.toNat < 0x80 ∧ c = ascii b := by
  induction bytes generalizing owed with
  | nil =>
      cases owed with
      | none => cases hmem
      | some p =>
          simp only [decodeFrom, List.mem_singleton] at hmem
          rw [hmem, toNat_replacement] at hascii
          omega
  | cons b rest ih =>
      rw [decodeFrom_cons] at hmem
      rcases List.mem_append.mp hmem with hhead | htail
      · rcases feed_emits h hhead with ⟨heq, hlow⟩ | hhigh
        · exact ⟨b, List.mem_cons_self, hlow, heq⟩
        · omega
      · obtain ⟨other, hother, hlow, heq⟩ := ih (sound_feed h b) htail
        exact ⟨other, List.mem_cons_of_mem _ hother, hlow, heq⟩

/-! ### ASCII bytes separate -/

theorem decodeFrom_append_ascii {owed : Option Owing} (h : Sound owed) {b : UInt8}
    (hascii : b.toNat < 0x80) (first second : List UInt8) :
    decodeFrom owed (first ++ b :: second) = decodeFrom owed first ++ ascii b :: lossy second := by
  induction first generalizing owed with
  | nil =>
      rw [List.nil_append, decodeFrom_cons, feed_ascii h hascii]
      simp [lossy]
  | cons head rest ih =>
      rw [List.cons_append, decodeFrom_cons, decodeFrom_cons, ih (sound_feed h head),
        List.append_assoc]

theorem lossy_append_ascii {b : UInt8} (hascii : b.toNat < 0x80) (first second : List UInt8) :
    lossy (first ++ b :: second) = lossy first ++ ascii b :: lossy second :=
  decodeFrom_append_ascii sound_none hascii first second

theorem lossy_cons_ascii {b : UInt8} (hascii : b.toNat < 0x80) (rest : List UInt8) :
    lossy (b :: rest) = ascii b :: lossy rest := lossy_append_ascii hascii [] rest

/-- ASCII text is decoded as it stands. -/
theorem lossy_of_ascii {bytes : List UInt8} (hascii : ∀ b ∈ bytes, b.toNat < 0x80) :
    lossy bytes = bytes.map ascii := by
  induction bytes with
  | nil => rfl
  | cons b rest ih =>
      obtain ⟨hhead, hrest⟩ := List.forall_mem_cons.mp hascii
      rw [lossy_cons_ascii hhead, ih hrest, List.map_cons]

theorem mem_lossy_ascii {b : UInt8} (hascii : b.toNat < 0x80) (bytes : List UInt8) :
    ascii b ∈ lossy bytes ↔ b ∈ bytes := by
  constructor
  · intro hmem
    have hlow : (ascii b).toNat < 0x80 := by rw [toNat_ascii hascii]; exact hascii
    obtain ⟨other, hother, hlow, heq⟩ := mem_decodeFrom_ascii sound_none hmem hlow
    exact ascii_inj hascii hlow heq ▸ hother
  · intro hmem
    obtain ⟨first, second, rfl⟩ := List.append_of_mem hmem
    rw [lossy_append_ascii hascii]
    simp

/-! ### Sizes -/

/-- The UTF-8 bytes of a text. -/
def encode (chars : List Char) : List UInt8 := chars.flatMap String.utf8EncodeChar

@[simp] theorem encode_nil : encode [] = [] := rfl

theorem encode_cons (c : Char) (rest : List Char) :
    encode (c :: rest) = String.utf8EncodeChar c ++ encode rest := List.flatMap_cons

@[simp] theorem encode_append (first second : List Char) :
    encode (first ++ second) = encode first ++ encode second := List.flatMap_append ..

@[simp] theorem length_encode_cons (c : Char) (rest : List Char) :
    (encode (c :: rest)).length = c.utf8Size + (encode rest).length := by
  simp [encode, List.flatMap_cons]

/-- An unfinished character owes one replacement character. -/
def debt : Option Owing → Nat
  | none => 0
  | some _ => 1

@[simp] theorem debt_none : debt none = 0 := rfl

@[simp] theorem debt_some (p : Owing) : debt (some p) = 1 := rfl

theorem length_start (b : UInt8) : (start b).2.length + debt (start b).1 = 1 := by
  unfold start
  split_ifs
  · rfl
  · cases lead b.toNat <;> rfl

theorem length_feed_le (owed : Option Owing) (b : UInt8) :
    (feed owed b).2.length + debt (feed owed b).1 ≤ 1 + debt owed := by
  have hstart := length_start b
  cases owed with
  | none =>
      simp only [feed, debt_none]
      omega
  | some p =>
      simp only [feed]
      split_ifs
      · simp only [debt_none, debt_some, List.length_singleton]
        omega
      · simp only [debt_some, List.length_nil]
        omega
      · simp only [debt_some, List.length_cons]
        omega

theorem length_decodeFrom_le (owed : Option Owing) (bytes : List UInt8) :
    (decodeFrom owed bytes).length ≤ bytes.length + debt owed := by
  induction bytes generalizing owed with
  | nil => cases owed <;> simp [decodeFrom, debt]
  | cons b rest ih =>
      have hfeed := length_feed_le owed b
      have hrest := ih (feed owed b).1
      rw [decodeFrom_cons, List.length_append, List.length_cons]
      omega

theorem length_lossy_le (bytes : List UInt8) : (lossy bytes).length ≤ bytes.length :=
  length_decodeFrom_le none bytes

theorem utf8Size_of_toNat_lt {c : Char} (hascii : c.toNat < 0x80) : c.utf8Size = 1 := by
  rw [Char.utf8Size_eq_one_iff, UInt32.le_iff_toNat_le]
  have hval : c.val.toNat = c.toNat := rfl
  change c.val.toNat ≤ 127
  omega

theorem decodeFrom_some_ne_nil (p : Owing) (bytes : List UInt8) :
    decodeFrom (some p) bytes ≠ [] := by
  induction bytes generalizing p with
  | nil => simp [decodeFrom]
  | cons b rest ih =>
      rw [decodeFrom_cons]
      simp only [feed]
      split_ifs
      · simp
      · simpa using ih _
      · simp

/-- No byte disappears. -/
theorem lossy_eq_nil (bytes : List UInt8) : lossy bytes = [] ↔ bytes = [] := by
  cases bytes with
  | nil => simp
  | cons b rest =>
      simp only [lossy, decodeFrom_cons, feed, reduceCtorEq, iff_false]
      unfold start
      split_ifs
      · simp
      · cases lead b.toNat with
        | none => simp
        | some p => simpa using decodeFrom_some_ne_nil p rest

example : lossy [0x61, 0xF0, 0x9F, 0x62, 0xC3, 0xA9] = ['a', replacement, 'b', 'é'] := by decide

theorem encodeChar_of_ascii {c : Char} (hascii : c.toNat < 0x80) :
    String.utf8EncodeChar c = [UInt8.ofNat c.toNat] := by
  have hle : c.val.toNat ≤ 127 := Nat.le_of_lt_succ hascii
  unfold String.utf8EncodeChar
  rw [if_pos hle]
  rfl

/-- A character outside ASCII has no byte of ASCII at its front. -/
theorem exists_not_ascii_of_encodeChar {c : Char} (hnot : ¬ c.toNat < 0x80) :
    ∃ b ∈ String.utf8EncodeChar c, 0x80 ≤ b.toNat := by
  have hgt : ¬ c.val.toNat ≤ 127 := fun h => hnot (Nat.lt_succ_of_le h)
  unfold String.utf8EncodeChar
  rw [if_neg hgt]
  split_ifs
  all_goals
    refine ⟨_, List.mem_cons_self, ?_⟩
    simp only [UInt8.toNat_ofNat']
    omega

/-- A text all of whose bytes are of a kind within ASCII has only characters
of that kind. -/
theorem of_all_encode {kind : UInt8 → Bool} (hkind : ∀ b, kind b = true → b.toNat < 0x80)
    {chars : List Char} (hall : (encode chars).all kind = true) {c : Char} (hmem : c ∈ chars) :
    c.toNat < 0x80 ∧ kind (UInt8.ofNat c.toNat) = true := by
  have hchar : ∀ b ∈ String.utf8EncodeChar c, kind b = true := by
    intro b hb
    exact List.all_eq_true.mp hall b (List.mem_flatMap.mpr ⟨c, hmem, hb⟩)
  have hascii : c.toNat < 0x80 := by
    by_contra hnot
    obtain ⟨b, hb, hlarge⟩ := exists_not_ascii_of_encodeChar hnot
    have hsmall := hkind b (hchar b hb)
    omega
  rw [encodeChar_of_ascii hascii] at hchar
  exact ⟨hascii, hchar _ List.mem_cons_self⟩

theorem length_encode_le_four (chars : List Char) : (encode chars).length ≤ 4 * chars.length := by
  induction chars with
  | nil => exact Nat.zero_le _
  | cons c rest ih =>
      have hsize := Char.utf8Size_le_four c
      rw [length_encode_cons, List.length_cons]
      omega

theorem length_encode_of_ascii {chars : List Char} (hascii : ∀ c ∈ chars, c.toNat < 0x80) :
    (encode chars).length = chars.length := by
  induction chars with
  | nil => rfl
  | cons c rest ih =>
      obtain ⟨hc, hrest⟩ := List.forall_mem_cons.mp hascii
      rw [length_encode_cons, utf8Size_of_toNat_lt hc, ih hrest, List.length_cons]
      omega

theorem length_le_encode (chars : List Char) : chars.length ≤ (encode chars).length := by
  induction chars with
  | nil => exact Nat.le_refl 0
  | cons c rest ih =>
      have hpos := c.utf8Size_pos
      rw [length_encode_cons, List.length_cons]
      omega

/-! ### Strict decoding -/

/-- `String::from_utf8`, as characters. -/
def decode (bytes : List UInt8) : Option (List Char) := bytes.toByteArray.utf8Decode?.map Array.toList

theorem decode_encode (chars : List Char) : decode (encode chars) = some chars := by
  have hdecode := List.utf8Decode?_utf8Encode (l := chars)
  unfold decode encode
  rw [← List.utf8Encode, hdecode]
  rfl

theorem encode_of_decode {bytes : List UInt8} {chars : List Char}
    (hdecode : decode bytes = some chars) : encode chars = bytes := by
  obtain ⟨array, harray, rfl⟩ := Option.map_eq_some_iff.mp hdecode
  have hsome : bytes.toByteArray.utf8Decode?.isSome := by
    rw [harray]
    rfl
  have hencode := ByteArray.utf8Encode_get_utf8Decode? (h := hsome)
  simp only [harray, Option.get_some] at hencode
  have hlists := congrArg (fun array => array.data.toList) hencode
  simpa [List.utf8Encode, encode] using hlists

end Utf8
