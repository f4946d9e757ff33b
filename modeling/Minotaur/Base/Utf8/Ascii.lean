import Mathlib.Data.List.DropRight
import Minotaur.Base.Utf8.Split

/-!
The ASCII of a text. Where a check of a decoded text is about bytes of ASCII
only, it can be made of the bytes before they are decoded; and a text that is
ASCII comes from those very bytes.
-/

namespace Utf8

open Text

/-! ### Characters and their bytes -/

theorem ascii_ofNat {c : Char} (hascii : c.toNat < 0x80) : ascii (UInt8.ofNat c.toNat) = c := by
  unfold ascii
  rw [UInt8.toNat_ofNat', Nat.mod_eq_of_lt (by omega), Char.ofNat_toNat]

/-- A character outside ASCII has no byte of ASCII. -/
theorem not_ascii_of_encodeChar {c : Char} (hnot : ¬ c.toNat < 0x80) :
    ∀ b ∈ String.utf8EncodeChar c, 0x80 ≤ b.toNat := by
  have hgt : ¬ c.val.toNat ≤ 127 := fun h => hnot (Nat.lt_succ_of_le h)
  unfold String.utf8EncodeChar
  rw [if_neg hgt]
  split_ifs
  all_goals
    intro b hb
    simp only [List.mem_cons, List.not_mem_nil, or_false] at hb
    rcases hb with rfl | rfl | rfl | rfl <;> simp only [UInt8.toNat_ofNat'] <;> omega

theorem mem_encode_ascii {b : UInt8} (hascii : b.toNat < 0x80) (chars : List Char) :
    b ∈ encode chars ↔ ascii b ∈ chars := by
  unfold encode
  rw [List.mem_flatMap]
  constructor
  · rintro ⟨c, hc, hb⟩
    by_cases hlow : c.toNat < 0x80
    · rw [encodeChar_of_ascii hlow, List.mem_singleton] at hb
      rw [hb, ascii_ofNat hlow]
      exact hc
    · have hhigh := not_ascii_of_encodeChar hlow b hb
      omega
  · intro hc
    refine ⟨ascii b, hc, ?_⟩
    rw [encodeChar_of_ascii (by rw [toNat_ascii hascii]; exact hascii), toNat_ascii hascii,
      UInt8.ofNat_toNat]
    exact List.mem_singleton_self b

/-- An ASCII text that begins the bytes of a text begins the text. -/
theorem prefix_of_encode {start text : List Char} (hascii : ∀ c ∈ start, c.toNat < 0x80)
    (hbytes : encode start <+: encode text) : start <+: text := by
  induction start generalizing text with
  | nil => exact List.nil_prefix
  | cons c rest ih =>
      obtain ⟨hc, hrest⟩ := List.forall_mem_cons.mp hascii
      have hbyte : (UInt8.ofNat c.toNat).toNat = c.toNat := by
        rw [UInt8.toNat_ofNat', Nat.mod_eq_of_lt (by omega)]
      rw [encode_cons, encodeChar_of_ascii hc, List.singleton_append] at hbytes
      cases text with
      | nil => exact absurd (List.prefix_nil.mp hbytes) (List.cons_ne_nil _ _)
      | cons other tail =>
          rw [encode_cons] at hbytes
          by_cases hlow : other.toNat < 0x80
          · rw [encodeChar_of_ascii hlow, List.singleton_append, List.cons_prefix_cons] at hbytes
            have hsame : c = other := by
              rw [← ascii_ofNat hc, ← ascii_ofNat hlow, hbytes.1]
            rw [hsame, List.cons_prefix_cons]
            exact ⟨rfl, ih hrest hbytes.2⟩
          · have hhigh := not_ascii_of_encodeChar hlow
            cases hchar : String.utf8EncodeChar other with
            | nil =>
                have hlength := String.length_utf8EncodeChar other
                rw [hchar] at hlength
                exact absurd hlength other.utf8Size_pos.ne
            | cons byte more =>
                rw [hchar] at hhigh hbytes
                rw [List.cons_append, List.cons_prefix_cons] at hbytes
                have hfirst := hhigh byte List.mem_cons_self
                rw [← hbytes.1] at hfirst
                omega

theorem lossy_encode_of_ascii {chars : List Char} (hascii : ∀ c ∈ chars, c.toNat < 0x80) :
    lossy (encode chars) = chars := by
  induction chars with
  | nil => rfl
  | cons c rest ih =>
      obtain ⟨hc, hrest⟩ := List.forall_mem_cons.mp hascii
      have hbyte : (UInt8.ofNat c.toNat).toNat < 0x80 := by
        rw [UInt8.toNat_ofNat', Nat.mod_eq_of_lt (by omega)]
        exact hc
      have hencode : encode (c :: rest) = UInt8.ofNat c.toNat :: encode rest := by
        rw [encode, List.flatMap_cons, encodeChar_of_ascii hc]
        rfl
      rw [hencode, lossy_cons_ascii hbyte, ascii_ofNat hc, ih hrest]

theorem encode_map_ascii {bytes : List UInt8} (hascii : ∀ b ∈ bytes, b.toNat < 0x80) :
    encode (bytes.map ascii) = bytes := by
  induction bytes with
  | nil => rfl
  | cons b rest ih =>
      obtain ⟨hb, hrest⟩ := List.forall_mem_cons.mp hascii
      have hchar := encodeChar_of_ascii (c := ascii b) (by rw [toNat_ascii hb]; exact hb)
      rw [toNat_ascii hb, UInt8.ofNat_toNat] at hchar
      have hencode : encode (ascii b :: rest.map ascii) =
          String.utf8EncodeChar (ascii b) ++ encode (rest.map ascii) := rfl
      rw [List.map_cons, hencode, hchar, ih hrest, List.singleton_append]

theorem encode_lossy_of_ascii {bytes : List UInt8} (hascii : ∀ b ∈ bytes, b.toNat < 0x80) :
    encode (lossy bytes) = bytes := by
  rw [lossy_of_ascii hascii, encode_map_ascii hascii]

/-! ### Checks of a decoded text -/

theorem ascii_of_lossy {bytes : List UInt8} (hall : ∀ c ∈ lossy bytes, c.toNat < 0x80) :
    ∀ b ∈ bytes, b.toNat < 0x80 := by
  induction bytes with
  | nil => exact List.forall_mem_nil _
  | cons b rest ih =>
      have hb : b.toNat < 0x80 := by
        obtain ⟨c, others, hlossy⟩ := List.exists_cons_of_ne_nil
          (fun hnil => List.cons_ne_nil b rest ((lossy_eq_nil _).mp hnil))
        have hhead : (lossy (b :: rest)).head? = some c := by rw [hlossy, List.head?_cons]
        have hc := hall c (by rw [hlossy]; exact List.mem_cons_self)
        have hlow : (UInt8.ofNat c.toNat).toNat < 0x80 := by
          rw [UInt8.toNat_ofNat']
          omega
        rw [← ascii_ofNat hc] at hhead
        obtain rfl := Option.some.inj (head_lossy_ascii hlow hhead)
        exact hlow
      rw [lossy_cons_ascii hb] at hall
      exact List.forall_mem_cons.mpr ⟨hb, ih (List.forall_mem_cons.mp hall).2⟩

section Kind

variable {kind : UInt8 → Bool} (hkind : ∀ b, kind b = true → b.toNat < 0x80)

include hkind

theorem all_encode_lossy (bytes : List UInt8) : (encode (lossy bytes)).all kind = bytes.all kind := by
  rw [Bool.eq_iff_iff]
  constructor
  · intro hall
    have hascii : ∀ b ∈ bytes, b.toNat < 0x80 :=
      ascii_of_lossy (fun c hc => (of_all_encode hkind hall hc).1)
    rw [encode_lossy_of_ascii hascii] at hall
    exact hall
  · intro hall
    have hascii : ∀ b ∈ bytes, b.toNat < 0x80 :=
      fun b hb => hkind b (List.all_eq_true.mp hall b hb)
    rw [encode_lossy_of_ascii hascii]
    exact hall

theorem any_encode_lossy (bytes : List UInt8) : (encode (lossy bytes)).any kind = bytes.any kind := by
  rw [Bool.eq_iff_iff, List.any_eq_true, List.any_eq_true]
  refine exists_congr fun b => and_congr_left ?_
  intro hb
  rw [mem_encode_ascii (hkind b hb), mem_lossy_ascii (hkind b hb)]

end Kind

/-- Only the ASCII text itself is decoded to it. -/
theorem lossy_eq_map_ascii {bytes text : List UInt8} (htext : ∀ b ∈ text, b.toNat < 0x80) :
    lossy bytes = text.map ascii ↔ bytes = text := by
  constructor
  · intro heq
    have hascii : ∀ b ∈ bytes, b.toNat < 0x80 := by
      apply ascii_of_lossy
      rw [heq]
      intro c hc
      obtain ⟨b, hb, rfl⟩ := List.mem_map.mp hc
      rw [toNat_ascii (htext b hb)]
      exact htext b hb
    rw [← encode_map_ascii hascii, ← encode_map_ascii htext, ← lossy_of_ascii hascii, heq]
  · rintro rfl
    exact lossy_of_ascii htext

/-! ### Cutting a text at ASCII -/

theorem splitOnce_lossy {b : UInt8} (hb : b.toNat < 0x80) (bytes : List UInt8) :
    splitOnce (ascii b) (lossy bytes) =
      (splitOnce b bytes).map fun pair => (lossy pair.1, lossy pair.2) := by
  by_cases hmem : b ∈ bytes
  · obtain ⟨first, rest, rfl, hfirst⟩ := List.eq_append_cons_of_mem hmem
    have hlossy : ascii b ∉ lossy first := fun h => hfirst ((mem_lossy_ascii hb first).mp h)
    rw [lossy_append_ascii hb, splitOnce_append hlossy, splitOnce_append hfirst, Option.map_some]
  · have hlossy : ascii b ∉ lossy bytes := fun h => hmem ((mem_lossy_ascii hb bytes).mp h)
    unfold splitOnce
    rw [if_neg hmem, if_neg hlossy, Option.map_none]

/-- Only an ASCII byte at the end decodes to an ASCII character there. -/
theorem last_lossy_ascii {b : UInt8} (hascii : b.toNat < 0x80) {bytes : List UInt8}
    (hlast : (lossy bytes).getLast? = some (ascii b)) : bytes.getLast? = some b := by
  have hmem : b ∈ bytes.reverse := by
    rw [List.mem_reverse, ← mem_lossy_ascii hascii]
    exact List.mem_of_getLast? hlast
  obtain ⟨after, before, hreverse, hafter⟩ := List.eq_append_cons_of_mem hmem
  have hbytes : bytes = before.reverse ++ b :: after.reverse := by
    rw [← List.reverse_reverse bytes, hreverse]
    simp
  rw [hbytes, lossy_append_ascii hascii] at hlast
  cases hrest : after.reverse with
  | nil => simp [hbytes, hrest]
  | cons first rest =>
      have hne : lossy (first :: rest) ≠ [] := by simp [lossy_eq_nil]
      rw [hrest, List.getLast?_append_of_ne_nil _ (List.cons_ne_nil _ _),
        List.getLast?_cons_of_ne_nil hne] at hlast
      have hlater := (mem_lossy_ascii hascii _).mp (List.mem_of_getLast? hlast)
      rw [← hrest, List.mem_reverse] at hlater
      exact absurd hlater hafter

section Trim

variable {stops : List UInt8} (hstops : ∀ b ∈ stops, b.toNat < 0x80)

include hstops

theorem contains_ascii {b : UInt8} (hascii : b.toNat < 0x80) :
    (stops.map ascii).contains (ascii b) = stops.contains b := by
  rw [Bool.eq_iff_iff, List.contains_iff_mem, List.contains_iff_mem, List.mem_map]
  constructor
  · rintro ⟨stop, hstop, heq⟩
    exact ascii_inj (hstops stop hstop) hascii heq ▸ hstop
  · exact fun hmem => ⟨b, hmem, rfl⟩

theorem lossy_dropWhile (bytes : List UInt8) :
    (lossy bytes).dropWhile (stops.map ascii).contains = lossy (bytes.dropWhile stops.contains) := by
  induction bytes with
  | nil => rfl
  | cons b rest ih =>
      by_cases hstop : stops.contains b = true
      · have hb := hstops b (List.contains_iff_mem.mp hstop)
        rw [List.dropWhile_cons_of_pos hstop, lossy_cons_ascii hb,
          List.dropWhile_cons_of_pos (by rw [contains_ascii hstops hb]; exact hstop), ih]
      · rw [List.dropWhile_cons_of_neg hstop]
        cases hlossy : lossy (b :: rest) with
        | nil => rfl
        | cons c others =>
            apply List.dropWhile_cons_of_neg
            intro hc
            obtain ⟨stop, hmem, rfl⟩ := List.mem_map.mp (List.contains_iff_mem.mp hc)
            have hhead : (lossy (b :: rest)).head? = some (ascii stop) := by
              rw [hlossy, List.head?_cons]
            obtain rfl := Option.some.inj (head_lossy_ascii (hstops stop hmem) hhead)
            exact hstop (List.contains_iff_mem.mpr hmem)

theorem lossy_rdropWhile (bytes : List UInt8) :
    (lossy bytes).rdropWhile (stops.map ascii).contains =
      lossy (bytes.rdropWhile stops.contains) := by
  induction bytes using List.reverseRecOn with
  | nil => rfl
  | append_singleton init b ih =>
      by_cases hstop : stops.contains b = true
      · have hb := hstops b (List.contains_iff_mem.mp hstop)
        have hascii : (stops.map ascii).contains (ascii b) = true := by
          rw [contains_ascii hstops hb]
          exact hstop
        rw [lossy_append_ascii hb, lossy_nil, List.rdropWhile_concat_pos _ _ _ hascii,
          List.rdropWhile_concat_pos _ _ _ hstop, ih]
      · rw [List.rdropWhile_concat_neg _ _ _ hstop]
        apply List.rdropWhile_eq_self_iff.mpr
        intro hne hc
        obtain ⟨stop, hmem, heq⟩ := List.mem_map.mp (List.contains_iff_mem.mp hc)
        have hlast : (lossy (init ++ [b])).getLast? = some (ascii stop) := by
          rw [List.getLast?_eq_some_getLast hne, heq]
        have hsame := last_lossy_ascii (hstops stop hmem) hlast
        rw [List.getLast?_concat] at hsame
        obtain rfl := Option.some.inj hsame
        exact hstop (List.contains_iff_mem.mpr hmem)

theorem lossy_trim (bytes : List UInt8) :
    trim (stops.map ascii).contains (lossy bytes) = lossy (trim stops.contains bytes) := by
  change ((lossy bytes).dropWhile (stops.map ascii).contains).rdropWhile _ = _
  rw [lossy_dropWhile hstops, lossy_rdropWhile hstops]
  rfl

end Trim

end Utf8
