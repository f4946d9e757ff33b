import Minotaur.Base.Utf8

/-!
JSON values and their compact text. Numbers are natural numbers. A text escapes
the quote, the backslash and the control characters below the space, five of
them with a letter and the others with four hexadecimal digits, and leaves
every other character as it is. `size` is the length of the text in bytes.
-/

inductive Json where
  | null
  | bool (value : Bool)
  | num (value : Nat)
  | str (value : String)
  | arr (items : List Json)
  | obj (fields : List (String × Json))

namespace Json

def quote : Char := Char.ofNat 0x22

def backslash : Char := Char.ofNat 0x5c

/-- The letter of a short escape. -/
def shortEscape (n : Nat) : Option Char :=
  if n = 0x22 then some quote
  else if n = 0x5c then some backslash
  else if n = 0x08 then some 'b'
  else if n = 0x09 then some 't'
  else if n = 0x0a then some 'n'
  else if n = 0x0c then some 'f'
  else if n = 0x0d then some 'r'
  else none

def escape (c : Char) : List Char :=
  match shortEscape c.toNat with
  | some letter => [backslash, letter]
  | none =>
      if c.toNat < 0x20 then
        [backslash, 'u', '0', '0', Nat.digitChar (c.toNat / 16), Nat.digitChar (c.toNat % 16)]
      else [c]

def string (value : String) : List Char :=
  quote :: (value.toList.flatMap escape ++ [quote])

def commas (parts : List (List Char)) : List Char := [','].intercalate parts

mutual

def text : Json → List Char
  | .null => "null".toList
  | .bool true => "true".toList
  | .bool false => "false".toList
  | .num value => Nat.toDigits 10 value
  | .str value => string value
  | .arr items => '[' :: (commas (texts items) ++ [']'])
  | .obj fields => '{' :: (commas (fieldTexts fields) ++ ['}'])

def texts : List Json → List (List Char)
  | [] => []
  | item :: rest => text item :: texts rest

def fieldTexts : List (String × Json) → List (List Char)
  | [] => []
  | (name, value) :: rest => (string name ++ ':' :: text value) :: fieldTexts rest

end

def size (value : Json) : Nat := (Utf8.encode value.text).length

example : String.ofList (arr [num 10, null, str "x\ty"]).text = "[10,null,\"x\\ty\"]" := by
  decide

/-! ### Sizes -/

def stringSize (value : String) : Nat := (Utf8.encode (string value)).length

theorem length_encode_le {chars : List Char} {bound : Nat}
    (hsize : ∀ c ∈ chars, c.utf8Size ≤ bound) :
    (Utf8.encode chars).length ≤ bound * chars.length := by
  induction chars with
  | nil => exact Nat.zero_le _
  | cons c rest ih =>
      have hhead := hsize c List.mem_cons_self
      have htail := ih fun c hc => hsize c (List.mem_cons_of_mem _ hc)
      rw [Utf8.length_encode_cons, List.length_cons, Nat.mul_succ]
      omega

theorem utf8Size_digitChar : ∀ n < 16, (Nat.digitChar n).utf8Size = 1 := by decide

theorem shortEscape_utf8Size {n : Nat} {letter : Char} (h : shortEscape n = some letter) :
    letter.utf8Size = 1 := by
  unfold shortEscape at h
  split_ifs at h <;> cases h <;> rfl

/-- Every character is escaped to at most six bytes. -/
theorem length_escape_le (c : Char) : (Utf8.encode (escape c)).length ≤ 6 := by
  unfold escape
  split
  · rename_i letter hletter
    simp [shortEscape_utf8Size hletter, show backslash.utf8Size = 1 from rfl]
  · split_ifs with hcontrol
    · have hhigh := utf8Size_digitChar (c.toNat / 16) (by omega)
      have hlow := utf8Size_digitChar (c.toNat % 16) (by omega)
      simp [hhigh, hlow, show backslash.utf8Size = 1 from rfl,
        show ('u' : Char).utf8Size = 1 from rfl, show ('0' : Char).utf8Size = 1 from rfl]
    · have hle := c.utf8Size_le_four
      simp only [Utf8.length_encode_cons, Utf8.encode_nil, List.length_nil]
      omega

/-- A printable character needs no more than a backslash in front. -/
theorem length_escape_printable {c : Char} (hprintable : 0x20 ≤ c.toNat ∧ c.toNat ≤ 0x7e) :
    (Utf8.encode (escape c)).length ≤ 2 := by
  unfold escape
  split
  · rename_i letter hletter
    simp [shortEscape_utf8Size hletter, show backslash.utf8Size = 1 from rfl]
  · rw [if_neg (by omega)]
    have hone := Utf8.utf8Size_of_toNat_lt (c := c) (by omega)
    simp [hone]

theorem length_encode_flatMap_le {chars : List Char} {bound : Nat}
    (hescape : ∀ c ∈ chars, (Utf8.encode (escape c)).length ≤ bound) :
    (Utf8.encode (chars.flatMap escape)).length ≤ bound * chars.length := by
  induction chars with
  | nil => exact Nat.zero_le _
  | cons c rest ih =>
      have hhead := hescape c List.mem_cons_self
      have htail := ih fun c hc => hescape c (List.mem_cons_of_mem _ hc)
      rw [List.flatMap_cons, Utf8.encode_append, List.length_append, List.length_cons, Nat.mul_succ]
      omega

theorem stringSize_le_of_escape {value : String} {bound : Nat}
    (hescape : ∀ c ∈ value.toList, (Utf8.encode (escape c)).length ≤ bound) :
    stringSize value ≤ bound * value.length + 2 := by
  have hchars := length_encode_flatMap_le hescape
  have hquote : quote.utf8Size = 1 := rfl
  rw [String.length_toList] at hchars
  unfold stringSize string
  simp only [Utf8.length_encode_cons, Utf8.encode_append, List.length_append, Utf8.encode_nil,
    List.length_nil]
  omega

theorem stringSize_le (value : String) : stringSize value ≤ 6 * value.length + 2 :=
  stringSize_le_of_escape fun c _ => length_escape_le c

theorem stringSize_printable {value : String}
    (hprintable : ∀ c ∈ value.toList, 0x20 ≤ c.toNat ∧ c.toNat ≤ 0x7e) :
    stringSize value ≤ 2 * value.length + 2 :=
  stringSize_le_of_escape fun c hc => length_escape_printable (hprintable c hc)

@[simp] theorem size_null : size null = 4 := rfl

theorem size_bool (value : Bool) : size (bool value) ≤ 5 := by
  cases value <;> decide

@[simp] theorem size_str (value : String) : size (str value) = stringSize value := by
  unfold size text stringSize
  rfl

theorem size_num {value digits : Nat} (hpos : 0 < digits) (hvalue : value < 10 ^ digits) :
    size (num value) ≤ 4 * digits := by
  have hlength : (Nat.toDigits 10 value).length ≤ digits :=
    (Nat.length_toDigits_le_iff (by decide) hpos).mpr hvalue
  have hsize : size (num value) ≤ 4 * (Nat.toDigits 10 value).length := by
    unfold size text
    exact length_encode_le fun c _ => c.utf8Size_le_four
  omega

theorem length_encode_commas_le (parts : List (List Char)) :
    (Utf8.encode (commas parts)).length ≤
      (parts.map fun part => (Utf8.encode part).length + 1).sum := by
  unfold commas
  induction parts with
  | nil => exact Nat.zero_le _
  | cons part rest ih =>
      cases rest with
      | nil => simp
      | cons next rest =>
          rw [List.intercalate_cons_cons]
          simp only [Utf8.encode_append, List.length_append, Utf8.length_encode_cons,
            Utf8.encode_nil, List.length_nil, List.map_cons, List.sum_cons] at ih ⊢
          have hcomma : (',' : Char).utf8Size = 1 := rfl
          omega

theorem length_encode_brackets (open' close' : Char) (body : List Char)
    (hopen : open'.utf8Size = 1) (hclose : close'.utf8Size = 1) :
    (Utf8.encode (open' :: (body ++ [close']))).length = (Utf8.encode body).length + 2 := by
  simp only [Utf8.length_encode_cons, Utf8.encode_append, List.length_append, Utf8.encode_nil,
    List.length_nil, hopen, hclose]
  omega

theorem texts_eq_map (items : List Json) : texts items = items.map text := by
  induction items with
  | nil => rfl
  | cons item rest ih => simp only [texts, List.map_cons, ih]

theorem fieldTexts_eq_map (fields : List (String × Json)) :
    fieldTexts fields = fields.map fun field => string field.1 ++ ':' :: text field.2 := by
  induction fields with
  | nil => rfl
  | cons field rest ih => simp only [fieldTexts, List.map_cons, ih]

theorem size_arr (items : List Json) :
    size (arr items) ≤ (items.map fun item => size item + 1).sum + 2 := by
  have hcommas := length_encode_commas_le (texts items)
  have hsize : size (arr items) = (Utf8.encode (commas (texts items))).length + 2 :=
    length_encode_brackets _ _ _ rfl rfl
  rw [texts_eq_map, List.map_map] at hcommas
  rw [hsize, texts_eq_map]
  exact Nat.add_le_add_right hcommas 2

/-- A member of an object: its name, a colon, its value and a comma. -/
def memberSize (field : String × Json) : Nat := stringSize field.1 + size field.2 + 2

theorem size_obj (fields : List (String × Json)) :
    size (obj fields) ≤ (fields.map memberSize).sum + 2 := by
  have hcommas := length_encode_commas_le (fieldTexts fields)
  have hmember : ∀ field : String × Json,
      (Utf8.encode (string field.1 ++ ':' :: text field.2)).length + 1 = memberSize field := by
    intro field
    have hcolon : (':' : Char).utf8Size = 1 := rfl
    unfold memberSize size stringSize
    simp only [Utf8.encode_append, List.length_append, Utf8.length_encode_cons, hcolon]
    omega
  have hsize : size (obj fields) = (Utf8.encode (commas (fieldTexts fields))).length + 2 :=
    length_encode_brackets _ _ _ rfl rfl
  have hsum : (fields.map ((fun part => (Utf8.encode part).length + 1) ∘
      fun field => string field.1 ++ ':' :: text field.2)).sum = (fields.map memberSize).sum := by
    congr 1
    apply List.map_congr_left
    intro field _
    exact hmember field
  rw [fieldTexts_eq_map, List.map_map, hsum] at hcommas
  rw [hsize, fieldTexts_eq_map]
  exact Nat.add_le_add_right hcommas 2

end Json
