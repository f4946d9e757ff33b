import Minotaur.Base.Json
import Minotaur.Base.Text

/-!
Reading compact JSON text. The reader takes one value from the front of a text
and hands back what follows; it knows no white space and no escaped surrogates,
which compact text does not have. `fuel` bounds the nesting and the number of
items read, and the length of the text is always enough.

`parse_text` says that reading inverts writing, so two values never have one
text.
-/

namespace Json

/-- What follows `word` at the front of `text`. -/
def expect (word text : List Char) : Option (List Char) :=
  if word.isPrefixOf text then some (text.drop word.length) else none

def hexDigit (c : Char) : Option Nat := (List.range 16).find? fun n => Nat.digitChar n = c

/-- The character of a short escape. -/
def shortUnescape (letter : Char) : Option Char :=
  if letter = quote then some quote
  else if letter = backslash then some backslash
  else if letter = 'b' then some (Char.ofNat 0x08)
  else if letter = 't' then some (Char.ofNat 0x09)
  else if letter = 'n' then some (Char.ofNat 0x0a)
  else if letter = 'f' then some (Char.ofNat 0x0c)
  else if letter = 'r' then some (Char.ofNat 0x0d)
  else none

/-- One character after a backslash. -/
def unescape : List Char → Option (Char × List Char)
  | [] => none
  | 'u' :: digits => do
      let values ← (digits.take 4).mapM hexDigit
      let code := values.foldl (fun code value => 16 * code + value) 0
      if values.length = 4 ∧ code.isValidChar then some (Char.ofNat code, digits.drop 4) else none
  | letter :: rest => (shortUnescape letter).map fun c => (c, rest)

/-- The characters up to the closing quote. -/
def stringBody : Nat → List Char → Option (List Char × List Char)
  | 0, _ => none
  | _, [] => none
  | fuel + 1, c :: rest =>
      if c = quote then some ([], rest)
      else if c = backslash then do
        let (read, rest) ← unescape rest
        let (body, rest) ← stringBody fuel rest
        return (read :: body, rest)
      else do
        let (body, rest) ← stringBody fuel rest
        return (c :: body, rest)

/-- A string from its opening quote on. -/
def readString (text : List Char) : Option (String × List Char) := do
  let rest ← expect [quote] text
  let (body, rest) ← stringBody text.length rest
  return (String.ofList body, rest)

/-- A natural number; digits follow a leading zero in none. -/
def readNum (text : List Char) : Option (Nat × List Char) :=
  let digits := text.takeWhile Char.isDigit
  if digits = [] ∨ (digits.head? = some '0' ∧ digits.length ≠ 1) then none
  else some (Nat.ofDigitChars 10 digits 0, text.drop digits.length)

mutual

def value : Nat → List Char → Option (Json × List Char)
  | 0, _ => none
  | _, [] => none
  | fuel + 1, c :: rest =>
      if c = 'n' then (expect "ull".toList rest).map fun rest => (.null, rest)
      else if c = 't' then (expect "rue".toList rest).map fun rest => (.bool true, rest)
      else if c = 'f' then (expect "alse".toList rest).map fun rest => (.bool false, rest)
      else if c = quote then (readString (c :: rest)).map fun (read, rest) => (.str read, rest)
      else if c = '[' then
        match expect [']'] rest with
        | some rest => some (.arr [], rest)
        | none => (items fuel rest).map fun (read, rest) => (.arr read, rest)
      else if c = '{' then
        match expect ['}'] rest with
        | some rest => some (.obj [], rest)
        | none => (members fuel rest).map fun (read, rest) => (.obj read, rest)
      else (readNum (c :: rest)).map fun (read, rest) => (.num read, rest)

/-- One item or more, with commas between them, and the closing bracket. -/
def items : Nat → List Char → Option (List Json × List Char)
  | 0, _ => none
  | fuel + 1, text => do
      let (first, rest) ← value fuel text
      match expect [','] rest with
      | some rest =>
          let (others, rest) ← items fuel rest
          return (first :: others, rest)
      | none => return ([first], ← expect [']'] rest)

def members : Nat → List Char → Option (List (String × Json) × List Char)
  | 0, _ => none
  | fuel + 1, text => do
      let (name, rest) ← readString text
      let (first, rest) ← value fuel (← expect [':'] rest)
      match expect [','] rest with
      | some rest =>
          let (others, rest) ← members fuel rest
          return ((name, first) :: others, rest)
      | none => return ([(name, first)], ← expect ['}'] rest)

end

/-- The value of a whole text. -/
def parse (text : List Char) : Option Json :=
  match value text.length text with
  | some (read, []) => some read
  | _ => none

/-! ### Reading what was written -/

@[simp] theorem expect_append (word rest : List Char) : expect word (word ++ rest) = some rest := by
  unfold expect
  rw [if_pos (List.isPrefixOf_iff_prefix.mpr (List.prefix_append word rest)), List.drop_left]

@[simp] theorem expect_self (c : Char) (rest : List Char) : expect [c] (c :: rest) = some rest :=
  expect_append [c] rest

theorem expect_other {c other : Char} (hne : c ≠ other) (rest : List Char) :
    expect [c] (other :: rest) = none := by
  simp [expect, hne]

theorem hexDigit_digitChar : ∀ n < 16, hexDigit (Nat.digitChar n) = some n := by decide

theorem shortUnescape_of_shortEscape {c letter : Char}
    (h : shortEscape c.toNat = some letter) :
    letter ≠ 'u' ∧ shortUnescape letter = some c := by
  have hofNat : Char.ofNat c.toNat = c := Char.ofNat_toNat c
  unfold shortEscape at h
  split_ifs at h with h1 h2 h3 h4 h5 h6 h7 <;> cases h <;> rw [← hofNat]
  · rw [h1]; decide
  · rw [h2]; decide
  · rw [h3]; decide
  · rw [h4]; decide
  · rw [h5]; decide
  · rw [h6]; decide
  · rw [h7]; decide

/-- A control character is written with its code. -/
theorem unescape_code {c : Char} (hcontrol : c.toNat < 0x20) (rest : List Char) :
    unescape ('u' :: '0' :: '0' :: Nat.digitChar (c.toNat / 16) :: Nat.digitChar (c.toNat % 16) ::
      rest) = some (c, rest) := by
  have hhigh := hexDigit_digitChar (c.toNat / 16) (by omega)
  have hlow := hexDigit_digitChar (c.toNat % 16) (by omega)
  have hzero : hexDigit '0' = some 0 := rfl
  have hcode : 16 * (c.toNat / 16) + c.toNat % 16 = c.toNat := Nat.div_add_mod _ _
  have hvalid : c.toNat.isValidChar := Or.inl (by omega)
  simp [unescape, hhigh, hlow, hzero, hcode, hvalid]

/-- A character is written as it is, or escaped and then read back. -/
theorem escape_cases (c : Char) :
    (c ≠ quote ∧ c ≠ backslash ∧ escape c = [c]) ∨
      ∃ code, escape c = backslash :: code ∧ ∀ rest, unescape (code ++ rest) = some (c, rest) := by
  unfold escape
  cases hshort : shortEscape c.toNat with
  | some letter =>
      obtain ⟨hne, hletter⟩ := shortUnescape_of_shortEscape hshort
      refine Or.inr ⟨[letter], rfl, fun rest => ?_⟩
      rw [List.singleton_append, unescape.eq_def]
      split
      · contradiction
      · rename_i heq
        cases heq
        exact absurd rfl hne
      · rename_i heq
        cases heq
        rw [hletter]
        rfl
  | none =>
      by_cases hcontrol : c.toNat < 0x20
      · refine Or.inr ⟨_, if_pos hcontrol, fun rest => ?_⟩
        exact unescape_code hcontrol rest
      · refine Or.inl ⟨?_, ?_, if_neg hcontrol⟩
        · rintro rfl
          exact absurd hshort (by decide)
        · rintro rfl
          exact absurd hshort (by decide)

theorem stringBody_escape (chars rest : List Char) (fuel : Nat) (hfuel : chars.length < fuel) :
    stringBody fuel (chars.flatMap escape ++ quote :: rest) = some (chars, rest) := by
  induction chars generalizing fuel with
  | nil =>
      obtain ⟨fuel, rfl⟩ : ∃ less, fuel = less + 1 := ⟨fuel - 1, by simp at hfuel; omega⟩
      simp [stringBody]
  | cons c chars ih =>
      rw [List.length_cons] at hfuel
      obtain ⟨fuel, rfl⟩ : ∃ less, fuel = less + 1 := ⟨fuel - 1, by omega⟩
      have htail := ih fuel (by omega)
      rcases escape_cases c with ⟨hquote, hbackslash, hplain⟩ | ⟨code, hescape, hread⟩
      · simp [hplain, stringBody, hquote, hbackslash, htail]
      · have hne : backslash ≠ quote := by decide
        simp [hescape, stringBody, hne, hread, htail]

theorem length_le_flatMap_escape (chars : List Char) :
    chars.length ≤ (chars.flatMap escape).length := by
  induction chars with
  | nil => exact Nat.le_refl 0
  | cons c chars ih =>
      have hone : 1 ≤ (escape c).length := by
        rcases escape_cases c with ⟨_, _, hplain⟩ | ⟨code, hescape, _⟩
        · simp [hplain]
        · simp [hescape]
      rw [List.flatMap_cons, List.length_append, List.length_cons]
      omega

theorem readString_string (name : String) (rest : List Char) :
    readString (string name ++ rest) = some (name, rest) := by
  have hlength := length_le_flatMap_escape name.toList
  have htext : string name ++ rest = quote :: (name.toList.flatMap escape ++ quote :: rest) := by
    simp [string]
  have hfuel : name.toList.length < (string name ++ rest).length := by
    rw [htext, List.length_cons, List.length_append]
    omega
  have hbody := stringBody_escape name.toList rest _ hfuel
  unfold readString
  rw [htext] at hbody ⊢
  simp only [expect_self, hbody, Option.pure_def, Option.bind_eq_bind, Option.bind_some,
    String.ofList_toList]

/-- What may stand behind a number. -/
def EndsNum (rest : List Char) : Prop := ∀ c, rest.head? = some c → c.isDigit = false

theorem readNum_toDigits (n : Nat) {rest : List Char} (hrest : EndsNum rest) :
    readNum (Nat.toDigits 10 n ++ rest) = some (n, rest) := by
  have hdigits : ∀ c ∈ Nat.toDigits 10 n, c.isDigit = true := fun c hc =>
    Nat.isDigit_of_mem_toDigits (by decide) (by decide) hc
  have hstop : rest.takeWhile Char.isDigit = [] := by
    cases rest with
    | nil => rfl
    | cons c rest => exact List.takeWhile_cons_of_neg (by simp [hrest c rfl])
  have htake : (Nat.toDigits 10 n ++ rest).takeWhile Char.isDigit = Nat.toDigits 10 n := by
    rw [List.takeWhile_append_of_pos hdigits, hstop, List.append_nil]
  have hlead : ¬ (Nat.toDigits 10 n = [] ∨
      ((Nat.toDigits 10 n).head? = some '0' ∧ (Nat.toDigits 10 n).length ≠ 1)) := by
    rintro (hnil | ⟨hzero, hlong⟩)
    · exact Nat.toDigits_ne_nil hnil
    · rw [Text.zero_of_head_toDigits hzero] at hlong
      exact hlong rfl
  unfold readNum
  rw [htake]
  simp only [if_neg hlead, Nat.ofDigitChars_ten_toDigits, List.drop_left]

/-- How the text of a value begins decides how it is read. -/
theorem toDigits_cons (n : Nat) : ∃ first rest, Nat.toDigits 10 n = first :: rest ∧
    first.isDigit = true := by
  cases hdigits : Nat.toDigits 10 n with
  | nil => exact absurd hdigits Nat.toDigits_ne_nil
  | cons first rest =>
      exact ⟨first, rest, rfl, Nat.isDigit_of_mem_toDigits (b := 10) (n := n) (by decide)
        (by decide) (by simp [hdigits])⟩

theorem value_digit {first : Char} (hfirst : first.isDigit = true) (fuel : Nat) (rest : List Char) :
    value (fuel + 1) (first :: rest) =
      (readNum (first :: rest)).map fun (read, rest) => (.num read, rest) := by
  have hother : ∀ c : Char, c.isDigit = false → first ≠ c := by
    rintro c hc rfl
    simp [hfirst] at hc
  rw [value, if_neg (hother 'n' rfl), if_neg (hother 't' rfl), if_neg (hother 'f' rfl),
    if_neg (hother quote rfl), if_neg (hother '[' rfl), if_neg (hother '{' rfl)]

/-- No text of a value begins with a closing bracket. -/
theorem expect_text (item : Json) (rest : List Char) : expect [']'] (item.text ++ rest) = none := by
  cases item with
  | null => exact expect_other (by decide) _
  | bool value => cases value <;> exact expect_other (by decide) _
  | str name => exact expect_other (by decide) _
  | arr list => exact expect_other (by decide) _
  | obj fields => exact expect_other (by decide) _
  | num n =>
      obtain ⟨first, digits, hdigits, hfirst⟩ := toDigits_cons n
      rw [text, hdigits, List.cons_append]
      apply expect_other
      rintro rfl
      exact absurd hfirst (by decide)

theorem commas_cons (part : List Char) {parts : List (List Char)} (hparts : parts ≠ []) :
    commas (part :: parts) = part ++ ',' :: commas parts := by
  obtain ⟨next, others, rfl⟩ := List.exists_cons_of_ne_nil hparts
  simp [commas, List.intercalate_cons_cons]

theorem commas_prefix (part : List Char) (parts : List (List Char)) :
    ∃ others, commas (part :: parts) = part ++ others := by
  by_cases hparts : parts = []
  · exact ⟨[], by simp [hparts, commas]⟩
  · exact ⟨_, commas_cons part hparts⟩

theorem endsNum_cons {c : Char} (hc : c.isDigit = false) (rest : List Char) :
    EndsNum (c :: rest) := by
  intro other hother
  cases hother
  exact hc

theorem value_string (name : String) (rest : List Char) (fuel : Nat) :
    value (fuel + 1) (string name ++ rest) = some (.str name, rest) := by
  have hread := readString_string name rest
  unfold string at hread ⊢
  rw [List.cons_append] at hread ⊢
  rw [value, if_neg (by decide), if_neg (by decide), if_neg (by decide), if_pos rfl, hread]
  rfl

theorem value_arr (fuel : Nat) (rest : List Char) :
    value (fuel + 1) ('[' :: rest) = match expect [']'] rest with
      | some rest => some (.arr [], rest)
      | none => (items fuel rest).map fun (read, rest) => (.arr read, rest) := by
  rw [value, if_neg (by decide), if_neg (by decide), if_neg (by decide), if_neg (by decide),
    if_pos rfl]

theorem value_obj (fuel : Nat) (rest : List Char) :
    value (fuel + 1) ('{' :: rest) = match expect ['}'] rest with
      | some rest => some (.obj [], rest)
      | none => (members fuel rest).map fun (read, rest) => (.obj read, rest) := by
  rw [value, if_neg (by decide), if_neg (by decide), if_neg (by decide), if_neg (by decide),
    if_neg (by decide), if_pos rfl]

theorem text_length_pos (item : Json) : 0 < item.text.length := by
  have hread := expect_text item []
  cases htext : item.text with
  | cons first rest => exact Nat.succ_pos _
  | nil =>
      cases item with
      | num n => exact absurd htext Nat.toDigits_ne_nil
      | bool value => cases value <;> cases htext
      | null | str | arr | obj => cases htext

theorem texts_ne_nil {list : List Json} (hlist : list ≠ []) : texts list ≠ [] := by
  rw [texts_eq_map]
  simpa using hlist

theorem fieldTexts_ne_nil {fields : List (String × Json)} (hfields : fields ≠ []) :
    fieldTexts fields ≠ [] := by
  rw [fieldTexts_eq_map]
  simpa using hfields

-- The induction follows the value; an item or a member is read with the fuel
-- that the text behind it does not need.
mutual

theorem value_text (item : Json) (rest : List Char) (hrest : EndsNum rest) (fuel : Nat)
    (hfuel : item.text.length ≤ fuel) : value fuel (item.text ++ rest) = some (item, rest) := by
  have hpos := text_length_pos item
  obtain ⟨fuel, rfl⟩ : ∃ less, fuel = less + 1 := ⟨fuel - 1, by omega⟩
  match item with
  | .null =>
      exact congrArg (Option.map fun rest => (Json.null, rest)) (expect_append "ull".toList rest)
  | .bool true =>
      exact congrArg (Option.map fun rest => (Json.bool true, rest))
        (expect_append "rue".toList rest)
  | .bool false =>
      exact congrArg (Option.map fun rest => (Json.bool false, rest))
        (expect_append "alse".toList rest)
  | .num n =>
      have hread := readNum_toDigits n hrest
      obtain ⟨first, digits, hdigits, hfirst⟩ := toDigits_cons n
      rw [text]
      rw [hdigits, List.cons_append] at hread ⊢
      rw [value_digit hfirst, hread]
      rfl
  | .str name => exact value_string name rest fuel
  | .arr [] => exact value_arr fuel _
  | .arr (first :: others) =>
      have hnone : expect [']'] (commas (texts (first :: others)) ++ ']' :: rest) = none := by
        obtain ⟨more, hmore⟩ := commas_prefix first.text (texts others)
        rw [texts, hmore, List.append_assoc]
        exact expect_text first _
      have hitems := items_texts (first :: others) (List.cons_ne_nil _ _) rest fuel (by
          simp only [text, List.length_cons, List.length_append, List.length_nil] at hfuel
          omega)
      rw [text, List.cons_append, List.append_assoc, value_arr]
      simp only [List.singleton_append, hnone, hitems, Option.map_some]
  | .obj [] => exact value_obj fuel _
  | .obj ((name, first) :: others) =>
      have hnone : expect ['}'] (commas (fieldTexts ((name, first) :: others)) ++ '}' :: rest) =
          none := by
        obtain ⟨more, hmore⟩ := commas_prefix (string name ++ ':' :: first.text) (fieldTexts others)
        rw [fieldTexts, hmore]
        exact expect_other (by decide) _
      have hmembers := members_fieldTexts ((name, first) :: others) (List.cons_ne_nil _ _) rest
        fuel (by
          simp only [text, List.length_cons, List.length_append, List.length_nil] at hfuel
          omega)
      rw [text, List.cons_append, List.append_assoc, value_obj]
      simp only [List.singleton_append, hnone, hmembers, Option.map_some]

theorem items_texts (list : List Json) (hlist : list ≠ []) (rest : List Char) (fuel : Nat)
    (hfuel : (commas (texts list)).length < fuel) :
    items fuel (commas (texts list) ++ ']' :: rest) = some (list, rest) := by
  obtain ⟨fuel, rfl⟩ : ∃ less, fuel = less + 1 := ⟨fuel - 1, by omega⟩
  match list with
  | [] => exact absurd rfl hlist
  | [first] =>
      have hcommas : commas (texts [first]) = first.text := by simp [texts, commas]
      rw [hcommas] at hfuel ⊢
      have hfirst := value_text first (']' :: rest) (endsNum_cons rfl rest) fuel (by omega)
      have hcomma : expect [','] (']' :: rest) = none := expect_other (by decide) rest
      simp only [items, hfirst, hcomma, expect_self, Option.bind_eq_bind, Option.bind_some,
        Option.pure_def]
  | first :: next :: others =>
      have hcommas : commas (texts (first :: next :: others)) =
          first.text ++ ',' :: commas (texts (next :: others)) :=
        commas_cons _ (texts_ne_nil (List.cons_ne_nil _ _))
      rw [hcommas, List.length_append, List.length_cons] at hfuel
      have hfirst := value_text first
        (',' :: (commas (texts (next :: others)) ++ ']' :: rest)) (endsNum_cons rfl _) fuel
        (by omega)
      have hothers := items_texts (next :: others) (List.cons_ne_nil _ _) rest fuel (by omega)
      rw [hcommas, List.append_assoc, List.cons_append]
      simp only [items, hfirst, hothers, expect_self, Option.bind_eq_bind, Option.bind_some,
        Option.pure_def]

theorem members_fieldTexts (fields : List (String × Json)) (hfields : fields ≠ [])
    (rest : List Char) (fuel : Nat) (hfuel : (commas (fieldTexts fields)).length < fuel) :
    members fuel (commas (fieldTexts fields) ++ '}' :: rest) = some (fields, rest) := by
  obtain ⟨fuel, rfl⟩ : ∃ less, fuel = less + 1 := ⟨fuel - 1, by omega⟩
  match fields with
  | [] => exact absurd rfl hfields
  | [(name, first)] =>
      have hcommas : commas (fieldTexts [(name, first)]) = string name ++ ':' :: first.text := by
        simp [fieldTexts, commas]
      rw [hcommas, List.length_append, List.length_cons] at hfuel
      have hfirst := value_text first ('}' :: rest) (endsNum_cons rfl rest) fuel (by omega)
      have hcomma : expect [','] ('}' :: rest) = none := expect_other (by decide) rest
      rw [hcommas, List.append_assoc, List.cons_append]
      simp only [members, readString_string, hfirst, hcomma, expect_self, Option.bind_eq_bind,
        Option.bind_some, Option.pure_def]
  | (name, first) :: next :: others =>
      have hcommas : commas (fieldTexts ((name, first) :: next :: others)) =
          string name ++ ':' :: (first.text ++ ',' :: commas (fieldTexts (next :: others))) := by
        rw [fieldTexts, commas_cons _ (fieldTexts_ne_nil (List.cons_ne_nil _ _)),
          List.append_assoc, List.cons_append]
      rw [hcommas, List.length_append, List.length_cons, List.length_append,
        List.length_cons] at hfuel
      have hfirst := value_text first
        (',' :: (commas (fieldTexts (next :: others)) ++ '}' :: rest)) (endsNum_cons rfl _) fuel
        (by omega)
      have hothers := members_fieldTexts (next :: others) (List.cons_ne_nil _ _) rest fuel
        (by omega)
      rw [hcommas, List.append_assoc, List.cons_append, List.append_assoc, List.cons_append]
      simp only [members, readString_string, hfirst, hothers, expect_self, Option.bind_eq_bind,
        Option.bind_some, Option.pure_def]

end

theorem parse_text (item : Json) : parse item.text = some item := by
  have hread := value_text item [] (fun c hc => by cases hc) _ (Nat.le_refl _)
  rw [List.append_nil] at hread
  unfold parse
  rw [hread]

example : ((parse "[10,\"\\u0041\"]".toList).map text == some "[10,\"A\"]".toList) = true ∧
    (parse "[01]".toList).isNone = true := by
  decide +kernel

/-! ### One line -/

/-- Characters that a text may have: no control character. -/
def Clean (chars : List Char) : Prop := ∀ c ∈ chars, 0x20 ≤ c.toNat

theorem clean_cons {c : Char} {chars : List Char} :
    Clean (c :: chars) ↔ 0x20 ≤ c.toNat ∧ Clean chars := List.forall_mem_cons

theorem clean_append {first second : List Char} :
    Clean (first ++ second) ↔ Clean first ∧ Clean second := List.forall_mem_append

theorem clean_escape (c : Char) : Clean (escape c) := by
  have hbackslash : 0x20 ≤ backslash.toNat := by decide
  have hquote : 0x20 ≤ quote.toNat := by decide
  have hdigit : ∀ n < 16, 0x20 ≤ (Nat.digitChar n).toNat := by decide
  unfold escape
  split
  · rename_i letter hletter
    unfold shortEscape at hletter
    split_ifs at hletter <;> cases hletter <;> simp [Clean, hbackslash, hquote]
  · split_ifs with hcontrol
    · have hhigh := hdigit (c.toNat / 16) (by omega)
      have hlow := hdigit (c.toNat % 16) (by omega)
      simp [Clean, hbackslash, hhigh, hlow]
    · simpa [Clean] using hcontrol

theorem clean_string (value : String) : Clean (string value) := by
  have hquote : 0x20 ≤ quote.toNat := by decide
  unfold string
  rw [clean_cons, clean_append]
  refine ⟨hquote, ?_, by simpa [Clean] using hquote⟩
  intro c hc
  obtain ⟨source, _, hsource⟩ := List.mem_flatMap.mp hc
  exact clean_escape source c hsource

theorem clean_commas {parts : List (List Char)} (hparts : ∀ part ∈ parts, Clean part) :
    Clean (commas parts) := by
  induction parts with
  | nil => simp [commas, Clean]
  | cons part parts ih =>
      have hhead := hparts part List.mem_cons_self
      have htail := ih fun part hmem => hparts part (List.mem_cons_of_mem _ hmem)
      by_cases hnil : parts = []
      · simpa [hnil, commas] using hhead
      · rw [commas_cons part hnil, clean_append, clean_cons]
        exact ⟨hhead, by decide, htail⟩

mutual

theorem clean_text (item : Json) : Clean item.text := by
  match item with
  | .null | .bool true | .bool false => simp [Clean, text]
  | .num n =>
      intro c hc
      have hdigit := Nat.isDigit_of_mem_toDigits (b := 10) (by decide) (by decide) hc
      have hrange : 48 ≤ c.toNat ∧ c.toNat ≤ 57 := Char.isDigit_iff_toNat.mp hdigit
      omega
  | .str name => exact clean_string name
  | .arr list =>
      rw [text, clean_cons, clean_append]
      exact ⟨by decide, clean_commas (clean_texts list), by simp [Clean]⟩
  | .obj fields =>
      rw [text, clean_cons, clean_append]
      exact ⟨by decide, clean_commas (clean_fieldTexts fields), by simp [Clean]⟩

theorem clean_texts (list : List Json) : ∀ part ∈ texts list, Clean part := by
  match list with
  | [] => simp [texts]
  | first :: others =>
      rw [texts, List.forall_mem_cons]
      exact ⟨clean_text first, clean_texts others⟩

theorem clean_fieldTexts (fields : List (String × Json)) :
    ∀ part ∈ fieldTexts fields, Clean part := by
  match fields with
  | [] => simp [fieldTexts]
  | (name, first) :: others =>
      rw [fieldTexts, List.forall_mem_cons, clean_append, clean_cons]
      exact ⟨⟨clean_string name, by decide, clean_text first⟩, clean_fieldTexts others⟩

end

end Json
