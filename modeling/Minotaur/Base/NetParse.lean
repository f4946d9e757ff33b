import Minotaur.Base.Net
import Minotaur.Base.Text

/-!
Internet addresses read from their text, the way the standard library of the
modelled program reads them. A reader takes what it reads off the front of a
text, or fails. An IPv6 address is read in two parts around `::`, and either
part may end in an address in dotted form. Whatever is printed reads back, up
to the flow label, which is not printed.
-/

namespace Net

/-- `read_given_char`. -/
def readChar (c : Char) : List Char → Option (List Char)
  | [] => none
  | first :: rest => if first = c then some rest else none

/-- `char::to_digit`. -/
def toDigit (radix : Nat) (c : Char) : Option Nat :=
  let digit :=
    if '0' ≤ c ∧ c ≤ '9' then c.toNat - '0'.toNat
    else if 'a' ≤ c ∧ c ≤ 'z' then c.toNat - 'a'.toNat + 10
    else if 'A' ≤ c ∧ c ≤ 'Z' then c.toNat - 'A'.toNat + 10
    else radix
  if digit < radix then some digit else none

def isDigit (radix : Nat) (c : Char) : Bool := (toDigit radix c).isSome

def digitsValue (radix : Nat) (digits : List Char) : Nat :=
  digits.foldl (fun value c => value * radix + (toDigit radix c).getD 0) 0

/-- `read_number`, for a type with the values below `bound`. -/
def readNumber (radix : Nat) (maxDigits : Option Nat) (allowZeroPrefix : Bool) (bound : Nat)
    (text : List Char) : Option (Nat × List Char) :=
  let digits := text.takeWhile (isDigit radix)
  if maxDigits.any (· < digits.length) then none
  else if digits = [] then none
  else if !allowZeroPrefix && digits.head? = some '0' && 1 < digits.length then none
  else if digitsValue radix digits < bound then
    some (digitsValue radix digits, text.drop digits.length)
  else none

def readSeparator {α : Type} (separator : Char) (index : Nat)
    (inner : List Char → Option (α × List Char)) (text : List Char) : Option (α × List Char) :=
  if 0 < index then (readChar separator text).bind inner else inner text

def ofOctets (a b c d : Nat) : Ipv4Addr := BitVec.ofNat 32 (((a * 256 + b) * 256 + c) * 256 + d)

def readOctet (index : Nat) : List Char → Option (Nat × List Char) :=
  readSeparator '.' index (readNumber 10 (some 3) false 256)

def readIpv4Addr (text : List Char) : Option (Ipv4Addr × List Char) := do
  let (a, text) ← readOctet 0 text
  let (b, text) ← readOctet 1 text
  let (c, text) ← readOctet 2 text
  let (d, text) ← readOctet 3 text
  some (ofOctets a b c d, text)

/-- `read_groups`, with `left` of the groups still to be read. The flag tells
whether the last two came from an address in dotted form. -/
def readGroups : Nat → Nat → List Char → List Nat × Bool × List Char
  | 0, _, text => ([], false, text)
  | left + 1, index, text =>
      match if 0 < left then readSeparator ':' index readIpv4Addr text else none with
      | some (addr, rest) =>
          ([octet addr 0 * 256 + octet addr 1, octet addr 2 * 256 + octet addr 3], true, rest)
      | none =>
          match readSeparator ':' index (readNumber 16 (some 4) true 65536) text with
          | some (group, rest) =>
              let (groups, ipv4, rest) := readGroups left (index + 1) rest
              (group :: groups, ipv4, rest)
          | none => ([], false, text)

def ofSegments (segments : List Nat) : Ipv6Addr :=
  BitVec.ofNat 128 (segments.foldl (fun value segment => value * 65536 + segment) 0)

def readIpv6Addr (text : List Char) : Option (Ipv6Addr × List Char) :=
  let (head, headIpv4, text) := readGroups 8 0 text
  if head.length = 8 then some (ofSegments head, text)
  else if headIpv4 then none
  else do
    let text ← readChar ':' text
    let text ← readChar ':' text
    let (tail, _, text) := readGroups (7 - head.length) 0 text
    let zeros := List.replicate (8 - head.length - tail.length) 0
    some (ofSegments (head ++ zeros ++ tail), text)

def readIpAddr (text : List Char) : Option (IpAddr × List Char) :=
  ((readIpv4Addr text).map fun (addr, rest) => (.V4 addr, rest)) <|>
    (readIpv6Addr text).map fun (addr, rest) => (.V6 addr, rest)

def readPort (text : List Char) : Option (UInt16 × List Char) := do
  let text ← readChar ':' text
  let (port, text) ← readNumber 10 none true (2 ^ 16) text
  some (UInt16.ofNat port, text)

def readScopeId (text : List Char) : Option (UInt32 × List Char) := do
  let text ← readChar '%' text
  let (scopeId, text) ← readNumber 10 none true (2 ^ 32) text
  some (UInt32.ofNat scopeId, text)

def readSocketAddrV4 (text : List Char) : Option (SocketAddr × List Char) := do
  let (ip, text) ← readIpv4Addr text
  let (port, text) ← readPort text
  some (.V4 ip port, text)

def readSocketAddrV6 (text : List Char) : Option (SocketAddr × List Char) := do
  let text ← readChar '[' text
  let (ip, text) ← readIpv6Addr text
  let (scopeId, text) := (readScopeId text).getD (0, text)
  let text ← readChar ']' text
  let (port, text) ← readPort text
  some (.V6 ip port 0 scopeId, text)

def readSocketAddr (text : List Char) : Option (SocketAddr × List Char) :=
  readSocketAddrV4 text <|> readSocketAddrV6 text

/-- `parse_with`: nothing may be left. -/
def parseWith {α : Type} (inner : List Char → Option (α × List Char)) (text : String) : Option α :=
  match inner text.toList with
  | some (value, []) => some value
  | _ => none

def IpAddr.parse : String → Option IpAddr := parseWith readIpAddr

def SocketAddr.parse : String → Option SocketAddr := parseWith readSocketAddr

/-- A dotted end counts as two groups, and an octet has no leading zero. -/
example : SocketAddr.parse "[1:2:3:4:5:6:192.0.2.1%3]:0080" =
      some (.V6 0x000100020003000400050006c0000201#128 80 0 3) ∧
    IpAddr.parse "192.0.02.1" = none := by
  decide +kernel

/-! ### Numbers -/

theorem toDigit_digitChar {digit : Nat} :
    (digit < 10 → toDigit 10 (Nat.digitChar digit) = some digit) ∧
      (digit < 16 → toDigit 16 (Nat.digitChar digit) = some digit) := by
  have hten : ∀ digit < 10, toDigit 10 (Nat.digitChar digit) = some digit := by decide
  have hsixteen : ∀ digit < 16, toDigit 16 (Nat.digitChar digit) = some digit := by decide
  exact ⟨hten digit, hsixteen digit⟩

/-- The radices in use, which print and read the same digits. -/
structure IsRadix (radix : Nat) : Prop where
  two_le : 1 < radix
  digit : ∀ digit < radix, toDigit radix (Nat.digitChar digit) = some digit

theorem isRadix_ten : IsRadix 10 := ⟨by decide, fun _ => toDigit_digitChar.1⟩

theorem isRadix_sixteen : IsRadix 16 := ⟨by decide, fun _ => toDigit_digitChar.2⟩

variable {radix : Nat}

theorem digitsValue_append (left right : List Char) :
    digitsValue radix (left ++ right) =
      right.foldl (fun value c => value * radix + (toDigit radix c).getD 0)
        (digitsValue radix left) := by
  unfold digitsValue
  rw [List.foldl_append]

theorem digitsValue_toDigits (hradix : IsRadix radix) (n : Nat) :
    (∀ c ∈ Nat.toDigits radix n, isDigit radix c = true) ∧
      digitsValue radix (Nat.toDigits radix n) = n := by
  have htwo := hradix.two_le
  induction n using Nat.strongRecOn with
  | ind n ih =>
      by_cases hlt : n < radix
      · rw [Nat.toDigits_of_lt_base hlt]
        simp [isDigit, digitsValue, hradix.digit n hlt]
      · obtain ⟨hdigits, hvalue⟩ := ih (n / radix) (Nat.div_lt_self (by omega) htwo)
        have hlast := hradix.digit (n % radix) (Nat.mod_lt n (by omega))
        rw [Nat.toDigits_of_base_le htwo (by omega), digitsValue_append, hvalue]
        constructor
        · intro c hc
          rcases List.mem_append.mp hc with hc | hc
          · exact hdigits c hc
          · rw [List.mem_singleton.mp hc]
            simp [isDigit, hlast]
        · simp only [List.foldl_cons, List.foldl_nil, hlast, Option.getD_some]
          exact Nat.div_add_mod' n radix

/-- No digit of the radix comes first. -/
def EndsNumber (radix : Nat) (rest : List Char) : Prop :=
  ∀ c, rest.head? = some c → isDigit radix c = false

theorem endsNumber_cons {c : Char} (hc : isDigit radix c = false) (rest : List Char) :
    EndsNumber radix (c :: rest) := by
  intro first hfirst
  rwa [← Option.some.inj hfirst]

theorem takeWhile_digits {digits : List Char} (hdigits : ∀ c ∈ digits, isDigit radix c = true)
    {rest : List Char} (hrest : EndsNumber radix rest) :
    (digits ++ rest).takeWhile (isDigit radix) = digits := by
  rw [List.takeWhile_append_of_pos hdigits]
  cases rest with
  | nil => simp
  | cons c rest =>
      have hc := hrest c rfl
      rw [List.takeWhile_cons_of_neg (by simp [hc]), List.append_nil]

/-- A printed number reads back, if it may begin with a zero or has radix 10. -/
theorem readNumber_toDigits (hradix : IsRadix radix) {maxDigits : Option Nat} {zeroPrefix : Bool}
    (hzero : zeroPrefix = true ∨ radix = 10) {n bound : Nat} (hbound : n < bound)
    (hlength : ∀ max ∈ maxDigits, (Nat.toDigits radix n).length ≤ max) {rest : List Char}
    (hrest : EndsNumber radix rest) :
    readNumber radix maxDigits zeroPrefix bound (Nat.toDigits radix n ++ rest) =
      some (n, rest) := by
  obtain ⟨hdigits, hvalue⟩ := digitsValue_toDigits hradix n
  have hshort : ¬ maxDigits.any (· < (Nat.toDigits radix n).length) = true := by
    rw [Option.any_eq_true]
    rintro ⟨max, hmax, hlong⟩
    exact absurd (hlength max hmax) (by simpa using hlong)
  have hlead : ¬ (!zeroPrefix && decide ((Nat.toDigits radix n).head? = some '0') &&
      decide (1 < (Nat.toDigits radix n).length)) = true := by
    simp only [Bool.and_eq_true, Bool.not_eq_true', decide_eq_true_eq]
    rintro ⟨⟨hplain, hhead⟩, hlong⟩
    rcases hzero with hzero | rfl
    · rw [hzero] at hplain
      cases hplain
    · rw [Text.zero_of_head_toDigits hhead] at hlong
      exact absurd hlong (by decide)
  unfold readNumber
  rw [takeWhile_digits hdigits hrest]
  simp only [if_neg hshort, if_neg Nat.toDigits_ne_nil, if_neg hlead, hvalue, if_pos hbound,
    List.drop_left]

theorem readNumber_of_ends {maxDigits : Option Nat} {zeroPrefix : Bool} {bound : Nat}
    {text : List Char} (htext : EndsNumber radix text) :
    readNumber radix maxDigits zeroPrefix bound text = none := by
  have hnone : text.takeWhile (isDigit radix) = [] := by
    simpa using @takeWhile_digits radix [] (by simp) _ htext
  unfold readNumber
  simp [hnone]

/-- A number leaves what follows its digits. -/
theorem rest_of_readNumber {maxDigits : Option Nat} {zeroPrefix : Bool} {bound n : Nat}
    {text rest : List Char}
    (hread : readNumber radix maxDigits zeroPrefix bound text = some (n, rest)) :
    rest = text.dropWhile (isDigit radix) := by
  unfold readNumber at hread
  dsimp only at hread
  have hparts : text.takeWhile (isDigit radix) ++ text.dropWhile (isDigit radix) = text :=
    List.takeWhile_append_dropWhile
  have hdrop : text.drop (text.takeWhile (isDigit radix)).length =
      text.dropWhile (isDigit radix) := by
    calc text.drop (text.takeWhile (isDigit radix)).length
        = (text.takeWhile (isDigit radix) ++ text.dropWhile (isDigit radix)).drop
            (text.takeWhile (isDigit radix)).length := by rw [hparts]
      _ = text.dropWhile (isDigit radix) := List.drop_left
  split_ifs at hread
  obtain ⟨-, rfl⟩ := Prod.mk.inj (Option.some.inj hread)
  exact hdrop

/-! ### Dotted form -/

theorem octet_lt (addr : Ipv4Addr) (index : Nat) : octet addr index < 256 := BitVec.isLt _

theorem ofOctets_octet (addr : Ipv4Addr) :
    ofOctets (octet addr 0) (octet addr 1) (octet addr 2) (octet addr 3) = addr := by
  apply BitVec.eq_of_toNat_eq
  have hlt := addr.isLt
  simp only [ofOctets, octet, BitVec.toNat_ofNat, BitVec.extractLsb'_toNat,
    Nat.shiftRight_eq_div_pow]
  omega

theorem readOctet_toDigits (addr : Ipv4Addr) (position : Nat) {rest : List Char}
    (hrest : EndsNumber 10 rest) :
    readNumber 10 (some 3) false 256 (Nat.toDigits 10 (octet addr position) ++ rest) =
      some (octet addr position, rest) := by
  have hlt := octet_lt addr position
  refine readNumber_toDigits isRadix_ten (Or.inr rfl) hlt ?_ hrest
  intro max hmax
  obtain rfl := Option.some.inj hmax
  exact (Nat.length_toDigits_le_iff (by decide) (by decide)).mpr (by omega)

theorem showIpv4_toList (addr : Ipv4Addr) :
    (showIpv4 addr).toList = Nat.toDigits 10 (octet addr 0) ++ '.' ::
      (Nat.toDigits 10 (octet addr 1) ++ '.' :: (Nat.toDigits 10 (octet addr 2) ++ '.' ::
        Nat.toDigits 10 (octet addr 3))) := by
  simp [showIpv4]

theorem readIpv4Addr_show (addr : Ipv4Addr) {rest : List Char} (hrest : EndsNumber 10 rest) :
    readIpv4Addr ((showIpv4 addr).toList ++ rest) = some (addr, rest) := by
  have hdot : ∀ rest, EndsNumber 10 ('.' :: rest) := endsNumber_cons (by decide)
  have hread := readOctet_toDigits addr
  have hfirst : ∀ rest, readOctet 0 rest = readNumber 10 (some 3) false 256 rest := fun _ => rfl
  have hnext : ∀ index rest, readOctet (index + 1) ('.' :: rest) =
      readNumber 10 (some 3) false 256 rest := fun _ _ => rfl
  rw [showIpv4_toList]
  simp only [List.append_assoc, List.cons_append, readIpv4Addr, Option.bind_eq_bind, hfirst,
    hread 0 (hdot _), Option.bind_some, hnext 0, hread 1 (hdot _), hnext 1, hread 2 (hdot _),
    hnext 2, hread 3 hrest, ofOctets_octet]

theorem isDigit_sixteen {c : Char} (hc : isDigit 10 c = true) : isDigit 16 c = true := by
  unfold isDigit toDigit at hc ⊢
  dsimp only at hc ⊢
  split_ifs at hc ⊢ <;> first | rfl | omega

theorem EndsNumber.ten {rest : List Char} (hrest : EndsNumber 16 rest) : EndsNumber 10 rest := by
  intro c hc
  cases hten : isDigit 10 c with
  | false => rfl
  | true => exact absurd (isDigit_sixteen hten) (by simp [hrest c hc])

theorem readIpv4Addr_of_ends {text : List Char} (htext : EndsNumber 10 text) :
    readIpv4Addr text = none := by
  have hfirst : readOctet 0 text = none := readNumber_of_ends htext
  simp only [readIpv4Addr, Option.bind_eq_bind, hfirst, Option.bind_none]

/-- Digits that no dot follows. -/
theorem head_dropWhile_digits {digits : List Char} (hdigits : '.' ∉ digits) {rest : List Char}
    (hrest : EndsNumber 10 rest) (hdot : rest.head? ≠ some '.') :
    ((digits ++ rest).dropWhile (isDigit 10)).head? ≠ some '.' := by
  induction digits with
  | nil =>
      cases rest with
      | nil => simp
      | cons c rest =>
          have hc := hrest c rfl
          rwa [List.nil_append, List.dropWhile_cons_of_neg (by simp [hc])]
  | cons c digits ih =>
      rw [List.mem_cons, not_or] at hdigits
      by_cases hc : isDigit 10 c = true
      · rw [List.cons_append, List.dropWhile_cons_of_pos hc]
        exact ih hdigits.2
      · rw [List.cons_append, List.dropWhile_cons_of_neg hc, List.head?_cons]
        exact fun h => hdigits.1 (Option.some.inj h).symm

/-- A group of an IPv6 address is not taken for an address in dotted form. -/
theorem readIpv4Addr_group (group : Nat) {rest : List Char} (hrest : EndsNumber 16 rest)
    (hdot : rest.head? ≠ some '.') :
    readIpv4Addr (Nat.toDigits 16 group ++ rest) = none := by
  have hdigits : '.' ∉ Nat.toDigits 16 group := by
    intro hmem
    exact absurd ((digitsValue_toDigits isRadix_sixteen group).1 _ hmem) (by decide)
  cases hfirst : readOctet 0 (Nat.toDigits 16 group ++ rest) with
  | none => simp only [readIpv4Addr, Option.bind_eq_bind, hfirst, Option.bind_none]
  | some read =>
      obtain ⟨value, left⟩ := read
      have hleft : left.head? ≠ some '.' := by
        rw [rest_of_readNumber hfirst]
        exact head_dropWhile_digits hdigits hrest.ten hdot
      have hnext : readOctet 1 left = none := by
        cases left with
        | nil => rfl
        | cons c left =>
            have hc : c ≠ '.' := fun h => hleft (congrArg some h)
            simp [readOctet, readSeparator, readChar, hc]
      simp only [readIpv4Addr, Option.bind_eq_bind, hfirst, Option.bind_some, hnext,
        Option.bind_none]

/-! ### Groups -/

/-- A text at which the groups of an IPv6 address end. -/
structure EndsGroups (rest : List Char) : Prop where
  number : EndsNumber 16 rest
  dot : rest.head? ≠ some '.'
  colon : ∀ more, rest = ':' :: more → EndsNumber 16 more

theorem endsGroups_nil : EndsGroups [] where
  number := by simp [EndsNumber]
  dot := by simp
  colon := by simp

theorem endsGroups_cons {c : Char} (hnumber : isDigit 16 c = false) (hdot : c ≠ '.')
    (hcolon : c ≠ ':') (rest : List Char) : EndsGroups (c :: rest) where
  number := endsNumber_cons hnumber rest
  dot h := hdot (Option.some.inj h)
  colon _ h := absurd (List.cons.inj h).1 hcolon

theorem endsGroups_gap (rest : List Char) : EndsGroups (':' :: ':' :: rest) where
  number := endsNumber_cons (by decide) _
  dot := by simp
  colon more h := by
    rw [← (List.cons.inj h).2]
    exact endsNumber_cons (by decide) _

/-- The groups that follow another one. -/
def colonText (groups : List Nat) : List Char :=
  groups.flatMap fun group => ':' :: Nat.toDigits 16 group

def groupsText : List Nat → List Char
  | [] => []
  | group :: rest => Nat.toDigits 16 group ++ colonText rest

theorem showSegments_toList (groups : List Nat) :
    (showSegments groups).toList = groupsText groups := by
  unfold showSegments
  induction groups with
  | nil => rfl
  | cons group rest ih =>
      cases rest with
      | nil => simp [groupsText, colonText, showSegment]
      | cons next rest =>
          rw [List.map_cons, List.map_cons, String.intercalate_cons_cons, ← List.map_cons]
          simp only [String.toList_append, ih, showSegment, String.toList_ofList]
          simp [groupsText, colonText]

theorem ends_colonText (groups : List Nat) {rest : List Char} (hnumber : EndsNumber 16 rest)
    (hdot : rest.head? ≠ some '.') :
    EndsNumber 16 (colonText groups ++ rest) ∧ (colonText groups ++ rest).head? ≠ some '.' := by
  cases groups with
  | nil => exact ⟨hnumber, hdot⟩
  | cons group groups =>
      constructor
      · exact endsNumber_cons (by decide) _
      · simp [colonText]

theorem readSeparator_of_ends {α : Type} {inner : List Char → Option (α × List Char)}
    (hinner : ∀ text, EndsNumber 16 text → inner text = none) {index : Nat} {rest : List Char}
    (hrest : EndsGroups rest) : readSeparator ':' index inner rest = none := by
  unfold readSeparator
  split_ifs
  · cases rest with
    | nil => rfl
    | cons c rest =>
        by_cases hc : c = ':'
        · simp only [readChar, if_pos hc, Option.bind_some]
          exact hinner rest (hrest.colon rest (by rw [hc]))
        · simp only [readChar, if_neg hc, Option.bind_none]
  · exact hinner rest hrest.number

theorem readGroups_of_ends (left index : Nat) {rest : List Char} (hrest : EndsGroups rest) :
    readGroups left index rest = ([], false, rest) := by
  cases left with
  | zero => rfl
  | succ left =>
      have hipv4 := @readSeparator_of_ends _ readIpv4Addr
        (fun _ htext => readIpv4Addr_of_ends htext.ten) index rest hrest
      have hgroup := @readSeparator_of_ends _ (readNumber 16 (some 4) true 65536)
        (fun _ htext => readNumber_of_ends htext) index rest hrest
      unfold readGroups
      rw [hipv4, hgroup, ite_self]

/-- One group is read, and the groups after it. -/
theorem readGroups_group {left index group : Nat} (hgroup : group < 65536) {text rest : List Char}
    (htext : ∀ {α : Type} (inner : List Char → Option (α × List Char)),
      readSeparator ':' index inner text = inner (Nat.toDigits 16 group ++ rest))
    (hnumber : EndsNumber 16 rest) (hdot : rest.head? ≠ some '.') :
    readGroups (left + 1) index text =
      (group :: (readGroups left (index + 1) rest).1, (readGroups left (index + 1) rest).2) := by
  have hlength : (Nat.toDigits 16 group).length ≤ 4 :=
    (Nat.length_toDigits_le_iff (by decide) (by decide)).mpr (by omega)
  have hread : readNumber 16 (some 4) true 65536 (Nat.toDigits 16 group ++ rest) =
      some (group, rest) :=
    readNumber_toDigits isRadix_sixteen (Or.inl rfl) hgroup (by simpa using hlength) hnumber
  rw [readGroups]
  rw [htext, htext, readIpv4Addr_group group hnumber hdot, hread, ite_self]

theorem readGroups_colonText {groups : List Nat} (hlt : ∀ group ∈ groups, group < 65536)
    {left index : Nat} (hleft : groups.length ≤ left) (hindex : 0 < index) {rest : List Char}
    (hrest : EndsGroups rest) :
    readGroups left index (colonText groups ++ rest) = (groups, false, rest) := by
  induction groups generalizing left index with
  | nil => exact readGroups_of_ends left index hrest
  | cons group groups ih =>
      obtain ⟨hnumber, hdot⟩ := ends_colonText groups hrest.number hrest.dot
      cases left with
      | zero => simp at hleft
      | succ left =>
          have htail := ih (fun other h => hlt other (List.mem_cons_of_mem _ h))
            (Nat.le_of_succ_le_succ hleft) (Nat.succ_pos index)
          rw [readGroups_group (hlt group List.mem_cons_self) ?_ hnumber hdot, htail]
          intro α inner
          simp [readSeparator, hindex, colonText, readChar]

theorem readGroups_groupsText {groups : List Nat} (hlt : ∀ group ∈ groups, group < 65536)
    {left : Nat} (hleft : groups.length ≤ left) {rest : List Char} (hrest : EndsGroups rest) :
    readGroups left 0 (groupsText groups ++ rest) = (groups, false, rest) := by
  cases groups with
  | nil => exact readGroups_of_ends left 0 hrest
  | cons group groups =>
      obtain ⟨hnumber, hdot⟩ := ends_colonText groups hrest.number hrest.dot
      cases left with
      | zero => simp at hleft
      | succ left =>
          have htail := readGroups_colonText
            (fun other h => hlt other (List.mem_cons_of_mem _ h))
            (Nat.le_of_succ_le_succ hleft) (Nat.succ_pos 0) hrest
          rw [readGroups_group (hlt group List.mem_cons_self) ?_ hnumber hdot, htail]
          intro α inner
          simp [readSeparator, groupsText]

/-! ### IPv6 -/

/-- A stretch of zeros, by its start and length. -/
def ZeroRun (list : List Nat) (run : Nat × Nat) : Prop :=
  ∀ index, run.1 ≤ index → index < run.1 + run.2 → list[index]? = some 0

theorem zeroRun_longestZeros {list left : List Nat} {index : Nat} {current best : Nat × Nat}
    (hleft : list.drop index = left) (hcurrent : ZeroRun list current)
    (hlast : current.2 = 0 ∨ current.1 + current.2 = index) (hbest : ZeroRun list best) :
    ZeroRun list (longestZeros index current best left) := by
  induction left generalizing index current best with
  | nil => exact hbest
  | cons segment left ih =>
      have hhere : list[index]? = some segment := by
        rw [← List.head?_drop, hleft, List.head?_cons]
      have hrest : list.drop (index + 1) = left := by
        rw [← List.tail_drop, hleft, List.tail_cons]
      unfold longestZeros
      by_cases hsegment : segment = 0
      · rw [if_pos hsegment]
        have hgrown : ZeroRun list
            (if current.2 = 0 then index else current.1, current.2 + 1) := by
          intro position hstart hend
          dsimp only at hstart hend
          by_cases hposition : position = index
          · rw [hposition, hhere, hsegment]
          · rcases hlast with hlast | hlast
            · rw [if_pos hlast] at hstart hend
              omega
            · split_ifs at hstart hend
              · omega
              · exact hcurrent position hstart (by omega)
        have hends :
            (if current.2 = 0 then index else current.1) + (current.2 + 1) = index + 1 := by
          split_ifs <;> omega
        dsimp only
        refine ih hrest hgrown (Or.inr hends) ?_
        by_cases hlonger : best.2 < current.2 + 1
        · rw [if_pos hlonger]
          exact hgrown
        · rw [if_neg hlonger]
          exact hbest
      · rw [if_neg hsegment]
        exact ih hrest (fun _ _ h => absurd h (by simp)) (Or.inl rfl) hbest

theorem ZeroRun.split {list : List Nat} {run : Nat × Nat} (hrun : ZeroRun list run)
    (hsome : 0 < run.2) :
    run.1 + run.2 ≤ list.length ∧
      list = list.take run.1 ++ List.replicate run.2 0 ++ list.drop (run.1 + run.2) := by
  have hlast := hrun (run.1 + run.2 - 1) (by omega) (by omega)
  obtain ⟨hlength, -⟩ := List.getElem?_eq_some_iff.mp hlast
  refine ⟨by omega, ?_⟩
  have hzeros : (list.drop run.1).take run.2 = List.replicate run.2 0 := by
    apply List.ext_getElem?
    intro index
    by_cases hindex : index < run.2
    · rw [List.getElem?_take_of_lt hindex, List.getElem?_drop,
        hrun (run.1 + index) (by omega) (by omega), List.getElem?_replicate_of_lt hindex]
    · rw [List.getElem?_eq_none (by simp; omega), List.getElem?_eq_none (by simp; omega)]
  rw [← hzeros, List.append_assoc, ← List.drop_drop, List.take_append_drop, List.take_append_drop]

theorem ofSegments_segments (addr : Ipv6Addr) : ofSegments (segments addr) = addr := by
  apply BitVec.eq_of_toNat_eq
  have hlt := addr.isLt
  simp only [ofSegments, segments, List.range, List.range.loop, List.map_cons, List.map_nil,
    List.foldl_cons, List.foldl_nil, BitVec.toNat_ofNat, BitVec.extractLsb'_toNat,
    Nat.shiftRight_eq_div_pow]
  omega

theorem segments_length (addr : Ipv6Addr) : (segments addr).length = 8 := by
  simp [segments]

theorem readIpv6Addr_groups (addr : Ipv6Addr) {rest : List Char} (hrest : EndsGroups rest) :
    readIpv6Addr (groupsText (segments addr) ++ rest) = some (addr, rest) := by
  have hlength := segments_length addr
  have hread := readGroups_groupsText (segments_lt addr) (by omega : _ ≤ 8) hrest
  unfold readIpv6Addr
  rw [hread]
  simp only [if_pos hlength, ofSegments_segments]

/-- The zeros that were left out are put back. -/
theorem readIpv6Addr_gap {addr : Ipv6Addr} {head tail : List Nat} {zeros : Nat}
    (hsegments : segments addr = head ++ List.replicate zeros 0 ++ tail) (hzeros : 1 < zeros)
    {rest : List Char} (hrest : EndsGroups rest) :
    readIpv6Addr (groupsText head ++ ':' :: ':' :: (groupsText tail ++ rest)) =
      some (addr, rest) := by
  have hlength := segments_length addr
  have hlt := segments_lt addr
  rw [hsegments] at hlength hlt
  simp only [List.length_append, List.length_replicate] at hlength
  have hhead := readGroups_groupsText (fun group h => hlt group (by simp [h]))
    (by omega : head.length ≤ 8) (endsGroups_gap (groupsText tail ++ rest))
  have htail := readGroups_groupsText (fun group h => hlt group (by simp [h]))
    (by omega : tail.length ≤ 7 - head.length) hrest
  have hleft : 8 - head.length - tail.length = zeros := by omega
  unfold readIpv6Addr
  rw [hhead]
  dsimp only
  rw [if_neg (by omega), if_neg (by simp)]
  simp only [readChar, if_true, Option.bind_eq_bind, Option.bind_some, htail, hleft, ← hsegments,
    ofSegments_segments]

theorem ofSegments_mapped (mapped : Ipv4Addr) :
    ofSegments [0, 0, 0, 0, 0, 0xffff, octet mapped 0 * 256 + octet mapped 1,
      octet mapped 2 * 256 + octet mapped 3] = toIpv6Mapped mapped := by
  apply BitVec.eq_of_toNat_eq
  have hlt := mapped.isLt
  simp only [ofSegments, toIpv6Mapped, octet, List.foldl_cons, List.foldl_nil, BitVec.toNat_ofNat,
    BitVec.toNat_append, BitVec.extractLsb'_toNat, Nat.shiftRight_eq_div_pow]
  rw [← Nat.shiftLeft_add_eq_or_of_lt (by omega), Nat.shiftLeft_eq]
  omega

theorem readIpv6Addr_mapped (mapped : Ipv4Addr) {rest : List Char} (hrest : EndsGroups rest) :
    readIpv6Addr (':' :: ':' :: (Nat.toDigits 16 0xffff ++
      ':' :: ((showIpv4 mapped).toList ++ rest))) = some (toIpv6Mapped mapped, rest) := by
  have hread := readIpv4Addr_show mapped hrest.number.ten
  have hhead := readGroups_of_ends 8 0 (endsGroups_gap
    (Nat.toDigits 16 0xffff ++ ':' :: ((showIpv4 mapped).toList ++ rest)))
  have hdotted : readGroups 6 1 (':' :: ((showIpv4 mapped).toList ++ rest)) =
      ([octet mapped 0 * 256 + octet mapped 1, octet mapped 2 * 256 + octet mapped 3], true,
        rest) := by
    have hsome : readSeparator ':' 1 readIpv4Addr (':' :: ((showIpv4 mapped).toList ++ rest)) =
        some (mapped, rest) := by
      simp [readSeparator, readChar, hread]
    rw [readGroups, if_pos (by decide), hsome]
  have htail := @readGroups_group 6 0 0xffff (by decide) _
    (':' :: ((showIpv4 mapped).toList ++ rest)) (fun _ => if_neg (Nat.lt_irrefl 0))
    (endsNumber_cons (by decide) _) (by simp)
  rw [hdotted] at htail
  unfold readIpv6Addr
  rw [hhead]
  dsimp only [List.length_nil]
  rw [if_neg (by decide), if_neg (by simp)]
  simp only [readChar, if_true, Option.bind_eq_bind, Option.bind_some, htail]
  exact congrArg (fun addr => some (addr, rest)) (ofSegments_mapped mapped)

theorem toIpv6Mapped_of_mapped {addr : Ipv6Addr} {mapped : Ipv4Addr}
    (hmapped : toIpv4Mapped addr = some mapped) : addr = toIpv6Mapped mapped := by
  unfold toIpv4Mapped at hmapped
  split_ifs at hmapped with hhigh
  rw [← Option.some.inj hmapped, toIpv6Mapped, ← hhigh]
  apply BitVec.eq_of_toNat_eq
  have hlt := addr.isLt
  simp only [BitVec.toNat_append, BitVec.extractLsb'_toNat, Nat.shiftRight_eq_div_pow]
  rw [← Nat.shiftLeft_add_eq_or_of_lt (by omega), Nat.shiftLeft_eq]
  omega

/-- What `showIpv6` prints, in the three forms it has. -/
inductive ShownIpv6 (addr : Ipv6Addr) : List Char → Prop where
  | mapped {mapped : Ipv4Addr} (haddr : addr = toIpv6Mapped mapped) :
      ShownIpv6 addr (':' :: ':' :: (Nat.toDigits 16 0xffff ++ ':' :: (showIpv4 mapped).toList))
  | gap {head tail : List Nat} {zeros : Nat}
      (hsegments : segments addr = head ++ List.replicate zeros 0 ++ tail) (hzeros : 1 < zeros) :
      ShownIpv6 addr (groupsText head ++ ':' :: ':' :: groupsText tail)
  | groups : ShownIpv6 addr (groupsText (segments addr))

theorem shownIpv6 (addr : Ipv6Addr) : ShownIpv6 addr (showIpv6 addr).toList := by
  unfold showIpv6
  cases hmapped : toIpv4Mapped addr with
  | some mapped =>
      have hdigits : Nat.toDigits 16 0xffff = ['f', 'f', 'f', 'f'] := rfl
      have hshown := ShownIpv6.mapped (toIpv6Mapped_of_mapped hmapped)
      rw [hdigits] at hshown
      simpa using hshown
  | none =>
      dsimp only
      split_ifs with hzeros
      · have hnone : ZeroRun (segments addr) (0, 0) := fun _ _ h => absurd h (by simp)
        have hrun := zeroRun_longestZeros (List.drop_zero (l := segments addr)) hnone
          (Or.inl rfl) hnone
        obtain ⟨-, hsegments⟩ := hrun.split (by omega)
        have hshown := ShownIpv6.gap hsegments hzeros
        simpa [showSegments_toList] using hshown
      · rw [showSegments_toList]
        exact ShownIpv6.groups

theorem readIpv6Addr_show (addr : Ipv6Addr) {rest : List Char} (hrest : EndsGroups rest) :
    readIpv6Addr ((showIpv6 addr).toList ++ rest) = some (addr, rest) := by
  have hshown := shownIpv6 addr
  generalize (showIpv6 addr).toList = text at hshown
  cases hshown with
  | mapped haddr =>
      rw [haddr]
      simpa using readIpv6Addr_mapped _ hrest
  | gap hsegments hzeros => simpa using readIpv6Addr_gap hsegments hzeros hrest
  | groups => exact readIpv6Addr_groups addr hrest

theorem readIpv4Addr_groupsText (groups : List Nat) {rest : List Char}
    (hrest : EndsGroups rest) : readIpv4Addr (groupsText groups ++ rest) = none := by
  cases groups with
  | nil => exact readIpv4Addr_of_ends hrest.number.ten
  | cons group groups =>
      obtain ⟨hnumber, hdot⟩ := ends_colonText groups hrest.number hrest.dot
      rw [groupsText, List.append_assoc]
      exact readIpv4Addr_group group hnumber hdot

/-- The text of an IPv6 address is not one of an IPv4 address. -/
theorem readIpv4Addr_showIpv6 (addr : Ipv6Addr) {rest : List Char} (hrest : EndsGroups rest) :
    readIpv4Addr ((showIpv6 addr).toList ++ rest) = none := by
  have hshown := shownIpv6 addr
  generalize (showIpv6 addr).toList = text at hshown
  cases hshown with
  | mapped haddr => exact readIpv4Addr_of_ends (endsNumber_cons (by decide) _)
  | gap hsegments hzeros =>
      rw [List.append_assoc]
      exact readIpv4Addr_groupsText _ (endsGroups_gap _)
  | groups => exact readIpv4Addr_groupsText _ hrest

/-! ### Whatever is printed reads back -/

theorem IpAddr.parse_show (ip : IpAddr) : IpAddr.parse ip.show = some ip := by
  cases ip with
  | V4 addr =>
      have hread := readIpv4Addr_show addr endsGroups_nil.number.ten
      rw [List.append_nil] at hread
      simp [IpAddr.parse, parseWith, readIpAddr, IpAddr.show, hread]
  | V6 addr =>
      have hread := readIpv6Addr_show addr endsGroups_nil
      have hother := readIpv4Addr_showIpv6 addr endsGroups_nil
      rw [List.append_nil] at hread hother
      simp [IpAddr.parse, parseWith, readIpAddr, IpAddr.show, hread, hother]

/-- The address without its flow label, which has no text form. -/
def SocketAddr.unlabelled : SocketAddr → SocketAddr
  | .V4 ip port => .V4 ip port
  | .V6 ip port _ scopeId => .V6 ip port 0 scopeId

theorem readPort_show (port : UInt16) :
    readPort (':' :: (toString port.toNat).toList) = some (port, []) := by
  have hread := @readNumber_toDigits 10 isRadix_ten none true (Or.inl rfl) port.toNat (2 ^ 16)
    port.toNat_lt (by simp) [] endsGroups_nil.number.ten
  rw [List.append_nil] at hread
  simp [readPort, readChar, hread]

theorem readScopeId_show (scopeId : UInt32) {rest : List Char} (hrest : EndsNumber 10 rest) :
    readScopeId ('%' :: ((toString scopeId.toNat).toList ++ rest)) = some (scopeId, rest) := by
  have hread := @readNumber_toDigits 10 isRadix_ten none true (Or.inl rfl) scopeId.toNat (2 ^ 32)
    scopeId.toNat_lt (by simp) rest hrest
  simp [readScopeId, readChar, hread]

theorem readSocketAddr_bracket (ip : Ipv6Addr) (port : UInt16) {scopeId : UInt32}
    {text : List Char} (htext : EndsGroups text)
    (hscope : (readScopeId text).getD (0, text) =
      (scopeId, ']' :: ':' :: (toString port.toNat).toList)) :
    readSocketAddr ('[' :: ((showIpv6 ip).toList ++ text)) =
      some (.V6 ip port 0 scopeId, []) := by
  have hip := readIpv6Addr_show ip htext
  have hport := readPort_show port
  have hopen : ∀ rest, readChar '[' ('[' :: rest) = some rest := fun _ => rfl
  have hclose : ∀ rest, readChar ']' (']' :: rest) = some rest := fun _ => rfl
  have hother : readSocketAddrV4 ('[' :: ((showIpv6 ip).toList ++ text)) = none := by
    have hdotted := @readIpv4Addr_of_ends ('[' :: ((showIpv6 ip).toList ++ text))
      (endsNumber_cons (by decide) _)
    simp only [readSocketAddrV4, hdotted, Option.bind_eq_bind, Option.bind_none]
  simp only [readSocketAddr, hother, readSocketAddrV6, hopen, hip, hscope, hclose, hport,
    Option.bind_eq_bind, Option.bind_some]
  rfl

theorem SocketAddr.parse_show (addr : SocketAddr) :
    SocketAddr.parse addr.show = some addr.unlabelled := by
  cases addr with
  | V4 ip port =>
      have hip := @readIpv4Addr_show ip (':' :: (toString port.toNat).toList)
        (endsNumber_cons (by decide) _)
      have hport := readPort_show port
      have htext : (SocketAddr.V4 ip port).show.toList =
          (showIpv4 ip).toList ++ ':' :: (toString port.toNat).toList := by
        simp [SocketAddr.show]
      simp only [SocketAddr.parse, parseWith, readSocketAddr, readSocketAddrV4, htext, hip, hport,
        Option.bind_eq_bind, Option.bind_some]
      rfl
  | V6 ip port flowinfo scopeId =>
      have hclose : EndsGroups (']' :: ':' :: (toString port.toNat).toList) :=
        endsGroups_cons (by decide) (by decide) (by decide) _
      by_cases hscope : scopeId = 0
      · subst hscope
        have hread := readSocketAddr_bracket ip port hclose rfl
        have htext : (SocketAddr.V6 ip port flowinfo 0).show.toList =
            '[' :: ((showIpv6 ip).toList ++ ']' :: ':' :: (toString port.toNat).toList) := by
          simp [SocketAddr.show]
        simp only [SocketAddr.parse, parseWith, htext, hread, SocketAddr.unlabelled]
      · have hscoped := readScopeId_show scopeId hclose.number.ten
        have hpercent : EndsGroups ('%' :: ((toString scopeId.toNat).toList ++
            ']' :: ':' :: (toString port.toNat).toList)) :=
          endsGroups_cons (by decide) (by decide) (by decide) _
        have hread := readSocketAddr_bracket ip port hpercent
          (by rw [hscoped, Option.getD_some])
        have htext : (SocketAddr.V6 ip port flowinfo scopeId).show.toList =
            '[' :: ((showIpv6 ip).toList ++ '%' :: ((toString scopeId.toNat).toList ++
              ']' :: ':' :: (toString port.toNat).toList)) := by
          simp [SocketAddr.show, hscope]
        simp only [SocketAddr.parse, parseWith, htext, hread, SocketAddr.unlabelled]

/-- What is read has no flow label. -/
theorem SocketAddr.unlabelled_of_parse {text : String} {addr : SocketAddr}
    (hparse : SocketAddr.parse text = some addr) : addr.unlabelled = addr := by
  unfold SocketAddr.parse parseWith at hparse
  cases hread : readSocketAddr text.toList with
  | none =>
      rw [hread] at hparse
      cases hparse
  | some read =>
      obtain ⟨value, rest⟩ := read
      obtain rfl : value = addr := by
        rw [hread] at hparse
        cases rest with
        | nil => exact Option.some.inj hparse
        | cons c rest => cases hparse
      unfold readSocketAddr at hread
      cases hdotted : readSocketAddrV4 text.toList with
      | some dotted =>
          rw [hdotted] at hread
          obtain rfl : dotted = (value, rest) := Option.some.inj hread
          simp only [readSocketAddrV4, Option.bind_eq_bind, Option.bind_eq_some_iff,
            Option.some.injEq, Prod.mk.injEq] at hdotted
          obtain ⟨_, _, _, _, rfl, _⟩ := hdotted
          rfl
      | none =>
          rw [hdotted] at hread
          change readSocketAddrV6 text.toList = some (value, rest) at hread
          simp only [readSocketAddrV6, Option.bind_eq_bind, Option.bind_eq_some_iff,
            Option.some.injEq, Prod.mk.injEq] at hread
          obtain ⟨_, _, _, _, _, _, _, _, rfl, _⟩ := hread
          rfl

end Net
