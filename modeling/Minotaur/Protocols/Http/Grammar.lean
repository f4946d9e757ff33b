import Minotaur.Base.Utf8.Ascii
import Minotaur.Protocols.Http

/-!
The grammar of the requests the parser accepts, on the bytes of the header
block. The parser splits and checks a decoded text; here a request is put
together from its parts, and the parser accepts the blocks that are the bytes
of a well-formed request.
-/

namespace Minotaur.Http

open Text

/-! ### Requests -/

def crlf : List UInt8 := [13, 10]

/-- SP and HTAB. -/
def spaces : List UInt8 := [32, 9]

def digitByte (b : UInt8) : Bool := 48 ≤ b && b ≤ 57

def lowerByte (b : UInt8) : UInt8 := if 65 ≤ b ∧ b ≤ 90 then b + 32 else b

def decimal (digits : List UInt8) : Nat :=
  digits.foldl (fun number b => 10 * number + (b.toNat - 48)) 0

structure Header where
  name : List UInt8
  value : List UInt8

def Header.line (header : Header) : List UInt8 := header.name ++ 58 :: header.value

structure Header.WellFormed (header : Header) : Prop where
  name : header.name ≠ []
  token : header.name.all tokenByte = true
  value : header.value.any badValueByte = false

/-- The trimmed values of the headers of this name, which is in lower case. -/
def valuesOf (name : List UInt8) (headers : List Header) : List (List UInt8) :=
  (headers.filter fun header => header.name.map lowerByte = name).map fun header =>
    trim spaces.contains header.value

abbrev hostValues : List Header → List (List UInt8) := valuesOf (bytes "host")

abbrev userAgentValues : List Header → List (List UInt8) := valuesOf (bytes "user-agent")

abbrev contentLengthValues : List Header → List (List UInt8) := valuesOf (bytes "content-length")

abbrev transferEncodingValues : List Header → List (List UInt8) :=
  valuesOf (bytes "transfer-encoding")

def AtMostOne (valid : List UInt8 → Prop) (values : List (List UInt8)) : Prop :=
  values.length ≤ 1 ∧ ∀ value ∈ values, valid value

structure HeadersWellFormed (headers : List Header) : Prop where
  each : ∀ header ∈ headers, header.WellFormed
  host : AtMostOne (fun value => value ≠ [] ∧ (Utf8.encode (Utf8.lossy value)).length ≤ 2048)
    (hostValues headers)
  contentLength : AtMostOne
    (fun value => value ≠ [] ∧ value.all digitByte = true ∧ decimal value ≤ u64Max)
    (contentLengthValues headers)
  transferEncoding : AtMostOne (fun value => value.map lowerByte = bytes "chunked")
    (transferEncodingValues headers)

structure LineWellFormed (method target version : List UInt8) : Prop where
  methodLength : 1 ≤ method.length ∧ method.length ≤ 32
  methodToken : method.all tokenByte = true
  targetForm : target.head? = some 47 ∨ target = [42] ∧ method = bytes "OPTIONS"
  targetBytes : target.all targetByte = true
  supported : version = bytes "HTTP/1.0" ∨ version = bytes "HTTP/1.1"

structure Request where
  method : List UInt8
  target : List UInt8
  version : List UInt8
  headers : List Header

namespace Request

def line (request : Request) : List UInt8 :=
  request.method ++ 32 :: (request.target ++ 32 :: request.version)

def bytes (request : Request) : List UInt8 :=
  request.line ++ crlf ++ request.headers.flatMap (fun header => header.line ++ crlf) ++ crlf

structure WellFormed (request : Request) : Prop where
  line : LineWellFormed request.method request.target request.version
  count : request.headers.length ≤ 64
  headers : HeadersWellFormed request.headers
  hostRequired : request.version = Minotaur.bytes "HTTP/1.1" → hostValues request.headers ≠ []
  framing : contentLengthValues request.headers = [] ∨ transferEncodingValues request.headers = []

/-- The text of a field. -/
def text (field : List UInt8) : String := String.ofList (Utf8.lossy field)

/-- What the session records of it. -/
def event (request : Request) : SessionEvent :=
  .HttpRequest (text request.method) (text request.target) (text request.version)
    ((hostValues request.headers).head?.map text)
    ((userAgentValues request.headers).head?.map fun value =>
      String.ofList ((Utf8.lossy value).take 1024))

end Request

/-! ### Kinds of bytes -/

theorem ascii_of_all {text : List UInt8}
    (hall : text.all (fun b => decide (b.toNat < 0x80)) = true) : ∀ b ∈ text, b.toNat < 0x80 :=
  fun b hb => of_decide_eq_true (List.all_eq_true.mp hall b hb)

theorem not_mem_of_all {kind : UInt8 → Bool} {text : List UInt8} (hall : text.all kind = true)
    {b : UInt8} (hb : kind b = false) : b ∉ text := by
  intro hmem
  rw [List.all_eq_true.mp hall b hmem] at hb
  cases hb

theorem isSpace_eq : isSpace = (spaces.map Utf8.ascii).contains := by
  funext c
  have hspace : Utf8.ascii 32 = ' ' := by decide
  have htab : Utf8.ascii 9 = '\t' := by decide
  simp only [isSpace, spaces, List.map_cons, List.map_nil, hspace, htab, List.contains_cons,
    List.contains_nil, Bool.or_false]

theorem trim_lossy (value : List UInt8) :
    trim isSpace (Utf8.lossy value) = Utf8.lossy (trim spaces.contains value) := by
  rw [isSpace_eq]
  exact Utf8.lossy_trim (ascii_of_all (by decide)) value

theorem tokenByte_ascii (b : UInt8) (h : tokenByte b = true) : b.toNat < 0x80 := by
  rcases Bool.or_eq_true_iff.mp h with halnum | hmark
  · simp only [asciiAlphanumeric, Bool.or_eq_true, Bool.and_eq_true, decide_eq_true_eq,
      UInt8.le_iff_toNat_le, UInt8.reduceToNat] at halnum
    omega
  · exact ascii_of_all (by decide) b (List.contains_iff_mem.mp hmark)

theorem badValueByte_ascii (b : UInt8) (h : badValueByte b = true) : b.toNat < 0x80 := by
  simp only [badValueByte, Bool.or_eq_true, Bool.and_eq_true, decide_eq_true_eq, beq_iff_eq,
    UInt8.lt_iff_toNat_lt, UInt8.reduceToNat] at h
  rcases h with ⟨hlow, _⟩ | rfl
  · omega
  · decide

theorem digitByte_ascii (b : UInt8) (h : digitByte b = true) : b.toNat < 0x80 := by
  simp only [digitByte, Bool.and_eq_true, decide_eq_true_eq, UInt8.le_iff_toNat_le,
    UInt8.reduceToNat] at h
  omega

theorem toNat_toLower (c : Char) :
    c.toLower.toNat = if 65 ≤ c.toNat ∧ c.toNat ≤ 90 then c.toNat + 32 else c.toNat := by
  have hcond : (c.val ≥ 'A'.val ∧ c.val ≤ 'Z'.val) ↔ 65 ≤ c.toNat ∧ c.toNat ≤ 90 := by
    rw [ge_iff_le, UInt32.le_iff_toNat_le, UInt32.le_iff_toNat_le]
    exact Iff.rfl
  unfold Char.toLower
  by_cases hupper : 65 ≤ c.toNat ∧ c.toNat ≤ 90
  · rw [dif_pos (hcond.mpr hupper), if_pos hupper]
    change (c.val + 32).toNat = c.val.toNat + 32
    have hle : c.val.toNat ≤ 90 := hupper.2
    have hstep : (32 : UInt32).toNat = 32 := rfl
    rw [UInt32.toNat_add, hstep, Nat.mod_eq_of_lt (by omega)]
  · rw [dif_neg (fun h => hupper (hcond.mp h)), if_neg hupper]

theorem toNat_lowerByte (b : UInt8) :
    (lowerByte b).toNat = if 65 ≤ b.toNat ∧ b.toNat ≤ 90 then b.toNat + 32 else b.toNat := by
  unfold lowerByte
  simp only [UInt8.le_iff_toNat_le, UInt8.reduceToNat]
  split_ifs with hupper
  · have hstep : (32 : UInt8).toNat = 32 := rfl
    rw [UInt8.toNat_add, hstep, Nat.mod_eq_of_lt (by omega)]
  · rfl

theorem lowerByte_ascii {b : UInt8} : (lowerByte b).toNat < 0x80 ↔ b.toNat < 0x80 := by
  rw [toNat_lowerByte]
  split_ifs <;> omega

theorem toLower_ascii {b : UInt8} (hascii : b.toNat < 0x80) :
    (Utf8.ascii b).toLower = Utf8.ascii (lowerByte b) := by
  rw [← Char.toNat_inj, toNat_toLower, Utf8.toNat_ascii hascii,
    Utf8.toNat_ascii (lowerByte_ascii.mpr hascii), toNat_lowerByte]

/-- Comparing a decoded text with ASCII, ignoring the case of ASCII. -/
theorem toLower_lossy {text : List UInt8} (htext : ∀ b ∈ text, b.toNat < 0x80)
    (value : List UInt8) :
    (Utf8.lossy value).map Char.toLower = text.map Utf8.ascii ↔ value.map lowerByte = text := by
  have hlower : (∀ b ∈ value, b.toNat < 0x80) →
      (Utf8.lossy value).map Char.toLower = (value.map lowerByte).map Utf8.ascii := by
    intro hvalue
    rw [Utf8.lossy_of_ascii hvalue, List.map_map, List.map_map]
    exact List.map_congr_left (fun b hb => toLower_ascii (hvalue b hb))
  have hascii : (∀ b ∈ value, b.toNat < 0x80) → ∀ b ∈ value.map lowerByte, b.toNat < 0x80 := by
    intro hvalue b hb
    obtain ⟨other, hother, rfl⟩ := List.mem_map.mp hb
    exact lowerByte_ascii.mpr (hvalue other hother)
  constructor
  · intro heq
    have hvalue : ∀ b ∈ value, b.toNat < 0x80 := by
      apply Utf8.ascii_of_lossy
      intro c hc
      have hmem : c.toLower ∈ text.map Utf8.ascii := heq ▸ List.mem_map_of_mem hc
      obtain ⟨b, hb, hsame⟩ := List.mem_map.mp hmem
      have hlow := congrArg Char.toNat hsame
      have hb := htext b hb
      rw [Utf8.toNat_ascii hb, toNat_toLower] at hlow
      split_ifs at hlow <;> omega
    rw [hlower hvalue] at heq
    rw [← Utf8.encode_map_ascii (hascii hvalue), heq, Utf8.encode_map_ascii htext]
  · rintro rfl
    apply hlower
    intro b hb
    exact lowerByte_ascii.mp (htext _ (List.mem_map_of_mem hb))

theorem parseU64_lossy {digits : List UInt8} (hdigits : digits.all digitByte = true) :
    parseU64 (Utf8.lossy digits) =
      if decimal digits ≤ u64Max then some (decimal digits) else none := by
  have hascii : ∀ b ∈ digits, b.toNat < 0x80 :=
    fun b hb => digitByte_ascii b (List.all_eq_true.mp hdigits b hb)
  have hfold : (Utf8.lossy digits).foldl (fun number c => 10 * number + (c.toNat - 48)) 0 =
      decimal digits := by
    rw [Utf8.lossy_of_ascii hascii, List.foldl_map]
    apply List.foldl_ext
    intro number b hb
    rw [Utf8.toNat_ascii (hascii b hb)]
  unfold parseU64
  rw [hfold]

/-! ### One header -/

/-- What the parser knows after these headers. -/
def fieldsOf (headers : List Header) : HeaderFields where
  host := (hostValues headers).head?.map Utf8.lossy
  userAgent := (userAgentValues headers).head?.map fun value => (Utf8.lossy value).take 1024
  contentLength := (contentLengthValues headers).head?.map decimal
  transferEncoding := transferEncodingValues headers ≠ []

theorem valuesOf_concat (name : List UInt8) (headers : List Header) (header : Header) :
    valuesOf name (headers ++ [header]) = valuesOf name headers ++
      if header.name.map lowerByte = name then [trim spaces.contains header.value] else [] := by
  unfold valuesOf
  rw [List.filter_append, List.map_append]
  split_ifs with hname <;> simp [hname]

theorem atMostOne_concat {valid : List UInt8 → Prop} {values : List (List UInt8)}
    {value : List UInt8} : AtMostOne valid (values ++ [value]) ↔ values = [] ∧ valid value := by
  unfold AtMostOne
  rw [List.length_append, List.length_singleton]
  constructor
  · rintro ⟨hlength, hall⟩
    exact ⟨List.length_eq_zero_iff.mp (by omega), hall value (by simp)⟩
  · rintro ⟨rfl, hvalid⟩
    exact ⟨Nat.le_refl 1, by simpa using hvalid⟩

section Fields

variable {fields next : HeaderFields} {value : List UInt8}

theorem hostHeader_iff : hostHeader fields (Utf8.lossy value) = .ok next ↔
    fields.host = none ∧ (value ≠ [] ∧ (Utf8.encode (Utf8.lossy value)).length ≤ 2048) ∧
      next = { fields with host := some (Utf8.lossy value) } := by
  unfold hostHeader
  split_ifs with hbad
  · simp only [Bool.or_eq_true, decide_eq_true_eq, Utf8.lossy_eq_nil] at hbad
    simp only [false_iff, not_and]
    rintro hnone ⟨hvalue, hlength⟩
    rcases hbad with (hsome | hnil) | hlong
    · rw [hnone] at hsome
      cases hsome
    · exact absurd hnil hvalue
    · omega
  · simp only [Bool.or_eq_true, decide_eq_true_eq, Utf8.lossy_eq_nil, not_or, Nat.not_lt,
      Option.not_isSome_iff_eq_none] at hbad
    rw [Except.ok.injEq, eq_comm]
    exact ⟨fun heq => ⟨hbad.1.1, ⟨hbad.1.2, hbad.2⟩, heq⟩, fun h => h.2.2⟩

theorem userAgentHeader_iff : userAgentHeader fields (Utf8.lossy value) = .ok next ↔
    next = { fields with
      userAgent := fields.userAgent.or (some ((Utf8.lossy value).take 1024)) } := by
  unfold userAgentHeader
  obtain ⟨host, userAgent, contentLength, transferEncoding⟩ := fields
  cases userAgent <;> simp [eq_comm]

theorem contentLengthHeader_iff : contentLengthHeader fields (Utf8.lossy value) = .ok next ↔
    fields.contentLength = none ∧
      (value ≠ [] ∧ value.all digitByte = true ∧ decimal value ≤ u64Max) ∧
      next = { fields with contentLength := some (decimal value) } := by
  unfold contentLengthHeader
  rw [show (Utf8.encode (Utf8.lossy value)).all (fun b => 48 ≤ b && b ≤ 57) = value.all digitByte
    from Utf8.all_encode_lossy digitByte_ascii value]
  split_ifs with hbad
  · simp only [Bool.or_eq_true, decide_eq_true_eq, Utf8.lossy_eq_nil, Bool.not_eq_true'] at hbad
    simp only [false_iff, not_and]
    rintro hnone ⟨hvalue, hdigits, _⟩
    rcases hbad with (hsome | hnil) | hother
    · rw [hnone] at hsome
      cases hsome
    · exact absurd hnil hvalue
    · rw [hdigits] at hother
      cases hother
  · simp only [Bool.or_eq_true, decide_eq_true_eq, Utf8.lossy_eq_nil, not_or,
      Option.not_isSome_iff_eq_none, Bool.not_eq_true', Bool.not_eq_false] at hbad
    obtain ⟨⟨hnone, hvalue⟩, hdigits⟩ := hbad
    rw [parseU64_lossy hdigits]
    split_ifs with hfits
    · rw [Except.ok.injEq, eq_comm]
      exact ⟨fun heq => ⟨hnone, ⟨hvalue, hdigits, hfits⟩, heq⟩, fun h => h.2.2⟩
    · simp only [false_iff, not_and]
      exact fun _ h => absurd h.2.2 hfits

theorem transferEncodingHeader_iff :
    transferEncodingHeader fields (Utf8.lossy value) = .ok next ↔
      fields.transferEncoding = false ∧ value.map lowerByte = bytes "chunked" ∧
        next = { fields with transferEncoding := true } := by
  have hchunked : (Utf8.lossy value).map Char.toLower = "chunked".toList ↔
      value.map lowerByte = bytes "chunked" := by
    have htarget : "chunked".toList = (bytes "chunked").map Utf8.ascii := by decide
    rw [htarget]
    exact toLower_lossy (ascii_of_all (by decide)) value
  unfold transferEncodingHeader
  simp only [ne_eq, hchunked]
  split_ifs with hbad
  · simp only [Bool.or_eq_true, decide_eq_true_eq] at hbad
    simp only [false_iff, not_and]
    rintro hfalse hvalue
    rcases hbad with htrue | hother
    · rw [hfalse] at htrue
      cases htrue
    · exact absurd hvalue hother
  · simp only [Bool.or_eq_true, decide_eq_true_eq, not_or, Bool.not_eq_true, not_not] at hbad
    rw [Except.ok.injEq, eq_comm]
    exact ⟨fun heq => ⟨hbad.1, hbad.2, heq⟩, fun h => h.2.2⟩

end Fields

theorem ofList_toLower_eq {name text : List UInt8} {target : String}
    (htext : ∀ b ∈ text, b.toNat < 0x80) (htarget : target.toList = text.map Utf8.ascii) :
    String.ofList ((Utf8.lossy name).map Char.toLower) = target ↔ name.map lowerByte = text := by
  rw [← toLower_lossy htext, ← htarget]
  constructor
  · rintro rfl
    exact (String.toList_ofList).symm
  · intro heq
    rw [heq, String.ofList_toList]

/-- What a well-formed header does to the fields. -/
def Header.apply (header : Header) (fields : HeaderFields) : Except String HeaderFields :=
  let value := Utf8.lossy (trim spaces.contains header.value)
  if header.name.map lowerByte = bytes "host" then hostHeader fields value
  else if header.name.map lowerByte = bytes "user-agent" then userAgentHeader fields value
  else if header.name.map lowerByte = bytes "content-length" then
    contentLengthHeader fields value
  else if header.name.map lowerByte = bytes "transfer-encoding" then
    transferEncodingHeader fields value
  else .ok fields

theorem parseHeader_iff {header : Header} (hname : 58 ∉ header.name)
    {fields next : HeaderFields} :
    parseHeader fields (Utf8.lossy header.line) = .ok next ↔
      header.WellFormed ∧ header.apply fields = .ok next := by
  have hsplit : splitOnce ':' (Utf8.lossy header.line) =
      some (Utf8.lossy header.name, Utf8.lossy header.value) := by
    have hcolon : Utf8.ascii 58 = ':' := by decide
    rw [← hcolon, Utf8.splitOnce_lossy (by decide), Header.line, splitOnce_append hname,
      Option.map_some]
  have hhost := @ofList_toLower_eq header.name (bytes "host") "host" (ascii_of_all (by decide))
    (by decide)
  have huserAgent := @ofList_toLower_eq header.name (bytes "user-agent") "user-agent"
    (ascii_of_all (by decide)) (by decide)
  have hlength := @ofList_toLower_eq header.name (bytes "content-length") "content-length"
    (ascii_of_all (by decide)) (by decide)
  have hencoding := @ofList_toLower_eq header.name (bytes "transfer-encoding")
    "transfer-encoding" (ascii_of_all (by decide)) (by decide)
  unfold parseHeader
  rw [hsplit]
  simp only [Utf8.lossy_eq_nil, Utf8.all_encode_lossy tokenByte_ascii,
    Utf8.any_encode_lossy badValueByte_ascii, trim_lossy, hhost, huserAgent, hlength, hencoding]
  have hbad : (decide (header.name = []) || !header.name.all tokenByte ||
      header.value.any badValueByte) = true ↔ ¬ header.WellFormed := by
    simp only [Bool.or_eq_true, decide_eq_true_eq, Bool.not_eq_true']
    constructor
    · rintro ((hnil | htoken) | hvalue) hwell
      · exact hwell.name hnil
      · rw [hwell.token] at htoken
        cases htoken
      · rw [hwell.value] at hvalue
        cases hvalue
    · intro hwell
      by_contra hnone
      simp only [not_or, Bool.not_eq_false, Bool.not_eq_true] at hnone
      exact hwell ⟨hnone.1.1, hnone.1.2, hnone.2⟩
  by_cases hwell : header.WellFormed
  · rw [if_neg (fun h => hbad.mp h hwell)]
    exact (and_iff_right hwell).symm
  · rw [if_pos (hbad.mpr hwell)]
    simp [hwell]

/-! ### The headers -/

theorem atMostOne_values {valid : List UInt8 → Prop} {name : List UInt8} {headers : List Header}
    {header : Header} (h : AtMostOne valid (valuesOf name headers)) :
    AtMostOne valid (valuesOf name (headers ++ [header])) ↔
      (header.name.map lowerByte = name →
        valuesOf name headers = [] ∧ valid (trim spaces.contains header.value)) := by
  rw [valuesOf_concat]
  split_ifs with hname
  · rw [atMostOne_concat]
    simp [hname]
  · rw [List.append_nil]
    simp [h, hname]

theorem head?_append_singleton {values : List (List UInt8)} (value : List UInt8) :
    (values ++ [value]).head? = values.head?.or (some value) := by
  cases values <;> rfl

theorem apply_iff {headers : List Header} (h : HeadersWellFormed headers) {header : Header}
    (hheader : header.WellFormed) {next : HeaderFields} :
    header.apply (fieldsOf headers) = .ok next ↔
      HeadersWellFormed (headers ++ [header]) ∧ next = fieldsOf (headers ++ [header]) := by
  have hwell : HeadersWellFormed (headers ++ [header]) ↔
      (header.name.map lowerByte = bytes "host" → hostValues headers = [] ∧
        trim spaces.contains header.value ≠ [] ∧
        (Utf8.encode (Utf8.lossy (trim spaces.contains header.value))).length ≤ 2048) ∧
      (header.name.map lowerByte = bytes "content-length" → contentLengthValues headers = [] ∧
        trim spaces.contains header.value ≠ [] ∧
        (trim spaces.contains header.value).all digitByte = true ∧
        decimal (trim spaces.contains header.value) ≤ u64Max) ∧
      (header.name.map lowerByte = bytes "transfer-encoding" →
        transferEncodingValues headers = [] ∧
        (trim spaces.contains header.value).map lowerByte = bytes "chunked") := by
    rw [← atMostOne_values h.host, ← atMostOne_values h.contentLength,
      ← atMostOne_values h.transferEncoding]
    constructor
    · exact fun hall => ⟨hall.host, hall.contentLength, hall.transferEncoding⟩
    · rintro ⟨hhost, hlength, hencoding⟩
      exact ⟨List.forall_mem_append.mpr ⟨h.each, by simpa using hheader⟩, hhost, hlength,
        hencoding⟩
  have hnames : bytes "host" ≠ bytes "user-agent" ∧ bytes "host" ≠ bytes "content-length" ∧
      bytes "host" ≠ bytes "transfer-encoding" ∧ bytes "user-agent" ≠ bytes "content-length" ∧
      bytes "user-agent" ≠ bytes "transfer-encoding" ∧
      bytes "content-length" ≠ bytes "transfer-encoding" := by
    decide
  obtain ⟨hne₁, hne₂, hne₃, hne₄, hne₅, hne₆⟩ := hnames
  rw [hwell]
  by_cases hhost : header.name.map lowerByte = bytes "host"
  · simp only [Header.apply, fieldsOf, hostHeader_iff, valuesOf_concat, head?_append_singleton,
      hhost, hne₁, hne₂, hne₃, if_true, if_false, List.append_nil, Option.map_eq_none_iff,
      List.head?_eq_none_iff, forall_const, false_implies, and_true, and_assoc]
    refine and_congr_right fun hnil => and_congr_right fun _ => and_congr_right fun _ => ?_
    simp [hnil]
  by_cases huserAgent : header.name.map lowerByte = bytes "user-agent"
  · simp only [Header.apply, fieldsOf, userAgentHeader_iff, valuesOf_concat,
      head?_append_singleton, huserAgent, hne₁.symm, hne₄, hne₅, if_true, if_false,
      List.append_nil, false_implies, true_and]
    cases (userAgentValues headers).head? <;> rfl
  by_cases hlength : header.name.map lowerByte = bytes "content-length"
  · simp only [Header.apply, fieldsOf, contentLengthHeader_iff, valuesOf_concat,
      head?_append_singleton, hlength, hne₂.symm, hne₄.symm, hne₆, if_true, if_false,
      List.append_nil, Option.map_eq_none_iff, List.head?_eq_none_iff, forall_const,
      false_implies, and_true, true_and, and_assoc]
    refine and_congr_right fun hnil => and_congr_right fun _ => and_congr_right fun _ =>
      and_congr_right fun _ => ?_
    simp [hnil]
  by_cases hencoding : header.name.map lowerByte = bytes "transfer-encoding"
  · simp only [Header.apply, fieldsOf, transferEncodingHeader_iff, valuesOf_concat, hencoding,
      hne₃.symm, hne₅.symm, hne₆.symm, if_true, if_false, List.append_nil, forall_const,
      false_implies, true_and, and_assoc]
    refine and_congr (by simp) (and_congr_right fun _ => ?_)
    simp
  · simp only [Header.apply, fieldsOf, valuesOf_concat, hhost, huserAgent, hlength, hencoding,
      if_false, List.append_nil, false_implies, true_and, Except.ok.injEq]
    exact eq_comm

theorem HeadersWellFormed.init {headers : List Header} {header : Header}
    (h : HeadersWellFormed (headers ++ [header])) : HeadersWellFormed headers := by
  have hinit : ∀ (valid : List UInt8 → Prop) (name : List UInt8),
      AtMostOne valid (valuesOf name (headers ++ [header])) →
      AtMostOne valid (valuesOf name headers) := by
    intro valid name hone
    rw [valuesOf_concat] at hone
    obtain ⟨hlength, hall⟩ := hone
    rw [List.length_append] at hlength
    exact ⟨by omega, (List.forall_mem_append.mp hall).1⟩
  exact ⟨(List.forall_mem_append.mp h.each).1, hinit _ _ h.host, hinit _ _ h.contentLength,
    hinit _ _ h.transferEncoding⟩

/-- One more header line. -/
theorem parseHeader_fieldsOf {headers : List Header} (h : HeadersWellFormed headers)
    {line : List UInt8} {next : HeaderFields} :
    parseHeader (fieldsOf headers) (Utf8.lossy line) = .ok next ↔
      ∃ header : Header, header.line = line ∧ HeadersWellFormed (headers ++ [header]) ∧
        next = fieldsOf (headers ++ [header]) := by
  constructor
  · intro hparse
    have hcolon : 58 ∈ line := by
      by_contra hnone
      have hsplit : splitOnce ':' (Utf8.lossy line) = none := by
        have hascii : Utf8.ascii 58 = ':' := by decide
        rw [← hascii, Utf8.splitOnce_lossy (by decide), splitOnce, if_neg hnone, Option.map_none]
      rw [parseHeader, hsplit] at hparse
      cases hparse
    obtain ⟨name, value, rfl, hname⟩ := List.eq_append_cons_of_mem hcolon
    obtain ⟨hheader, happly⟩ := (@parseHeader_iff ⟨name, value⟩ hname _ _).mp hparse
    exact ⟨⟨name, value⟩, rfl, (apply_iff h hheader).mp happly⟩
  · rintro ⟨header, rfl, hwell, hnext⟩
    have hheader := hwell.each header (by simp)
    exact (parseHeader_iff (not_mem_of_all hheader.token (by decide))).mpr
      ⟨hheader, (apply_iff h hheader).mpr ⟨hwell, hnext⟩⟩

theorem bind_eq_ok {α β : Type} {first : Except String α} {next : α → Except String β}
    {result : β} : first >>= next = .ok result ↔
      ∃ value, first = .ok value ∧ next value = .ok result := by
  cases first with
  | error msg => exact ⟨nofun, fun ⟨_, h, _⟩ => nomatch h⟩
  | ok value =>
      constructor
      · exact fun h => ⟨value, rfl, h⟩
      · rintro ⟨other, heq, h⟩
        obtain rfl := Except.ok.inj heq
        exact h

theorem foldlM_parseHeader_iff {lines : List (List UInt8)} {next : HeaderFields} :
    (lines.map Utf8.lossy).foldlM parseHeader {} = .ok next ↔
      ∃ headers : List Header, headers.map Header.line = lines ∧ HeadersWellFormed headers ∧
        next = fieldsOf headers := by
  induction lines using List.reverseRecOn generalizing next with
  | nil =>
      have hnil : HeadersWellFormed [] := by
        refine ⟨List.forall_mem_nil _, ?_, ?_, ?_⟩ <;> exact ⟨Nat.zero_le 1, List.forall_mem_nil _⟩
      constructor
      · intro heq
        exact ⟨[], rfl, hnil, (Except.ok.inj heq).symm⟩
      · rintro ⟨headers, hlines, _, rfl⟩
        rw [List.map_eq_nil_iff.mp hlines]
        rfl
  | append_singleton lines line ih =>
      rw [List.map_append, List.foldlM_append, bind_eq_ok]
      constructor
      · rintro ⟨fields, hfields, hlast⟩
        obtain ⟨headers, rfl, hwell, rfl⟩ := ih.mp hfields
        rw [List.map_singleton, List.foldlM_cons, bind_eq_ok] at hlast
        obtain ⟨after, hparse, hdone⟩ := hlast
        obtain rfl := Except.ok.inj hdone
        obtain ⟨header, rfl, hmore, hnext⟩ := (parseHeader_fieldsOf hwell).mp hparse
        exact ⟨headers ++ [header], by simp, hmore, hnext⟩
      · rintro ⟨headers, hlines, hwell, hnext⟩
        obtain ⟨before, last, rfl, hbefore, hlast⟩ := List.map_eq_append_iff.mp hlines
        obtain ⟨header, rfl, hheader⟩ := List.map_eq_singleton_iff.mp hlast
        refine ⟨fieldsOf before, ih.mpr ⟨before, hbefore, hwell.init, rfl⟩, ?_⟩
        rw [List.map_singleton, List.foldlM_cons, bind_eq_ok]
        exact ⟨next, (parseHeader_fieldsOf hwell.init).mpr ⟨header, hheader, hwell, hnext⟩, rfl⟩

theorem parseHeaders_iff {lines : List (List Char)} (hlines : ∀ line ∈ lines, line ≠ [])
    (rest : List (List Char)) {count : Nat} (hcount : count ≤ maxHeaderCount)
    {fields next : HeaderFields} :
    parseHeaders count fields (lines ++ [] :: rest) = .ok next ↔
      count + lines.length ≤ maxHeaderCount ∧ lines.foldlM parseHeader fields = .ok next := by
  induction lines generalizing count fields with
  | nil => simp [parseHeaders, hcount, pure, Except.pure]
  | cons line lines ih =>
      obtain ⟨hline, hothers⟩ := List.forall_mem_cons.mp hlines
      rw [List.cons_append, parseHeaders, if_neg hline, List.length_cons, List.foldlM_cons]
      split_ifs with hfull
      · simp only [false_iff, not_and]
        omega
      · rw [bind_eq_ok, bind_eq_ok]
        constructor
        · rintro ⟨after, hafter, hrest⟩
          obtain ⟨hroom, hfold⟩ := (ih hothers (by omega)).mp hrest
          exact ⟨by omega, after, hafter, hfold⟩
        · rintro ⟨hroom, after, hafter, hfold⟩
          exact ⟨after, hafter, (ih hothers (by omega)).mpr ⟨by omega, hfold⟩⟩

/-! ### The request line -/

theorem ensure_bind {α : Type} {cond : Bool} {msg : String} {next : Unit → Except String α}
    {result : α} :
    ensure cond msg >>= next = .ok result ↔ cond = true ∧ next () = .ok result := by
  rw [bind_eq_ok]
  unfold ensure
  cases cond with
  | true => exact ⟨fun ⟨_, _, h⟩ => ⟨rfl, h⟩, fun h => ⟨(), rfl, h.2⟩⟩
  | false => simp

theorem checkRequestLine_iff {line checked : RequestLine} {extra : List (List Char)} :
    checkRequestLine line extra = .ok checked ↔
      (extra = [] ∧ line.method ≠ [] ∧ (Utf8.encode line.method).length ≤ 32 ∧
        (Utf8.encode line.method).all tokenByte = true) ∧
      (line.version = "HTTP/1.0".toList ∨ line.version = "HTTP/1.1".toList) ∧
      (line.path ≠ [] ∧
        (line.path.head? = some '/' ∨
          line.method = "OPTIONS".toList ∧ line.path = ['*']) ∧
        (Utf8.encode line.path).all targetByte = true) ∧
      checked = line := by
  unfold checkRequestLine
  rw [ensure_bind, ensure_bind, ensure_bind]
  simp only [pure, Except.pure, Except.ok.injEq, Bool.and_eq_true, Bool.or_eq_true,
    decide_eq_true_eq, and_assoc]
  exact ⟨fun ⟨h₁, h₂, h₃, h₄, h₅, h₆, h₇, h₈, h₉⟩ => ⟨h₁, h₂, h₃, h₄, h₅, h₆, h₇, h₈, h₉.symm⟩,
    fun ⟨h₁, h₂, h₃, h₄, h₅, h₆, h₇, h₈, h₉⟩ => ⟨h₁, h₂, h₃, h₄, h₅, h₆, h₇, h₈, h₉.symm⟩⟩

theorem lossy_eq_iff {field : List UInt8} {text : String}
    (hascii : (bytes text).all (fun b => decide (b.toNat < 0x80)) = true)
    (htext : text.toList = (bytes text).map Utf8.ascii) :
    Utf8.lossy field = text.toList ↔ field = bytes text := by
  rw [htext]
  exact Utf8.lossy_eq_map_ascii (ascii_of_all hascii)

theorem head_lossy_iff {b : UInt8} (hascii : b.toNat < 0x80) {text : List UInt8} :
    (Utf8.lossy text).head? = some (Utf8.ascii b) ↔ text.head? = some b := by
  constructor
  · exact Utf8.head_lossy_ascii hascii
  · intro hhead
    obtain ⟨rest, rfl⟩ := List.head?_eq_some_iff.mp hhead
    rw [Utf8.lossy_cons_ascii hascii, List.head?_cons]

theorem checkRequestLine_lossy {method target version : List UInt8} {extra : List (List Char)}
    {line : RequestLine} :
    checkRequestLine ⟨Utf8.lossy method, Utf8.lossy target, Utf8.lossy version⟩ extra = .ok line ↔
      extra = [] ∧ LineWellFormed method target version ∧
        line = ⟨Utf8.lossy method, Utf8.lossy target, Utf8.lossy version⟩ := by
  have hslash : (Utf8.lossy target).head? = some '/' ↔ target.head? = some 47 := by
    have hascii : Utf8.ascii 47 = '/' := by decide
    rw [← hascii]
    exact head_lossy_iff (by decide)
  have hstar : Utf8.lossy target = ['*'] ↔ target = [42] :=
    @lossy_eq_iff target "*" (by decide) (by decide)
  have hoptions := @lossy_eq_iff method "OPTIONS" (by decide) (by decide)
  have hold := @lossy_eq_iff version "HTTP/1.0" (by decide) (by decide)
  have hnew := @lossy_eq_iff version "HTTP/1.1" (by decide) (by decide)
  rw [checkRequestLine_iff]
  simp only [ne_eq, Utf8.lossy_eq_nil, Utf8.all_encode_lossy tokenByte_ascii,
    Utf8.all_encode_lossy targetByte_ascii, hslash, hstar, hoptions, hold, hnew]
  constructor
  · rintro ⟨⟨hextra, hmethod, hlength, htoken⟩, hversion, ⟨_, hform, htarget⟩, hline⟩
    have hascii := fun b hb => tokenByte_ascii b (List.all_eq_true.mp htoken b hb)
    rw [Utf8.encode_lossy_of_ascii hascii] at hlength
    refine ⟨hextra, ⟨⟨?_, hlength⟩, htoken, ?_, htarget, hversion⟩, hline⟩
    · exact List.length_pos_iff.mpr hmethod
    · exact hform.imp_right And.symm
  · rintro ⟨hextra, hwell, hline⟩
    have hascii := fun b hb => tokenByte_ascii b (List.all_eq_true.mp hwell.methodToken b hb)
    rw [Utf8.encode_lossy_of_ascii hascii]
    have htarget : target ≠ [] := by
      rintro rfl
      rcases hwell.targetForm with hhead | ⟨hstar, _⟩
      · cases hhead
      · cases hstar
    refine ⟨⟨hextra, List.length_pos_iff.mp hwell.methodLength.1, hwell.methodLength.2,
      hwell.methodToken⟩, hwell.supported, ⟨htarget, ?_, hwell.targetBytes⟩, hline⟩
    exact hwell.targetForm.imp_right And.symm

/-- A byte of neither kind is not in the line but as a space. -/
theorem LineWellFormed.not_mem {method target version : List UInt8}
    (h : LineWellFormed method target version) {b : UInt8} (htoken : tokenByte b = false)
    (htarget : targetByte b = false) : b ∉ method ∧ b ∉ target ∧ b ∉ version := by
  have hversion : version.all targetByte = true := by
    rcases h.supported with rfl | rfl <;> decide
  exact ⟨not_mem_of_all h.methodToken htoken, not_mem_of_all h.targetBytes htarget,
    not_mem_of_all hversion htarget⟩

theorem parseRequestLine_iff {first : List UInt8} {line : RequestLine} :
    parseRequestLine (Utf8.lossy first) = .ok line ↔
      ∃ method target version, method ++ 32 :: (target ++ 32 :: version) = first ∧
        LineWellFormed method target version ∧
        line = ⟨Utf8.lossy method, Utf8.lossy target, Utf8.lossy version⟩ := by
  have hsplit : (Utf8.lossy first).splitOn ' ' = (first.splitOn 32).map Utf8.lossy := by
    have hascii : Utf8.ascii 32 = ' ' := by decide
    rw [← hascii]
    exact Utf8.lossy_splitOn (by decide) first
  constructor
  · intro hparse
    unfold parseRequestLine at hparse
    rw [hsplit] at hparse
    have hjoin : [32].intercalate (first.splitOn 32) = first := List.intercalate_splitOn 32
    match hparts : first.splitOn 32 with
    | [] | [_] | [_, _] =>
        rw [hparts] at hparse
        cases hparse
    | method :: target :: version :: extra =>
        rw [hparts] at hparse hjoin
        obtain ⟨hextra, hwell, hline⟩ := checkRequestLine_lossy.mp hparse
        rw [List.map_eq_nil_iff.mp hextra] at hjoin
        refine ⟨method, target, version, ?_, hwell, hline⟩
        rw [← hjoin]
        simp [List.intercalate]
  · rintro ⟨method, target, version, rfl, hwell, hline⟩
    obtain ⟨hmethod, htarget, hversion⟩ := @hwell.not_mem _ _ _ 32 (by decide) (by decide)
    have hparts : (method ++ 32 :: (target ++ 32 :: version)).splitOn 32 =
        [method, target, version] := by
      rw [List.splitOn_append_cons_self_of_not_mem hmethod,
        List.splitOn_append_cons_self_of_not_mem htarget, List.splitOn_eq_singleton hversion]
    unfold parseRequestLine
    rw [hsplit, hparts]
    exact checkRequestLine_lossy.mpr ⟨rfl, hwell, hline⟩

/-! ### The request -/

theorem ensure_iff {cond : Bool} {msg : String} {result : Unit} :
    ensure cond msg = .ok result ↔ cond = true := by
  unfold ensure
  cases cond with
  | true => exact ⟨fun _ => rfl, fun _ => rfl⟩
  | false => simp

theorem checkFields_iff {method path version : List UInt8} {headers : List Header} {result : Unit} :
    checkFields ⟨Utf8.lossy method, Utf8.lossy path, Utf8.lossy version⟩ (fieldsOf headers) =
        .ok result ↔
      (version = bytes "HTTP/1.1" → hostValues headers ≠ []) ∧
      (contentLengthValues headers = [] ∨ transferEncodingValues headers = []) := by
  have hnew := @lossy_eq_iff version "HTTP/1.1" (by decide) (by decide)
  unfold checkFields
  rw [ensure_bind, ensure_iff]
  simp only [hnew, fieldsOf, Bool.not_eq_true', Bool.and_eq_false_iff, decide_eq_false_iff_not]
  apply and_congr
  · cases hostValues headers with
    | nil => simp
    | cons value values => simp
  · cases contentLengthValues headers with
    | nil => simp
    | cons value values => simp

theorem requestEvent_fieldsOf (request : Request) :
    requestEvent ⟨Utf8.lossy request.method, Utf8.lossy request.target,
      Utf8.lossy request.version⟩ (fieldsOf request.headers) = request.event := by
  unfold requestEvent fieldsOf Request.event
  rw [Option.map_map, Option.map_map]
  rfl

/-- The parser on the lines of a block. -/
theorem parseText_iff {block first : List UInt8} {lines : List (List UInt8)}
    (hsplit : splitPair 13 10 block = first :: (lines ++ [[], []]))
    (hlines : ∀ line ∈ lines, line ≠ []) {event : SessionEvent} :
    parseText (Utf8.lossy block) = .ok event ↔
      ∃ request : Request, request.WellFormed ∧ request.line = first ∧
        request.headers.map Header.line = lines ∧ event = request.event := by
  have htext : splitPair '\r' '\n' (Utf8.lossy block) =
      Utf8.lossy first :: (lines.map Utf8.lossy ++ [] :: [[]]) := by
    have hreturn : Utf8.ascii 13 = '\r' := by decide
    have hfeed : Utf8.ascii 10 = '\n' := by decide
    rw [← hreturn, ← hfeed, Utf8.lossy_splitPair (by decide) (by decide) (by decide), hsplit]
    simp [Utf8.lossy_nil]
  have hnonempty : ∀ line ∈ lines.map Utf8.lossy, line ≠ [] := by
    intro line hline hnil
    obtain ⟨raw, hraw, rfl⟩ := List.mem_map.mp hline
    exact hlines raw hraw ((Utf8.lossy_eq_nil raw).mp hnil)
  have hcount : ∀ {fields : HeaderFields}, parseHeaders 0 {} (lines.map Utf8.lossy ++ [] :: [[]]) =
      .ok fields ↔ lines.length ≤ maxHeaderCount ∧
        ∃ headers : List Header, headers.map Header.line = lines ∧ HeadersWellFormed headers ∧
          fields = fieldsOf headers := by
    intro fields
    rw [parseHeaders_iff hnonempty [[]] (Nat.zero_le _), foldlM_parseHeader_iff, List.length_map,
      Nat.zero_add]
  unfold parseText
  rw [htext]
  simp only [bind_eq_ok, parseRequestLine_iff, hcount]
  constructor
  · rintro ⟨_, ⟨method, target, version, rfl, hline, rfl⟩, _, ⟨hmany, headers, rfl, hheaders, rfl⟩,
      _, hfields, hevent⟩
    obtain ⟨hhost, hframing⟩ := checkFields_iff.mp hfields
    rw [List.length_map] at hmany
    obtain rfl := Except.ok.inj hevent
    let request : Request := ⟨method, target, version, headers⟩
    exact ⟨request, ⟨hline, hmany, hheaders, hhost, hframing⟩, rfl, rfl,
      requestEvent_fieldsOf request⟩
  · rintro ⟨request, hwell, rfl, rfl, rfl⟩
    refine ⟨_, ⟨_, _, _, rfl, hwell.line, rfl⟩, _, ⟨?_, _, rfl, hwell.headers, rfl⟩, (),
      checkFields_iff.mpr ⟨hwell.hostRequired, hwell.framing⟩, ?_⟩
    · rw [List.length_map]
      exact hwell.count
    · rw [requestEvent_fieldsOf]
      rfl

/-- The lines of a block that ends at its first empty line. -/
theorem splitPair_block {block : List UInt8}
    (hfirst : position terminator block = some (block.length - 4)) :
    ∃ first lines, splitPair 13 10 block = first :: (lines ++ [[], []]) ∧
      (∀ line ∈ lines, line ≠ []) ∧ (first :: lines).flatMap (· ++ crlf) ++ crlf = block := by
  obtain ⟨hfound, hearliest⟩ := position_eq_some hfirst
  have hsize := hfound.length_le
  have hfour : terminator.length = 4 := rfl
  rw [List.length_drop, hfour] at hsize
  have hends : block.drop (block.length - 4) = terminator := by
    refine (hfound.eq_of_length ?_).symm
    rw [List.length_drop, hfour]
    omega
  have hblock : block.take (block.length - 4) ++ [13, 10] ++ [13, 10] = block := by
    rw [List.append_assoc]
    change block.take (block.length - 4) ++ terminator = block
    rw [← hends, List.take_append_drop]
  have hsplit : splitPair 13 10 block =
      splitPair 13 10 (block.take (block.length - 4)) ++ [[], []] := by
    conv => lhs; rw [← hblock]
    rw [splitPair_concat (by decide), splitPair_concat (by decide), List.append_assoc]
    rfl
  have hjoin := flatMap_splitPair 13 10 (block.take (block.length - 4))
  cases hparts : splitPair 13 10 (block.take (block.length - 4)) with
  | nil =>
      rw [hparts] at hjoin
      simp at hjoin
  | cons first lines =>
      rw [hparts] at hjoin hsplit
      refine ⟨first, lines, hsplit, ?_, ?_⟩
      · rintro line hline rfl
        obtain ⟨before, after, rfl⟩ := List.append_of_mem hline
        -- the line before the empty one ends in CRLF too
        obtain ⟨init, last, hlast⟩ := (List.eq_nil_or_concat (first :: before)).resolve_left
          (List.cons_ne_nil first before)
        rw [← List.cons_append, hlast] at hjoin
        simp only [List.concat_eq_append, List.flatMap_append, List.flatMap_cons, List.flatMap_nil,
          List.append_nil, List.nil_append] at hjoin
        have hwhole : block = init.flatMap (· ++ [13, 10]) ++ last ++
            (terminator ++ (after.flatMap (· ++ [13, 10]) ++ [13, 10])) := by
          rw [← hblock, ← hjoin]
          simp [terminator]
        have hlength := congrArg List.length hjoin
        simp only [List.length_append, List.length_take, List.length_cons, List.length_nil]
          at hlength
        apply hearliest (init.flatMap (· ++ [13, 10]) ++ last).length
        · rw [List.length_append]
          omega
        · conv => rhs; rw [hwhole]
          rw [List.drop_left]
          exact List.prefix_append _ _
      · change (first :: lines).flatMap (· ++ [13, 10]) ++ [13, 10] = block
        rw [hjoin, hblock]

theorem LineWellFormed.return_not_mem {method target version : List UInt8}
    (h : LineWellFormed method target version) : 13 ∉ method ++ 32 :: (target ++ 32 :: version) := by
  obtain ⟨hmethod, htarget, hversion⟩ := @h.not_mem _ _ _ 13 (by decide) (by decide)
  simp [hmethod, htarget, hversion]

theorem Header.WellFormed.return_not_mem {header : Header} (h : header.WellFormed) :
    13 ∉ header.line := by
  have hname : 13 ∉ header.name := not_mem_of_all h.token (by decide)
  have hvalue : 13 ∉ header.value := fun hmem =>
    Bool.false_ne_true (h.value.symm.trans (List.any_eq_true.mpr ⟨13, hmem, by decide⟩))
  simp [Header.line, hname, hvalue]

theorem Request.splitPair_bytes {request : Request} (h : request.WellFormed) :
    splitPair 13 10 request.bytes =
      request.line :: (request.headers.map Header.line ++ [[], []]) := by
  have hfree : ∀ line ∈ request.line :: request.headers.map Header.line, PairFree 13 10 line := by
    intro line hline
    rcases List.mem_cons.mp hline with rfl | hline
    · exact pairFree_of_not_mem h.line.return_not_mem 10
    · obtain ⟨header, hheader, rfl⟩ := List.mem_map.mp hline
      exact pairFree_of_not_mem (h.headers.each header hheader).return_not_mem 10
  have hbytes : request.bytes = (request.line :: request.headers.map Header.line).flatMap
      (· ++ [13, 10]) ++ [13, 10] := by
    simp [Request.bytes, crlf, List.flatMap_map]
  rw [hbytes, splitPair_flatMap (by decide) hfree]
  rfl

/-- The parser accepts exactly the bytes of the well-formed requests, and
returns what the session records of them. -/
theorem parseRequest_iff {block : List UInt8}
    (hfirst : position terminator block = some (block.length - 4)) {event : SessionEvent} :
    parseRequest block = .ok event ↔
      ∃ request : Request, request.WellFormed ∧ request.bytes = block ∧
        event = request.event := by
  obtain ⟨hfound, _⟩ := position_eq_some hfirst
  have hends : terminator <:+ block := by
    refine (hfound.eq_of_length ?_) ▸ List.drop_suffix _ block
    have hsize := hfound.length_le
    have hfour : terminator.length = 4 := rfl
    rw [List.length_drop, hfour] at hsize ⊢
    omega
  unfold parseRequest
  rw [if_pos hends]
  obtain ⟨first, lines, hsplit, hlines, rfl⟩ := splitPair_block hfirst
  rw [parseText_iff hsplit hlines]
  constructor
  · rintro ⟨request, hwell, rfl, rfl, hevent⟩
    refine ⟨request, hwell, ?_, hevent⟩
    simp [Request.bytes, crlf, List.flatMap_map]
  · rintro ⟨request, hwell, hbytes, hevent⟩
    rw [← hbytes, request.splitPair_bytes hwell] at hsplit
    obtain ⟨hline, hrest⟩ := List.cons.inj hsplit
    exact ⟨request, hwell, hline, List.append_cancel_right hrest, hevent⟩

theorem parseRequest_iff_get : ∃ request : Request, request.WellFormed ∧
    request.bytes = bytes "GET / HTTP/1.1\r\nHost: a\r\n\r\n" ∧
    SessionEvent.HttpRequest "GET" "/" "HTTP/1.1" (some "a") none = request.event :=
  (parseRequest_iff (by decide)).mp (by decide)

end Minotaur.Http
