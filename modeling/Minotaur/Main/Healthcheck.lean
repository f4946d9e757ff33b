import Minotaur.Base.Text
import Minotaur.Base.Utf8.Ascii
import Minotaur.Management.Reply
import Std.Data.String.ToNat

/-!
`main::healthcheck`, the client of the readiness endpoint. The exchange with
the server is a parameter: it connects, sends the request and returns what the
server sends until it closes, or fails, also when the deadline expires.

The status is the second word of the first line. A sensor that answers with a
status line is reported as ready only if its answer was 200, wherever the
4096 bytes that are read end.
-/

namespace Minotaur

open Net

/-- An unspecified address is asked on the loopback. -/
def healthcheckTarget : SocketAddr → SocketAddr
  | .V4 ip port => .V4 (if ip = 0 then 0x7f000001#32 else ip) port
  | .V6 ip port flowinfo scopeId => .V6 (if ip = 0 then 1#128 else ip) port flowinfo scopeId

def healthcheckRequest (address : SocketAddr) : String :=
  "GET /readyz HTTP/1.1\r\nHost: " ++ address.show ++ "\r\nConnection: close\r\n\r\n"

/-- `char::is_whitespace`. -/
def isWhitespace (c : Char) : Bool :=
  (0x9 ≤ c.toNat && c.toNat ≤ 0xd) || c.toNat == 0x20 || c.toNat == 0x85 || c.toNat == 0xa0 ||
    c.toNat == 0x1680 || (0x2000 ≤ c.toNat && c.toNat ≤ 0x200a) || c.toNat == 0x2028 ||
    c.toNat == 0x2029 || c.toNat == 0x202f || c.toNat == 0x205f || c.toNat == 0x3000

def splitWhitespace (text : List Char) : List (List Char) :=
  (text.splitOnP isWhitespace).filter (· ≠ [])

/-- `lines().next()`. -/
def firstLine (text : List Char) : Option (List Char) :=
  let line := text.takeWhile (· ≠ '\n')
  if text = [] then none
  else if '\n' ∈ text ∧ line.getLast? = some '\r' then some line.dropLast
  else some line

/-- What `healthcheck` makes of the bytes it receives. -/
def checkStatus (sent : List UInt8) : Except String Unit :=
  match Utf8.decode (sent.take 4096) with
  | none => .error "invalid health response"
  | some text =>
      let status := (firstLine text).bind fun line => (splitWhitespace line)[1]?
      if status ≠ some "200".toList then .error "sensor is not ready" else .ok ()

def healthcheck (exchange : SocketAddr → String → Except String (List UInt8))
    (address : SocketAddr) : Except String Unit := do
  let address := healthcheckTarget address
  let sent ← exchange address (healthcheckRequest address)
  checkStatus sent

theorem healthcheck_eq (sent : List UInt8) (address : SocketAddr) :
    healthcheck (fun _ _ => .ok sent) address = checkStatus sent := rfl

/-- The server sends a status line first. -/
structure StatusLine (sent : List UInt8) (status : UInt16) : Prop where
  begins : Utf8.encode ("HTTP/1.1 ".toList ++ status.toNat.repr.toList ++ [' ']) <+: sent

/-- A message of HTTP/1.1, as the server writes a response of this endpoint. -/
def http1 (date : String) (response : Response) : List UInt8 :=
  let reason :=
    if response.status = 200 then "OK"
    else if response.status = 404 then "Not Found"
    else if response.status = 405 then "Method Not Allowed"
    else if response.status = 503 then "Service Unavailable"
    else "Internal Server Error"
  let headers := response.headers ++
    [("content-length", toString response.body.length), ("date", date)]
  let lines := headers.flatMap fun (name, value) => (name ++ ": " ++ value ++ "\r\n").toList
  Utf8.encode ("HTTP/1.1 ".toList ++ response.status.toNat.repr.toList ++ [' ']) ++
    Utf8.encode (reason.toList ++ "\r\n".toList ++ lines ++ "\r\n".toList) ++ response.body

theorem statusLine_http1 (date : String) (response : Response) :
    StatusLine (http1 date response) response.status :=
  ⟨(List.prefix_append _ _).trans (List.prefix_append _ _)⟩

/-! ### Words -/

theorem splitWhitespace_word {word : List Char} (hword : ∀ c ∈ word, isWhitespace c = false)
    (hsome : word ≠ []) {space : Char} (hspace : isWhitespace space = true) (rest : List Char) :
    splitWhitespace (word ++ space :: rest) = word :: splitWhitespace rest := by
  unfold splitWhitespace
  rw [List.splitOnP_append_cons_of_forall_mem hword space hspace rest]
  simp [hsome]

theorem isWhitespace_digit {c : Char} (hdigit : c.isDigit = true) : isWhitespace c = false := by
  simp only [Char.isDigit, Bool.and_eq_true, decide_eq_true_eq, ge_iff_le] at hdigit
  have hlow : 48 ≤ c.toNat := hdigit.1
  have hhigh : c.toNat ≤ 57 := hdigit.2
  simp only [isWhitespace, Bool.or_eq_false_iff, Bool.and_eq_false_iff, decide_eq_false_iff_not,
    beq_eq_false_iff_ne, ne_eq]
  omega

theorem repr_toNat_isDigit (status : UInt16) {c : Char} (hc : c ∈ status.toNat.repr.toList) :
    c.isDigit = true :=
  @Nat.isDigit_of_mem_toDigits 10 status.toNat c (by decide) (by decide) (by simpa [Nat.repr] using hc)

/-- The line of a text that begins without a line end begins the same way. -/
theorem firstLine_append {start : List Char} {last : Char} (hline : '\n' ∉ start ++ [last])
    (hlast : last ≠ '\r') (rest : List Char) :
    ∃ more, firstLine (start ++ last :: rest) = some (start ++ last :: more) := by
  have hstart : ∀ c ∈ start, decide (c ≠ '\n') = true := by
    intro c hc
    refine decide_eq_true ?_
    rintro rfl
    exact hline (List.mem_append_left _ hc)
  have hfirst : last ≠ '\n' := by
    rintro rfl
    exact hline (List.mem_append_right _ List.mem_cons_self)
  have hwhile : (start ++ last :: rest).takeWhile (· ≠ '\n') =
      start ++ last :: rest.takeWhile (· ≠ '\n') := by
    rw [List.takeWhile_append_of_pos hstart, List.takeWhile_cons_of_pos (by simpa using hfirst)]
  unfold firstLine
  simp only [hwhile]
  rw [if_neg (by simp)]
  split_ifs with hreturn
  · refine ⟨(rest.takeWhile (· ≠ '\n')).dropLast, ?_⟩
    cases hrest : rest.takeWhile (· ≠ '\n') with
    | nil =>
        rw [hrest] at hreturn
        simp [hlast] at hreturn
    | cons c more => simp
  · exact ⟨_, rfl⟩

/-- The second word after a status line. -/
theorem status_of_begins {status : UInt16} {text : List Char}
    (hbegins : "HTTP/1.1 ".toList ++ status.toNat.repr.toList ++ [' '] <+: text) :
    ((firstLine text).bind fun line => (splitWhitespace line)[1]?) =
      some status.toNat.repr.toList := by
  obtain ⟨rest, rfl⟩ := hbegins
  have hdigits : ∀ c ∈ status.toNat.repr.toList, isWhitespace c = false := by
    intro c hc
    exact isWhitespace_digit (repr_toNat_isDigit status hc)
  have hline : '\n' ∉ "HTTP/1.1 ".toList ++ status.toNat.repr.toList ++ [' '] := by
    simp only [List.mem_append, not_or]
    refine ⟨⟨by decide, ?_⟩, by decide⟩
    intro hmem
    exact absurd (hdigits _ hmem) (by decide)
  obtain ⟨more, hmore⟩ := firstLine_append hline (by decide) rest
  rw [List.append_assoc ("HTTP/1.1 ".toList ++ _), List.singleton_append, hmore, Option.bind_some]
  have hversion : "HTTP/1.1 ".toList ++ status.toNat.repr.toList ++ ' ' :: more =
      "HTTP/1.1".toList ++ ' ' :: (status.toNat.repr.toList ++ ' ' :: more) := by
    simp
  have hword : ∀ c ∈ "HTTP/1.1".toList, isWhitespace c = false := by
    simp [isWhitespace]
  have hsome : status.toNat.repr.toList ≠ [] := by
    simp [Nat.repr, Nat.toDigits_ne_nil]
  rw [hversion, splitWhitespace_word hword (by decide) (by decide),
    splitWhitespace_word hdigits hsome (by decide)]
  rfl

/-! ### The check -/

theorem toNat_of_repr {status : UInt16} (hrepr : status.toNat.repr.toList = "200".toList) :
    status = 200 := by
  have hsame : status.toNat.repr = Nat.repr 200 := String.toList_inj.mp hrepr
  have hnat : status.toNat = 200 := Nat.repr_inj.mp hsame
  exact UInt16.toNat_inj.mp hnat

theorem StatusLine.ascii (status : UInt16) :
    ∀ c ∈ "HTTP/1.1 ".toList ++ status.toNat.repr.toList ++ [' '], c.toNat < 0x80 := by
  intro c hc
  rw [List.mem_append, List.mem_append] at hc
  rcases hc with (hc | hc) | hc
  · have hversion : ("HTTP/1.1 ".toList.all fun c => decide (c.toNat < 0x80)) = true := by decide
    exact of_decide_eq_true (List.all_eq_true.mp hversion c hc)
  · have hdigit := repr_toNat_isDigit status hc
    simp only [Char.isDigit, Bool.and_eq_true, decide_eq_true_eq] at hdigit
    have hhigh : c.toNat ≤ 57 := hdigit.2
    omega
  · rw [List.mem_singleton.mp hc]
    decide

/-- The status line is among the bytes that are read. -/
theorem StatusLine.take {sent : List UInt8} {status : UInt16} (hstatus : StatusLine sent status) :
    StatusLine (sent.take 4096) status := by
  refine ⟨List.prefix_take_iff.mpr ⟨hstatus.begins, ?_⟩⟩
  have hdigits : status.toNat.repr.length ≤ 5 :=
    length_repr_le (by decide) (by have := status.toNat_lt; omega)
  rw [Utf8.length_encode_of_ascii (StatusLine.ascii status), List.length_append,
    List.length_append, List.length_singleton]
  rw [← String.length_toList] at hdigits
  have hversion : "HTTP/1.1 ".toList.length = 9 := rfl
  omega

/-- Whatever the server sends after its status line. -/
theorem checkStatus_ok {sent : List UInt8} {status : UInt16} (hstatus : StatusLine sent status)
    (hok : checkStatus sent = .ok ()) : status = 200 := by
  unfold checkStatus at hok
  cases hdecode : Utf8.decode (sent.take 4096) with
  | none =>
      rw [hdecode] at hok
      cases hok
  | some text =>
      have hbegins := hstatus.take.begins
      rw [← Utf8.encode_of_decode hdecode] at hbegins
      have hword := status_of_begins (Utf8.prefix_of_encode (StatusLine.ascii status) hbegins)
      simp only [hdecode, hword] at hok
      split_ifs at hok with hne
      exact toNat_of_repr (by simpa using hne)

/-- An answer in ASCII that is read to its end. -/
theorem checkStatus_ok_iff {sent : List UInt8} {status : UInt16} (hstatus : StatusLine sent status)
    (hascii : ∀ b ∈ sent, b.toNat < 0x80) (hlength : sent.length ≤ 4096) :
    checkStatus sent = .ok () ↔ status = 200 := by
  refine ⟨checkStatus_ok hstatus, ?_⟩
  rintro rfl
  have hdecode : Utf8.decode sent = some (sent.map Utf8.ascii) := by
    conv_lhs => rw [← Utf8.encode_map_ascii hascii]
    exact Utf8.decode_encode _
  have hbegins := hstatus.begins
  rw [← Utf8.encode_map_ascii hascii] at hbegins
  have hword := status_of_begins (Utf8.prefix_of_encode (StatusLine.ascii 200) hbegins)
  unfold checkStatus
  rw [List.take_of_length_le hlength, hdecode]
  simp only [hword]
  exact if_neg (by decide)

example : checkStatus (http1 "Thu, 01 Jan 1970 00:00:00 GMT" (readyz 1 0)) = .ok () :=
  (checkStatus_ok_iff (statusLine_http1 _ _) (by decide +kernel) (by decide +kernel)).mpr rfl

end Minotaur
