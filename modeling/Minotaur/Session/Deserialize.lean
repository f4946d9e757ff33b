import Mathlib.Algebra.Order.Group.Nat
import Minotaur.Base.JsonParse
import Minotaur.Session.Json

/-!
The derived deserialisation of an event, from the map form that an object is:
the event is tagged by `type`, an absent `Option` field is `None`, a field that
no variant has is skipped, and one that comes twice is an error.

Reading inverts writing, so a record is determined by its line up to what the
line does not show.
-/

namespace Minotaur

open Net

namespace SessionEvent

variable {α : Type}

/-- The value of a field, if it is there; a repeated field is an error. -/
def field (fields : List (String × Json)) (name : String) : Option (Option Json) :=
  match fields.filter fun field => field.1 = name with
  | [] => some none
  | [field] => some (some field.2)
  | _ => none

def required (read : Json → Option α) (fields : List (String × Json)) (name : String) :
    Option α := do
  match ← field fields name with
  | some value => read value
  | none => none

/-- A field of type `Option<String>`. -/
def optional (fields : List (String × Json)) (name : String) : Option (Option String) := do
  match ← field fields name with
  | none => some none
  | some .null => some none
  | some (.str value) => some (some value)
  | some _ => none

def readStr : Json → Option String
  | .str value => some value
  | _ => none

def readBool : Json → Option Bool
  | .bool value => some value
  | _ => none

def fromJson : Json → Option SessionEvent
  | .obj fields => do
      let kind ← required readStr fields "type"
      if kind = "ssh_client_banner" then
        return .SshClientBanner (← required readStr fields "banner")
      else if kind = "http_request" then
        return .HttpRequest (← required readStr fields "method") (← required readStr fields "path")
          (← required readStr fields "version") (← optional fields "host")
          (← optional fields "user_agent")
      else if kind = "telnet_login" then
        return .TelnetLogin (← required readStr fields "username") (← optional fields "password")
          (← required readBool fields "credentials_redacted")
      else if kind = "notice" then
        return .Notice (← required readStr fields "msg")
      else none
  | _ => none

theorem fromJson_toJson (event : SessionEvent) : fromJson event.toJson = some event := by
  cases event with
  | SshClientBanner banner => simp [toJson, fromJson, required, field, readStr]
  | Notice msg => simp [toJson, fromJson, required, field, readStr]
  | HttpRequest method path version host userAgent =>
      cases host <;> cases userAgent <;>
        simp [toJson, fromJson, required, optional, field, readStr, optionalJson]
  | TelnetLogin username password credentialsRedacted =>
      cases password <;>
        simp [toJson, fromJson, required, optional, field, readStr, readBool, optionalJson]

/-- A field that the variant does not have is skipped, but the tag must be
known and may not be repeated. -/
example : fromJson (.obj [("msg", .str "a"), ("level", .num 3), ("type", .str "notice")]) =
      some (.Notice "a") ∧
    fromJson (.obj [("type", .str "notice"), ("type", .str "notice"), ("msg", .str "a")]) = none := by
  decide

theorem toJson_injective : Function.Injective toJson := by
  intro first second h
  have hread := fromJson_toJson first
  rw [h, fromJson_toJson] at hread
  exact (Option.some.inj hread).symm

end SessionEvent

/-! ### What a line determines -/

theorem digitChar_injective : ∀ n < 16, ∀ m < 16, Nat.digitChar n = Nat.digitChar m → n = m := by
  decide

theorem eq_of_hexDigits (count : Nat) {n m : Nat} (hn : n < 16 ^ count) (hm : m < 16 ^ count)
    (h : ∀ i < count, n / 16 ^ i % 16 = m / 16 ^ i % 16) : n = m := by
  have hmod : ∀ k ≤ count, n % 16 ^ k = m % 16 ^ k := by
    intro k hk
    induction k with
    | zero => rw [Nat.pow_zero, Nat.mod_one, Nat.mod_one]
    | succ k ih => rw [Nat.mod_pow_succ, Nat.mod_pow_succ, ih (by omega), h k (by omega)]
  have hall := hmod count (Nat.le_refl _)
  rwa [Nat.mod_eq_of_lt hn, Nat.mod_eq_of_lt hm] at hall

theorem uuidGroup_eq {first second : BitVec 128} {start count : Nat}
    (h : uuidGroup first start count = uuidGroup second start count) :
    ∀ i < count, first.toNat / 16 ^ (31 - (start + i)) % 16 =
      second.toNat / 16 ^ (31 - (start + i)) % 16 := by
  intro i hi
  unfold uuidGroup at h
  have hdigit := List.map_inj_left.mp h i (List.mem_range.mpr hi)
  exact digitChar_injective _ (Nat.mod_lt _ (by decide)) _ (Nat.mod_lt _ (by decide)) hdigit

theorem uuidText_injective : Function.Injective uuidText := by
  intro first second h
  unfold uuidText at h
  have h := String.ofList_injective h
  obtain ⟨h0, h⟩ := List.append_inj h (by rw [length_uuidGroup, length_uuidGroup])
  obtain ⟨h8, h⟩ := List.append_inj (List.cons_inj_right _ |>.mp h)
    (by rw [length_uuidGroup, length_uuidGroup])
  obtain ⟨h12, h⟩ := List.append_inj (List.cons_inj_right _ |>.mp h)
    (by rw [length_uuidGroup, length_uuidGroup])
  obtain ⟨h16, h⟩ := List.append_inj (List.cons_inj_right _ |>.mp h)
    (by rw [length_uuidGroup, length_uuidGroup])
  have h20 := List.cons_inj_right _ |>.mp h
  apply BitVec.eq_of_toNat_eq
  refine eq_of_hexDigits 32 first.isLt second.isLt ?_
  intro i hi
  -- Digit `i` from the right is digit `31 - i` of the text, in one of five groups.
  obtain hlast | hlast | hlast | hlast | hlast :
      31 - i < 8 ∨ (8 ≤ 31 - i ∧ 31 - i < 12) ∨ (12 ≤ 31 - i ∧ 31 - i < 16) ∨
        (16 ≤ 31 - i ∧ 31 - i < 20) ∨ (20 ≤ 31 - i ∧ 31 - i < 32) := by omega
  · have hdigit := uuidGroup_eq h0 (31 - i) hlast
    rwa [show 31 - (0 + (31 - i)) = i by omega] at hdigit
  · have hdigit := uuidGroup_eq h8 (31 - i - 8) (by omega)
    rwa [show 31 - (8 + (31 - i - 8)) = i by omega] at hdigit
  · have hdigit := uuidGroup_eq h12 (31 - i - 12) (by omega)
    rwa [show 31 - (12 + (31 - i - 12)) = i by omega] at hdigit
  · have hdigit := uuidGroup_eq h16 (31 - i - 16) (by omega)
    rwa [show 31 - (16 + (31 - i - 16)) = i by omega] at hdigit
  · have hdigit := uuidGroup_eq h20 (31 - i - 20) (by omega)
    rwa [show 31 - (20 + (31 - i - 20)) = i by omega] at hdigit

theorem PrivacyMode.asStr_injective : Function.Injective PrivacyMode.asStr := by
  intro first second h
  cases first <;> cases second <;> first | rfl | exact absurd h (by decide)

theorem CloseReason.asStr_injective : Function.Injective CloseReason.asStr := by
  have hall : ∀ first second : CloseReason, first.asStr = second.asStr → first = second := by decide
  exact fun first second => hall first second

theorem SensorConfig.toJson_injective : Function.Injective SensorConfig.toJson := by
  intro first second h
  obtain ⟨id, environment, ⟨entries, _⟩⟩ := first
  obtain ⟨id', environment', ⟨entries', _⟩⟩ := second
  simp only [SensorConfig.toJson, Json.obj.injEq, List.cons.injEq, Prod.mk.injEq, Json.str.injEq,
    true_and, and_true] at h
  obtain ⟨rfl, rfl, htags⟩ := h
  have hentries : entries = entries' := by
    refine List.map_injective_iff.mpr ?_ htags
    rintro ⟨name, value⟩ ⟨name', value'⟩ hentry
    simpa using hentry
  subst hentries
  rfl

/-- All that a line shows: every field, the two addresses and the timestamp by
their text. -/
structure SameLine (timestamp : Int → String) (first second : SessionRecord) : Prop where
  others : { first with ts := second.ts, src := second.src, dst := second.dst } = second
  ts : timestamp first.ts = timestamp second.ts
  src : first.src.show = second.src.show
  dst : first.dst.show = second.dst.show

theorem sameLine_of_toJson {timestamp : Int → String} {first second : SessionRecord}
    (h : first.toJson timestamp = second.toJson timestamp) : SameLine timestamp first second := by
  simp only [SessionRecord.toJson, Json.obj.injEq, List.cons.injEq, Prod.mk.injEq, Json.str.injEq,
    Json.num.injEq, Json.bool.injEq, Json.arr.injEq, true_and, and_true] at h
  obtain ⟨hversion, hts, hid, hsensor, hendpoint, hprotocol, hsrc, hdst, hport, hduration,
    hreceived, hcaptured, htruncated, hhex, hascii, hmode, hevents, hmore, hreason⟩ := h
  refine ⟨?_, hts, hsrc, hdst⟩
  obtain ⟨⟩ := first
  obtain ⟨⟩ := second
  simp only [SessionRecord.mk.injEq, true_and]
  exact ⟨hversion, uuidText_injective hid, SensorConfig.toJson_injective hsensor, hendpoint,
    hprotocol, UInt16.toNat_inj.mp hport, hduration, hreceived, hcaptured, htruncated, hhex, hascii,
    PrivacyMode.asStr_injective hmode,
    List.map_injective_iff.mpr SessionEvent.toJson_injective hevents, hmore,
    CloseReason.asStr_injective hreason⟩

end Minotaur
