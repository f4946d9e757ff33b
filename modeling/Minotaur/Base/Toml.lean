import Mathlib.Algebra.Group.Nat.Defs
import Mathlib.Data.List.Nodup
import Mathlib.Tactic.Common

/-!
Documents of a configuration language, and the derived deserialisation of a
record from a table: no other fields than its own, none twice, and a default
for an absent one. A table laid over another one keeps what it does not name.
A record is read from its table only, not from the list of its values.
-/

namespace Toml

inductive Value where
  | String (text : String)
  | Integer (value : Int)
  | Float (bits : UInt64)
  | Boolean (value : Bool)
  | Datetime (text : String)
  | Array (items : List Value)
  | Table (entries : List (String × Value))

def keys (entries : List (String × Value)) : List String := entries.map Prod.fst

/-- What `deny_unknown_fields` lets through. -/
structure Known (names : List String) (entries : List (String × Value)) : Prop where
  known : ∀ key ∈ keys entries, key ∈ names
  once : (keys entries).Nodup

instance (names : List String) (entries : List (String × Value)) :
    Decidable (Known names entries) :=
  decidable_of_iff ((∀ key ∈ keys entries, key ∈ names) ∧ (keys entries).Nodup)
    ⟨fun ⟨hknown, honce⟩ => ⟨hknown, honce⟩, fun ⟨hknown, honce⟩ => ⟨hknown, honce⟩⟩

abbrev Fields := String → Option Value

def fields (names : List String) : Value → Option Fields
  | .Table entries => if Known names entries then some fun name => entries.lookup name else none
  | _ => none

theorem fields_of_known {names : List String} {entries : List (String × Value)}
    (hknown : Known names entries) :
    fields names (.Table entries) = some fun name => entries.lookup name := if_pos hknown

namespace Fields

variable {α : Type} (self : Fields)

def required (name : String) (read : Value → Option α) : Option α := (self name).bind read

def default (name : String) (read : Value → Option α) (absent : α) : Option α :=
  match self name with
  | some value => read value
  | none => some absent

/-- A field of an `Option` type with the default `None`. -/
def optional (name : String) (read : Value → Option α) : Option (Option α) :=
  self.default name (fun value => (read value).map some) none

variable {entries : List (String × Value)} {name : String} {read : Value → Option α} {result : α}

theorem reads_of_lookup {value : Value} (hlookup : entries.lookup name = some value)
    (hread : read value = some result) : (entries.lookup name).bind read = some result := by
  rw [hlookup, Option.bind_some, hread]

/-- A field that is there with a value that reads. -/
theorem default_of_reads (hreads : (entries.lookup name).bind read = some result) (absent : α) :
    default (fun name => entries.lookup name) name read absent = some result := by
  obtain ⟨value, hvalue, hread⟩ := Option.bind_eq_some_iff.mp hreads
  simp only [default, hvalue, hread]

theorem required_of_reads (hreads : (entries.lookup name).bind read = some result) :
    required (fun name => entries.lookup name) name read = some result := hreads

theorem optional_of_lookup {write : α → Value} {value : Option α}
    (hlookup : entries.lookup name = value.map write)
    (hread : ∀ value, read (write value) = some value) :
    optional (fun name => entries.lookup name) name read = some value := by
  cases value with
  | none => simp only [optional, default, hlookup, Option.map_none]
  | some value => simp only [optional, default, hlookup, hread, Option.map_some]

end Fields

/-! ### Values -/

def readString : Value → Option String
  | .String text => some text
  | _ => none

/-- The name of a variant without fields: a string, or the one key of a table
whose value is empty. -/
def unitVariant : Value → Option String
  | .String name => some name
  | .Table [(name, .Table [])] => some name
  | .Table [(name, .Array [])] => some name
  | _ => none

def readBoolean : Value → Option Bool
  | .Boolean value => some value
  | _ => none

/-- An unsigned integer below `bound`. -/
def readUnsigned (bound : Nat) : Value → Option Nat
  | .Integer value => if 0 ≤ value ∧ value < bound then some value.toNat else none
  | _ => none

def readU16 (value : Value) : Option UInt16 := (readUnsigned (2 ^ 16) value).map UInt16.ofNat

/-- The serialiser has signed integers of 64 bits. -/
def writeUnsigned (value : Nat) : Option Value :=
  if value < 2 ^ 63 then some (.Integer value) else none

def readList {α : Type} (read : Value → Option α) : Value → Option (List α)
  | .Array items => items.mapM read
  | _ => none

theorem readUnsigned_integer {bound value : Nat} (hvalue : value < bound) :
    readUnsigned bound (.Integer value) = some value := by
  rw [readUnsigned, if_pos ⟨by omega, by omega⟩, Int.toNat_natCast]

theorem readU16_integer (value : UInt16) : readU16 (.Integer value.toNat) = some value := by
  rw [readU16, readUnsigned_integer value.toNat_lt, Option.map_some, UInt16.ofNat_toNat]

theorem writeUnsigned_eq {value : Nat} (hvalue : value < 2 ^ 63) :
    writeUnsigned value = some (.Integer value) := if_pos hvalue

theorem mapM_map {α β γ : Type} {read : γ → Option β} {write : α → γ} {list : List α}
    {result : α → β} (hread : ∀ value ∈ list, read (write value) = some (result value)) :
    (list.map write).mapM read = some (list.map result) := by
  induction list with
  | nil => rfl
  | cons value rest ih =>
      have hrest := ih fun other h => hread other (List.mem_cons_of_mem _ h)
      simp [hread value List.mem_cons_self, hrest]

theorem lookup_eq_none {entries : List (String × Value)} {name : String}
    (hname : name ∉ keys entries) : entries.lookup name = none := by
  rw [List.lookup_eq_none_iff]
  intro entry hentry
  simp only [bne_iff_ne, ne_eq]
  rintro rfl
  exact hname (List.mem_map_of_mem hentry)

/-- A field that is left out if it is `None`. -/
def optionalEntry (name : String) (value : Option Value) : List (String × Value) :=
  (value.map fun value => (name, value)).toList

theorem lookup_optionalEntry (key : String) (value : Option Value) (name : String) :
    (optionalEntry key value).lookup name = if name = key then value else none := by
  cases value with
  | none => simp [optionalEntry]
  | some value =>
      by_cases hname : name = key
      · subst hname
        rw [if_pos rfl]
        exact List.lookup_cons_self
      · rw [if_neg hname]
        exact lookup_eq_none (by simpa [keys, optionalEntry] using hname)

theorem keys_optionalEntry (key : String) (value : Option Value) :
    (keys (optionalEntry key value)).Sublist [key] := by
  cases value with
  | none => exact List.nil_sublist _
  | some value => exact List.Sublist.refl _

theorem Known.of_sublist {names : List String} {entries : List (String × Value)}
    (hsublist : (keys entries).Sublist names) (honce : names.Nodup) : Known names entries where
  known _ hkey := hsublist.subset hkey
  once := honce.sublist hsublist

theorem known_congr {names : List String} {entries others : List (String × Value)}
    (hkeys : keys entries = keys others) : Known names entries ↔ Known names others :=
  ⟨fun h => ⟨hkeys ▸ h.known, hkeys ▸ h.once⟩, fun h => ⟨hkeys ▸ h.known, hkeys ▸ h.once⟩⟩

/-! ### A table over another one -/

def overlay (base entries : List (String × Value)) : List (String × Value) :=
  base.filter (fun entry => entry.1 ∉ keys entries) ++ entries

/-- A value laid over another one; two tables are laid over each other. -/
def Value.over (base value : Value) : Value :=
  match base, value with
  | .Table base, .Table entries => .Table (overlay base entries)
  | _, _ => value

theorem lookup_filter {entries base : List (String × Value)} {name : String}
    (hname : name ∉ keys entries) :
    (base.filter fun entry => entry.1 ∉ keys entries).lookup name = base.lookup name := by
  induction base with
  | nil => rfl
  | cons entry base ih =>
      obtain ⟨key, value⟩ := entry
      by_cases hkey : name = key
      · subst hkey
        rw [List.filter_cons_of_pos (by simpa using hname), List.lookup_cons_self,
          List.lookup_cons_self]
      · have hskip : ∀ rest : List (String × Value),
            ((key, value) :: rest).lookup name = rest.lookup name := fun rest => by
          rw [List.lookup_cons, beq_false_of_ne hkey]
        by_cases hkept : key ∈ keys entries
        · rw [List.filter_cons_of_neg (by simpa using hkept), hskip, ih]
        · rw [List.filter_cons_of_pos (by simpa using hkept), hskip, hskip, ih]

theorem lookup_overlay (base entries : List (String × Value)) (name : String) :
    (overlay base entries).lookup name = (entries.lookup name).or (base.lookup name) := by
  unfold overlay
  rw [List.lookup_append]
  by_cases hname : name ∈ keys entries
  · have hnone : name ∉ keys (base.filter fun entry => entry.1 ∉ keys entries) := by
      intro hmem
      obtain ⟨entry, hentry, rfl⟩ := List.mem_map.mp hmem
      exact absurd hname (by simpa using (List.mem_filter.mp hentry).2)
    obtain ⟨value, hvalue⟩ : ∃ value, entries.lookup name = some value := by
      cases hlookup : entries.lookup name with
      | some value => exact ⟨value, rfl⟩
      | none =>
          obtain ⟨entry, hentry, rfl⟩ := List.mem_map.mp hname
          exact absurd (List.lookup_eq_none_iff.mp hlookup entry hentry) (by simp)
    rw [lookup_eq_none hnone, hvalue, Option.none_or, Option.some_or]
  · rw [lookup_filter hname, lookup_eq_none hname, Option.none_or, Option.or_none]

theorem known_overlay {names : List String} {base : List (String × Value)}
    (hbase : Known names base) (entries : List (String × Value)) :
    Known names (overlay base entries) ↔ Known names entries := by
  have hkeys : keys (overlay base entries) =
      (keys base).filter (fun key => key ∉ keys entries) ++ keys entries := by
    simp only [keys, overlay, List.map_append, List.filter_map]
    rfl
  constructor
  · intro h
    have hknown := h.known
    have honce := h.once
    rw [hkeys] at hknown honce
    exact ⟨fun key hkey => hknown key (List.mem_append_right _ hkey),
      (List.nodup_append.mp honce).2.1⟩
  · intro h
    constructor
    · rw [hkeys]
      intro key hkey
      rcases List.mem_append.mp hkey with hkey | hkey
      · exact hbase.known key (List.mem_filter.mp hkey).1
      · exact h.known key hkey
    · rw [hkeys, List.nodup_append]
      refine ⟨hbase.once.filter _, h.once, ?_⟩
      rintro key hkey other hother rfl
      exact absurd hother (by simpa using (List.mem_filter.mp hkey).2)

/-- The fields of a table that lies over another one. -/
theorem fields_overlay {names : List String} {base : List (String × Value)}
    (hbase : Known names base) (entries : List (String × Value)) :
    fields names (.Table (overlay base entries)) =
      (fields names (.Table entries)).map fun field name => (field name).or (base.lookup name) := by
  simp only [fields, known_overlay hbase, lookup_overlay]
  split_ifs <;> rfl

/-- What the lower table has for an absent field is its default. -/
theorem Fields.default_or {α : Type} {field : Fields} {base : List (String × Value)}
    {name : String} {read : Value → Option α} {absent : α}
    (hbase : (base.lookup name).bind read = some absent) :
    Fields.default (fun name => (field name).or (base.lookup name)) name read absent =
      field.default name read absent := by
  unfold Fields.default
  dsimp only
  cases hfield : field name with
  | some value => rfl
  | none =>
      cases hlookup : base.lookup name with
      | none =>
          rw [hlookup] at hbase
          cases hbase
      | some value =>
          rw [hlookup] at hbase
          simpa using hbase

/-! ### Tables of tables -/

/-- A table of sections over another one, section by section. -/
def overlaySections (base entries : List (String × Value)) : List (String × Value) :=
  overlay base (entries.map fun entry =>
    (entry.1, ((base.lookup entry.1).map fun below => below.over entry.2).getD entry.2))

theorem lookup_map_value (change : String → Value → Value) (entries : List (String × Value))
    (name : String) :
    (entries.map fun entry => (entry.1, change entry.1 entry.2)).lookup name =
      (entries.lookup name).map (change name) := by
  induction entries with
  | nil => rfl
  | cons entry entries ih =>
      obtain ⟨key, value⟩ := entry
      rw [List.map_cons, List.lookup_cons, List.lookup_cons]
      cases hkey : name == key with
      | true => rw [eq_of_beq hkey]; rfl
      | false => exact ih

/-- The fields of a table of sections, with another one below it. -/
def Fields.layered (self : Fields) (base : List (String × Value)) : Fields := fun name =>
  ((self name).map fun value =>
    ((base.lookup name).map fun below => below.over value).getD value).or (base.lookup name)

theorem fields_overlaySections {names : List String} {base : List (String × Value)}
    (hbase : Known names base) (entries : List (String × Value)) :
    fields names (.Table (overlaySections base entries)) =
      (fields names (.Table entries)).map fun field => field.layered base := by
  have hkeys : keys (entries.map fun entry => (entry.1,
      ((base.lookup entry.1).map fun below => below.over entry.2).getD entry.2)) =
      keys entries := by
    simp [keys, Function.comp_def]
  have hlookup := lookup_map_value
    (fun name value => ((base.lookup name).map fun below => below.over value).getD value) entries
  unfold overlaySections
  rw [fields_overlay hbase]
  simp only [fields, known_congr hkeys]
  split_ifs
  · simp only [Option.map_some, hlookup]
    rfl
  · rfl

theorem over_table {α : Type} {read : Value → Option α} {table : List (String × Value)}
    (hoverlay : ∀ entries, read (.Table (overlay table entries)) = read (.Table entries))
    (value : Value) : read ((Value.Table table).over value) = read value := by
  cases value with
  | Table entries => exact hoverlay entries
  | _ => rfl

/-- A section that reads the same over its defaults. -/
theorem Fields.default_section {α : Type} {field : Fields} {base : List (String × Value)}
    {name : String} {read : Value → Option α} {absent : α} {below : Value}
    (hbelow : base.lookup name = some below) (hread : read below = some absent)
    (hover : ∀ value, read (below.over value) = read value) :
    (field.layered base).default name read absent = field.default name read absent := by
  unfold Fields.default Fields.layered
  rw [hbelow]
  cases hfield : field name with
  | some value => exact hover value
  | none => exact hread

/-! ### What was read -/

theorem table_of_fields {names : List String} {document : Value} {field : Fields}
    (hfields : fields names document = some field) :
    ∃ entries, document = .Table entries ∧ Known names entries ∧
      field = fun name => entries.lookup name := by
  cases document with
  | Table entries =>
      simp only [fields] at hfields
      split_ifs at hfields with hknown
      exact ⟨entries, rfl, hknown, (Option.some.inj hfields).symm⟩
  | _ => cases hfields

/-- A record comes from a table with its fields. -/
theorem table_of_bind {α : Type} {names : List String} {document : Value} {next : Fields → Option α}
    {result : α} (hread : (fields names document).bind next = some result) :
    ∃ entries, document = .Table entries ∧ Known names entries := by
  obtain ⟨_, hfields, _⟩ := Option.bind_eq_some_iff.mp hread
  obtain ⟨entries, hdocument, hknown, _⟩ := table_of_fields hfields
  exact ⟨entries, hdocument, hknown⟩

theorem Fields.read_of_default {α : Type} {field : Fields} {name : String}
    {read : Value → Option α} {absent result : α}
    (hdefault : field.default name read absent = some result) {value : Value}
    (hvalue : field name = some value) : read value = some result := by
  unfold Fields.default at hdefault
  rwa [hvalue] at hdefault

theorem Fields.default_eq_some {α : Type} {field : Fields} {name : String}
    {read : Value → Option α} {absent result : α}
    (hdefault : field.default name read absent = some result) :
    (field name = none ∧ result = absent) ∨
      ∃ value, field name = some value ∧ read value = some result := by
  cases hfield : field name with
  | none =>
      unfold Fields.default at hdefault
      rw [hfield] at hdefault
      exact Or.inl ⟨rfl, (Option.some.inj hdefault).symm⟩
  | some value => exact Or.inr ⟨value, rfl, read_of_default hdefault hfield⟩

theorem read_of_mapM {α β : Type} {read : α → Option β} {items : List α} {list : List β}
    (hread : items.mapM read = some list) :
    (∀ item ∈ items, ∃ value, read item = some value) ∧
      ∀ value ∈ list, ∃ item, read item = some value := by
  induction items generalizing list with
  | nil =>
      obtain rfl := Option.some.inj hread
      exact ⟨by simp, by simp⟩
  | cons item items ih =>
      simp only [List.mapM_cons, Option.bind_eq_bind, Option.bind_eq_some_iff, Option.pure_def,
        Option.some.injEq] at hread
      obtain ⟨value, hvalue, rest, hrest, rfl⟩ := hread
      obtain ⟨hitems, hvalues⟩ := ih hrest
      constructor
      · intro other hother
        rcases List.mem_cons.mp hother with rfl | hother
        · exact ⟨value, hvalue⟩
        · exact hitems other hother
      · intro other hother
        rcases List.mem_cons.mp hother with rfl | hother
        · exact ⟨item, hvalue⟩
        · exact hvalues other hother

end Toml
