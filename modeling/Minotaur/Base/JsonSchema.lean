import Minotaur.Base.Json

/-!
The part of JSON Schema that record schemas use. A schema is the check it
stands for, and each keyword is a function to such checks; a schema document
is then a term that reads like the document. As in the standard, a keyword for
one type of value says nothing about values of the others. Lengths count
characters, and formats are checked, not only noted.
-/

abbrev Schema := Json → Bool

inductive JsonType where
  | null
  | boolean
  | integer
  | string
  | array
  | object
deriving DecidableEq, Repr

def Json.type : Json → JsonType
  | .null => .null
  | .bool _ => .boolean
  | .num _ => .integer
  | .str _ => .string
  | .arr _ => .array
  | .obj _ => .object

namespace Schema

/-! ### Composition -/

def any : Schema := fun _ => true

/-- The schema `false`. -/
def never : Schema := fun _ => false

def allOf (schemas : List Schema) : Schema := fun value => schemas.all fun schema => schema value

def oneOf (schemas : List Schema) : Schema := fun value =>
  schemas.countP (fun schema => schema value) = 1

def ifThen (condition consequence : Schema) : Schema := fun value =>
  !condition value || consequence value

/-! ### Values -/

def type (types : List JsonType) : Schema := fun value => types.contains value.type

def constString (text : String) : Schema := fun value => match value with
  | .str found => found = text
  | _ => false

def constNumber (number : Nat) : Schema := fun value => match value with
  | .num found => found = number
  | _ => false

def constBool (flag : Bool) : Schema := fun value => match value with
  | .bool found => found = flag
  | _ => false

/-- `enum` with strings. -/
def enum (texts : List String) : Schema := fun value => match value with
  | .str found => texts.contains found
  | _ => false

/-! ### Strings and numbers -/

def onString (check : String → Bool) : Schema := fun value => match value with
  | .str text => check text
  | _ => true

def minLength (bound : Nat) : Schema := onString fun text => bound ≤ text.length

def maxLength (bound : Nat) : Schema := onString fun text => text.length ≤ bound

/-- A pattern, as the predicate on the characters it describes. -/
def pattern (check : List Char → Bool) : Schema := onString fun text => check text.toList

def onNumber (check : Nat → Bool) : Schema := fun value => match value with
  | .num number => check number
  | _ => true

def minimum (bound : Nat) : Schema := onNumber fun number => bound ≤ number

def maximum (bound : Nat) : Schema := onNumber fun number => number ≤ bound

/-! ### Arrays and objects -/

def maxItems (bound : Nat) : Schema := fun value => match value with
  | .arr items => items.length ≤ bound
  | _ => true

def items (schema : Schema) : Schema := fun value => match value with
  | .arr items => items.all schema
  | _ => true

/-- `properties` and `additionalProperties`. -/
def properties (known : List (String × Schema)) (additional : Schema) : Schema := fun value =>
  match value with
  | .obj fields => fields.all fun field => ((known.lookup field.1).getD additional) field.2
  | _ => true

def propertyNames (schema : Schema) : Schema := fun value => match value with
  | .obj fields => fields.all fun field => schema (.str field.1)
  | _ => true

def required (names : List String) : Schema := fun value => match value with
  | .obj fields => names.all fun name => (fields.map Prod.fst).contains name
  | _ => true

def maxProperties (bound : Nat) : Schema := fun value => match value with
  | .obj fields => fields.length ≤ bound
  | _ => true

/-! ### Formats -/

def hexDigit (c : Char) : Bool := ('0' ≤ c && c ≤ '9') || ('a' ≤ c && c ≤ 'f')

/-- Five groups of 8, 4, 4, 4 and 12 lower-case hexadecimal digits. -/
def isUuid (text : List Char) : Bool :=
  (text.splitOn '-').map List.length = [8, 4, 4, 4, 12] &&
    (text.splitOn '-').all fun group => group.all hexDigit

def isDigit (c : Char) : Bool := '0' ≤ c && c ≤ '9'

def number (digits : List Char) : Nat :=
  digits.foldl (fun number c => 10 * number + (c.toNat - 48)) 0

/-- Exactly `count` digits with a value between the bounds. -/
def isNumber (count least most : Nat) (digits : List Char) : Bool :=
  digits.length = count && digits.all isDigit && least ≤ number digits && number digits ≤ most

def daysInMonth (year month : Nat) : Nat :=
  if month = 2 then (if year % 4 = 0 ∧ (year % 100 ≠ 0 ∨ year % 400 = 0) then 29 else 28)
  else if month = 4 ∨ month = 6 ∨ month = 9 ∨ month = 11 then 30
  else 31

/-- `Z`, or a sign, hours and minutes. -/
def isOffset : List Char → Bool
  | ['Z'] => true
  | [sign, h, i, ':', m, n] =>
      (sign = '+' || sign = '-') && isNumber 2 0 23 [h, i] && isNumber 2 0 59 [m, n]
  | _ => false

/-- An optional fraction of a second, then the offset. -/
def isFractionOffset : List Char → Bool
  | '.' :: rest => !(rest.takeWhile isDigit).isEmpty && isOffset (rest.dropWhile isDigit)
  | rest => isOffset rest

/-- `date-time`: year, month, day, `T`, hour, minute, second, fraction, offset. -/
def isDateTime (text : List Char) : Bool :=
  let year := text.take 4
  let month := (text.drop 5).take 2
  let day := (text.drop 8).take 2
  isNumber 4 0 9999 year && text[4]? = some '-' &&
    isNumber 2 1 12 month && text[7]? = some '-' &&
    isNumber 2 1 (daysInMonth (number year) (number month)) day && text[10]? = some 'T' &&
    isNumber 2 0 23 ((text.drop 11).take 2) && text[13]? = some ':' &&
    isNumber 2 0 59 ((text.drop 14).take 2) && text[16]? = some ':' &&
    isNumber 2 0 60 ((text.drop 17).take 2) && isFractionOffset (text.drop 19)

example : isDateTime "2024-02-29T23:59:60.123456789Z".toList = true := by decide

example : isDateTime "2023-02-29T00:00:00Z".toList = false := by decide

/-! ### Rules -/

@[simp] theorem allOf_nil (value : Json) : allOf [] value = true := rfl

@[simp] theorem allOf_cons (schema : Schema) (rest : List Schema) (value : Json) :
    allOf (schema :: rest) value = (schema value && allOf rest value) := rfl

theorem lookup_of_mem {known : List (String × Schema)} (hnodup : (known.map Prod.fst).Nodup)
    {name : String} {schema : Schema} (hmem : (name, schema) ∈ known) :
    known.lookup name = some schema := by
  induction known with
  | nil => simp at hmem
  | cons property rest ih =>
      obtain ⟨first, check⟩ := property
      simp only [List.map_cons, List.nodup_cons] at hnodup
      rcases List.mem_cons.mp hmem with heq | htail
      · cases heq
        simp
      · have hne : name ≠ first := by
          rintro rfl
          exact hnodup.1 (List.mem_map.mpr ⟨_, htail, rfl⟩)
        simp [List.lookup_cons, beq_false_of_ne hne, ih hnodup.2 htail]

/-- A member and the schema of its name. -/
def Matches (property : String × Schema) (field : String × Json) : Prop :=
  property.1 = field.1 ∧ property.2 field.2 = true

/-- An object whose members come in the order of the schema. -/
theorem properties_of_forall₂ {known : List (String × Schema)} {additional : Schema}
    {fields : List (String × Json)} (hnodup : (known.map Prod.fst).Nodup)
    (hfields : List.Forall₂ Matches known fields) :
    properties known additional (.obj fields) = true := by
  have hmember : ∀ field ∈ fields, ∃ schema, (field.1, schema) ∈ known ∧
      schema field.2 = true := by
    clear hnodup
    induction hfields with
    | nil => simp
    | @cons property field known fields hhead _ ih =>
        intro other hother
        rcases List.mem_cons.mp hother with rfl | htail
        · refine ⟨property.2, ?_, hhead.2⟩
          rw [← hhead.1]
          exact List.mem_cons_self
        · obtain ⟨schema, hschema, hcheck⟩ := ih other htail
          exact ⟨schema, List.mem_cons_of_mem _ hschema, hcheck⟩
  apply List.all_eq_true.mpr
  intro field hfield
  obtain ⟨schema, hmem, hcheck⟩ := hmember field hfield
  rw [lookup_of_mem hnodup hmem]
  exact hcheck

theorem required_of_map_eq {names : List String} {fields : List (String × Json)}
    (hnames : fields.map Prod.fst = names) : required names (.obj fields) = true := by
  subst hnames
  apply List.all_eq_true.mpr
  intro name hname
  simpa using hname

theorem matches_of {name : String} {schema : Schema} {value : Json} (h : schema value = true) :
    Matches (name, schema) (name, value) := ⟨rfl, h⟩

/-- An object with exactly the members of its schema, in its order. -/
theorem object_accepts {known : List (String × Schema)} {additional : Schema}
    {fields : List (String × Json)} (hnodup : (known.map Prod.fst).Nodup)
    (hfields : List.Forall₂ Matches known fields) :
    allOf [type [.object], properties known additional, required (known.map Prod.fst)]
      (.obj fields) = true := by
  have hnames : fields.map Prod.fst = known.map Prod.fst := by
    clear hnodup
    induction hfields with
    | nil => rfl
    | cons hhead _ ih => rw [List.map_cons, List.map_cons, ih, hhead.1]
  rw [allOf_cons, allOf_cons, allOf_cons, properties_of_forall₂ hnodup hfields,
    required_of_map_eq hnames]
  rfl

/-- One schema of the list accepts and every other one refuses. -/
theorem oneOf_of_split {first rest : List Schema} {schema : Schema} {value : Json}
    (haccepts : schema value = true) (hfirst : ∀ other ∈ first, other value = false)
    (hrest : ∀ other ∈ rest, other value = false) :
    oneOf (first ++ schema :: rest) value = true := by
  have hnone : ∀ {list : List Schema}, (∀ other ∈ list, other value = false) →
      list.countP (fun schema => schema value) = 0 := by
    intro list hlist
    rw [List.countP_eq_zero]
    intro other hother
    simp [hlist other hother]
  unfold oneOf
  rw [List.countP_append, List.countP_cons, hnone hfirst, hnone hrest, haccepts]
  rfl

end Schema
