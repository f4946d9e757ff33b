import Mathlib.Data.List.AList
import Mathlib.Algebra.GroupWithZero.Nat
import Mathlib.Algebra.Order.BigOperators.Group.List
import Mathlib.Algebra.Order.Group.Nat
import Mathlib.Tactic.Common

/-!
Finite maps with one more operation than the association lists they are:
`retain` rewrites every value in place and forgets the keys whose value
becomes `none`, which is what a map's `retain` with a mutable value does.
-/

namespace Table

variable {α γ : Type*} [DecidableEq α]

abbrev Entry (α γ : Type*) := Sigma fun _ : α => γ

def retainEntry (change : γ → Option γ) (entry : Entry α γ) : Option (Entry α γ) :=
  (change entry.2).map fun value => ⟨entry.1, value⟩

omit [DecidableEq α] in
private theorem keys_filterMap_sublist (change : γ → Option γ) (entries : List (Entry α γ)) :
    (entries.filterMap (retainEntry change)).keys.Sublist entries.keys := by
  induction entries with
  | nil => exact List.Sublist.refl _
  | cons entry rest ih =>
      cases hchange : change entry.2 with
      | none => simpa [retainEntry, hchange] using ih.cons entry.1
      | some value => simpa [retainEntry, hchange] using ih.cons_cons entry.1

def retain (change : γ → Option γ) (table : AList fun _ : α => γ) : AList fun _ : α => γ where
  entries := table.entries.filterMap (retainEntry change)
  nodupKeys := (keys_filterMap_sublist change table.entries).nodup table.nodupKeys

/-- Number of keys. -/
def size (table : AList fun _ : α => γ) : Nat := table.keys.length

theorem lookup_retain (change : γ → Option γ) (table : AList fun _ : α => γ) (key : α) :
    (retain change table).lookup key = (table.lookup key).bind change := by
  obtain ⟨entries, hnodup⟩ := table
  simp only [AList.lookup, retain]
  induction entries with
  | nil => rfl
  | cons entry rest ih =>
      obtain ⟨other, value⟩ := entry
      have hrest : rest.NodupKeys := List.nodupKeys_of_nodupKeys_cons hnodup
      have hfresh : other ∉ rest.keys := List.notMem_keys_of_nodupKeys_cons hnodup
      by_cases hkey : key = other
      · subst hkey
        have hnone : rest.dlookup key = none := List.dlookup_eq_none.mpr hfresh
        cases hchange : change value with
        | none => simpa [retainEntry, hchange, hnone] using ih hrest
        | some changed => simp [retainEntry, hchange]
      · have hskip (value : γ) (rest : List (Entry α γ)) :
            (⟨other, value⟩ :: rest : List (Entry α γ)).dlookup key = rest.dlookup key :=
          List.dlookup_cons_ne rest ⟨other, value⟩ hkey
        cases hchange : change value with
        | none => simpa [retainEntry, hchange, hskip] using ih hrest
        | some changed => simpa [retainEntry, hchange, hskip] using ih hrest

/-- Every entry of the table. -/
def Each (P : α → γ → Prop) (table : AList fun _ : α => γ) : Prop :=
  ∀ key value, table.lookup key = some value → P key value

theorem each_empty (P : α → γ → Prop) : Each P (∅ : AList fun _ : α => γ) := by
  intro key value hsome
  simp at hsome

theorem Each.insert {P : α → γ → Prop} {table : AList fun _ : α => γ} (h : Each P table)
    {key : α} {value : γ} (hnew : P key value) : Each P (table.insert key value) := by
  intro other found hsome
  by_cases hother : other = key
  · subst hother
    rw [AList.lookup_insert, Option.some.injEq] at hsome
    exact hsome ▸ hnew
  · rw [AList.lookup_insert_ne hother] at hsome
    exact h other found hsome

theorem Each.retain {P : α → γ → Prop} {table : AList fun _ : α => γ} (h : Each P table)
    {change : γ → Option γ}
    (hchange : ∀ key old value, P key old → change old = some value → P key value) :
    Each P (retain change table) := by
  intro key value hsome
  rw [lookup_retain] at hsome
  obtain ⟨old, hold, hnew⟩ := Option.bind_eq_some_iff.mp hsome
  exact hchange key old value (h key old hold) hnew

theorem Each.entry {P : α → γ → Prop} {table : AList fun _ : α => γ} (h : Each P table)
    {entry : Entry α γ} (hentry : entry ∈ table.entries) : P entry.1 entry.2 :=
  h entry.1 entry.2 (AList.mem_lookup_iff.mpr hentry)

omit [DecidableEq α] in
theorem size_retain_le (change : γ → Option γ) (table : AList fun _ : α => γ) :
    size (retain change table) ≤ size table :=
  (keys_filterMap_sublist change table.entries).length_le

theorem size_insert_of_mem {table : AList fun _ : α => γ} {key : α} (hmem : key ∈ table)
    (value : γ) : size (table.insert key value) = size table := by
  have hkey : key ∈ table.keys := hmem
  rw [size, AList.keys_insert, List.length_cons, List.length_erase_of_mem hkey, size]
  exact Nat.sub_add_cancel (List.length_pos_of_mem hkey)

theorem size_insert_of_notMem {table : AList fun _ : α => γ} {key : α} (hmem : key ∉ table)
    (value : γ) : size (table.insert key value) = size table + 1 := by
  have hkey : key ∉ table.keys := hmem
  rw [size, AList.keys_insert, List.length_cons, List.erase_of_not_mem hkey, size]

/-- The entries together, counted by a weight no entry exceeds. -/
theorem weight_le {weight : γ → Nat} {bound : Nat} {table : AList fun _ : α => γ}
    (h : Each (fun _ value => weight value ≤ bound) table) :
    (table.entries.map fun entry => weight entry.2).sum ≤ size table * bound := by
  have hle : ∀ w ∈ table.entries.map (fun entry => weight entry.2), w ≤ bound := by
    intro w hw
    obtain ⟨entry, hentry, rfl⟩ := List.mem_map.mp hw
    exact h.entry hentry
  have hsum := List.sum_le_card_nsmul _ bound hle
  simpa [size, AList.keys, List.keys] using hsum

theorem mem_iff_lookup {table : AList fun _ : α => γ} {key : α} :
    key ∈ table ↔ ∃ value, table.lookup key = some value := by
  rw [← AList.lookup_isSome, Option.isSome_iff_exists]

end Table
