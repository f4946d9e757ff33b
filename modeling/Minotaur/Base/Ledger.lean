import Mathlib.Algebra.BigOperators.Group.List.Basic
import Mathlib.Algebra.GroupWithZero.Nat
import Mathlib.Algebra.Order.Group.Multiset
import Mathlib.Algebra.Group.Pi.Basic
import Mathlib.Data.List.Perm.Basic

/-!
Counters as sums of what each party contributed. The parties of a system are a
list, `share` says what a party in its present state has put into a commutative
monoid, and `total` adds the shares up. A step that moves one party from one
state to another moves the total by the same amount; that is the only thing a
step has to show.
-/

/-- A counter with one value for each label. -/
abbrev Counters (κ : Type*) := κ → Nat

namespace Counters

variable {κ : Type*} [DecidableEq κ]

def incBy (counters : Counters κ) (label : κ) (amount : Nat) : Counters κ :=
  Function.update counters label (counters label + amount)

def inc (counters : Counters κ) (label : κ) : Counters κ := incBy counters label 1

theorem incBy_eq_add (counters : Counters κ) (label : κ) (amount : Nat) :
    incBy counters label amount = counters + Pi.single label amount := by
  funext other
  by_cases heq : other = label
  · subst heq
    simp [incBy]
  · simp [incBy, heq]

theorem inc_eq_add (counters : Counters κ) (label : κ) :
    inc counters label = counters + Pi.single label 1 := incBy_eq_add counters label 1

theorem single_apply (label other : κ) (amount : Nat) :
    (Pi.single label amount : Counters κ) other = if label = other then amount else 0 := by
  rw [Pi.single_apply]
  exact if_congr eq_comm rfl rfl

end Counters

namespace Ledger

variable {τ M : Type*} [AddCommMonoid M]

def total (share : τ → M) (parties : List τ) : M := (parties.map share).sum

@[simp] theorem total_nil (share : τ → M) : total share [] = 0 := rfl

@[simp] theorem total_cons (share : τ → M) (party : τ) (rest : List τ) :
    total share (party :: rest) = share party + total share rest := by
  simp [total]

@[simp] theorem total_append (share : τ → M) (first second : List τ) :
    total share (first ++ second) = total share first + total share second := by
  simp [total]

theorem total_perm (share : τ → M) {first second : List τ} (hperm : first.Perm second) :
    total share first = total share second := (hperm.map share).sum_eq

theorem total_eq_zero {share : τ → M} {parties : List τ}
    (hall : ∀ party ∈ parties, share party = 0) : total share parties = 0 := by
  unfold total
  rw [List.map_congr_left hall]
  simp

theorem total_congr {share share' : τ → M} {parties : List τ}
    (hall : ∀ party ∈ parties, share party = share' party) :
    total share parties = total share' parties := by
  unfold total
  rw [List.map_congr_left hall]

theorem total_add (share share' : τ → M) (parties : List τ) :
    total (fun party => share party + share' party) parties =
      total share parties + total share' parties := by
  induction parties with
  | nil => simp
  | cons party rest ih => rw [total_cons, total_cons, total_cons, ih, add_add_add_comm]

/-- One field of a total is the total of the field. -/
theorem map_total {N : Type*} [AddCommMonoid N] (field : M →+ N) (share : τ → M)
    (parties : List τ) :
    field (total share parties) = total (fun party => field (share party)) parties := by
  unfold total
  rw [map_list_sum, List.map_map]
  rfl

theorem total_ite (cond : τ → Bool) (parties : List τ) :
    total (fun party => if cond party then 1 else 0) parties = parties.countP cond := by
  induction parties with
  | nil => rfl
  | cons party rest ih => rw [total_cons, ih, List.countP_cons, Nat.add_comm]

theorem total_ite_int (cond : τ → Bool) (parties : List τ) :
    total (fun party => if cond party then (1 : Int) else 0) parties =
      (parties.countP cond : Nat) := by
  induction parties with
  | nil => rfl
  | cons party rest ih =>
      rw [total_cons, ih, List.countP_cons]
      cases cond party <;> simp [add_comm]

/-- Lists as shares, up to order. -/
theorem total_coe {α : Type*} (share : τ → List α) (parties : List τ) :
    total (fun party => (share party : Multiset α)) parties = parties.flatMap share := by
  induction parties with
  | nil => rfl
  | cons party rest ih => rw [total_cons, ih, List.flatMap_cons, Multiset.coe_add]

section Set

variable {share : τ → M} {parties : List τ} {index : Nat} {before after : τ}

/-- One party apart from the others. -/
theorem exists_rest (hbefore : parties[index]? = some before) (after : τ) :
    ∃ rest, parties.Perm (before :: rest) ∧ (parties.set index after).Perm (after :: rest) := by
  obtain ⟨hindex, rfl⟩ := List.getElem?_eq_some_iff.mp hbefore
  exact ⟨parties.eraseIdx index, (List.getElem_cons_eraseIdx_perm hindex).symm,
    List.set_perm_cons_eraseIdx hindex after⟩

/-- A party that adds to its share adds to the total. -/
theorem total_set_add (hbefore : parties[index]? = some before) {amount : M}
    (hshare : share after = share before + amount) :
    total share (parties.set index after) = total share parties + amount := by
  obtain ⟨rest, hparties, hset⟩ := exists_rest hbefore after
  rw [total_perm share hparties, total_perm share hset, total_cons, total_cons, hshare,
    add_right_comm]

theorem total_set_same (hbefore : parties[index]? = some before)
    (hshare : share after = share before) :
    total share (parties.set index after) = total share parties := by
  rw [← add_zero (share before)] at hshare
  rw [total_set_add hbefore hshare, add_zero]

/-- A party that takes from its share takes from the total. -/
theorem total_set_sub (hbefore : parties[index]? = some before) {amount : M}
    (hshare : share before = share after + amount) :
    total share parties = total share (parties.set index after) + amount := by
  obtain ⟨rest, hparties, hset⟩ := exists_rest hbefore after
  rw [total_perm share hparties, total_perm share hset, total_cons, total_cons, hshare,
    add_right_comm]

theorem total_set_lt {share : τ → Nat} (hbefore : parties[index]? = some before)
    (hless : share after < share before) :
    total share (parties.set index after) < total share parties := by
  obtain ⟨rest, hparties, hset⟩ := exists_rest hbefore after
  rw [total_perm share hparties, total_perm share hset, total_cons, total_cons]
  omega

end Set

omit [AddCommMonoid M] in
/-- What a party keeps, the list of the parties keeps in order. -/
theorem map_set_same {keep : τ → M} {parties : List τ} {index : Nat} {before after : τ}
    (hbefore : parties[index]? = some before) (hkeep : keep after = keep before) :
    (parties.set index after).map keep = parties.map keep := by
  apply List.ext_getElem?
  intro other
  rw [List.getElem?_map, List.getElem?_map, List.getElem?_set]
  split_ifs with heq hlength
  · subst heq
    rw [hbefore, Option.map_some, Option.map_some, hkeep]
  · subst heq
    rw [List.getElem?_eq_none (by omega)]
  · rfl

omit [AddCommMonoid M] in
theorem forall_mem_set {inv : τ → Prop} {parties : List τ} (hall : ∀ party ∈ parties, inv party)
    (index : Nat) {after : τ} (hafter : inv after) :
    ∀ party ∈ parties.set index after, inv party := by
  intro party hparty
  rcases List.mem_or_eq_of_mem_set hparty with hmem | rfl
  · exact hall party hmem
  · exact hafter

end Ledger
