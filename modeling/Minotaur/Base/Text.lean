import Mathlib.Tactic.Common

/-!
Searching and splitting lists the way strings are searched and split. A list
is split at every occurrence of a pair of elements, scanned from the left and
keeping empty parts; splitting at a single element is `List.splitOn`. The
decimal text of a number has no leading zero.
-/

namespace Text

variable {α : Type*} [DecidableEq α]

/-- `split` at the pair `a`, `b`. -/
def splitPair (a b : α) : List α → List (List α)
  | [] => [[]]
  | [x] => [[x]]
  | x :: y :: rest =>
      if x = a ∧ y = b then [] :: splitPair a b rest
      else (splitPair a b (y :: rest)).modifyHead (x :: ·)

/-- `split_once`. -/
def splitOnce (a : α) (list : List α) : Option (List α × List α) :=
  if a ∈ list then some (list.takeWhile (· ≠ a), (list.dropWhile (· ≠ a)).tail) else none

/-- Index of the first occurrence of `pattern`. -/
def position (pattern : List α) : List α → Option Nat
  | [] => if pattern = [] then some 0 else none
  | x :: rest => if pattern <+: x :: rest then some 0 else (position pattern rest).map (· + 1)

/-- `trim_matches`. -/
def trim (drop : α → Bool) (list : List α) : List α :=
  ((list.dropWhile drop).reverse.dropWhile drop).reverse

/-- `b` never follows `a`. -/
def PairFree (a b : α) (list : List α) : Prop := ¬ [a, b] <:+: list

omit [DecidableEq α] in
theorem pairFree_cons {a b x : α} {rest : List α} :
    PairFree a b (x :: rest) ↔ ¬ (x = a ∧ rest.head? = some b) ∧ PairFree a b rest := by
  unfold PairFree
  rw [List.infix_cons_iff, not_or]
  apply and_congr_left
  intro _
  rw [List.cons_prefix_cons]
  cases rest with
  | nil => simp
  | cons y rest => simp [List.cons_prefix_cons, eq_comm]

omit [DecidableEq α] in
/-- The first `a` begins a pair or not. -/
theorem pairFree_append_cons {a b : α} {first : List α} (hfirst : a ∉ first) (rest : List α) :
    PairFree a b (first ++ a :: rest) ↔ rest.head? ≠ some b ∧ PairFree a b rest := by
  induction first with
  | nil => simp [pairFree_cons]
  | cons x tail ih =>
      rw [List.mem_cons, not_or] at hfirst
      obtain ⟨hx, htail⟩ := hfirst
      have hpair : ¬ (x = a ∧ (tail ++ a :: rest).head? = some b) := fun h => hx h.1.symm
      rw [List.cons_append, pairFree_cons, ih htail]
      exact and_iff_right hpair

theorem splitPair_of_pairFree {a b : α} {list : List α} (hfree : PairFree a b list) :
    splitPair a b list = [list] := by
  induction list with
  | nil => rfl
  | cons x rest ih =>
      obtain ⟨hhead, hrest⟩ := pairFree_cons.mp hfree
      cases rest with
      | nil => rfl
      | cons y rest =>
          have hpair : ¬ (x = a ∧ y = b) := by simpa using hhead
          rw [splitPair, if_neg hpair, ih hrest]
          rfl

/-- The first part ends at the first occurrence of the pair. -/
theorem splitPair_append {a b : α} (hne : a ≠ b) {first : List α} (hfree : PairFree a b first)
    (rest : List α) : splitPair a b (first ++ a :: b :: rest) = first :: splitPair a b rest := by
  induction first with
  | nil => simp [splitPair]
  | cons x tail ih =>
      obtain ⟨hhead, htail⟩ := pairFree_cons.mp hfree
      have hsplit := ih htail
      cases tail with
      | nil =>
          have hpair : ¬ (x = a ∧ a = b) := fun h => hne h.2
          rw [List.nil_append] at hsplit
          rw [List.cons_append, List.nil_append, splitPair, if_neg hpair, hsplit]
          rfl
      | cons y tail =>
          have hpair : ¬ (x = a ∧ y = b) := by simpa using hhead
          rw [List.cons_append] at hsplit
          rw [List.cons_append, List.cons_append, splitPair, if_neg hpair, hsplit]
          rfl

/-- Every list is pair-free or has a first occurrence of the pair. -/
theorem pairFree_or_append (a b : α) (list : List α) :
    PairFree a b list ∨ ∃ first rest, PairFree a b first ∧ list = first ++ a :: b :: rest := by
  induction list with
  | nil => exact Or.inl (by simp [PairFree])
  | cons x rest ih =>
      by_cases hpair : x = a ∧ rest.head? = some b
      · obtain ⟨rfl, hhead⟩ := hpair
        obtain ⟨tail, rfl⟩ := List.head?_eq_some_iff.mp hhead
        exact Or.inr ⟨[], tail, by simp [PairFree], rfl⟩
      · rcases ih with hfree | ⟨first, tail, hfree, rfl⟩
        · exact Or.inl (pairFree_cons.mpr ⟨hpair, hfree⟩)
        · refine Or.inr ⟨x :: first, tail, pairFree_cons.mpr ⟨?_, hfree⟩, rfl⟩
          rintro ⟨hx, hhead⟩
          apply hpair
          refine ⟨hx, ?_⟩
          obtain ⟨more, rfl⟩ := List.head?_eq_some_iff.mp hhead
          rfl

theorem splitOnce_append {a : α} {first : List α} (hfirst : a ∉ first) (rest : List α) :
    splitOnce a (first ++ a :: rest) = some (first, rest) := by
  have hkept : ∀ x ∈ first, decide (x ≠ a) = true := by
    intro x hx
    exact decide_eq_true (fun heq => hfirst (heq ▸ hx))
  unfold splitOnce
  rw [if_pos (by simp), List.takeWhile_append_of_pos hkept, List.dropWhile_append_of_pos hkept]
  simp

/-- The parts of the split, each with the pair after it. -/
theorem flatMap_splitPair (a b : α) (list : List α) :
    (splitPair a b list).flatMap (· ++ [a, b]) = list ++ [a, b] := by
  induction list using splitPair.induct (a := a) (b := b) with
  | case1 => rfl
  | case2 x => rfl
  | case3 x y rest hpair ih =>
      obtain ⟨rfl, rfl⟩ := hpair
      simp [splitPair, ih]
  | case4 x y rest hpair ih =>
      rw [splitPair, if_neg hpair]
      cases hsplit : splitPair a b (y :: rest) with
      | nil =>
          rw [hsplit] at ih
          cases ih
      | cons first others =>
          rw [hsplit] at ih
          simpa using congrArg (x :: ·) ih

/-- A pair at the end is followed by one empty part. -/
theorem splitPair_concat {a b : α} (hne : a ≠ b) (list : List α) :
    splitPair a b (list ++ [a, b]) = splitPair a b list ++ [[]] := by
  induction hsize : list.length using Nat.strongRecOn generalizing list with
  | _ size ih =>
      rcases pairFree_or_append a b list with hfree | ⟨first, rest, hfree, rfl⟩
      · rw [splitPair_of_pairFree hfree, splitPair_append hne hfree]
        rfl
      · simp only [List.length_append, List.length_cons] at hsize
        rw [List.append_assoc, List.cons_append, List.cons_append, splitPair_append hne hfree,
          splitPair_append hne hfree, ih rest.length (by omega) rest rfl, List.cons_append]

/-- Lines without the pair are the parts of their concatenation. -/
theorem splitPair_flatMap {a b : α} (hne : a ≠ b) {lines : List (List α)}
    (hfree : ∀ line ∈ lines, PairFree a b line) (rest : List α) :
    splitPair a b (lines.flatMap (· ++ [a, b]) ++ rest) = lines ++ splitPair a b rest := by
  induction lines with
  | nil => rfl
  | cons line lines ih =>
      obtain ⟨hline, hlines⟩ := List.forall_mem_cons.mp hfree
      rw [List.flatMap_cons, List.append_assoc, List.append_assoc]
      change splitPair a b (line ++ a :: b :: (lines.flatMap (· ++ [a, b]) ++ rest)) = _
      rw [splitPair_append hne hline, ih hlines, List.cons_append]

omit [DecidableEq α] in
theorem pairFree_of_not_mem {a : α} {list : List α} (hmem : a ∉ list) (b : α) :
    PairFree a b list := by
  intro hoccurs
  exact hmem (hoccurs.subset List.mem_cons_self)

omit [DecidableEq α] in
theorem length_le_of_mem_modifyHead {x : α} {list : List (List α)} {bound : Nat}
    (hall : ∀ piece ∈ list, piece.length ≤ bound) :
    ∀ piece ∈ list.modifyHead (x :: ·), piece.length ≤ bound + 1 := by
  cases list with
  | nil => simp
  | cons head tail =>
      intro piece hpiece
      rcases List.mem_cons.mp hpiece with rfl | htail
      · exact Nat.succ_le_succ (hall head List.mem_cons_self)
      · exact Nat.le_succ_of_le (hall piece (List.mem_cons_of_mem head htail))

theorem length_le_of_mem_splitPair (a b : α) (list : List α) :
    ∀ piece ∈ splitPair a b list, piece.length ≤ list.length := by
  induction list using splitPair.induct (a := a) (b := b) with
  | case1 => simp [splitPair]
  | case2 x => simp [splitPair]
  | case3 x y rest hpair ih =>
      intro piece hpiece
      simp only [splitPair, if_pos hpair, List.mem_cons] at hpiece
      rcases hpiece with rfl | hpiece
      · exact Nat.zero_le _
      · exact Nat.le_trans (ih piece hpiece) (by simp only [List.length_cons]; omega)
  | case4 x y rest hpair ih =>
      intro piece hpiece
      simp only [splitPair, if_neg hpair] at hpiece
      exact length_le_of_mem_modifyHead ih piece hpiece

theorem length_le_of_mem_splitOn (a : α) (list : List α) :
    ∀ piece ∈ list.splitOn a, piece.length ≤ list.length := by
  induction list with
  | nil => simp
  | cons x rest ih =>
      intro piece hpiece
      rw [List.splitOn_cons_eq_if_modifyHead] at hpiece
      split at hpiece
      · rcases List.mem_cons.mp hpiece with rfl | hpiece
        · exact Nat.zero_le _
        · exact Nat.le_succ_of_le (ih piece hpiece)
      · exact length_le_of_mem_modifyHead ih piece hpiece

theorem idxOf?_append_cons {a : α} {first : List α} (hfirst : a ∉ first) (rest : List α) :
    (first ++ a :: rest).idxOf? a = some first.length := by
  induction first with
  | nil => simp [List.idxOf?_cons]
  | cons x tail ih =>
      rw [List.mem_cons, not_or] at hfirst
      have hx : (x == a) = false := beq_eq_false_iff_ne.mpr (fun heq => hfirst.1 heq.symm)
      rw [List.cons_append, List.idxOf?_cons, hx, ih hfirst.2]
      rfl

/-- The first `a` comes after a prefix without one. -/
theorem le_of_idxOf? {a : α} {first rest : List α} (hfirst : a ∉ first) {index : Nat}
    (hindex : (first ++ rest).idxOf? a = some index) : first.length ≤ index := by
  obtain ⟨hbound, hfound, _⟩ := List.idxOf?_eq_some_iff.mp hindex
  by_contra hless
  apply hfirst
  rw [← hfound, List.getElem_append_left (by omega)]
  exact List.getElem_mem _

/-- A position is where the pattern occurs first. -/
theorem position_eq_some {pattern list : List α} {index : Nat}
    (hposition : position pattern list = some index) :
    pattern <+: list.drop index ∧ ∀ earlier < index, ¬ pattern <+: list.drop earlier := by
  induction list generalizing index with
  | nil =>
      simp only [position] at hposition
      split_ifs at hposition with hnil
      obtain rfl := Option.some.inj hposition
      exact ⟨by simp [hnil], by omega⟩
  | cons x rest ih =>
      simp only [position] at hposition
      split_ifs at hposition with hhere
      · obtain rfl := Option.some.inj hposition
        exact ⟨hhere, by omega⟩
      · obtain ⟨previous, hprevious, rfl⟩ := Option.map_eq_some_iff.mp hposition
        obtain ⟨hfound, hfirst⟩ := ih hprevious
        refine ⟨by simpa using hfound, ?_⟩
        intro earlier hearlier
        cases earlier with
        | zero => simpa using hhere
        | succ earlier => simpa using hfirst earlier (by omega)

theorem position_eq_none {pattern list : List α} (hposition : position pattern list = none) :
    ∀ index ≤ list.length, ¬ pattern <+: list.drop index := by
  induction list with
  | nil =>
      intro index _
      simp only [position] at hposition
      split_ifs at hposition with hnil
      simpa using hnil
  | cons x rest ih =>
      simp only [position] at hposition
      split_ifs at hposition with hhere
      intro index hindex
      cases index with
      | zero => simpa using hhere
      | succ index =>
          have hrest := ih (Option.map_eq_none_iff.mp hposition) index (by simpa using hindex)
          simpa using hrest

theorem position_eq_some_iff {pattern list : List α} (hpattern : pattern ≠ []) {index : Nat} :
    position pattern list = some index ↔
      pattern <+: list.drop index ∧ ∀ earlier < index, ¬ pattern <+: list.drop earlier := by
  constructor
  · exact position_eq_some
  · rintro ⟨hfound, hfirst⟩
    cases hposition : position pattern list with
    | none =>
        have hindex : index ≤ list.length := by
          by_contra hbeyond
          rw [List.drop_eq_nil_of_le (by omega)] at hfound
          exact hpattern (List.prefix_nil.mp hfound)
        exact absurd hfound (position_eq_none hposition index hindex)
    | some other =>
        obtain ⟨hother, hearliest⟩ := position_eq_some hposition
        rcases Nat.lt_trichotomy other index with hless | rfl | hmore
        · exact absurd hother (hfirst other hless)
        · rfl
        · exact absurd hfound (hearliest index hmore)

/-- A prefix without the first element of the pattern is passed over. -/
theorem position_skip {a : α} {pattern first : List α} (hfirst : a ∉ first) (rest : List α) :
    position (a :: pattern) (first ++ rest) =
      (position (a :: pattern) rest).map (first.length + ·) := by
  induction first with
  | nil => simp
  | cons x tail ih =>
      rw [List.mem_cons, not_or] at hfirst
      have hnot : ¬ a :: pattern <+: x :: (tail ++ rest) := by
        rw [List.cons_prefix_cons]
        exact fun h => hfirst.1 h.1
      rw [List.cons_append, position, if_neg hnot, ih hfirst.2, Option.map_map]
      congr 1
      funext index
      simp only [Function.comp_apply, List.length_cons]
      omega

/-- Lines joined by the pair end where the pair first stands twice. -/
theorem position_intercalate {a b : α} (hne : a ≠ b) {lines : List (List α)} (hsome : lines ≠ [])
    (hlines : ∀ line ∈ lines, line ≠ [] ∧ a ∉ line) (rest : List α) :
    position [a, b, a, b] ([a, b].intercalate lines ++ ([a, b, a, b] ++ rest)) =
      some ([a, b].intercalate lines).length := by
  induction lines with
  | nil => exact absurd rfl hsome
  | cons line others ih =>
      obtain ⟨⟨_, hline⟩, hothers⟩ := List.forall_mem_cons.mp hlines
      cases others with
      | nil =>
          rw [List.intercalate_singleton, position_skip hline]
          simp [position]
      | cons second others =>
          obtain ⟨⟨hnonempty, hsecond⟩, _⟩ := List.forall_mem_cons.mp hothers
          obtain ⟨c, tail, rfl⟩ := List.exists_cons_of_ne_nil hnonempty
          have hc : a ≠ c := fun heq => hsecond (heq ▸ List.mem_cons_self)
          have hpair : ∀ after, position [a, b, a, b] (a :: b :: c :: after) =
              (position [a, b, a, b] (c :: after)).map (2 + ·) := by
            intro after
            have hfirst : ¬ [a, b, a, b] <+: a :: b :: c :: after := by
              simp [List.cons_prefix_cons, hc]
            have hskip := @position_skip _ _ a [b, a, b] [b] (by simpa using hne) (c :: after)
            rw [List.singleton_append] at hskip
            rw [position, if_neg hfirst, hskip, Option.map_map]
            congr 1
            funext index
            simp only [Function.comp_apply, List.length_singleton]
            omega
          have hnext := ih (List.cons_ne_nil _ _) hothers
          obtain ⟨after, hafter⟩ : ∃ after,
              [a, b].intercalate ((c :: tail) :: others) ++ ([a, b, a, b] ++ rest) = c :: after := by
            cases others with
            | nil => exact ⟨_, by rw [List.intercalate_singleton, List.cons_append]⟩
            | cons third others =>
                exact ⟨_, by rw [List.intercalate_cons_cons, List.cons_append, List.cons_append,
                  List.cons_append]⟩
          have hwhole : [a, b].intercalate (line :: (c :: tail) :: others) =
              line ++ (a :: b :: [a, b].intercalate ((c :: tail) :: others)) := by
            rw [List.intercalate_cons_cons, List.append_assoc]
            rfl
          rw [hwhole, List.append_assoc, position_skip hline, List.cons_append, List.cons_append,
            hafter, hpair, ← hafter, hnext]
          simp only [Option.map_some, List.length_append, List.length_cons]
          congr 1
          omega

theorem splitPair_intercalate {a b : α} (hne : a ≠ b) {lines : List (List α)} (hsome : lines ≠ [])
    (hfree : ∀ line ∈ lines, PairFree a b line) :
    splitPair a b ([a, b].intercalate lines) = lines := by
  induction lines with
  | nil => exact absurd rfl hsome
  | cons line others ih =>
      obtain ⟨hline, hothers⟩ := List.forall_mem_cons.mp hfree
      cases others with
      | nil => rw [List.intercalate_singleton, splitPair_of_pairFree hline]
      | cons second others =>
          rw [List.intercalate_cons_cons, List.append_assoc, List.cons_append, List.singleton_append,
            splitPair_append hne hline, ih (List.cons_ne_nil _ _) hothers]

/-- A pattern that does not occur does not occur in a window. -/
theorem position_drop_take_none {pattern list : List α} (hnone : position pattern list = none)
    (skip size : Nat) : position pattern ((list.take size).drop skip) = none := by
  cases hposition : position pattern ((list.take size).drop skip) with
  | none => rfl
  | some index =>
      have hfound := (position_eq_some hposition).1
      rw [List.drop_drop, List.drop_take] at hfound
      have hwhole := hfound.trans (List.take_prefix _ _)
      by_cases hindex : skip + index ≤ list.length
      · exact absurd hwhole (position_eq_none hnone _ hindex)
      · rw [List.drop_eq_nil_of_le (by omega), ← List.drop_length (l := list)] at hwhole
        exact absurd hwhole (position_eq_none hnone _ (Nat.le_refl _))

/-- What follows does not move the first occurrence. -/
theorem position_append {pattern list : List α} {first : Nat}
    (hfirst : position pattern list = some first) (hpattern : pattern ≠ []) (rest : List α) :
    position pattern (list ++ rest) = some first := by
  obtain ⟨hfound, hearliest⟩ := position_eq_some hfirst
  have hfits := hfound.length_le
  have hpos := List.length_pos_iff.mpr hpattern
  rw [List.length_drop] at hfits
  rw [position_eq_some_iff hpattern, List.drop_append_of_le_length (by omega)]
  refine ⟨hfound.trans (List.prefix_append _ rest), ?_⟩
  intro earlier hearlier hoccurs
  rw [List.drop_append_of_le_length (by omega)] at hoccurs
  apply hearliest earlier hearlier
  apply List.prefix_of_prefix_length_le hoccurs (List.prefix_append _ rest)
  rw [List.length_drop]
  omega

/-- Searching a window for a pattern whose first occurrence is known. -/
theorem position_drop_take {pattern list : List α} {first : Nat}
    (hfirst : position pattern list = some first) (hpattern : pattern ≠ []) {skip : Nat}
    (hskip : skip ≤ first) (size : Nat) :
    position pattern ((list.take size).drop skip) =
      if first + pattern.length ≤ size then some (first - skip) else none := by
  obtain ⟨hfound, hearliest⟩ := position_eq_some hfirst
  have hoccurs : ∀ index, pattern <+: ((list.take size).drop skip).drop index ↔
      pattern <+: list.drop (skip + index) ∧ pattern.length ≤ size - (skip + index) := by
    intro index
    rw [List.drop_drop, List.drop_take, List.prefix_take_iff]
  have hpos := List.length_pos_iff.mpr hpattern
  split_ifs with hwithin
  · rw [position_eq_some_iff hpattern, hoccurs]
    refine ⟨⟨?_, by omega⟩, ?_⟩
    · rwa [Nat.add_sub_cancel' hskip]
    · intro earlier hearlier hearly
      exact hearliest (skip + earlier) (by omega) ((hoccurs earlier).mp hearly).1
  · cases hposition : position pattern ((list.take size).drop skip) with
    | none => rfl
    | some index =>
        have hindex := (hoccurs index).mp (position_eq_some hposition).1
        exact absurd hindex.1 (hearliest (skip + index) (by omega))

theorem zero_of_head_toDigits {n : Nat} (h : (Nat.toDigits 10 n).head? = some '0') : n = 0 := by
  induction n using Nat.strongRecOn with
  | ind n ih =>
      by_cases hlt : n < 10
      · rw [Nat.toDigits_of_lt_base hlt] at h
        have hzero : ∀ digit < 10, [Nat.digitChar digit].head? = some '0' → digit = 0 := by decide
        exact hzero n hlt h
      · rw [Nat.toDigits_of_base_le (by decide) (by omega), List.head?_append,
          Option.or_of_isSome (by simp [Nat.toDigits_ne_nil])] at h
        have hzero := ih (n / 10) (by omega) h
        omega

end Text
