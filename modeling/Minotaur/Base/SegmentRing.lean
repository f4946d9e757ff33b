import Mathlib.Data.List.Basic
import Mathlib.Data.List.Induction
import Mathlib.Tactic.Common

/-!
A log that keeps its newest part: a segment that is being written, and a fixed
number of places for full ones. An item that does not fit under the limit sends
the active segment to the first place; every other segment moves one place on
and the last one is dropped.

`spans_pushes` is the closed form of a run. All else follows from it: what is
kept is an end of what was pushed, and it is never much less than the places
can hold.
-/

structure SegmentRing (ρ : Type*) where
  active : List ρ
  /-- Newest first; `none` is a place without a segment. -/
  places : List (Option (List ρ))

namespace SegmentRing

variable {ρ : Type*}

section Push

variable (size : ρ → Nat) (limit : Nat)

def weight : List ρ → Nat
  | [] => 0
  | item :: items => size item + weight items

def push (ring : SegmentRing ρ) (item : ρ) : SegmentRing ρ :=
  if limit < weight size ring.active + size item then
    ⟨[item], (some ring.active :: ring.places).take ring.places.length⟩
  else { ring with active := ring.active ++ [item] }

def pushes (ring : SegmentRing ρ) (items : List ρ) : SegmentRing ρ :=
  items.foldl (push size limit) ring

end Push

/-- From the oldest item to the newest. -/
def kept (ring : SegmentRing ρ) : List ρ :=
  ring.places.reverse.flatMap (·.getD []) ++ ring.active

example : (pushes (·) 4 ⟨[1], [none, some [9]]⟩ [2, 3, 4]).places = [some [3], some [1, 2]] ∧
    (pushes (·) 4 ⟨[1], [none, some [9]]⟩ [2, 3, 4]).kept = [1, 2, 3, 4] := by decide

@[simp] theorem weight_append (size : ρ → Nat) (first second : List ρ) :
    weight size (first ++ second) = weight size first + weight size second := by
  induction first with
  | nil => simp [weight]
  | cons item first ih => rw [List.cons_append, weight, weight, ih, Nat.add_assoc]

section Runs

variable {size : ρ → Nat} {limit bound : Nat} {start ring : SegmentRing ρ} {items : List ρ}

theorem mem_kept {item : ρ} : item ∈ ring.kept ↔
    (∃ segment, some segment ∈ ring.places ∧ item ∈ segment) ∨ item ∈ ring.active := by
  unfold kept
  rw [List.mem_append, List.mem_flatMap]
  refine or_congr_left ⟨?_, ?_⟩
  · rintro ⟨place, hplace, hitem⟩
    cases place with
    | none => cases hitem
    | some segment => exact ⟨segment, List.mem_reverse.mp hplace, hitem⟩
  · rintro ⟨segment, hplace, hitem⟩
    exact ⟨some segment, List.mem_reverse.mpr hplace, hitem⟩

theorem mem_kept_push {item new : ρ} (h : item ∈ (ring.push size limit new).kept) :
    item ∈ ring.kept ∨ item = new := by
  unfold push at h
  split_ifs at h
  · rw [mem_kept] at h ⊢
    rcases h with ⟨segment, hplace, hitem⟩ | hnew
    · rcases List.mem_cons.mp (List.mem_of_mem_take hplace) with hactive | hold
      · exact Or.inl (Or.inr (Option.some.inj hactive ▸ hitem))
      · exact Or.inl (Or.inl ⟨segment, hold, hitem⟩)
    · exact Or.inr (List.mem_singleton.mp hnew)
  · rw [mem_kept] at h ⊢
    rcases h with hplace | hactive
    · exact Or.inl (Or.inl hplace)
    · rcases List.mem_append.mp hactive with hold | hnew
      · exact Or.inl (Or.inr hold)
      · exact Or.inr (List.mem_singleton.mp hnew)

theorem mem_kept_pushes {item : ρ} (h : item ∈ (start.pushes size limit items).kept) :
    item ∈ start.kept ∨ item ∈ items := by
  unfold pushes at h
  induction items generalizing start with
  | nil => exact Or.inl h
  | cons new items ih =>
      rcases ih h with hstart | hitem
      · rcases mem_kept_push hstart with hold | rfl
        · exact Or.inl hold
        · exact Or.inr List.mem_cons_self
      · exact Or.inr (List.mem_cons_of_mem _ hitem)

theorem kept_push (size : ρ → Nat) (limit : Nat) (ring : SegmentRing ρ) (new : ρ) :
    ∃ dropped, dropped ++ (ring.push size limit new).kept = ring.kept ++ [new] := by
  unfold push
  split_ifs
  · unfold kept
    rcases List.eq_nil_or_concat' ring.places with hnil | ⟨newer, oldest, hplaces⟩
    · exact ⟨ring.active, by simp [hnil]⟩
    · refine ⟨oldest.getD [], ?_⟩
      rw [hplaces, List.length_append, List.length_singleton, List.take_succ_cons, List.take_left]
      simp
  · exact ⟨[], by simp [kept]⟩

/-- Nothing but an oldest part is lost. -/
theorem kept_pushes (size : ρ → Nat) (limit : Nat) (start : SegmentRing ρ) (items : List ρ) :
    ∃ dropped, dropped ++ (start.pushes size limit items).kept = start.kept ++ items := by
  unfold pushes
  induction items generalizing start with
  | nil => exact ⟨[], by simp⟩
  | cons new items ih =>
      obtain ⟨first, hfirst⟩ := kept_push size limit start new
      obtain ⟨second, hsecond⟩ := ih (start.push size limit new)
      refine ⟨first ++ second, ?_⟩
      rw [List.foldl_cons, List.append_assoc, hsecond, ← List.append_assoc, hfirst,
        List.append_assoc, List.singleton_append]

/-- `fresh` are the segments sent to a place since `start`, newest first. With
the active one they are everything pushed, and none of them had room for an
item of size `bound`. -/
structure Spans (size : ρ → Nat) (limit bound : Nat) (start : SegmentRing ρ) (items : List ρ)
    (ring : SegmentRing ρ) (fresh : List (List ρ)) : Prop where
  active : fresh.reverse.flatten ++ ring.active = start.active ++ items
  places : ring.places = (fresh.map some ++ start.places).take start.places.length
  full : ∀ segment ∈ fresh, limit < weight size segment + bound

theorem Spans.push {fresh : List (List ρ)} (h : Spans size limit bound start items ring fresh)
    {item : ρ} (hitem : size item ≤ bound) :
    ∃ fresh, Spans size limit bound start (items ++ [item]) (ring.push size limit item) fresh := by
  have hlength : ring.places.length = start.places.length := by
    rw [h.places, List.length_take, List.length_append]
    omega
  unfold SegmentRing.push
  split_ifs with hfull
  · refine ⟨ring.active :: fresh, ?_, ?_, ?_⟩
    · simp only [List.reverse_cons, List.flatten_append, List.flatten_singleton, h.active,
        List.append_assoc]
    · rw [hlength, h.places, List.map_cons, List.cons_append]
      cases start.places.length with
      | zero => rfl
      | succ n => rw [List.take_succ_cons, List.take_succ_cons, List.take_take,
          Nat.min_eq_left (by omega)]
    · intro segment hsegment
      rcases List.mem_cons.mp hsegment with rfl | hold
      · omega
      · exact h.full segment hold
  · refine ⟨fresh, ?_, h.places, h.full⟩
    rw [← List.append_assoc, ← List.append_assoc, h.active]

/-- The closed form of a run. -/
theorem spans_pushes (limit : Nat) (start : SegmentRing ρ)
    (hitems : ∀ item ∈ items, size item ≤ bound) :
    ∃ fresh, Spans size limit bound start items (start.pushes size limit items) fresh := by
  induction items using List.reverseRecOn with
  | nil => exact ⟨[], by simp [pushes], by simp [pushes], by simp⟩
  | append_singleton items item ih =>
      obtain ⟨fresh, hspans⟩ := ih fun item hmem => hitems item (List.mem_append_left _ hmem)
      rw [pushes, List.foldl_append]
      exact hspans.push (hitems item (by simp))

theorem flatten_reverse_map_some (segments : List (List ρ)) :
    (segments.map some).reverse.flatMap (·.getD []) = segments.reverse.flatten := by
  rw [← List.map_reverse, List.flatMap_map]
  simp [List.flatMap_id']

/-- What is kept begins with segments that were there before, unless all places
are taken by new ones. -/
theorem Spans.kept {fresh : List (List ρ)} (h : Spans size limit bound start items ring fresh) :
    ∃ older, ring.kept = older ++ (fresh.take start.places.length).reverse.flatten ++ ring.active := by
  refine ⟨((start.places.take (start.places.length - fresh.length)).reverse.flatMap (·.getD [])), ?_⟩
  unfold SegmentRing.kept
  rw [h.places, List.take_append, List.reverse_append, List.flatMap_append, List.length_map,
    ← List.map_take, flatten_reverse_map_some]

theorem le_weight_flatten {least : Nat} (segments : List (List ρ))
    (h : ∀ segment ∈ segments, least ≤ weight size segment) :
    segments.length * least ≤ weight size segments.reverse.flatten := by
  induction segments with
  | nil => simp
  | cons segment segments ih =>
      have hhead := h segment List.mem_cons_self
      have htail := ih fun segment hmem => h segment (List.mem_cons_of_mem _ hmem)
      simp only [List.length_cons, List.reverse_cons, List.flatten_append, List.flatten_singleton,
        weight_append]
      rw [Nat.succ_mul]
      omega

/-- The shorter of two ends of a list is an end of the longer one. -/
theorem suffix_of_weight_lt (size : ρ → Nat) {all recent tail : List ρ} (hrecent : recent <:+ all)
    (htail : tail <:+ all) (hlt : weight size recent < weight size tail) : recent <:+ tail := by
  rcases List.suffix_or_suffix_of_suffix hrecent htail with hshort | hlong
  · exact hshort
  · obtain ⟨front, rfl⟩ := hlong
    rw [weight_append] at hlt
    omega

/-- What the places are sure to hold is not lost: an end of the pushed items
that is no heavier than all places filled up to `bound` is kept. -/
theorem recent_kept (hitems : ∀ item ∈ items, size item ≤ bound)
    {recent : List ρ} (hrecent : recent <:+ start.active ++ items)
    (hweight : weight size recent ≤ start.places.length * (limit - bound))
    (hplaces : start.places ≠ []) (hbound : bound ≤ limit) :
    recent <:+ (start.pushes size limit items).kept := by
  obtain ⟨fresh, hspans⟩ := spans_pushes limit start hitems
  obtain ⟨older, hkept⟩ := hspans.kept
  rw [hkept, List.append_assoc]
  refine List.IsSuffix.trans ?_ (List.suffix_append _ _)
  by_cases hfew : fresh.length ≤ start.places.length
  · rw [List.take_of_length_le hfew, hspans.active]
    exact hrecent
  · refine suffix_of_weight_lt size hrecent ?_ ?_
    · rw [← hspans.active]
      obtain ⟨more, hmore⟩ : ∃ more, fresh = fresh.take start.places.length ++ more :=
        ⟨_, (List.take_append_drop _ _).symm⟩
      conv_rhs => rw [hmore, List.reverse_append, List.flatten_append, List.append_assoc]
      exact List.suffix_append _ _
    · have hleast : ∀ segment ∈ fresh.take start.places.length,
          limit - bound + 1 ≤ weight size segment := by
        intro segment hmem
        have hsegment := hspans.full segment (List.mem_of_mem_take hmem)
        omega
      have hfull := le_weight_flatten (fresh.take start.places.length) hleast
      have hpos := List.length_pos_iff.mpr hplaces
      rw [List.length_take, Nat.min_eq_left (by omega), Nat.mul_add, Nat.mul_one] at hfull
      rw [weight_append]
      omega

end Runs

end SegmentRing
