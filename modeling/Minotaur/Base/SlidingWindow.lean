import Mathlib.Data.List.Basic
import Mathlib.Data.List.Forall2
import Mathlib.Data.List.Induction
import Mathlib.Order.Basic
import Mathlib.Tactic.Common

/-!
Requests that come in the order of their times, of which at most so many may be
taken at a time. A taken request counts for a while: `live time now` says that
one taken at `time` still counts at `now`, and a later one counts at least as
long. Taking every request that may be taken (`greedy`) is then as good as any
choice made with foresight: whatever is chosen, the greedy choice has taken as
many, and the first of them no later.
-/

namespace SlidingWindow

variable {τ : Type*} (limit : Nat) (live : τ → τ → Bool)

/-- Every request finds fewer than `limit` live ones before it. -/
def Feasible (chosen : List τ) : Prop :=
  ∀ before time after, chosen = before ++ time :: after → before.countP (live · time) < limit

/-- Takes a request if it may. -/
def take (taken : List τ) (time : τ) : List τ :=
  if taken.countP (live · time) < limit then taken ++ [time] else taken

def greedy (times : List τ) : List τ := times.foldl (take limit live) []

variable {limit live}

@[simp] theorem greedy_nil : greedy limit live [] = [] := rfl

theorem greedy_concat (times : List τ) (time : τ) :
    greedy limit live (times ++ [time]) = take limit live (greedy limit live times) time := by
  simp [greedy]

theorem feasible_nil : Feasible limit live [] := by
  rintro before time after h
  simp at h

theorem feasible_concat {chosen : List τ} {time : τ} :
    Feasible limit live (chosen ++ [time]) ↔
      Feasible limit live chosen ∧ chosen.countP (live · time) < limit := by
  constructor
  · intro h
    refine ⟨?_, h chosen time [] rfl⟩
    rintro before other after rfl
    exact h before other (after ++ [time]) (by simp)
  · rintro ⟨h, hlast⟩ before other after hsplit
    induction after using List.reverseRecOn with
    | nil =>
        obtain ⟨rfl, hother⟩ := List.append_inj' hsplit rfl
        obtain rfl := List.singleton_inj.mp hother
        exact hlast
    | append_singleton after last _ =>
        rw [← List.cons_append, ← List.append_assoc] at hsplit
        exact h before other after (List.append_inj' hsplit rfl).1

theorem greedy_sublist (times : List τ) : (greedy limit live times).Sublist times := by
  induction times using List.reverseRecOn with
  | nil => exact List.Sublist.refl _
  | append_singleton times time ih =>
      rw [greedy_concat, take]
      split_ifs
      · exact ih.append (List.Sublist.refl _)
      · exact ih.trans (List.sublist_append_left _ _)

theorem feasible_greedy (times : List τ) : Feasible limit live (greedy limit live times) := by
  induction times using List.reverseRecOn with
  | nil => exact feasible_nil
  | append_singleton times time ih =>
      rw [greedy_concat, take]
      split_ifs with hroom
      · exact feasible_concat.mpr ⟨ih, hroom⟩
      · exact ih

section Order

variable [Preorder τ]

/-- Earlier requests count no longer. -/
theorem countP_live_le (hlive : ∀ first second now : τ, first ≤ second → live first now = true →
      live second now = true)
    {first second : List τ} (h : List.Forall₂ (· ≤ ·) first second) (now : τ) :
    first.countP (live · now) ≤ second.countP (live · now) := by
  induction h with
  | nil => exact Nat.le_refl _
  | @cons a b first second hle _ ih =>
      rw [List.countP_cons, List.countP_cons]
      have hhead := hlive a b now hle
      cases ha : live a now with
      | false =>
          simp only [Bool.false_eq_true, if_false]
          omega
      | true =>
          rw [hhead ha]
          simp only [if_true]
          omega

/-- The greedy choice stays ahead of any other one. -/
theorem greedy_stays_ahead (hlive : ∀ first second now : τ, first ≤ second →
      live first now = true → live second now = true)
    {times chosen : List τ} (hsorted : times.Pairwise (· ≤ ·)) (hchosen : chosen.Sublist times)
    (hfeasible : Feasible limit live chosen) :
    ∃ first rest, greedy limit live times = first ++ rest ∧ List.Forall₂ (· ≤ ·) first chosen := by
  induction times using List.reverseRecOn generalizing chosen with
  | nil =>
      obtain rfl := List.sublist_nil.mp hchosen
      exact ⟨[], [], rfl, .nil⟩
  | append_singleton times time ih =>
      obtain ⟨hbefore, _, hlast⟩ := List.pairwise_append.mp hsorted
      have htake : ∃ more, greedy limit live (times ++ [time]) =
          greedy limit live times ++ more := by
        rw [greedy_concat, take]
        split_ifs
        · exact ⟨[time], rfl⟩
        · exact ⟨[], (List.append_nil _).symm⟩
      obtain ⟨more, hmore⟩ := htake
      obtain ⟨begins, ends, rfl, hbegins, hends⟩ := List.sublist_append_iff.mp hchosen
      obtain rfl | rfl := List.sublist_singleton.mp hends
      · rw [List.append_nil] at hfeasible ⊢
        obtain ⟨first, rest, hfirst, hle⟩ := ih hbefore hbegins hfeasible
        exact ⟨first, rest ++ more, by rw [hmore, hfirst, List.append_assoc], hle⟩
      · obtain ⟨hfeasible, hroom⟩ := feasible_concat.mp hfeasible
        obtain ⟨first, rest, hfirst, hle⟩ := ih hbefore hbegins hfeasible
        cases rest with
        | nil =>
            -- As many taken as chosen so far, none of them later: there is room.
            rw [List.append_nil] at hfirst
            have htaken := countP_live_le hlive hle time
            refine ⟨first ++ [time], [], ?_, List.rel_append hle (.cons (le_refl _) .nil)⟩
            rw [greedy_concat, take, hfirst, if_pos (by omega), List.append_nil]
        | cons next rest =>
            have hmem : next ∈ times := by
              apply (greedy_sublist times).subset
              rw [hfirst]
              simp
            have hnext := hlast next hmem time (List.mem_singleton_self _)
            refine ⟨first ++ [next], rest ++ more, ?_, List.rel_append hle (.cons hnext .nil)⟩
            rw [hmore, hfirst]
            simp

theorem greedy_optimal (hlive : ∀ first second now : τ, first ≤ second →
      live first now = true → live second now = true)
    {times chosen : List τ} (hsorted : times.Pairwise (· ≤ ·)) (hchosen : chosen.Sublist times)
    (hfeasible : Feasible limit live chosen) :
    chosen.length ≤ (greedy limit live times).length := by
  obtain ⟨first, rest, hgreedy, hle⟩ := greedy_stays_ahead hlive hsorted hchosen hfeasible
  rw [hgreedy, List.length_append, hle.length_eq]
  omega

end Order

/-! ### Windows of one width -/

section Width

variable {width : Nat}

/-- Taken less than `width` ago. -/
def recent (width : Nat) (time now : Nat) : Bool := decide (now - time < width)

theorem recent_mono (first second now : Nat) (hle : first ≤ second)
    (hrecent : recent width first now = true) : recent width second now = true := by
  unfold recent at hrecent ⊢
  rw [decide_eq_true_eq] at hrecent ⊢
  omega

/-- In terms of windows: none contains more than `limit` requests. -/
theorem feasible_iff_windows {times : List Nat} (hsorted : times.Pairwise (· ≤ ·))
    (hwidth : 0 < width) : Feasible limit (recent width) times ↔
      ∀ start, times.countP (fun time => decide (start ≤ time ∧ time < start + width)) ≤ limit := by
  induction times using List.reverseRecOn with
  | nil => exact iff_of_true feasible_nil (fun _ => Nat.zero_le _)
  | append_singleton times time ih =>
      obtain ⟨hbefore, _, hlast⟩ := List.pairwise_append.mp hsorted
      have hle : ∀ other ∈ times, other ≤ time := fun other hother =>
        hlast other hother time (List.mem_singleton_self _)
      rw [feasible_concat, ih hbefore]
      constructor
      · rintro ⟨hwindows, hroom⟩ start
        rw [List.countP_append, List.countP_singleton]
        split_ifs with htime
        · have hin : times.countP (fun time => decide (start ≤ time ∧ time < start + width)) ≤
              times.countP (recent width · time) := by
            apply List.countP_mono_left
            intro other hother hwithin
            have hother := hle other hother
            simp only [recent, decide_eq_true_eq] at hwithin htime ⊢
            omega
          omega
        · exact hwindows start
      · intro hwindows
        constructor
        · intro start
          have hall := hwindows start
          rw [List.countP_append] at hall
          omega
        · have hall := hwindows (time + 1 - width)
          rw [List.countP_append, List.countP_singleton,
            if_pos (by simp only [decide_eq_true_eq]; omega)] at hall
          have hin : times.countP (recent width · time) ≤ times.countP (fun other =>
              decide (time + 1 - width ≤ other ∧ other < time + 1 - width + width)) := by
            apply List.countP_mono_left
            intro other hother hrecent
            have hother := hle other hother
            simp only [recent, decide_eq_true_eq] at hrecent ⊢
            omega
          omega

end Width

end SlidingWindow
