import Minotaur.Base.SlidingWindow
import Minotaur.RateLimit.History
import Minotaur.RateLimit.Interleaving

/-!
What the limiter does to one address. As long as the calls come in the order of
their times, neither other addresses nor evictions have a part in it, but for
the table being full: the admissions of an address are the greedy choice from
its own requests. So they keep the limit in every window, and nobody who keeps
it can admit more.
-/

namespace Minotaur

open Net
open SlidingWindow (greedy greedy_concat recent recent_mono greedy_sublist feasible_greedy
  feasible_iff_windows greedy_optimal)

/-- A request the table has room for, with the canonical address and its time. -/
def LimiterEvent.request : LimiterEvent → Option (IpAddr × Nat)
  | ⟨.checkAt ip now, some .Allowed⟩ => some (canonicalIp ip, now)
  | ⟨.checkAt ip now, some .RateLimit⟩ => some (canonicalIp ip, now)
  | _ => none

/-- Times of the requests of `ip` that found room in the table, oldest first. -/
def requests (history : List LimiterEvent) (ip : IpAddr) : List Nat :=
  ((history.filterMap LimiterEvent.request).filter (fun entry => entry.1 = ip)).map Prod.snd

theorem requests_concat (history : List LimiterEvent) (event : LimiterEvent) (ip : IpAddr) :
    requests (history ++ [event]) ip = requests history ip ++
      ((event.request.toList.filter (fun entry => entry.1 = ip)).map Prod.snd) := by
  cases hrequest : event.request <;> simp [requests, hrequest]

theorem countP_recent (times : List Nat) (now : Nat) :
    times.countP (recent window · now) = (fresh now times).length := by
  rw [List.countP_eq_length_filter]
  rfl

/-- The admissions of `ip` are the greedy choice from its requests. -/
def Greedy (limit : Nat) (history : List LimiterEvent) (ip : IpAddr) : Prop :=
  admissions history ip = greedy limit (recent window) (requests history ip)

section Step

variable {limit : Nat} {history : List LimiterEvent} {ip : IpAddr}

theorem Greedy.concat_none (h : Greedy limit history ip) {event : LimiterEvent}
    (hadmission : event.admission = none) (hrequest : event.request = none) :
    Greedy limit (history ++ [event]) ip := by
  unfold Greedy
  rw [admissions_concat, requests_concat, hadmission, hrequest, Option.toList_none, List.filter_nil,
    List.map_nil, List.append_nil, List.append_nil]
  exact h

/-- A request of another address. -/
theorem Greedy.concat_other (h : Greedy limit history ip) {event : LimiterEvent}
    (hadmission : ∀ now, event.admission ≠ some (ip, now))
    (hrequest : ∀ now, event.request ≠ some (ip, now)) : Greedy limit (history ++ [event]) ip := by
  have hnone : ∀ entry : Option (IpAddr × Nat), (∀ now, entry ≠ some (ip, now)) →
      (entry.toList.filter (fun entry => entry.1 = ip)).map Prod.snd = [] := by
    intro entry hentry
    cases entry with
    | none => rfl
    | some entry =>
        have hother : entry.1 ≠ ip := by
          rintro rfl
          exact hentry entry.2 rfl
        simp [hother]
  unfold Greedy
  rw [admissions_concat, requests_concat, hnone _ hadmission, hnone _ hrequest, List.append_nil,
    List.append_nil]
  exact h

/-- A check that answers what the history calls for. -/
theorem Greedy.concat_check (h : Greedy limit history ip) {maxIps now : Nat} {source : IpAddr}
    {decision : Decision} (hdecision : decision = expected limit maxIps history source now) :
    Greedy limit (history ++ [⟨.checkAt source now, some decision⟩]) ip := by
  by_cases hip : canonicalIp source = ip
  · subst hip hdecision
    unfold expected
    split_ifs with hcapacity hfull
    · exact h.concat_none rfl rfl
    · unfold Greedy
      rw [admissions_concat, requests_concat]
      simp only [LimiterEvent.admission, LimiterEvent.request, Option.toList_none,
        Option.toList_some, List.filter_nil, List.map_nil, List.append_nil, decide_true,
        List.filter_cons_of_pos, List.map_cons]
      rw [greedy_concat, ← h, SlidingWindow.take, countP_recent, if_neg (by omega)]
    · unfold Greedy
      rw [admissions_concat, requests_concat]
      simp only [LimiterEvent.admission, LimiterEvent.request, Option.toList_some, List.filter_nil,
        List.map_nil, decide_true, List.filter_cons_of_pos, List.map_cons]
      rw [greedy_concat, ← h, SlidingWindow.take, countP_recent, if_pos (by omega)]
  · apply h.concat_other
    · intro later
      cases decision <;> simp [LimiterEvent.admission, hip]
    · intro later
      cases decision <;> simp [LimiterEvent.request, hip]

end Step

/-- An admission is a request that finds fewer than `limit` fresh admissions. -/
theorem greedy_runCalls {limit : Nat} (hlimit : 1 ≤ limit) (maxIps : Nat)
    (calls : List LimiterCall) (hordered : (calls.map LimiterCall.time).Pairwise (· ≤ ·))
    (ip : IpAddr) : Greedy limit (runCalls (RateLimiter.new limit maxIps) calls).2 ip := by
  induction calls using List.reverseRecOn with
  | nil => rfl
  | append_singleton calls call ih =>
      rw [List.map_append, List.pairwise_append] at hordered
      obtain ⟨hbegins, _, hcross⟩ := hordered
      have hbefore : ∀ other ∈ calls, other.time ≤ call.time := by
        intro other hother
        exact hcross other.time (List.mem_map_of_mem hother) call.time (by simp)
      obtain ⟨last, hlast, hrep⟩ := represents_runCalls hlimit maxIps calls hbegins hbefore
      rw [runCalls_concat]
      cases call with
      | evictAt now => exact (ih hbegins).concat_none rfl rfl
      | checkAt source now =>
          exact (ih hbegins).concat_check (hrep.checkAt hlimit hlast source).1

theorem requests_sublist (history : List LimiterEvent) (ip : IpAddr) :
    (requests history ip).Sublist (history.map fun event => event.call.time) := by
  induction history using List.reverseRecOn with
  | nil => exact List.Sublist.refl _
  | append_singleton history event ih =>
      rw [requests_concat, List.map_append]
      refine ih.append ?_
      have htime : ∀ entry ∈ event.request, entry.2 = event.call.time := by
        rintro entry hentry
        unfold LimiterEvent.request at hentry
        split at hentry
        · exact Option.some.inj hentry ▸ rfl
        · exact Option.some.inj hentry ▸ rfl
        · cases hentry
      cases hrequest : event.request with
      | none => exact List.nil_sublist _
      | some entry =>
          rw [List.map_singleton, ← htime entry hrequest, Option.toList_some]
          have hfilter : ([entry].filter fun entry => decide (entry.1 = ip)).Sublist [entry] :=
            List.filter_sublist
          exact hfilter.map Prod.snd

theorem calls_runCalls (limiter : RateLimiter) (calls : List LimiterCall) :
    (runCalls limiter calls).2.map LimiterEvent.call = calls := by
  induction calls using List.reverseRecOn with
  | nil => rfl
  | append_singleton calls call ih => rw [runCalls_concat, List.map_append, ih, List.map_singleton]

/-- The requests of one address are calls, in their order. -/
theorem requests_sorted (limiter : RateLimiter) {calls : List LimiterCall}
    (hordered : (calls.map LimiterCall.time).Pairwise (· ≤ ·)) (ip : IpAddr) :
    (requests (runCalls limiter calls).2 ip).Pairwise (· ≤ ·) := by
  refine hordered.sublist ?_
  have hsublist := requests_sublist (runCalls limiter calls).2 ip
  have htimes : (runCalls limiter calls).2.map (fun event => event.call.time) =
      calls.map LimiterCall.time := by
    conv_rhs => rw [← calls_runCalls limiter calls, List.map_map]
    rfl
  rwa [htimes] at hsublist

/-- The admissions of an address are the greedy choice from its own requests:
they keep the limit in every window of sixty seconds, and no choice from the
requests that does has more of them. -/
theorem limiter_optimal {limit : Nat} (hlimit : 1 ≤ limit) (maxIps : Nat)
    (calls : List LimiterCall) (hordered : (calls.map LimiterCall.time).Pairwise (· ≤ ·))
    (ip : IpAddr) :
    let history := (runCalls (RateLimiter.new limit maxIps) calls).2
    admissions history ip = greedy limit (recent window) (requests history ip) ∧
      (admissions history ip).Sublist (requests history ip) ∧
      (∀ start, (within start (admissions history ip)).length ≤ limit) ∧
      ∀ chosen, chosen.Sublist (requests history ip) →
        (∀ start, (within start chosen).length ≤ limit) →
        chosen.length ≤ (admissions history ip).length := by
  intro history
  have hgreedy : admissions history ip = greedy limit (recent window) (requests history ip) :=
    greedy_runCalls hlimit maxIps calls hordered ip
  have hsorted : (requests history ip).Pairwise (· ≤ ·) := requests_sorted _ hordered ip
  have hwindow : 0 < window := by decide
  have hwithin : ∀ (start : Nat) (times : List Nat), (within start times).length =
      times.countP (fun time => decide (start ≤ time ∧ time < start + window)) := by
    intro start times
    rw [List.countP_eq_length_filter]
    rfl
  simp only [hwithin]
  refine ⟨hgreedy, ?_⟩
  rw [hgreedy]
  refine ⟨greedy_sublist _, ?_, ?_⟩
  · exact (feasible_iff_windows (hsorted.sublist (greedy_sublist _)) hwindow).mp
      (feasible_greedy _)
  · intro chosen hchosen hwindows
    exact greedy_optimal recent_mono hsorted hchosen
      ((feasible_iff_windows (hsorted.sublist hchosen) hwindow).mpr hwindows)

/-- An eviction, a second address and a full table come between. -/
def sharedTable : List LimiterCall :=
  [.checkAt (.V4 0xc0000201#32) 0, .checkAt (.V4 0xc0000202#32) 3,
    .checkAt (.V6 (toIpv6Mapped 0xc0000201#32)) 5, .evictAt window,
    .checkAt (.V4 0xc0000201#32) window]

theorem limiter_optimal_shared :
    let history := (runCalls (RateLimiter.new 1 1) sharedTable).2
    requests history (.V4 0xc0000201#32) = [0, 5, window] ∧
      admissions history (.V4 0xc0000201#32) = [0, window] ∧
      greedy 1 (recent window) [0, 5, window] = [0, window] ∧
      (within 0 (admissions history (.V4 0xc0000201#32))).length ≤ 1 ∧
      [5].length ≤ (admissions history (.V4 0xc0000201#32)).length := by
  intro history
  have hrequests : requests history (.V4 0xc0000201#32) = [0, 5, window] := by
    decide
  have hoptimal := limiter_optimal (Nat.le_refl 1) 1 sharedTable (by decide) (.V4 0xc0000201#32)
  have hadmissions : admissions history (.V4 0xc0000201#32) = [0, window] := by
    decide
  refine ⟨hrequests, hadmissions, ?_, hoptimal.2.2.1 0, hoptimal.2.2.2 [5] ?_ ?_⟩
  · rw [← hrequests, ← hoptimal.1, hadmissions]
  · exact hrequests ▸ by decide
  · intro start
    exact List.length_filter_le _ _

end Minotaur
