import Minotaur.RateLimit
import Minotaur.Config.Accepted

/-!
The limiter against its own history. The specification knows no table and no
deque: it looks at the list of calls made so far with the decisions they
returned. `Represents` ties the two together. The bucket of an address may
have lost old admissions and keeps others past their time, but from the last
call on both agree about what still counts, and an address has a bucket
exactly when the history says it is tracked.
-/

namespace Minotaur

open Net

inductive LimiterCall where
  | checkAt (ip : IpAddr) (now : Nat)
  | evictAt (now : Nat)

def LimiterCall.time : LimiterCall → Nat
  | .checkAt _ now => now
  | .evictAt now => now

/-- One call and what it returned; evictions return nothing. -/
structure LimiterEvent where
  call : LimiterCall
  decision : Option Decision

/-! ### The specification -/

/-- The canonical address and time of an admission. -/
def LimiterEvent.admission : LimiterEvent → Option (IpAddr × Nat)
  | ⟨.checkAt ip now, some .Allowed⟩ => some (canonicalIp ip, now)
  | _ => none

/-- Times of the calls for `ip` that returned `Allowed`, oldest first. -/
def admissions (history : List LimiterEvent) (ip : IpAddr) : List Nat :=
  ((history.filterMap LimiterEvent.admission).filter (fun entry => entry.1 = ip)).map Prod.snd

def LimiterEvent.evictTime : LimiterEvent → Option Nat
  | ⟨.evictAt now, _⟩ => some now
  | _ => none

/-- The calls made after the last eviction. -/
def sinceEvict (history : List LimiterEvent) : List LimiterEvent :=
  (history.reverse.takeWhile (fun event => event.evictTime.isNone)).reverse

def lastEvict (history : List LimiterEvent) : Option Nat :=
  history.reverse.findSome? LimiterEvent.evictTime

/-- An admission since the last eviction, or one that was less than sixty
seconds old at that eviction. -/
def Tracked (history : List LimiterEvent) (ip : IpAddr) : Prop :=
  admissions (sinceEvict history) ip ≠ [] ∨
    ∃ evicted ∈ lastEvict history, ∃ time ∈ admissions history ip, evicted - time < window

instance (history : List LimiterEvent) (ip : IpAddr) : Decidable (Tracked history ip) :=
  inferInstanceAs (Decidable (_ ∨ ∃ evicted ∈ lastEvict history, _))

/-- The tracked addresses; only admitted addresses can be tracked. -/
def trackedAddresses (history : List LimiterEvent) : List IpAddr :=
  ((history.filterMap LimiterEvent.admission).map Prod.fst).dedup.filter (Tracked history)

def expected (limit maxIps : Nat) (history : List LimiterEvent) (ip : IpAddr)
    (now : Nat) : Decision :=
  if ¬ Tracked history (canonicalIp ip) ∧ maxIps ≤ (trackedAddresses history).length then
    .Capacity
  else if limit ≤ (fresh now (admissions history (canonicalIp ip))).length then
    .RateLimit
  else
    .Allowed

/-! ### Histories one event longer -/

theorem admissions_concat (history : List LimiterEvent) (event : LimiterEvent) (ip : IpAddr) :
    admissions (history ++ [event]) ip = admissions history ip ++
      ((event.admission.toList.filter (fun entry => entry.1 = ip)).map Prod.snd) := by
  cases hadm : event.admission <;> simp [admissions, hadm]

theorem admissions_concat_of_none {event : LimiterEvent} (hnone : event.admission = none)
    (history : List LimiterEvent) (ip : IpAddr) :
    admissions (history ++ [event]) ip = admissions history ip := by
  simp [admissions_concat, hnone]

theorem admissions_concat_of_some {event : LimiterEvent} {ip : IpAddr} {now : Nat}
    (hsome : event.admission = some (ip, now)) (history : List LimiterEvent) (other : IpAddr) :
    admissions (history ++ [event]) other =
      admissions history other ++ if ip = other then [now] else [] := by
  by_cases hip : ip = other <;> simp [admissions_concat, hsome, hip]

theorem sinceEvict_concat (history : List LimiterEvent) (event : LimiterEvent) :
    sinceEvict (history ++ [event]) =
      if event.evictTime = none then sinceEvict history ++ [event] else [] := by
  cases htime : event.evictTime <;> simp [sinceEvict, htime]

theorem lastEvict_concat (history : List LimiterEvent) (event : LimiterEvent) :
    lastEvict (history ++ [event]) = event.evictTime.or (lastEvict history) := by
  cases htime : event.evictTime <;> simp [lastEvict, htime]

/-- A check tracks the address it admits and untracks none. -/
theorem tracked_concat_check {event : LimiterEvent} (hcheck : event.evictTime = none)
    (history : List LimiterEvent) (ip : IpAddr) :
    Tracked (history ++ [event]) ip ↔
      Tracked history ip ∨ ∃ now, event.admission = some (ip, now) := by
  unfold Tracked
  rw [sinceEvict_concat, if_pos hcheck, lastEvict_concat, hcheck, Option.none_or,
    admissions_concat, admissions_concat]
  constructor
  · rintro (hsince | ⟨evicted, hevicted, time, htime, hfresh⟩)
    · by_cases hold : admissions (sinceEvict history) ip = []
      · rw [hold, List.nil_append] at hsince
        obtain ⟨entry, hentry⟩ := List.exists_mem_of_ne_nil _ hsince
        obtain ⟨⟨other, now⟩, hmem, _⟩ := List.mem_map.mp hentry
        obtain ⟨hadm, hip⟩ := List.mem_filter.mp hmem
        have heq : other = ip := by simpa using hip
        exact Or.inr ⟨now, by simpa [heq] using hadm⟩
      · exact Or.inl (Or.inl hold)
    · rcases List.mem_append.mp htime with hold | hnew
      · exact Or.inl (Or.inr ⟨evicted, hevicted, time, hold, hfresh⟩)
      · obtain ⟨⟨other, now⟩, hmem, _⟩ := List.mem_map.mp hnew
        obtain ⟨hadm, hip⟩ := List.mem_filter.mp hmem
        have heq : other = ip := by simpa using hip
        exact Or.inr ⟨now, by simpa [heq] using hadm⟩
  · rintro ((hold | ⟨evicted, hevicted, time, htime, hfresh⟩) | ⟨now, hadm⟩)
    · exact Or.inl (List.append_ne_nil_of_left_ne_nil hold _)
    · exact Or.inr ⟨evicted, hevicted, time, List.mem_append_left _ htime, hfresh⟩
    · exact Or.inl (by simp [hadm])

/-- An eviction keeps the addresses with an admission that is still fresh. -/
theorem tracked_concat_evict {event : LimiterEvent} {now : Nat}
    (hevict : event.evictTime = some now) (hadm : event.admission = none)
    (history : List LimiterEvent) (ip : IpAddr) :
    Tracked (history ++ [event]) ip ↔ fresh now (admissions history ip) ≠ [] := by
  unfold Tracked
  rw [sinceEvict_concat, hevict, lastEvict_concat, hevict, admissions_concat_of_none hadm]
  have hempty : admissions [] ip = [] := rfl
  simp only [reduceCtorEq, if_false, hempty, ne_eq, not_true_eq_false, false_or, Option.or,
    Option.mem_def, Option.some.injEq, exists_eq_left']
  constructor
  · rintro ⟨time, hmem, hfresh⟩
    exact List.ne_nil_of_mem (mem_fresh.mpr ⟨hmem, hfresh⟩)
  · intro hne
    obtain ⟨time, hmem⟩ := List.exists_mem_of_ne_nil _ hne
    exact ⟨time, mem_fresh.mp hmem⟩

theorem mem_admissions {history : List LimiterEvent} {ip : IpAddr} {time : Nat} :
    time ∈ admissions history ip ↔ (ip, time) ∈ history.filterMap LimiterEvent.admission := by
  simp [admissions]

theorem admissions_sinceEvict_subset (history : List LimiterEvent) (ip : IpAddr) {time : Nat}
    (hmem : time ∈ admissions (sinceEvict history) ip) : time ∈ admissions history ip := by
  rw [mem_admissions] at hmem ⊢
  obtain ⟨event, hevent, hadm⟩ := List.mem_filterMap.mp hmem
  refine List.mem_filterMap.mpr ⟨event, ?_, hadm⟩
  have hsuffix := (List.takeWhile_prefix (l := history.reverse)
    (fun event => event.evictTime.isNone)).subset (List.mem_reverse.mp hevent)
  exact List.mem_reverse.mp hsuffix

theorem mem_trackedAddresses {history : List LimiterEvent} {ip : IpAddr} :
    ip ∈ trackedAddresses history ↔ Tracked history ip := by
  unfold trackedAddresses
  rw [List.mem_filter, List.mem_dedup, List.mem_map, decide_eq_true_eq]
  refine ⟨And.right, fun htracked => ⟨?_, htracked⟩⟩
  have hadmitted : ∃ time, time ∈ admissions history ip := by
    rcases htracked with hsince | ⟨_, _, time, hmem, _⟩
    · obtain ⟨time, hmem⟩ := List.exists_mem_of_ne_nil _ hsince
      exact ⟨time, admissions_sinceEvict_subset history ip hmem⟩
    · exact ⟨time, hmem⟩
  obtain ⟨time, hmem⟩ := hadmitted
  exact ⟨(ip, time), mem_admissions.mp hmem, rfl⟩

/-! ### The simulation -/

/-- The limiter state stands for the history, seen at `now` or later. -/
structure Represents (limit maxIps : Nat) (limiter : RateLimiter) (history : List LimiterEvent)
    (now : Nat) : Prop where
  limit_eq : limiter.limit = limit
  maxIps_eq : limiter.maxIps = maxIps
  healthy : limiter.poisoned = false
  sorted : ∀ ip, (limiter.bucket ip).Pairwise (· ≤ ·)
  past : ∀ ip, ∀ time ∈ limiter.bucket ip, time ≤ now
  agree : ∀ ip later, now ≤ later →
    fresh later (limiter.bucket ip) = fresh later (admissions history ip)
  occupied : ∀ ip times, limiter.inner.lookup ip = some times → times ≠ []
  tracked : ∀ ip, ip ∈ limiter.inner ↔ Tracked history ip

theorem represents_new (limit maxIps : Nat) :
    Represents limit maxIps (RateLimiter.new limit maxIps) [] 0 where
  limit_eq := rfl
  maxIps_eq := rfl
  healthy := rfl
  sorted _ := List.Pairwise.nil
  past := by intro ip time hmem; cases hmem
  agree _ _ _ := rfl
  occupied := by intro ip times hlookup; simp [RateLimiter.new] at hlookup
  tracked := by
    intro ip
    simp [RateLimiter.new, Tracked, sinceEvict, lastEvict, admissions]

namespace Represents

variable {limit maxIps : Nat} {limiter : RateLimiter} {history : List LimiterEvent} {last now : Nat}

theorem size_eq (h : Represents limit maxIps limiter history last) :
    Table.size limiter.inner = (trackedAddresses history).length := by
  have hperm : limiter.inner.keys.Perm (trackedAddresses history) := by
    apply (List.perm_ext_iff_of_nodup limiter.inner.keys_nodup
      ((List.nodup_dedup _).filter _)).mpr
    intro ip
    exact (h.tracked ip).trans mem_trackedAddresses.symm
  exact hperm.length_eq

theorem expire_bucket (h : Represents limit maxIps limiter history last) (hle : last ≤ now)
    (ip : IpAddr) : expire (limiter.bucket ip) now = fresh now (admissions history ip) := by
  rw [expire_eq_fresh (h.sorted ip), h.agree ip now hle]

/-- A check that stores `times` for the address it is about. -/
theorem insert (h : Represents limit maxIps limiter history last) (hle : last ≤ now)
    {event : LimiterEvent} (hcheck : event.evictTime = none) {key : IpAddr} {times : List Nat}
    (hne : times ≠ []) (hsorted : times.Pairwise (· ≤ ·)) (hpast : ∀ time ∈ times, time ≤ now)
    (hagree : ∀ later, now ≤ later →
      fresh later times = fresh later (admissions (history ++ [event]) key))
    (hothers : ∀ other time, event.admission = some (other, time) → other = key)
    (htracked : Tracked (history ++ [event]) key) :
    Represents limit maxIps { limiter with inner := limiter.inner.insert key times }
      (history ++ [event]) now where
  limit_eq := h.limit_eq
  maxIps_eq := h.maxIps_eq
  healthy := h.healthy
  sorted := by
    intro other
    rw [limiter.bucket_insert]
    split_ifs
    · exact hsorted
    · exact h.sorted other
  past := by
    intro other time hmem
    rw [limiter.bucket_insert] at hmem
    split_ifs at hmem
    · exact hpast time hmem
    · exact (h.past other time hmem).trans hle
  agree := by
    intro other later hlater
    rw [limiter.bucket_insert]
    split_ifs with hother
    · rw [hother, hagree later hlater]
    · have hadmissions : admissions (history ++ [event]) other = admissions history other := by
        cases hadm : event.admission with
        | none => exact admissions_concat_of_none hadm history other
        | some entry =>
            obtain rfl := hothers _ _ hadm
            rw [admissions_concat_of_some hadm, if_neg (Ne.symm hother), List.append_nil]
      rw [hadmissions]
      exact h.agree other later (hle.trans hlater)
  occupied := by
    intro other stored hlookup
    by_cases hother : other = key
    · subst hother
      rw [AList.lookup_insert, Option.some.injEq] at hlookup
      exact hlookup ▸ hne
    · rw [AList.lookup_insert_ne hother] at hlookup
      exact h.occupied other stored hlookup
  tracked := by
    intro other
    rw [AList.mem_insert, h.tracked other]
    by_cases hother : other = key
    · subst hother
      exact iff_of_true (Or.inl rfl) htracked
    · rw [tracked_concat_check hcheck, or_iff_right hother]
      refine (or_iff_left ?_).symm
      rintro ⟨time, hadm⟩
      exact hother (hothers other time hadm)

/-- Whatever a check decides, the state it leaves represents the history with
that decision, and the decision is the one the history calls for. -/
theorem checkAt (h : Represents limit maxIps limiter history last) (hlimit : 1 ≤ limit)
    (hle : last ≤ now) (ip : IpAddr) :
    (limiter.checkAt ip now).1 = expected limit maxIps history ip now ∧
      Represents limit maxIps (limiter.checkAt ip now).2
        (history ++ [⟨.checkAt ip now, some (limiter.checkAt ip now).1⟩]) now := by
  obtain rfl := h.limit_eq
  obtain rfl := h.maxIps_eq
  have hexpire := h.expire_bucket hle (canonicalIp ip)
  have hsorted : (expire (limiter.bucket (canonicalIp ip)) now).Pairwise (· ≤ ·) :=
    (h.sorted _).sublist (List.dropWhile_sublist _)
  have hpast : ∀ time ∈ expire (limiter.bucket (canonicalIp ip)) now, time ≤ now := by
    intro time hmem
    exact (h.past _ time ((List.dropWhile_sublist _).subset hmem)).trans hle
  have hzero : limiter.limit ≠ 0 := by omega
  unfold RateLimiter.checkAt expected
  rw [if_neg hzero, if_neg (by simp [h.healthy])]
  simp only [h.size_eq, ← h.tracked, ← hexpire]
  split_ifs with hcapacity hfull <;> dsimp only
  · -- The table is full: nothing changes, and no admission is added.
    refine ⟨rfl, h.limit_eq, h.maxIps_eq, h.healthy, h.sorted, ?_, ?_, h.occupied, ?_⟩
    · intro other time hmem
      exact (h.past other time hmem).trans hle
    · intro other later hlater
      rw [admissions_concat_of_none rfl]
      exact h.agree other later (hle.trans hlater)
    · intro other
      rw [tracked_concat_check rfl, h.tracked other]
      simp [LimiterEvent.admission]
  · -- The window is full: only stale timestamps go.
    have hne : expire (limiter.bucket (canonicalIp ip)) now ≠ [] := by
      rw [ne_eq, ← List.length_eq_zero_iff]
      omega
    have hkey : canonicalIp ip ∈ limiter.inner := by
      by_contra hmissing
      have hempty : limiter.bucket (canonicalIp ip) = [] := by
        simp [RateLimiter.bucket, AList.lookup_eq_none.mpr hmissing]
      exact hne (by simp [hempty, expire])
    refine ⟨rfl, h.insert hle rfl hne hsorted hpast ?_ ?_ ?_⟩
    · intro later hlater
      rw [admissions_concat_of_none rfl, hexpire, fresh_fresh hlater]
    · intro other time hadm
      cases hadm
    · exact (tracked_concat_check rfl _ _).mpr (Or.inl ((h.tracked _).mp hkey))
  · -- Admitted: the bucket gains `now`, and so does the history.
    refine ⟨rfl, h.insert hle rfl (by simp) ?_ ?_ ?_ ?_ ?_⟩
    · exact List.pairwise_append.mpr
        ⟨hsorted, List.pairwise_singleton _ _, by simpa using hpast⟩
    · intro time hmem
      rcases List.mem_append.mp hmem with hold | hnew
      · exact hpast time hold
      · exact (List.mem_singleton.mp hnew).le
    · intro later hlater
      rw [admissions_concat_of_some rfl, if_pos rfl, fresh_append, fresh_append, hexpire,
        fresh_fresh hlater]
    · intro other time hadm
      exact (Prod.mk.inj (Option.some.inj hadm)).1.symm
    · exact (tracked_concat_check rfl _ _).mpr (Or.inr ⟨now, rfl⟩)

theorem evictAt (h : Represents limit maxIps limiter history last) (hle : last ≤ now) :
    Represents limit maxIps (limiter.evictAt now)
      (history ++ [⟨.evictAt now, none⟩]) now := by
  let change := fun times => if expire times now = [] then none else some (expire times now)
  have hevict : limiter.evictAt now =
      { limiter with inner := Table.retain change limiter.inner } := by
    simp [RateLimiter.evictAt, h.healthy, change]
  have hbucket (ip : IpAddr) :
      RateLimiter.bucket { limiter with inner := Table.retain change limiter.inner } ip =
        expire (limiter.bucket ip) now := by
    rw [← hevict]
    exact limiter.bucket_evictAt h.healthy now ip
  have hlookup (ip : IpAddr) (times : List Nat)
      (hsome : (Table.retain change limiter.inner).lookup ip = some times) :
      times ≠ [] ∧ expire (limiter.bucket ip) now ≠ [] := by
    have hnonempty : times ≠ [] := by
      rw [Table.lookup_retain] at hsome
      obtain ⟨old, _, hold⟩ := Option.bind_eq_some_iff.mp hsome
      by_cases hempty : expire old now = []
      · simp [change, hempty] at hold
      · simp only [change, hempty, if_false, Option.some.injEq] at hold
        exact hold ▸ hempty
    refine ⟨hnonempty, ?_⟩
    rw [← hbucket ip]
    simpa [RateLimiter.bucket, hsome] using hnonempty
  rw [hevict]
  refine ⟨h.limit_eq, h.maxIps_eq, h.healthy, ?_, ?_, ?_, ?_, ?_⟩
  · intro ip
    rw [hbucket]
    exact (h.sorted ip).sublist (List.dropWhile_sublist _)
  · intro ip time hmem
    rw [hbucket] at hmem
    exact (h.past ip time ((List.dropWhile_sublist _).subset hmem)).trans hle
  · intro ip later hlater
    rw [hbucket, admissions_concat_of_none rfl, h.expire_bucket hle, fresh_fresh hlater]
  · intro ip times hsome
    exact (hlookup ip times hsome).1
  · intro ip
    rw [tracked_concat_evict rfl rfl, ← h.expire_bucket hle]
    constructor
    · intro hmem
      obtain ⟨times, hsome⟩ := Table.mem_iff_lookup.mp hmem
      exact (hlookup ip times hsome).2
    · intro hne
      rw [← hbucket] at hne
      by_contra hmissing
      simp [RateLimiter.bucket, AList.lookup_eq_none.mpr hmissing] at hne

end Represents

/-! ### Runs -/

def LimiterCall.perform (limiter : RateLimiter) : LimiterCall → Option Decision × RateLimiter
  | .checkAt ip now => (some (limiter.checkAt ip now).1, (limiter.checkAt ip now).2)
  | .evictAt now => (none, limiter.evictAt now)

/-- Performs the calls in order and keeps what each returned. -/
def runCalls (limiter : RateLimiter) (calls : List LimiterCall) :
    RateLimiter × List LimiterEvent :=
  calls.foldl
    (fun state call =>
      ((call.perform state.1).2, state.2 ++ [⟨call, (call.perform state.1).1⟩]))
    (limiter, [])

theorem runCalls_concat (limiter : RateLimiter) (calls : List LimiterCall) (call : LimiterCall) :
    runCalls limiter (calls ++ [call]) =
      ((call.perform (runCalls limiter calls).1).2,
        (runCalls limiter calls).2 ++ [⟨call, (call.perform (runCalls limiter calls).1).1⟩]) := by
  simp [runCalls]

theorem represents_runCalls {limit : Nat} (hlimit : 1 ≤ limit) (maxIps : Nat)
    (calls : List LimiterCall) (hordered : (calls.map LimiterCall.time).Pairwise (· ≤ ·))
    {now : Nat} (hnow : ∀ call ∈ calls, call.time ≤ now) :
    ∃ last ≤ now, Represents limit maxIps (runCalls (RateLimiter.new limit maxIps) calls).1
      (runCalls (RateLimiter.new limit maxIps) calls).2 last := by
  induction calls using List.reverseRecOn generalizing now with
  | nil => exact ⟨0, Nat.zero_le _, represents_new limit maxIps⟩
  | append_singleton calls call ih =>
      rw [List.map_append, List.pairwise_append] at hordered
      obtain ⟨hbegins, _, hcross⟩ := hordered
      have hbefore : ∀ other ∈ calls, other.time ≤ call.time := by
        intro other hother
        exact hcross other.time (List.mem_map_of_mem hother) call.time (by simp)
      obtain ⟨last, hlast, hrep⟩ := ih hbegins hbefore
      refine ⟨call.time, hnow call (by simp), ?_⟩
      rw [runCalls_concat]
      cases call with
      | checkAt ip time => exact (hrep.checkAt hlimit hlast ip).2
      | evictAt time => exact hrep.evictAt hlast

/-- A rejected check leaves no trace: later answers are those of the history
without it. -/
theorem expected_concat_of_rejected {ip : IpAddr} {now : Nat} {decision : Decision}
    (hrejected : decision ≠ .Allowed) (limit maxIps : Nat) (history : List LimiterEvent)
    (other : IpAddr) (later : Nat) :
    expected limit maxIps (history ++ [⟨.checkAt ip now, some decision⟩]) other later =
      expected limit maxIps history other later := by
  have hnone : LimiterEvent.admission ⟨.checkAt ip now, some decision⟩ = none := by
    cases decision <;> first | rfl | exact absurd rfl hrejected
  have htracked : Tracked (history ++ [⟨.checkAt ip now, some decision⟩]) = Tracked history := by
    funext address
    rw [tracked_concat_check rfl, hnone]
    simp
  have haddresses : trackedAddresses (history ++ [⟨.checkAt ip now, some decision⟩]) =
      trackedAddresses history := by
    simp only [trackedAddresses, htracked, List.filterMap_append, List.filterMap_cons, hnone,
      List.filterMap_nil, List.append_nil]
  simp only [expected, htracked, haddresses, admissions_concat_of_none hnone]

/-- Every check answers what the history of the calls before it calls for,
for calls in the order of their times, and a rejected one changes no later
answer. -/
theorem checkAt_refines_history (limit maxIps : Nat) (hlimit : 1 ≤ limit) (_hips : 1 ≤ maxIps)
    (calls : List LimiterCall) (ip : IpAddr) (now : Nat)
    (hordered : ((calls ++ [LimiterCall.checkAt ip now]).map LimiterCall.time).Pairwise (· ≤ ·)) :
    let history := (runCalls (RateLimiter.new limit maxIps) calls).2
    let decision := ((runCalls (RateLimiter.new limit maxIps) calls).1.checkAt ip now).1
    decision = expected limit maxIps history ip now ∧
      (decision ≠ .Allowed → ∀ other later,
        expected limit maxIps (history ++ [⟨.checkAt ip now, some decision⟩]) other later =
          expected limit maxIps history other later) := by
  intro history decision
  rw [List.map_append, List.pairwise_append] at hordered
  obtain ⟨hbegins, _, hcross⟩ := hordered
  have hbefore : ∀ call ∈ calls, call.time ≤ now := by
    intro call hcall
    exact hcross call.time (List.mem_map_of_mem hcall) now (by simp [LimiterCall.time])
  obtain ⟨last, hlast, hrep⟩ := represents_runCalls hlimit maxIps calls hbegins hbefore
  exact ⟨(hrep.checkAt hlimit hlast ip).1,
    fun hrejected other later =>
      expected_concat_of_rejected hrejected limit maxIps history other later⟩

/-- A mapped address shares the bucket of its IPv4 address, and the second
address finds the table full until the bucket is evicted. -/
theorem checkAt_refines_history_mapped :
    let calls : List LimiterCall :=
      [.checkAt (.V4 0xc0000201#32) 0, .checkAt (.V6 (toIpv6Mapped 0xc0000201#32)) 5,
        .evictAt 7, .checkAt (.V4 0xc0000202#32) 9]
    ((runCalls (RateLimiter.new 1 1) calls).1.checkAt (.V4 0xc0000201#32) window).1 =
      expected 1 1 (runCalls (RateLimiter.new 1 1) calls).2 (.V4 0xc0000201#32) window :=
  (checkAt_refines_history 1 1 (by decide) (by decide) _ _ _ (by decide)).1

end Minotaur
