import Minotaur.Config.Checked
import Minotaur.RateLimit.History

/-!
How large the limiter can grow. Unlike `Represents` the bound asks nothing of
the times of the calls: a clock that runs backwards spoils the sorting of the
buckets and nothing else here.
-/

namespace Minotaur

open Net

/-- What one bucket may look like. -/
structure BucketFits (limit : Nat) (ip : IpAddr) (times : List Nat) : Prop where
  canonical : canonicalIp ip = ip
  occupied : times ≠ []
  length_le : times.length ≤ limit

structure RateLimiter.Bounded (limit maxIps : Nat) (limiter : RateLimiter) : Prop where
  limit_eq : limiter.limit = limit
  maxIps_eq : limiter.maxIps = maxIps
  healthy : limiter.poisoned = false
  buckets : Table.Each (BucketFits limit) limiter.inner
  size_le : Table.size limiter.inner ≤ maxIps

/-- Timestamps held in all buckets together. -/
def RateLimiter.timestamps (limiter : RateLimiter) : Nat :=
  (limiter.inner.entries.map fun entry => entry.2.length).sum

theorem expire_length_le (times : List Nat) (now : Nat) :
    (expire times now).length ≤ times.length :=
  (List.dropWhile_sublist _).length_le

namespace RateLimiter

theorem bounded_new (limit maxIps : Nat) : Bounded limit maxIps (RateLimiter.new limit maxIps) :=
  ⟨rfl, rfl, rfl, Table.each_empty _, Nat.zero_le _⟩

namespace Bounded

variable {limit maxIps : Nat} {limiter : RateLimiter}

theorem bucket_length_le (h : Bounded limit maxIps limiter) (ip : IpAddr) :
    (limiter.bucket ip).length ≤ limit := by
  unfold RateLimiter.bucket
  cases hsome : limiter.inner.lookup ip with
  | none => exact Nat.zero_le _
  | some times => exact (h.buckets ip times hsome).length_le

/-- A bucket for a canonical address, where the capacity check passed. -/
theorem insert (h : Bounded limit maxIps limiter) {ip : IpAddr} {times : List Nat}
    (hfits : BucketFits limit ip times)
    (hroom : ¬ (ip ∉ limiter.inner ∧ maxIps ≤ Table.size limiter.inner)) :
    Bounded limit maxIps { limiter with inner := limiter.inner.insert ip times } := by
  refine ⟨h.limit_eq, h.maxIps_eq, h.healthy, h.buckets.insert hfits, ?_⟩
  dsimp only
  by_cases hmem : ip ∈ limiter.inner
  · rw [Table.size_insert_of_mem hmem]
    exact h.size_le
  · rw [Table.size_insert_of_notMem hmem]
    by_contra hfull
    exact hroom ⟨hmem, by omega⟩

theorem checkAt (h : Bounded limit maxIps limiter) (ip : IpAddr) (now : Nat) :
    Bounded limit maxIps (limiter.checkAt ip now).2 := by
  obtain rfl := h.limit_eq
  obtain rfl := h.maxIps_eq
  have hstored := h.bucket_length_le (canonicalIp ip)
  have hkept := expire_length_le (limiter.bucket (canonicalIp ip)) now
  unfold RateLimiter.checkAt
  dsimp only
  split_ifs with hoff hpoisoned hcapacity hfull
  · exact h
  · exact h
  · exact h
  · -- The window is full, so what is left of the bucket is not empty.
    refine h.insert ⟨canonicalIp_idem ip, ?_, hkept.trans hstored⟩ hcapacity
    intro hempty
    rw [hempty] at hfull
    exact hoff (Nat.le_zero.mp hfull)
  · refine h.insert ⟨canonicalIp_idem ip, List.append_ne_nil_of_right_ne_nil _ (by simp), ?_⟩ hcapacity
    rw [List.length_append, List.length_singleton]
    omega

theorem evictAt (h : Bounded limit maxIps limiter) (now : Nat) :
    Bounded limit maxIps (limiter.evictAt now) := by
  unfold RateLimiter.evictAt
  rw [if_neg (by simp [h.healthy])]
  refine ⟨h.limit_eq, h.maxIps_eq, h.healthy, h.buckets.retain ?_, ?_⟩
  · intro ip old times hold hkept
    split_ifs at hkept with hempty
    obtain rfl := Option.some.inj hkept
    exact ⟨hold.canonical, hempty, (expire_length_le old now).trans hold.length_le⟩
  · exact (Table.size_retain_le _ _).trans h.size_le

theorem perform (h : Bounded limit maxIps limiter) (call : LimiterCall) :
    Bounded limit maxIps (call.perform limiter).2 := by
  cases call with
  | checkAt ip now => exact h.checkAt ip now
  | evictAt now => exact h.evictAt now

theorem timestamps_le (h : Bounded limit maxIps limiter) :
    limiter.timestamps ≤ maxIps * limit := by
  have hbuckets : Table.Each (fun _ (times : List Nat) => times.length ≤ limit) limiter.inner :=
    fun ip times hsome => (h.buckets ip times hsome).length_le
  exact (Table.weight_le hbuckets).trans (Nat.mul_le_mul_right limit h.size_le)

/-- No bucket both is occupied and holds nothing. -/
theorem inner_eq_empty (h : Bounded 0 maxIps limiter) : limiter.inner = ∅ := by
  apply AList.ext
  refine List.eq_nil_iff_forall_not_mem.mpr ?_
  intro entry hentry
  have hfits := h.buckets.entry hentry
  exact hfits.occupied (List.length_eq_zero_iff.mp (Nat.le_zero.mp hfits.length_le))

end Bounded

/-- Capacity is decided before the map is touched. -/
theorem checkAt_capacity (limiter : RateLimiter) {ip : IpAddr} {now : Nat}
    (hcapacity : (limiter.checkAt ip now).1 = .Capacity) : (limiter.checkAt ip now).2 = limiter := by
  unfold RateLimiter.checkAt at hcapacity ⊢
  dsimp only at hcapacity ⊢
  split_ifs at hcapacity ⊢
  rfl

end RateLimiter

theorem bounded_runCalls (limit maxIps : Nat) (calls : List LimiterCall) :
    (runCalls (RateLimiter.new limit maxIps) calls).1.Bounded limit maxIps := by
  induction calls using List.reverseRecOn with
  | nil => exact RateLimiter.bounded_new limit maxIps
  | append_singleton calls call ih =>
      rw [runCalls_concat]
      exact ih.perform call

/-- The limiter of an accepted configuration keeps within its budget,
whatever calls are made at whatever times, and the check of the budget does
not overflow, accepted or not. -/
theorem limiter_budget (cfg : Config) :
    (cfg.validate = .ok () → ∀ calls : List LimiterCall,
      let limiter := (runCalls
        (RateLimiter.new cfg.server.rateLimitPerIpPerMin cfg.server.maxTrackedIps) calls).1
      limiter.Bounded cfg.server.rateLimitPerIpPerMin cfg.server.maxTrackedIps ∧
        limiter.timestamps ≤ 1000000 ∧
        (∀ ip now, (limiter.checkAt ip now).1 = .Capacity → (limiter.checkAt ip now).2 = limiter) ∧
        (cfg.server.rateLimitPerIpPerMin = 0 → limiter.inner = ∅)) ∧
      cfg.validateU64 = plain cfg.validate := by
  refine ⟨?_, cfg.validateU64_eq⟩
  intro hvalid calls limiter
  have hbounded : limiter.Bounded _ _ := bounded_runCalls _ _ calls
  have hbudget := ((validate_ok_iff cfg).mp hvalid).server.historyBudget
  refine ⟨hbounded, hbounded.timestamps_le.trans hbudget, ?_, ?_⟩
  · intro ip now hcapacity
    exact limiter.checkAt_capacity hcapacity
  · intro hzero
    rw [hzero] at hbounded
    exact hbounded.inner_eq_empty

/-- Time runs backwards between the two checks, and the third address finds
the table full. -/
theorem limiter_budget_backwards :
    let cfg : Config := {
      server := { rateLimitPerIpPerMin := 1, maxTrackedIps := 1 }
      endpoints := [⟨"", .V4 0x7f000001#32 22, .Ssh, none, none, none, none⟩] }
    let calls : List LimiterCall :=
      [.checkAt (.V6 (toIpv6Mapped 0xc0000201#32)) window, .checkAt (.V4 0xc0000201#32) 5]
    let limiter := (runCalls
      (RateLimiter.new cfg.server.rateLimitPerIpPerMin cfg.server.maxTrackedIps) calls).1
    limiter.timestamps ≤ 1000000 ∧
      (limiter.checkAt (.V4 0xc0000202#32) 7).2 = limiter ∧ cfg.validateU64 = plain (.ok ()) := by
  intro cfg calls limiter
  have hvalid : cfg.validate = .ok () := by decide
  obtain ⟨hlimiter, hchecked⟩ := limiter_budget cfg
  obtain ⟨_, htimestamps, hcapacity, _⟩ := hlimiter hvalid calls
  exact ⟨htimestamps, hcapacity _ _ (by decide), hvalid ▸ hchecked⟩

end Minotaur
