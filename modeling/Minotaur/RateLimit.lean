import Minotaur.Base.Table
import Minotaur.Config

/-!
The per-IP limiter: a table from canonical addresses to the admission times
of the last sixty seconds. An instant is a number of nanoseconds since an
arbitrary origin, so truncated subtraction is `saturating_duration_since`.
The mutex is its poison flag: each call here is one critical section.
-/

namespace Minotaur

open Net

/-- `WINDOW`, sixty seconds. -/
def window : Nat := 60 * 1000000000

inductive Decision where
  | Allowed
  | RateLimit
  | Capacity
  | Unavailable
deriving DecidableEq, Repr

def Decision.reason : Decision → String
  | .Allowed => "allowed"
  | .RateLimit => "rate_limit"
  | .Capacity => "rate_limit_capacity"
  | .Unavailable => "rate_limiter_unavailable"

structure RateLimiter where
  limit : Nat
  maxIps : Nat
  poisoned : Bool
  inner : AList fun _ : IpAddr => List Nat

/-- Pops the front while it is at least sixty seconds old. -/
def expire (times : List Nat) (now : Nat) : List Nat :=
  times.dropWhile (fun time => decide (window ≤ now - time))

namespace RateLimiter

def new (limit maxIps : Nat) : RateLimiter := ⟨limit, maxIps, false, ∅⟩

/-- The timestamps stored for a canonical address; `or_default` without one. -/
def bucket (self : RateLimiter) (ip : IpAddr) : List Nat := (self.inner.lookup ip).getD []

def checkAt (self : RateLimiter) (ip : IpAddr) (now : Nat) : Decision × RateLimiter :=
  if self.limit = 0 then (.Allowed, self)
  -- Fail closed on poisoning.
  else if self.poisoned then (.Unavailable, self)
  else
    let ip := canonicalIp ip
    if ip ∉ self.inner ∧ self.maxIps ≤ Table.size self.inner then
      -- The whole table is not rescanned for every new address.
      (.Capacity, self)
    else
      let times := expire (self.bucket ip) now
      if self.limit ≤ times.length then
        (.RateLimit, { self with inner := self.inner.insert ip times })
      else
        (.Allowed, { self with inner := self.inner.insert ip (times ++ [now]) })

def evictAt (self : RateLimiter) (now : Nat) : RateLimiter :=
  if self.poisoned then self
  else
    { self with
      inner := Table.retain
        (fun times => if expire times now = [] then none else some (expire times now)) self.inner }

def trackedIps (self : RateLimiter) : Nat :=
  if self.poisoned then 0 else Table.size self.inner

/-! ### What a call does to the buckets -/

variable (limiter : RateLimiter)

theorem bucket_insert (ip other : IpAddr) (times : List Nat) :
    RateLimiter.bucket { limiter with inner := limiter.inner.insert ip times } other =
      if other = ip then times else limiter.bucket other := by
  by_cases heq : other = ip
  · subst heq
    simp [RateLimiter.bucket]
  · simp [RateLimiter.bucket, heq, AList.lookup_insert_ne heq]

theorem bucket_evictAt (hhealthy : limiter.poisoned = false) (now : Nat) (ip : IpAddr) :
    (limiter.evictAt now).bucket ip = expire (limiter.bucket ip) now := by
  unfold evictAt
  rw [if_neg (by simp [hhealthy])]
  simp only [RateLimiter.bucket, Table.lookup_retain]
  cases limiter.inner.lookup ip with
  | none => rfl
  | some times => by_cases hempty : expire times now = [] <;> simp [hempty]

theorem checkAt_cases (hlimit : limiter.limit ≠ 0) (hhealthy : limiter.poisoned = false)
    (ip : IpAddr) (now : Nat) :
    limiter.checkAt ip now = (.Capacity, limiter) ∨
      limiter.checkAt ip now = (.RateLimit, { limiter with
        inner := limiter.inner.insert (canonicalIp ip)
          (expire (limiter.bucket (canonicalIp ip)) now) }) ∨
      (expire (limiter.bucket (canonicalIp ip)) now).length < limiter.limit ∧
        limiter.checkAt ip now = (.Allowed, { limiter with
          inner := limiter.inner.insert (canonicalIp ip)
            (expire (limiter.bucket (canonicalIp ip)) now ++ [now]) }) := by
  unfold checkAt
  rw [if_neg hlimit, if_neg (by simp [hhealthy])]
  dsimp only
  split_ifs with hcapacity hfull
  · exact Or.inl rfl
  · exact Or.inr (Or.inl rfl)
  · exact Or.inr (Or.inr ⟨by omega, rfl⟩)

end RateLimiter

/-! ### Expiry of sorted windows -/

/-- Admissions that still count at `now`. -/
def fresh (now : Nat) (times : List Nat) : List Nat :=
  times.filter (fun time => decide (now - time < window))

/-- Front expiry of a sorted window keeps exactly the fresh timestamps. -/
theorem expire_eq_fresh {times : List Nat} (hsorted : times.Pairwise (· ≤ ·))
    (now : Nat) : expire times now = fresh now times := by
  induction times with
  | nil => rfl
  | cons time rest ih =>
      obtain ⟨hhead, hrest⟩ := List.pairwise_cons.mp hsorted
      by_cases hold : window ≤ now - time
      · have hstale : ¬ now - time < window := by omega
        simpa [expire, fresh, hold, hstale] using ih hrest
      · have hall : ∀ other ∈ time :: rest, now - other < window := by
          intro other hother
          rcases List.mem_cons.mp hother with rfl | hother
          · omega
          · have hle := hhead other hother
            omega
        have hkeep : fresh now (time :: rest) = time :: rest :=
          List.filter_eq_self.mpr (fun other hother => decide_eq_true (hall other hother))
        rw [hkeep]
        simp [expire, hold]

theorem fresh_append (now : Nat) (first second : List Nat) :
    fresh now (first ++ second) = fresh now first ++ fresh now second :=
  List.filter_append ..

/-- What is stale stays stale, so an earlier expiry is invisible later. -/
theorem fresh_fresh {earlier now : Nat} (hle : earlier ≤ now) (times : List Nat) :
    fresh now (fresh earlier times) = fresh now times := by
  unfold fresh
  rw [List.filter_filter]
  apply List.filter_congr
  intro time _
  by_cases hnow : now - time < window
  · have hearlier : earlier - time < window := by omega
    simp [hnow, hearlier]
  · simp [hnow]

theorem mem_fresh {now time : Nat} {times : List Nat} :
    time ∈ fresh now times ↔ time ∈ times ∧ now - time < window := by
  simp [fresh]

end Minotaur
