import Minotaur.Base.Steps
import Minotaur.RateLimit.History

/-!
The limiter under calls that enter it out of order. A call of `check` or
`evict_idle` reads the clock and takes the mutex afterwards, so other calls
with later times may be in between. An address keeps a suffix of its
admissions, and what a later call has dropped is gone for an earlier one too.
-/

namespace Minotaur

open Net

structure LimiterState where
  limiter : RateLimiter
  /-- The last reading of the clock. -/
  clock : Nat
  /-- The calls that wait for the mutex. -/
  pending : List LimiterCall
  history : List LimiterEvent

inductive LimiterStep where
  /-- Reads the clock. -/
  | sample (call : LimiterCall)
  /-- Takes the mutex. -/
  | enter (index : Nat)

namespace LimiterState

def new (limit maxIps : Nat) : LimiterState := ⟨.new limit maxIps, 0, [], []⟩

def step (state : LimiterState) : LimiterStep → Option LimiterState
  | .sample call =>
      if state.clock ≤ call.time then
        some { state with clock := call.time, pending := state.pending ++ [call] }
      else none
  | .enter index =>
      state.pending[index]?.map fun call =>
        { state with
          limiter := (call.perform state.limiter).2
          pending := state.pending.eraseIdx index
          history := state.history ++ [⟨call, (call.perform state.limiter).1⟩] }

/-- The admissions of an address that its bucket has lost. -/
def discarded (state : LimiterState) (ip : IpAddr) : List Nat :=
  (admissions state.history ip).take
    ((admissions state.history ip).length - (state.limiter.bucket ip).length)

/-- A check with room in its bucket finds nothing discarded that lies within
sixty seconds of it. -/
def Timely (state : LimiterState) : LimiterCall → Prop
  | .checkAt ip now =>
      (expire (state.limiter.bucket (canonicalIp ip)) now).length < state.limiter.limit →
        ∀ time ∈ state.discarded (canonicalIp ip), window ≤ now - time ∨ window ≤ time - now
  | .evictAt _ => True

instance (state : LimiterState) : ∀ call, Decidable (state.Timely call)
  | .checkAt ip now => inferInstanceAs (Decidable (_ < _ →
      ∀ time ∈ state.discarded (canonicalIp ip), window ≤ now - time ∨ window ≤ time - now))
  | .evictAt _ => isTrue trivial

/-- The call that enters is timely. -/
def EntersTimely (state : LimiterState) : LimiterStep → Prop
  | .sample _ => True
  | .enter index => ∀ call, call ∈ state.pending[index]? → state.Timely call

instance (state : LimiterState) : ∀ label, Decidable (state.EntersTimely label)
  | .sample _ => isTrue trivial
  | .enter index =>
      inferInstanceAs (Decidable (∀ call, call ∈ state.pending[index]? → state.Timely call))

end LimiterState

/-! ### Intervals -/

/-- The times in the sixty seconds from `start` on. -/
def within (start : Nat) (times : List Nat) : List Nat :=
  times.filter (fun time => decide (start ≤ time ∧ time < start + window))

theorem within_append (start : Nat) (first second : List Nat) :
    within start (first ++ second) = within start first ++ within start second :=
  List.filter_append ..

/-- An interval around `now` meets nothing that is sixty seconds away. -/
theorem within_eq_nil {start now : Nat} (hnow : start ≤ now ∧ now < start + window)
    {times : List Nat} (haway : ∀ time ∈ times, window ≤ now - time ∨ window ≤ time - now) :
    within start times = [] := by
  apply List.filter_eq_nil_iff.mpr
  intro time htime
  have hdistance := haway time htime
  simp only [decide_eq_true_eq]
  omega

theorem expire_suffix (times : List Nat) (now : Nat) : expire times now <:+ times :=
  List.dropWhile_suffix _

/-- What expires is too old for every interval around `now`. -/
theorem within_expire {start now : Nat} (hnow : start ≤ now ∧ now < start + window)
    (times : List Nat) : within start (expire times now) = within start times := by
  conv_rhs =>
    rw [← List.takeWhile_append_dropWhile (p := fun time => decide (window ≤ now - time))
      (l := times)]
  have hold : within start (times.takeWhile (fun time => decide (window ≤ now - time))) = [] := by
    apply within_eq_nil hnow
    intro time htime
    exact Or.inl (of_decide_eq_true (List.all_eq_true.mp List.all_takeWhile time htime))
  rw [within_append, hold, List.nil_append]
  rfl

/-! ### The invariant -/

namespace LimiterState

structure Limited (limit : Nat) (state : LimiterState) : Prop where
  limit_eq : state.limiter.limit = limit
  healthy : state.limiter.poisoned = false
  kept : ∀ ip, state.limiter.bucket ip <:+ admissions state.history ip
  bounded : ∀ ip start, (within start (admissions state.history ip)).length ≤ limit

theorem limited_new (limit maxIps : Nat) : (LimiterState.new limit maxIps).Limited limit where
  limit_eq := rfl
  healthy := rfl
  kept _ := List.suffix_refl _
  bounded _ _ := Nat.zero_le _

variable {limit : Nat} {state next : LimiterState}

theorem Limited.discarded_append (h : state.Limited limit) (ip : IpAddr) :
    state.discarded ip ++ state.limiter.bucket ip = admissions state.history ip :=
  (List.suffix_iff_eq_append.mp (h.kept ip))

/-- A timely check that is admitted keeps every interval within the limit. -/
theorem Limited.bounded_checkAt (h : state.Limited limit) {ip : IpAddr} {now : Nat}
    (htimely : state.Timely (.checkAt ip now))
    (hroom : (expire (state.limiter.bucket (canonicalIp ip)) now).length < state.limiter.limit)
    (start : Nat) :
    (within start (admissions state.history (canonicalIp ip) ++ [now])).length ≤
      limit := by
  rw [within_append]
  by_cases hnow : start ≤ now ∧ now < start + window
  · -- Only what the bucket still holds counts beside the new admission.
    have hlost : within start (state.discarded (canonicalIp ip)) = [] :=
      within_eq_nil hnow (htimely hroom)
    have hsub := List.length_filter_le (fun time => decide (start ≤ time ∧ time < start + window))
      (expire (state.limiter.bucket (canonicalIp ip)) now)
    have hlimit := h.limit_eq
    rw [← h.discarded_append, within_append, hlost, List.nil_append, ← within_expire hnow,
      List.length_append]
    have hone : (within start [now]).length ≤ 1 := List.length_filter_le _ _
    change (within start _).length ≤ _ at hsub
    omega
  · have hnone : within start [now] = [] := by
      simpa [within] using hnow
    rw [hnone, List.append_nil]
    exact h.bounded (canonicalIp ip) start

theorem Limited.checkAt (h : state.Limited limit) (hlimit : 1 ≤ limit) {ip : IpAddr} {now : Nat}
    (htimely : state.Timely (.checkAt ip now))
    (hlimiter : next.limiter = (state.limiter.checkAt ip now).2)
    (hhistory : next.history =
      state.history ++ [⟨.checkAt ip now, some (state.limiter.checkAt ip now).1⟩]) :
    next.Limited limit := by
  have hzero : state.limiter.limit ≠ 0 := by
    rw [h.limit_eq]
    omega
  obtain hcapacity | hfull | ⟨hroom, hallowed⟩ :=
    state.limiter.checkAt_cases hzero h.healthy ip now
  · rw [hcapacity] at hlimiter hhistory
    refine ⟨hlimiter ▸ h.limit_eq, hlimiter ▸ h.healthy, ?_, ?_⟩
    · intro other
      rw [hlimiter, hhistory, admissions_concat_of_none rfl]
      exact h.kept other
    · intro other start
      rw [hhistory, admissions_concat_of_none rfl]
      exact h.bounded other start
  · rw [hfull] at hlimiter hhistory
    refine ⟨hlimiter ▸ h.limit_eq, hlimiter ▸ h.healthy, ?_, ?_⟩
    · intro other
      rw [hlimiter, hhistory, admissions_concat_of_none rfl, state.limiter.bucket_insert]
      split_ifs with hother
      · subst hother
        exact (expire_suffix _ now).trans (h.kept _)
      · exact h.kept other
    · intro other start
      rw [hhistory, admissions_concat_of_none rfl]
      exact h.bounded other start
  · rw [hallowed] at hlimiter hhistory
    refine ⟨hlimiter ▸ h.limit_eq, hlimiter ▸ h.healthy, ?_, ?_⟩
    · intro other
      rw [hlimiter, hhistory, admissions_concat_of_some rfl, state.limiter.bucket_insert]
      by_cases hother : other = canonicalIp ip
      · subst hother
        rw [if_pos rfl, if_pos rfl]
        obtain ⟨lost, hlost⟩ := (expire_suffix _ now).trans (h.kept (canonicalIp ip))
        exact ⟨lost, by rw [← List.append_assoc, hlost]⟩
      · rw [if_neg hother, if_neg (Ne.symm hother), List.append_nil]
        exact h.kept other
    · intro other start
      rw [hhistory, admissions_concat_of_some rfl]
      split_ifs with hother
      · subst hother
        exact h.bounded_checkAt htimely hroom start
      · rw [List.append_nil]
        exact h.bounded other start

theorem Limited.evictAt (h : state.Limited limit) {now : Nat}
    (hlimiter : next.limiter = state.limiter.evictAt now)
    (hhistory : next.history = state.history ++ [⟨.evictAt now, none⟩]) :
    next.Limited limit := by
  have hsame : next.limiter.limit = state.limiter.limit ∧
      next.limiter.poisoned = state.limiter.poisoned := by
    rw [hlimiter]
    unfold RateLimiter.evictAt
    split_ifs <;> exact ⟨rfl, rfl⟩
  refine ⟨hsame.1.trans h.limit_eq, hsame.2.trans h.healthy, ?_, ?_⟩
  · intro ip
    rw [hlimiter, hhistory, admissions_concat_of_none rfl,
      state.limiter.bucket_evictAt h.healthy]
    exact (expire_suffix _ now).trans (h.kept ip)
  · intro ip start
    rw [hhistory, admissions_concat_of_none rfl]
    exact h.bounded ip start

theorem Limited.step (h : state.Limited limit) (hlimit : 1 ≤ limit) {label : LimiterStep}
    (htimely : state.EntersTimely label) (hstep : state.step label = some next) :
    next.Limited limit := by
  cases label with
  | sample call =>
      simp only [LimiterState.step] at hstep
      split_ifs at hstep
      obtain rfl := Option.some.inj hstep
      exact ⟨h.limit_eq, h.healthy, h.kept, h.bounded⟩
  | enter index =>
      obtain ⟨call, hcall, rfl⟩ := Option.map_eq_some_iff.mp hstep
      cases call with
      | checkAt ip now => exact h.checkAt hlimit (htimely _ hcall) rfl rfl
      | evictAt now => exact h.evictAt rfl rfl

end LimiterState

/-- As long as every check that finds room comes before a later call has
discarded what counts for it, no sixty seconds hold more than `limit`
admissions of an address. -/
theorem limit_holds_when_timely (limit maxIps : Nat) (hlimit : 1 ≤ limit)
    (labels : List LimiterStep) (state : LimiterState)
    (hrun : Steps.run LimiterState.step (LimiterState.new limit maxIps) labels = some state)
    (htimely : Steps.Always LimiterState.step LimiterState.EntersTimely
      (LimiterState.new limit maxIps) labels)
    (ip : IpAddr) (start : Nat) :
    (within start (admissions state.history ip)).length ≤ limit := by
  have hlimited : state.Limited limit :=
    Steps.run_invariant_always (fun _ _ _ htimely h hstep => h.step hlimit htimely hstep) htimely
      (LimiterState.limited_new limit maxIps) hrun
  exact hlimited.bounded ip start

/-- Two checks enter in the order opposite to their times. -/
theorem limit_holds_when_timely_swapped :
    let labels : List LimiterStep :=
      [.sample (.checkAt (.V4 0xc0000201#32) 0), .sample (.checkAt (.V4 0xc0000201#32) 7),
        .enter 1, .enter 0]
    ∃ state, Steps.run LimiterState.step (LimiterState.new 1 8) labels = some state ∧
      (within 0 (admissions state.history (.V4 0xc0000201#32))).length ≤ 1 := by
  intro labels
  obtain ⟨state, hrun⟩ : ∃ state,
      Steps.run LimiterState.step (LimiterState.new 1 8) labels = some state :=
    Option.isSome_iff_exists.mp (by decide)
  exact ⟨state, hrun, limit_holds_when_timely 1 8 (by decide) labels state hrun (by decide) _ 0⟩

/-- The eviction is sampled after the second check and enters before it. -/
theorem limit_exceeded_after_eviction :
    let labels : List LimiterStep :=
      [.sample (.checkAt (.V4 0xc0000201#32) 0), .enter 0,
        .sample (.checkAt (.V4 0xc0000201#32) (window - 1)), .sample (.evictAt window),
        .enter 1, .enter 0]
    ∃ state, Steps.run LimiterState.step (LimiterState.new 1 8) labels = some state ∧
      1 < (within 0 (admissions state.history (.V4 0xc0000201#32))).length := by
  intro labels
  have hend : (Steps.run LimiterState.step (LimiterState.new 1 8) labels).any (fun state =>
      decide (1 < (within 0 (admissions state.history (.V4 0xc0000201#32))).length)) = true := by
    decide
  obtain ⟨state, hrun, hmore⟩ := (Option.any_eq_true _ _).mp hend
  exact ⟨state, hrun, of_decide_eq_true hmore⟩

end Minotaur
