import Minotaur.Base.Interruptible

/-!
Interruptible computations, one operation at a time. An `Op` runs to its end;
a `Script` is its text, so that others may come in between two of its
operations. `shared` is the part of the state others can see, and only an
operation changes it. `toOp` runs a script alone. What a script meets alone,
what is left of it meets after each of its steps, and the stop condition holds
wherever it is dropped.
-/

namespace Interruptible

universe v

theorem future_map_id {σ : Type} {α : Type v} (future : Future σ α) : id <$> future = future := by
  funext world
  change Future.bind future Future.pure world = future world
  unfold Future.bind
  cases future world <;> rfl

theorem future_bind_assoc {σ : Type} {α β γ : Type v} (future : Future σ α) (first : α → Future σ β)
    (second : β → Future σ γ) :
    future >>= first >>= second = future >>= fun value => first value >>= second := by
  funext world
  change Future.bind (Future.bind future first) second world =
    Future.bind future (fun value => Future.bind (first value) second) world
  unfold Future.bind
  cases future world <;> rfl

local instance {σ : Type} : LawfulMonad (Future σ) :=
  LawfulMonad.mk' (Future σ) future_map_id (fun _ _ => rfl) future_bind_assoc

variable {σ δ ε α β : Type} {shared : σ → δ}

inductive Script (shared : σ → δ) (ε α : Type) : Type 1 where
  | done (result : Except ε α)
  | await {β : Type} (perform : Nat → σ → Except ε β × σ) (torn : Nat → Nat → σ → σ)
      (failure : ε) (next : β → Script shared ε α)
  /-- Reads and changes the own part of the state, without suspending. -/
  | own (change : σ → σ) (keeps : ∀ s, shared (change s) = shared s)
      (next : σ → Script shared ε α)

/-- The operation completes, and the computation goes on. -/
def Verdict.goes : Verdict → Bool
  | .Go _ => true
  | .Fail _ _ | .Drop _ _ | .DropAfter _ => false

/-- The operation has its effect. -/
def Verdict.takesEffect : Verdict → Bool
  | .Go _ | .DropAfter _ => true
  | .Fail _ _ | .Drop _ _ => false

namespace Script

protected def bind : Script shared ε α → (α → Script shared ε β) → Script shared ε β
  | .done (.ok value), rest => rest value
  | .done (.error error), _ => .done (.error error)
  | .await perform torn failure next, rest =>
      .await perform torn failure fun value => (next value).bind rest
  | .own change keeps next, rest => .own change keeps fun s => (next s).bind rest

instance : Monad (Script shared ε) where
  pure value := .done (.ok value)
  bind := Script.bind

/-- The script run alone. -/
def toOp : Script shared ε α → Op σ ε α
  | .done result => ExceptT.mk (pure result)
  | .await perform torn failure next =>
      operation perform torn failure >>= fun value => (next value).toOp
  | .own change _ next => state >>= fun s => update change >>= fun _ => (next s).toOp

/-! ### Texts of operations -/

protected def throw (error : ε) : Script shared ε α := .done (.error error)

protected def operation (perform : Nat → σ → Except ε α × σ) (torn : Nat → Nat → σ → σ)
    (failure : ε) : Script shared ε α := .await perform torn failure pure

protected def atomic (perform : σ → Except ε α × σ) (failure : ε) : Script shared ε α :=
  .operation (fun _ => perform) (fun _ _ s => s) failure

protected def state : Script shared ε σ := .own id (fun _ => rfl) pure

protected def update (change : σ → σ) (keeps : ∀ s, shared (change s) = shared s) :
    Script shared ε PUnit := .own change keeps fun _ => pure ⟨⟩

@[simp] theorem toOp_pure (value : α) :
    (pure value : Script shared ε α).toOp = (pure value : Op σ ε α) := rfl

@[simp] theorem toOp_throw (error : ε) :
    (Script.throw error : Script shared ε α).toOp = (throw error : Op σ ε α) := rfl

@[simp] theorem toOp_operation (perform : Nat → σ → Except ε α × σ) (torn : Nat → Nat → σ → σ)
    (failure : ε) : (Script.operation perform torn failure : Script shared ε α).toOp =
      operation perform torn failure := bind_pure _

@[simp] theorem toOp_atomic (perform : σ → Except ε α × σ) (failure : ε) :
    (Script.atomic perform failure : Script shared ε α).toOp = atomic perform failure :=
  toOp_operation _ _ _

@[simp] theorem toOp_bind (script : Script shared ε α) (rest : α → Script shared ε β) :
    (script >>= rest).toOp = script.toOp >>= fun value => (rest value).toOp := by
  change (script.bind rest).toOp = _
  induction script with
  | done result => cases result <;> rfl
  | await perform torn failure next ih =>
      simp only [Script.bind, toOp, bind_assoc, ih]
  | own change keeps next ih =>
      simp only [Script.bind, toOp, bind_assoc, ih]

@[simp] theorem toOp_state : (Script.state : Script shared ε σ).toOp = state := rfl

@[simp] theorem toOp_update (change : σ → σ) (keeps : ∀ s, shared (change s) = shared s) :
    (Script.update change keeps : Script shared ε PUnit).toOp = update change := rfl

/-! ### One operation at a time -/

/-- Completes, fails or drops the next operation; `none` is a dropped script. -/
def step (script : Script shared ε α) (verdict : Verdict) (s : σ) :
    Option (Script shared ε α) × σ :=
  match script with
  | .done result => (some (.done result), s)
  | .own change _ next => (some (next s), change s)
  | .await perform torn failure next =>
      match verdict with
      | .Go reached =>
          match perform reached s with
          | (.ok value, after) => (some (next value), after)
          | (.error error, after) => (some (.done (.error error)), after)
      | .Fail taken reached => (some (.done (.error failure)), torn taken reached s)
      | .Drop taken reached => (none, torn taken reached s)
      | .DropAfter reached => (none, (perform reached s).2)

variable {ok : α → σ → Prop} {stop : σ → Prop} {s after : σ}

/-- What an operation that is followed by others has to meet. -/
theorem meets_await {γ : Type} {perform : Nat → σ → Except ε γ × σ} {torn : Nat → Nat → σ → σ}
    {failure : ε} {next : γ → Op σ ε α}
    (h : Meets (operation perform torn failure >>= next) ok stop s) (verdict : Verdict) :
    match resolve perform torn failure ⟨s, []⟩ verdict with
    | .done (.ok value) world => Meets (next value) ok stop world.state
    | .done (.error _) world => stop world.state
    | .dropped world => stop world.state := by
  have hrun : ∀ schedule, (operation perform torn failure).run ⟨s, verdict :: schedule⟩ =
      resolve perform torn failure ⟨s, schedule⟩ verdict := fun _ => rfl
  have hall : ∀ schedule, Future.wp (operation perform torn failure).run
      (fun result world => match result with
        | .ok value => Future.wp (next value).run
            (fun result world => match result with
              | .ok value => ok value world.state
              | .error _ => stop world.state)
            (fun world => stop world.state) world
        | .error _ => stop world.state)
      (fun world => stop world.state) ⟨s, verdict :: schedule⟩ := by
    intro schedule
    have hwp := h (verdict :: schedule)
    rw [ExceptT.run_bind, Future.wp_bind] at hwp
    refine Future.wp_weaken hwp ?_
    intro result world hresult
    cases result with
    | ok value => exact hresult
    | error error => exact hresult
  unfold Future.wp at hall
  simp only [hrun] at hall
  cases verdict with
  | Go reached =>
      simp only [resolve] at hall ⊢
      cases hresult : (perform reached s).1 with
      | ok value =>
          intro schedule
          have hnext := hall schedule
          rw [hresult] at hnext
          exact hnext
      | error error =>
          have hnext := hall []
          rw [hresult] at hnext
          exact hnext
  | Fail taken reached => exact hall []
  | Drop taken reached => exact hall []
  | DropAfter reached => exact hall []

/-- What the script meets, the rest of it meets. -/
theorem meets_step {script next : Script shared ε α} {verdict : Verdict}
    (h : Meets script.toOp ok stop s) (hstep : script.step verdict s = (some next, after)) :
    Meets next.toOp ok stop after := by
  cases script with
  | done result =>
      simp only [step, Prod.mk.injEq, Option.some.injEq] at hstep
      obtain ⟨rfl, rfl⟩ := hstep
      exact h
  | own change keeps rest =>
      simp only [step, Prod.mk.injEq, Option.some.injEq] at hstep
      obtain ⟨rfl, rfl⟩ := hstep
      exact fun schedule => h schedule
  | await perform torn failure rest =>
      have hverdict := meets_await h verdict
      cases verdict with
      | Go reached =>
          simp only [resolve] at hverdict
          simp only [step] at hstep
          cases hresult : perform reached s with
          | mk result world =>
              rw [hresult] at hverdict hstep
              cases result with
              | ok value =>
                  simp only [Prod.mk.injEq, Option.some.injEq] at hstep
                  obtain ⟨rfl, rfl⟩ := hstep
                  exact hverdict
              | error error =>
                  simp only [Prod.mk.injEq, Option.some.injEq] at hstep
                  obtain ⟨rfl, rfl⟩ := hstep
                  exact (meets_throw error).mpr hverdict
      | Fail taken reached =>
          simp only [step, Prod.mk.injEq, Option.some.injEq] at hstep
          obtain ⟨rfl, rfl⟩ := hstep
          exact (meets_throw failure).mpr hverdict
      | Drop taken reached => cases hstep
      | DropAfter reached => cases hstep

/-- What others see meets the stop condition after every step, since a script
could have been dropped there, and its own part changes nothing they see. -/
theorem shared_step {script : Script shared ε α} {left : Option (Script shared ε α)}
    {verdict : Verdict} {seen : δ → Prop}
    (h : Meets script.toOp ok (fun s => seen (shared s)) s) (hseen : seen (shared s))
    (hstep : script.step verdict s = (left, after)) : seen (shared after) := by
  cases script with
  | done result =>
      simp only [step, Prod.mk.injEq] at hstep
      exact hstep.2 ▸ hseen
  | own change keeps rest =>
      simp only [step, Prod.mk.injEq] at hstep
      rw [← hstep.2, keeps]
      exact hseen
  | await perform torn failure rest =>
      cases verdict with
      | Go reached =>
          have hdropped := meets_await h (.DropAfter reached)
          simp only [resolve] at hdropped
          have hafter : after = (perform reached s).2 := by
            simp only [step] at hstep
            split at hstep
            · rename_i hresult
              rw [hresult]
              exact (Prod.mk.inj hstep).2.symm
            · rename_i hresult
              rw [hresult]
              exact (Prod.mk.inj hstep).2.symm
          rw [hafter]
          exact hdropped
      | Fail taken reached =>
          have hfailed := meets_await h (.Fail taken reached)
          rw [← (Prod.mk.inj hstep).2]
          exact hfailed
      | Drop taken reached =>
          have hfailed := meets_await h (.Drop taken reached)
          rw [← (Prod.mk.inj hstep).2]
          exact hfailed
      | DropAfter reached =>
          have hfailed := meets_await h (.DropAfter reached)
          rw [← (Prod.mk.inj hstep).2]
          exact hfailed

end Script

end Interruptible
