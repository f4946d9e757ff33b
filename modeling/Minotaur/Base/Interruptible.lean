import Minotaur.Base.Future

/-!
Fallible operations that can be interrupted. The world is a state together
with a schedule, which says of each operation whether it completes, fails, or
is the one at which the owner drops the whole computation. `perform` is the
effect of a completed operation and `torn` what an operation that fails or is
dropped leaves behind; for an atomic operation that is the old state. The two
numbers of a verdict say how far a transfer came.

`Meets` quantifies over every schedule, so a proof about it has covered every
interruption point: `ok` is the postcondition of success, and `stop` has to
hold wherever the computation fails or is dropped.
-/

namespace Interruptible

universe u v
variable {σ ε : Type u} {α β : Type u}

inductive Verdict where
  | Go (reached : Nat)
  | Fail (taken reached : Nat)
  | Drop (taken reached : Nat)
  | DropAfter (reached : Nat)
deriving DecidableEq, Repr

structure World (σ : Type u) where
  state : σ
  schedule : List Verdict

abbrev Op (σ ε α : Type u) := ExceptT ε (Future (World σ)) α

/-- The state, read without suspending. -/
def state : Op σ ε σ := ExceptT.mk fun world => .done (.ok world.state) world

def update (change : σ → σ) : Op σ ε PUnit :=
  ExceptT.mk fun world => .done (.ok ⟨⟩) { world with state := change world.state }

def resolve (perform : Nat → σ → Except ε α × σ) (torn : Nat → Nat → σ → σ) (failure : ε)
    (world : World σ) : Verdict → Outcome (World σ) (Except ε α)
  | .Go reached =>
      .done (perform reached world.state).1
        { world with state := (perform reached world.state).2 }
  | .Fail taken reached =>
      .done (.error failure) { world with state := torn taken reached world.state }
  | .Drop taken reached => .dropped { world with state := torn taken reached world.state }
  | .DropAfter reached => .dropped { world with state := (perform reached world.state).2 }

def operation (perform : Nat → σ → Except ε α × σ) (torn : Nat → Nat → σ → σ) (failure : ε) :
    Op σ ε α := ExceptT.mk fun world =>
  resolve perform torn failure { world with schedule := world.schedule.tail }
    (world.schedule.headD (.Go 0))

/-- An operation that has happened or not. -/
def atomic (perform : σ → Except ε α × σ) (failure : ε) : Op σ ε α :=
  operation (fun _ => perform) (fun _ _ state => state) failure

def Meets (op : Op σ ε α) (ok : α → σ → Prop) (stop : σ → Prop) (state : σ) : Prop :=
  ∀ schedule, Future.wp op.run
    (fun result world => match result with
      | .ok value => ok value world.state
      | .error _ => stop world.state)
    (fun world => stop world.state) ⟨state, schedule⟩

section Rules

variable {ok : α → σ → Prop} {stop : σ → Prop} {s : σ}

@[simp] theorem meets_pure (value : α) :
    Meets (pure value : Op σ ε α) ok stop s ↔ ok value s :=
  ⟨fun h => h [], fun h _ => h⟩

@[simp] theorem meets_throw (error : ε) :
    Meets (throw error : Op σ ε α) ok stop s ↔ stop s :=
  ⟨fun h => h [], fun h _ => h⟩

@[simp] theorem meets_state {ok : σ → σ → Prop} :
    Meets (state : Op σ ε σ) ok stop s ↔ ok s s :=
  ⟨fun h => h [], fun h _ => h⟩

@[simp] theorem meets_update {ok : PUnit → σ → Prop} (change : σ → σ) :
    Meets (update change : Op σ ε PUnit) ok stop s ↔ ok ⟨⟩ (change s) :=
  ⟨fun h => h [], fun h _ => h⟩

/-- The first part establishes what the second needs, wherever it leaves the
schedule. -/
theorem meets_bind {ok : β → σ → Prop} {first : Op σ ε α} {next : α → Op σ ε β}
    (hfirst : Meets first (fun value => Meets (next value) ok stop) stop s) :
    Meets (first >>= next) ok stop s := by
  intro schedule
  rw [ExceptT.run_bind, Future.wp_bind]
  apply Future.wp_weaken (hfirst schedule)
  intro result world hresult
  cases result with
  | ok value => exact hresult world.schedule
  | error error => exact hresult

theorem meets_mono {op : Op σ ε α} {ok' : α → σ → Prop} {stop' : σ → Prop}
    (hop : Meets op ok stop s) (hok : ∀ value state, ok value state → ok' value state)
    (hstop : ∀ state, stop state → stop' state) : Meets op ok' stop' s := by
  intro schedule
  refine Future.wp_mono (hop schedule) ?_ (fun _ h => hstop _ h)
  intro result world hresult
  cases result with
  | ok value => exact hok value world.state hresult
  | error error => exact hstop world.state hresult

theorem meets_operation {perform : Nat → σ → Except ε α × σ} {torn : Nat → Nat → σ → σ}
    {failure : ε}
    (hperform : ∀ reached, stop (perform reached s).2 ∧
      ∀ value, (perform reached s).1 = .ok value → ok value (perform reached s).2)
    (htorn : ∀ taken reached, stop (torn taken reached s)) :
    Meets (operation perform torn failure) ok stop s := by
  intro schedule
  have hrun : (operation perform torn failure).run ⟨s, schedule⟩ =
      resolve perform torn failure ⟨s, schedule.tail⟩ (schedule.headD (.Go 0)) := rfl
  unfold Future.wp
  rw [hrun]
  cases schedule.headD (.Go 0) with
  | Go reached =>
      obtain ⟨hstop, hok⟩ := hperform reached
      simp only [resolve]
      cases hresult : (perform reached s).1 with
      | ok value => exact hok value hresult
      | error error => exact hstop
  | Fail taken reached => exact htorn taken reached
  | Drop taken reached => exact htorn taken reached
  | DropAfter reached => exact (hperform reached).1

theorem meets_atomic {perform : σ → Except ε α × σ} {failure : ε} (hbefore : stop s)
    (hafter : stop (perform s).2)
    (hok : ∀ value, (perform s).1 = .ok value → ok value (perform s).2) :
    Meets (atomic perform failure) ok stop s :=
  meets_operation (fun _ => ⟨hafter, hok⟩) (fun _ _ => hbefore)

/-- Whatever happens, success included. -/
theorem meets_world {op : Op σ ε α} {post : σ → Prop} (hop : Meets op (fun _ => post) post s)
    (schedule : List Verdict) : post (op.run ⟨s, schedule⟩).world.state := by
  have hwp := hop schedule
  unfold Future.wp at hwp
  cases hrun : op.run ⟨s, schedule⟩ with
  | dropped world => rw [hrun] at hwp; exact hwp
  | done result world =>
      rw [hrun] at hwp
      cases result with
      | ok value => exact hwp
      | error error => exact hwp

theorem meets_done {op : Op σ ε α} (hop : Meets op ok stop s) {schedule : List Verdict}
    {value : α} {world : World σ} (hrun : op.run ⟨s, schedule⟩ = .done (.ok value) world) :
    ok value world.state := by
  have hwp := Future.wp_done (hop schedule) hrun
  exact hwp

/-- Two specifications of one operation hold together. -/
theorem meets_and {op : Op σ ε α} {ok' : α → σ → Prop} {stop' : σ → Prop}
    (hop : Meets op ok stop s) (hop' : Meets op ok' stop' s) :
    Meets op (fun value state => ok value state ∧ ok' value state)
      (fun state => stop state ∧ stop' state) s := by
  intro schedule
  have hwp := hop schedule
  have hwp' := hop' schedule
  unfold Future.wp at hwp hwp' ⊢
  cases hrun : op.run ⟨s, schedule⟩ with
  | dropped world =>
      rw [hrun] at hwp hwp'
      exact ⟨hwp, hwp'⟩
  | done result world =>
      rw [hrun] at hwp hwp'
      cases result with
      | ok value => exact ⟨hwp, hwp'⟩
      | error error => exact ⟨hwp, hwp'⟩

theorem meets_stop {op : Op σ ε α} (hop : Meets op ok stop s) {schedule : List Verdict}
    (hrun : ∀ value world, op.run ⟨s, schedule⟩ ≠ .done (.ok value) world) :
    stop (op.run ⟨s, schedule⟩).world.state := by
  have hwp := hop schedule
  unfold Future.wp at hwp
  cases hdone : op.run ⟨s, schedule⟩ with
  | dropped world =>
      rw [hdone] at hwp
      exact hwp
  | done result world =>
      rw [hdone] at hwp
      cases result with
      | ok value => exact absurd hdone (hrun value world)
      | error error => exact hwp

end Rules

/-! ### Part of a state -/

section Focus

variable {τ : Type u}

/-- An operation on a part of the state; the schedule is shared. -/
def focus (get : τ → σ) (set : σ → τ → τ) (op : Op σ ε α) : Op τ ε α :=
  ExceptT.mk fun world =>
    match op.run ⟨get world.state, world.schedule⟩ with
    | .done result inner => .done result ⟨set inner.state world.state, inner.schedule⟩
    | .dropped inner => .dropped ⟨set inner.state world.state, inner.schedule⟩

theorem meets_focus {get : τ → σ} {set : σ → τ → τ} {op : Op σ ε α} {ok : α → τ → Prop}
    {stop : τ → Prop} {s : τ}
    (hop : Meets op (fun value inner => ok value (set inner s)) (fun inner => stop (set inner s))
      (get s)) : Meets (focus get set op) ok stop s := by
  intro schedule
  have hwp := hop schedule
  have hrun : (focus get set op).run ⟨s, schedule⟩ =
      match op.run ⟨get s, schedule⟩ with
      | .done result inner => .done result ⟨set inner.state s, inner.schedule⟩
      | .dropped inner => .dropped ⟨set inner.state s, inner.schedule⟩ := rfl
  unfold Future.wp at hwp ⊢
  rw [hrun]
  cases hinner : op.run ⟨get s, schedule⟩ with
  | dropped inner =>
      rw [hinner] at hwp
      exact hwp
  | done result inner =>
      rw [hinner] at hwp
      cases result with
      | ok value => exact hwp
      | error error => exact hwp

end Focus

end Interruptible
