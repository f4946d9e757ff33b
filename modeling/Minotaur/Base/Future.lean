import Mathlib.Tactic.Common

/-!
Futures that can be dropped. A future is driven against a world `σ` until it
completes, unless its owner drops it while it is suspended at an await. What
it did to the world before that point stays done; what it held in its own
frame is gone. The weakest precondition below therefore has two
postconditions, one for completion and one for the world a drop leaves behind.

`loop` is the unbounded loop of the host language. Its measure only bounds
the number of turns the definition is unrolled; `loop_eq` gives the recursion
equation of the loop itself whenever each turn that goes round again lowers
the measure, and `wp_loop` is the invariant rule.
-/

inductive Outcome (σ α : Type*) where
  | done (value : α) (world : σ)
  | dropped (world : σ)

/-- The world left behind, whichever way the future ended. -/
def Outcome.world {σ α : Type*} : Outcome σ α → σ
  | .done _ world => world
  | .dropped world => world

@[simp] theorem Outcome.world_done {σ α : Type*} (value : α) (world : σ) :
    (Outcome.done value world).world = world := rfl

@[simp] theorem Outcome.world_dropped {σ α : Type*} (world : σ) :
    (Outcome.dropped world : Outcome σ α).world = world := rfl

def Future (σ α : Type*) := σ → Outcome σ α

namespace Future

universe u v
variable {σ : Type u} {α β γ : Type v}

protected def pure (value : α) : Future σ α := fun world => .done value world

protected def bind (first : Future σ α) (next : α → Future σ β) : Future σ β := fun world =>
  match first world with
  | .done value world => next value world
  | .dropped world => .dropped world

instance : Monad (Future σ) where
  pure := Future.pure
  bind := Future.bind

/-- Reads the world without suspending. -/
def get : Future σ σ := fun world => .done world world

/-- Changes the world without suspending. -/
def modify (change : σ → σ) : Future σ PUnit := fun world => .done ⟨⟩ (change world)

/-- `wp future complete drop` holds of the worlds from which `future` either
completes with a value and a world in `complete`, or is dropped in a world in
`drop`. -/
def wp (future : Future σ α) (complete : α → σ → Prop) (drop : σ → Prop) (world : σ) : Prop :=
  match future world with
  | .done value world => complete value world
  | .dropped world => drop world

section Rules

variable {complete : α → σ → Prop} {drop : σ → Prop} {world : σ}

@[simp] theorem wp_pure (value : α) :
    wp (pure value : Future σ α) complete drop world ↔ complete value world := Iff.rfl

@[simp] theorem wp_bind {complete : β → σ → Prop} (first : Future σ α)
    (next : α → Future σ β) :
    wp (first >>= next) complete drop world ↔
      wp first (fun value => wp (next value) complete drop) drop world := by
  change wp (Future.bind first next) complete drop world ↔ _
  unfold wp Future.bind
  cases first world <;> rfl

@[simp] theorem wp_get {complete : σ → σ → Prop} :
    wp (get : Future σ σ) complete drop world ↔ complete world world := Iff.rfl

@[simp] theorem wp_modify {complete : PUnit → σ → Prop} (change : σ → σ) :
    wp (modify change) complete drop world ↔ complete ⟨⟩ (change world) := Iff.rfl

theorem wp_mono {future : Future σ α} {complete' : α → σ → Prop} {drop' : σ → Prop}
    (hwp : wp future complete drop world)
    (hcomplete : ∀ value world, complete value world → complete' value world)
    (hdrop : ∀ world, drop world → drop' world) :
    wp future complete' drop' world := by
  unfold wp at hwp ⊢
  cases hrun : future world with
  | done value next => rw [hrun] at hwp; exact hcomplete value next hwp
  | dropped next => rw [hrun] at hwp; exact hdrop next hwp

theorem wp_weaken {future : Future σ α} {complete' : α → σ → Prop}
    (hwp : wp future complete drop world)
    (hcomplete : ∀ value world, complete value world → complete' value world) :
    wp future complete' drop world :=
  wp_mono hwp hcomplete (fun _ hdrop => hdrop)

/-- A postcondition that does not care how the future ended. -/
theorem wp_world {future : Future σ α} {post : σ → Prop}
    (hwp : wp future (fun _ => post) post world) : post (future world).world := by
  unfold wp at hwp
  cases hrun : future world with
  | done value next => rw [hrun] at hwp; exact hwp
  | dropped next => rw [hrun] at hwp; exact hwp

/-- A future that is never dropped completes. -/
theorem wp_completes {future : Future σ α} (hwp : wp future complete (fun _ => False) world) :
    ∃ value next, future world = .done value next ∧ complete value next := by
  unfold wp at hwp
  cases hrun : future world with
  | done value next => rw [hrun] at hwp; exact ⟨value, next, rfl, hwp⟩
  | dropped next => rw [hrun] at hwp; exact hwp.elim

theorem wp_done {future : Future σ α} {value : α} {next : σ}
    (hwp : wp future complete drop world) (hrun : future world = .done value next) :
    complete value next := by
  unfold wp at hwp
  rw [hrun] at hwp
  exact hwp

theorem wp_dropped {future : Future σ α} {next : σ} (hwp : wp future complete drop world)
    (hrun : future world = .dropped next) : drop next := by
  unfold wp at hwp
  rw [hrun] at hwp
  exact hwp

end Rules

theorem bind_done {first : Future σ α} {value : α} {world next : σ}
    (hrun : first world = .done value next) (rest : α → Future σ β) :
    (first >>= rest) world = rest value next := by
  change Future.bind first rest world = _
  simp only [Future.bind, hrun]

theorem bind_dropped {first : Future σ α} {world next : σ}
    (hrun : first world = .dropped next) (rest : α → Future σ β) :
    (first >>= rest) world = .dropped next := by
  change Future.bind first rest world = _
  simp only [Future.bind, hrun]

/-! ### Loops -/

/-- How one turn of a loop body ends: `continue` with new loop-carried
locals, or leave the loop. -/
inductive Turn (β α : Type*) where
  | again (locals : β)
  | exit (value : α)

/-- What a turn leaves behind, by how it ended. -/
def Turn.Leaves (again : β → σ → Prop) (exit : α → σ → Prop) : Turn β α → σ → Prop
  | .again locals => again locals
  | .exit value => exit value

def iterate (body : β → Future σ (Turn β α)) : Nat → β → Future σ α
  | 0, _ => fun world => .dropped world
  | turns + 1, locals => do
      match ← body locals with
      | .again locals => iterate body turns locals
      | .exit value => pure value

/-- `loop { body }` for a body whose further turns each lower `measure`. -/
def loop (measure : σ → Nat) (body : β → Future σ (Turn β α)) (locals : β) : Future σ α :=
  fun world => iterate body (measure world + 1) locals world

/-- Every turn that goes round again leaves a smaller measure. -/
def Decreasing (measure : σ → Nat) (body : β → Future σ (Turn β α)) : Prop :=
  ∀ locals world again next, body locals world = .done (.again again) next →
    measure next < measure world

theorem decreasing_of_wp {measure : σ → Nat} {body : β → Future σ (Turn β α)}
    (hbody : ∀ locals world, wp (body locals)
      (Turn.Leaves (fun _ next => measure next < measure world) (fun _ _ => True))
      (fun _ => True) world) : Decreasing measure body := by
  intro locals world again next hrun
  have hless := wp_done (hbody locals world) hrun
  exact hless

theorem iterate_eq_of_measure_lt {measure : σ → Nat} {body : β → Future σ (Turn β α)}
    (hbody : Decreasing measure body) (first second : Nat) (locals : β) (world : σ)
    (hfirst : measure world < first) (hsecond : measure world < second) :
    iterate body first locals world = iterate body second locals world := by
  induction first generalizing second locals world with
  | zero => omega
  | succ first ih =>
      obtain ⟨second, rfl⟩ : ∃ n, second = n + 1 := ⟨second - 1, by omega⟩
      simp only [iterate]
      cases hrun : body locals world with
      | dropped next => rw [bind_dropped hrun, bind_dropped hrun]
      | done turn next =>
          rw [bind_done hrun, bind_done hrun]
          cases turn with
          | exit value => rfl
          | again again =>
              have hless := hbody locals world again next hrun
              exact ih second again next (by omega) (by omega)

/-- The recursion equation of the loop: run the body, then go round again or
leave. No trace of the measure is left. -/
theorem loop_eq {measure : σ → Nat} {body : β → Future σ (Turn β α)}
    (hbody : Decreasing measure body) (locals : β) :
    loop measure body locals = (do
      match ← body locals with
      | .again locals => loop measure body locals
      | .exit value => pure value) := by
  funext world
  simp only [loop, iterate]
  cases hrun : body locals world with
  | dropped next => rw [bind_dropped hrun, bind_dropped hrun]
  | done turn next =>
      rw [bind_done hrun, bind_done hrun]
      cases turn with
      | exit value => rfl
      | again again =>
          have hless := hbody locals world again next hrun
          exact iterate_eq_of_measure_lt hbody _ _ _ _ hless (Nat.lt_succ_self _)

/-- Invariant rule. Each turn re-establishes `inv` or leaves with the
postcondition; termination comes from the measure. -/
theorem wp_loop {measure : σ → Nat} {body : β → Future σ (Turn β α)}
    (hbody : Decreasing measure body) (inv : β → σ → Prop)
    {complete : α → σ → Prop} {drop : σ → Prop}
    (hturn : ∀ locals world, inv locals world →
      wp (body locals) (Turn.Leaves inv complete) drop world)
    {locals : β} {world : σ} (hinit : inv locals world) :
    wp (loop measure body locals) complete drop world := by
  induction hsize : measure world using Nat.strongRecOn generalizing locals world with
  | _ size ih =>
      have hrule := hturn locals world hinit
      rw [loop_eq hbody, wp_bind]
      unfold wp at hrule ⊢
      cases hrun : body locals world with
      | dropped next => simpa only [hrun] using hrule
      | done turn next =>
          simp only [hrun] at hrule ⊢
          cases turn with
          | exit value => exact hrule
          | again again =>
              have hless := hbody locals world again next hrun
              exact ih (measure next) (by omega) hrule rfl

/-- The locals and the world at the head of some turn of the loop. -/
inductive Reaches (body : β → Future σ (Turn β α)) (locals : β) (world : σ) : β → σ → Prop
  | start : Reaches body locals world locals world
  | again {locals' next : β} {world' after : σ} (hreaches : Reaches body locals world locals' world')
      (hrun : body locals' world' = .done (.again next) after) : Reaches body locals world next after

theorem reaches_invariant {body : β → Future σ (Turn β α)} (inv : β → σ → Prop)
    (hturn : ∀ locals world, inv locals world →
      wp (body locals) (Turn.Leaves inv fun _ _ => True) (fun _ => True) world)
    {locals next : β} {world after : σ} (hreaches : Reaches body locals world next after)
    (hinit : inv locals world) : inv next after := by
  induction hreaches with
  | start => exact hinit
  | again _ hrun ih =>
      have hleaves := wp_done (hturn _ _ ih) hrun
      exact hleaves

end Future
