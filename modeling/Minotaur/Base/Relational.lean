import Minotaur.Base.Future

/-!
Two runs side by side. `Together complete drop first second` holds of two
worlds from which both futures complete, with values and worlds in `complete`,
or both are dropped, in worlds in `drop`. The rules are those of `wp`, one pair
of steps at a time; `together_loop` runs two loops in lockstep.

`Commutes change future` is the case of one future that takes no notice of a
change of the world. It completes with the same value, or is dropped at the
same await, and the change comes out as it went in.
-/

def Outcome.mapWorld {σ α : Type*} (change : σ → σ) : Outcome σ α → Outcome σ α
  | .done value world => .done value (change world)
  | .dropped world => .dropped (change world)

namespace Future

universe u v
variable {σ : Type u} {α α' β β' : Type v}

def Together (complete : α → α' → σ → σ → Prop) (drop : σ → σ → Prop) (first : Future σ α)
    (second : Future σ α') (left right : σ) : Prop :=
  match first left, second right with
  | .done value left, .done value' right => complete value value' left right
  | .dropped left, .dropped right => drop left right
  | _, _ => False

section Rules

variable {drop : σ → σ → Prop} {left right : σ}

@[simp] theorem together_pure {complete : α → α' → σ → σ → Prop} (value : α) (value' : α') :
    Together complete drop (pure value : Future σ α) (pure value' : Future σ α') left right ↔
      complete value value' left right := Iff.rfl

@[simp] theorem together_get {complete : σ → σ → σ → σ → Prop} :
    Together complete drop (get : Future σ σ) (get : Future σ σ) left right ↔
      complete left right left right := Iff.rfl

@[simp] theorem together_modify {complete : PUnit → PUnit → σ → σ → Prop}
    (change change' : σ → σ) :
    Together complete drop (modify change) (modify change') left right ↔
      complete ⟨⟩ ⟨⟩ (change left) (change' right) := Iff.rfl

theorem together_bind {complete : β → β' → σ → σ → Prop} {first : Future σ α}
    {second : Future σ α'} {next : α → Future σ β} {next' : α' → Future σ β'}
    (h : Together (fun value value' => Together complete drop (next value) (next' value')) drop
      first second left right) :
    Together complete drop (first >>= next) (second >>= next') left right := by
  unfold Together at h
  split at h
  · rename_i value after value' after' hfirst hsecond
    unfold Together
    rw [bind_done hfirst, bind_done hsecond]
    exact h
  · rename_i after after' hfirst hsecond
    unfold Together
    rw [bind_dropped hfirst, bind_dropped hsecond]
    exact h
  · exact h.elim

theorem together_mono {complete complete' : α → α' → σ → σ → Prop} {drop' : σ → σ → Prop}
    {first : Future σ α} {second : Future σ α'}
    (h : Together complete drop first second left right)
    (hcomplete : ∀ value value' left right, complete value value' left right →
      complete' value value' left right)
    (hdrop : ∀ left right, drop left right → drop' left right) :
    Together complete' drop' first second left right := by
  unfold Together at h ⊢
  split at h
  · exact hcomplete _ _ _ _ h
  · exact hdrop _ _ h
  · exact h.elim

end Rules

/-- Both turns go round again, or both leave. -/
def Turn.LeaveTogether (again : β → β' → σ → σ → Prop) (exit : α → α' → σ → σ → Prop) :
    Turn β α → Turn β' α' → σ → σ → Prop
  | .again locals, .again locals' => again locals locals'
  | .exit value, .exit value' => exit value value'
  | _, _ => fun _ _ => False

theorem together_loop {measure : σ → Nat} {body : β → Future σ (Turn β α)}
    (hbody : Decreasing measure body) (inv : β → β → σ → σ → Prop)
    {complete : α → α → σ → σ → Prop} {drop : σ → σ → Prop}
    (hturn : ∀ locals locals' left right, inv locals locals' left right →
      Together (Turn.LeaveTogether inv complete) drop (body locals) (body locals') left right)
    {locals locals' : β} {left right : σ} (hinit : inv locals locals' left right) :
    Together complete drop (loop measure body locals) (loop measure body locals') left right := by
  induction hsize : measure left using Nat.strongRecOn generalizing locals locals' left right with
  | _ size ih =>
      have hrule := hturn locals locals' left right hinit
      rw [loop_eq hbody, loop_eq hbody]
      apply together_bind
      unfold Together at hrule ⊢
      cases hrun : body locals left with
      | dropped next =>
          cases hrun' : body locals' right with
          | dropped next' => simpa only [hrun, hrun'] using hrule
          | done turn next' => simp only [hrun, hrun'] at hrule
      | done turn next =>
          cases hrun' : body locals' right with
          | dropped next' => simp only [hrun, hrun'] at hrule
          | done turn' next' =>
              simp only [hrun, hrun'] at hrule ⊢
              cases turn with
              | exit value =>
                  cases turn' with
                  | exit value' => exact hrule
                  | again again' => exact hrule.elim
              | again again =>
                  cases turn' with
                  | exit value' => exact hrule.elim
                  | again again' =>
                      have hless := hbody locals left again next hrun
                      exact ih (measure next) (by omega) hrule rfl

/-! ### A change of the world -/

def Commutes (change : σ → σ) (future : Future σ α) : Prop :=
  ∀ world, future (change world) = (future world).mapWorld change

section Commutes

variable {change : σ → σ}

theorem commutes_pure (value : α) : Commutes change (pure value : Future σ α) := fun _ => rfl

theorem commutes_modify {op : σ → σ} (hop : ∀ world, op (change world) = change (op world)) :
    Commutes change (modify op) := by
  intro world
  unfold modify
  rw [hop]
  rfl

theorem commutes_bind {first : Future σ α} {next : α → Future σ β}
    (hfirst : Commutes change first) (hnext : ∀ value, Commutes change (next value)) :
    Commutes change (first >>= next) := by
  intro world
  have hchanged := hfirst world
  cases hrun : first world with
  | done value after =>
      rw [hrun] at hchanged
      rw [bind_done hrun, bind_done hchanged]
      exact hnext value after
  | dropped after =>
      rw [hrun] at hchanged
      rw [bind_dropped hrun, bind_dropped hchanged]
      rfl

/-- What is read of the world does not show the change. -/
theorem commutes_get {α : Type u} {next : σ → Future σ α}
    (hnext : ∀ world, next (change world) = next world)
    (hcommutes : ∀ world, Commutes change (next world)) : Commutes change (get >>= next) := by
  intro world
  have hrun : ∀ world, (get >>= next) world = next world world := fun _ => rfl
  rw [hrun, hrun, hnext]
  exact hcommutes world world

theorem commutes_iterate {body : β → Future σ (Turn β α)}
    (hbody : ∀ locals, Commutes change (body locals)) (turns : Nat) (locals : β) :
    Commutes change (iterate body turns locals) := by
  induction turns generalizing locals with
  | zero => exact fun _ => rfl
  | succ turns ih =>
      unfold iterate
      apply commutes_bind (hbody locals)
      intro turn
      cases turn with
      | again again => exact ih again
      | exit value => exact commutes_pure value

theorem commutes_loop {measure : σ → Nat} {body : β → Future σ (Turn β α)}
    (hmeasure : ∀ world, measure (change world) = measure world)
    (hbody : ∀ locals, Commutes change (body locals)) (locals : β) :
    Commutes change (loop measure body locals) := by
  intro world
  unfold loop
  rw [hmeasure]
  exact commutes_iterate hbody _ locals world

end Commutes

end Future
