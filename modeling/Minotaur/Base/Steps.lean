import Mathlib.Data.List.Induction
import Mathlib.Tactic.Common

/-!
Executable labelled transitions. A system is a function `step` that performs
one label in one state, or refuses it. Everything nondeterministic about the
system is in the labels, so a run is a list of labels and every interleaving
of the parties is one such list. The rules below are the only inductions over
runs: an invariant of a step is an invariant of a run, and an invariant that
also speaks about the labels performed so far extends one label at a time.
-/

namespace Steps

variable {σ ι : Type*}

/-- Performs the labels in order; `none` when one of them is refused. -/
def run (step : σ → ι → Option σ) : σ → List ι → Option σ
  | state, [] => some state
  | state, label :: rest => (step state label).bind (fun next => run step next rest)

@[simp] theorem run_nil (step : σ → ι → Option σ) (state : σ) :
    run step state [] = some state := rfl

theorem run_cons (step : σ → ι → Option σ) (state : σ) (label : ι) (rest : List ι) :
    run step state (label :: rest) =
      (step state label).bind (fun next => run step next rest) := rfl

theorem run_append (step : σ → ι → Option σ) (state : σ) (first second : List ι) :
    run step state (first ++ second) =
      (run step state first).bind (fun next => run step next second) := by
  induction first generalizing state with
  | nil => rfl
  | cons label rest ih =>
      simp only [List.cons_append, run_cons]
      cases step state label with
      | none => rfl
      | some next => exact ih next

/-- A run that ends in one more label: the prefix runs, then the last label
is performed in the state the prefix reaches. -/
theorem run_concat_eq_some {step : σ → ι → Option σ} {state final : σ}
    {labels : List ι} {label : ι}
    (hrun : run step state (labels ++ [label]) = some final) :
    ∃ middle, run step state labels = some middle ∧ step middle label = some final := by
  rw [run_append] at hrun
  obtain ⟨middle, hbegins, hlast⟩ := Option.bind_eq_some_iff.mp hrun
  refine ⟨middle, hbegins, ?_⟩
  simpa [run_cons] using hlast

/-- A map of states and labels that every step respects, every run respects. -/
theorem run_map {σ' ι' : Type*} {step : σ → ι → Option σ} {step' : σ' → ι' → Option σ'}
    {view : σ → σ'} {translate : ι → ι'}
    (hstep : ∀ state label, step' (view state) (translate label) = (step state label).map view)
    (state : σ) (labels : List ι) :
    run step' (view state) (labels.map translate) = (run step state labels).map view := by
  induction labels generalizing state with
  | nil => rfl
  | cons label rest ih =>
      rw [List.map_cons, run_cons, run_cons, hstep]
      cases step state label with
      | none => rfl
      | some next => exact ih next

/-- The same where the names fit only under an invariant. -/
theorem run_map_of {σ' ι' : Type*} {step : σ → ι → Option σ} {step' : σ' → ι' → Option σ'}
    {view : σ → σ'} {translate : ι → ι'} {inv : σ → Prop}
    (hinv : ∀ state label next, inv state → step state label = some next → inv next)
    (hstep : ∀ state label, inv state →
      step' (view state) (translate label) = (step state label).map view)
    {state : σ} (hinit : inv state) (labels : List ι) :
    run step' (view state) (labels.map translate) = (run step state labels).map view := by
  induction labels generalizing state with
  | nil => rfl
  | cons label rest ih =>
      rw [List.map_cons, run_cons, run_cons, hstep state label hinit]
      cases hnext : step state label with
      | none => rfl
      | some next => exact ih (hinv state label next hinit hnext)

/-- A system whose steps are steps of another one, under the other names. -/
theorem run_translates {σ' ι' : Type*} {step : σ → ι → Option σ} {step' : σ' → ι' → Option σ'}
    {view : σ → σ'} {translate : ι → ι'}
    (hstep : ∀ state label next, step state label = some next →
      step' (view state) (translate label) = some (view next))
    {labels : List ι} {state final : σ} (hrun : run step state labels = some final) :
    run step' (view state) (labels.map translate) = some (view final) := by
  induction labels generalizing state with
  | nil =>
      simp only [run_nil, Option.some.injEq] at hrun
      exact hrun ▸ rfl
  | cons label rest ih =>
      obtain ⟨next, hnext, hrest⟩ := Option.bind_eq_some_iff.mp hrun
      rw [List.map_cons, run_cons, hstep state label next hnext]
      exact ih hrest

/-- If every step of a system shows as steps of another one, so does every
run. -/
theorem run_refines {σ' ι' : Type*} {step : σ → ι → Option σ} {step' : σ' → ι' → Option σ'}
    {view : σ → σ'}
    (hstep : ∀ state label next, step state label = some next →
      ∃ seen, run step' (view state) seen = some (view next))
    {labels : List ι} {state final : σ} (hrun : run step state labels = some final) :
    ∃ seen, run step' (view state) seen = some (view final) := by
  induction labels generalizing state with
  | nil =>
      simp only [run_nil, Option.some.injEq] at hrun
      exact ⟨[], hrun ▸ rfl⟩
  | cons label rest ih =>
      obtain ⟨next, hnext, hrest⟩ := Option.bind_eq_some_iff.mp hrun
      obtain ⟨first, hfirst⟩ := hstep state label next hnext
      obtain ⟨second, hsecond⟩ := ih hrest
      refine ⟨first ++ second, ?_⟩
      rw [run_append, hfirst]
      exact hsecond

/-- What every step with an allowed label preserves holds after every run of
such steps. -/
theorem run_invariant_of {step : σ → ι → Option σ} {inv : σ → Prop} {allowed : ι → Prop}
    (hstep : ∀ state label next, allowed label → inv state → step state label = some next →
      inv next)
    {labels : List ι} (hallowed : ∀ label ∈ labels, allowed label) {state final : σ}
    (hinit : inv state) (hrun : run step state labels = some final) : inv final := by
  induction labels generalizing state with
  | nil =>
      simp only [run_nil, Option.some.injEq] at hrun
      exact hrun ▸ hinit
  | cons label rest ih =>
      obtain ⟨hlabel, hothers⟩ := List.forall_mem_cons.mp hallowed
      obtain ⟨next, hnext, hrest⟩ := Option.bind_eq_some_iff.mp hrun
      exact ih hothers (hstep state label next hlabel hinit hnext) hrest

theorem run_invariant {step : σ → ι → Option σ} {inv : σ → Prop}
    (hstep : ∀ state label next, inv state → step state label = some next → inv next)
    {labels : List ι} {state final : σ} (hinit : inv state)
    (hrun : run step state labels = some final) : inv final :=
  run_invariant_of (fun state label next (_ : True) => hstep state label next)
    (fun _ _ => trivial) hinit hrun

/-- The same with the labels performed so far in the invariant. -/
theorem run_history {step : σ → ι → Option σ} {inv : List ι → σ → Prop} {state : σ}
    (hinit : inv [] state)
    (hstep : ∀ labels label middle next, inv labels middle →
      step middle label = some next → inv (labels ++ [label]) next)
    {labels : List ι} {final : σ} (hrun : run step state labels = some final) :
    inv labels final := by
  induction labels using List.reverseRecOn generalizing final with
  | nil =>
      simp only [run_nil, Option.some.injEq] at hrun
      exact hrun ▸ hinit
  | append_singleton labels label ih =>
      obtain ⟨middle, hbegins, hlast⟩ := run_concat_eq_some hrun
      exact hstep labels label middle final (ih hbegins) hlast

/-- Every step of the run is taken in a state that allows its label. -/
def Always (step : σ → ι → Option σ) (allowed : σ → ι → Prop) : σ → List ι → Prop
  | _, [] => True
  | state, label :: rest =>
      allowed state label ∧ ∀ next, step state label = some next → Always step allowed next rest

theorem always_append {step : σ → ι → Option σ} {allowed : σ → ι → Prop} {state middle : σ}
    {first second : List ι} (hrun : run step state first = some middle) :
    Always step allowed state (first ++ second) ↔
      Always step allowed state first ∧ Always step allowed middle second := by
  induction first generalizing state with
  | nil =>
      simp only [run_nil, Option.some.injEq] at hrun
      simp [Always, hrun]
  | cons label rest ih =>
      obtain ⟨next, hnext, hrest⟩ := Option.bind_eq_some_iff.mp hrun
      simp only [List.cons_append, Always, hnext, Option.some.injEq, forall_eq', ih hrest,
        and_assoc]

theorem always_singleton {step : σ → ι → Option σ} {allowed : σ → ι → Prop} {state : σ}
    {label : ι} : Always step allowed state [label] ↔ allowed state label := by
  simp [Always]

/-- Wherever a run is cut, the next label is allowed. -/
theorem always_iff_cut {step : σ → ι → Option σ} {allowed : σ → ι → Prop} {state final : σ}
    {labels : List ι} (hrun : run step state labels = some final) :
    Always step allowed state labels ↔ ∀ before label after middle,
      labels = before ++ label :: after → run step state before = some middle →
        allowed middle label := by
  constructor
  · rintro halways before label after middle rfl hbefore
    exact ((always_append hbefore).mp halways).2.1
  · intro hcut
    induction labels using List.reverseRecOn generalizing final with
    | nil => trivial
    | append_singleton labels label ih =>
        obtain ⟨middle, hbegins, _⟩ := run_concat_eq_some hrun
        rw [always_append hbegins, always_singleton]
        refine ⟨ih hbegins ?_, hcut labels label [] middle rfl hbegins⟩
        rintro before other after earlier rfl hbefore
        exact hcut before other (after ++ [label]) earlier (by simp) hbefore

instance decidableAlways (step : σ → ι → Option σ) (allowed : σ → ι → Prop)
    [∀ state label, Decidable (allowed state label)] :
    ∀ state labels, Decidable (Always step allowed state labels)
  | _, [] => isTrue trivial
  | state, label :: rest =>
      haveI := fun next => decidableAlways step allowed next rest
      inferInstanceAs (Decidable (allowed state label ∧
        ∀ next, next ∈ step state label → Always step allowed next rest))

/-- What every allowed step preserves holds after a run of allowed steps. -/
theorem run_invariant_always {step : σ → ι → Option σ} {inv : σ → Prop}
    {allowed : σ → ι → Prop}
    (hstep : ∀ state label next, allowed state label → inv state →
      step state label = some next → inv next)
    {labels : List ι} {state final : σ} (halways : Always step allowed state labels)
    (hinit : inv state) (hrun : run step state labels = some final) : inv final := by
  induction labels generalizing state with
  | nil =>
      simp only [run_nil, Option.some.injEq] at hrun
      exact hrun ▸ hinit
  | cons label rest ih =>
      obtain ⟨next, hnext, hrest⟩ := Option.bind_eq_some_iff.mp hrun
      exact ih (halways.2 next hnext) (hstep state label next halways.1 hinit hnext) hrest

/-! ### Termination -/

/-- A measure that every counted step lowers and no other step raises bounds
the counted steps of a run. -/
theorem run_measure {step : σ → ι → Option σ} {inv : σ → Prop} {counts : ι → Bool}
    {measure : σ → Nat}
    (hinv : ∀ state label next, inv state → step state label = some next → inv next)
    (hcounted : ∀ state label next, inv state → counts label = true →
      step state label = some next → measure next < measure state)
    (hother : ∀ state label next, inv state → counts label = false →
      step state label = some next → measure next ≤ measure state)
    {labels : List ι} {state final : σ} (hinit : inv state)
    (hrun : run step state labels = some final) :
    labels.countP counts + measure final ≤ measure state := by
  induction labels generalizing state with
  | nil =>
      simp only [run_nil, Option.some.injEq] at hrun
      subst hrun
      exact Nat.le_of_eq (Nat.zero_add _)
  | cons label rest ih =>
      obtain ⟨next, hnext, hrest⟩ := Option.bind_eq_some_iff.mp hrun
      have hbound := ih (hinv state label next hinit hnext) hrest
      rw [List.countP_cons]
      cases hcounts : counts label with
      | true =>
          have hless := hcounted state label next hinit hcounts hnext
          simp only [if_true]
          omega
      | false =>
          have hle := hother state label next hinit hcounts hnext
          simp only [Bool.false_eq_true, if_false]
          omega

/-- Where a step that lowers the measure is possible until the goal, the goal
is reached. -/
theorem exists_run_to {step : σ → ι → Option σ} {inv goal : σ → Prop} {allowed : ι → Prop}
    {measure : σ → Nat}
    (hprogress : ∀ state, inv state → goal state ∨ ∃ label next, allowed label ∧
      step state label = some next ∧ inv next ∧ measure next < measure state)
    {state : σ} (hinit : inv state) :
    ∃ labels final, (∀ label ∈ labels, allowed label) ∧ run step state labels = some final ∧
      goal final := by
  induction hmeasure : measure state using Nat.strongRecOn generalizing state with
  | ind bound ih =>
      obtain hgoal | ⟨label, next, hlabel, hnext, hinv, hless⟩ := hprogress state hinit
      · exact ⟨[], state, List.forall_mem_nil _, rfl, hgoal⟩
      · obtain ⟨labels, final, hlabels, hrun, hgoal⟩ := ih _ (hmeasure ▸ hless) hinv rfl
        refine ⟨label :: labels, final, List.forall_mem_cons.mpr ⟨hlabel, hlabels⟩, ?_, hgoal⟩
        rw [run_cons, hnext]
        exact hrun

end Steps
