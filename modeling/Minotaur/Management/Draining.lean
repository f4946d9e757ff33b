import Minotaur.Management.Moves

/-!
How much `serve` still has to do once the token is cancelled. Every step of it
or of a handler lowers `remaining`, and while it is not over one of them can go
on to its end.
-/

namespace Minotaur

open Ledger (total total_append total_set_lt)

def HandlerPhase.remaining : HandlerPhase → Nat
  | .Spawned => 2
  | .Active => 1
  | .Ended | .Panicked => 0

theorem HandlerPhase.remaining_pos {phase : HandlerPhase} (hphase : phase.finished = false) :
    0 < phase.remaining := by
  cases phase with
  | Ended | Panicked => cases hphase
  | Spawned | Active => simp [HandlerPhase.remaining]

def HandlerTask.remaining (task : HandlerTask) : Nat :=
  task.phase.remaining + if task.joined then 0 else 1

/-- `serve` may still spawn a handler when it has not seen the token yet. -/
def ServePhase.remaining : ServePhase → Nat
  | .Joining => 8
  | .Accepting => 7
  | .Accepted => 6
  | .Selecting => 2
  | .Draining _ => 1
  | .Returned _ | .Crashed => 0

theorem ServePhase.remaining_pos {phase : ServePhase} (hphase : phase.over = false) :
    0 < phase.remaining := by
  cases phase with
  | Returned | Crashed => cases hphase
  | Selecting | Joining | Accepting | Accepted | Draining => simp [ServePhase.remaining]

def ServeState.remaining (state : ServeState) : Nat :=
  state.phase.remaining + total HandlerTask.remaining state.tasks

/-- A step to the end: no failure, no new connection, no expired deadline. -/
def ServeLabel.draining : ServeLabel → Bool
  | .accept | .acceptFailed | .crash | .panicTask _ | .abortTask _ => false
  | .endTask _ reason => reason ≠ .DeadlineExceeded
  | _ => true

namespace ServeState

variable {state next : ServeState} {label : ServeLabel} {token : Bool}

theorem remaining_of_setPhase {phase : ServePhase}
    (hless : phase.remaining < state.phase.remaining) :
    (state.setPhase phase).remaining < state.remaining :=
  Nat.add_lt_add_right hless _

theorem remaining_of_setTask {index : Nat} {task after : HandlerTask}
    (htask : state.tasks[index]? = some task) (hless : after.remaining < task.remaining) :
    (state.setTask index after).remaining < state.remaining :=
  Nat.add_lt_add_left (total_set_lt htask hless) _

/-- A join is one step of the handler and at most none of the loop. -/
theorem remaining_of_join {index : Nat} {task : HandlerTask} {phase : ServePhase}
    (htask : state.joinable index = some task)
    (hphase : phase.remaining ≤ state.phase.remaining) :
    ((state.setTask index { task with joined := true }).setPhase phase).remaining <
      state.remaining := by
  obtain ⟨hindex, hnot, _⟩ := joinable_eq_some htask
  refine Nat.add_lt_add_of_le_of_lt hphase (total_set_lt hindex ?_)
  simp [HandlerTask.remaining, hnot]

theorem remaining_of_endTask {index : Nat} {task : HandlerTask}
    (htask : state.tasks[index]? = some task) (hrunning : task.phase.finished = false)
    {phase : HandlerPhase} (hphase : phase.remaining = 0) :
    (state.endTask index task phase).remaining < state.remaining := by
  have hless : ({ task with phase := phase } : HandlerTask).remaining < task.remaining := by
    have hpositive := HandlerPhase.remaining_pos hrunning
    simp only [HandlerTask.remaining, hphase]
    omega
  unfold endTask
  split_ifs with hactive
  · have hguard : (state.addActive (-1)).remaining = state.remaining := rfl
    rw [← hguard]
    exact remaining_of_setTask htask hless
  · exact remaining_of_setTask htask hless

theorem ServeMove.remaining (hmove : ServeMove state true label next token) :
    next.remaining < state.remaining := by
  cases hmove with
  | cancelled hphase _ | joinPending hphase | accept hphase | acceptFailed hphase
  | acceptPending hphase | reject hphase _ =>
      refine remaining_of_setPhase ?_
      simp [ServeState.reject, hphase, ServePhase.remaining]
  | finish hphase _ =>
      refine remaining_of_setPhase ?_
      simp [hphase, ServePhase.remaining]
  | poll _ hrunning => cases hrunning
  | join hphase htask _ | joinPanicked hphase htask _ | drain hphase htask =>
      exact remaining_of_join htask (by simp [hphase, ServePhase.remaining])
  | spawn hphase _ =>
      have hnew : total HandlerTask.remaining state.spawn.tasks =
          total HandlerTask.remaining state.tasks + 3 := total_append _ _ _
      simp only [ServeState.remaining, tasks_setPhase, phase_setPhase, hnew, hphase,
        ServePhase.remaining]
      omega
  | crash hrunning => exact remaining_of_setPhase (ServePhase.remaining_pos hrunning)
  | startTask htask hphase =>
      refine remaining_of_setTask htask ?_
      simp [HandlerTask.remaining, hphase, HandlerPhase.remaining]
  | endTask _ htask hphase _ => exact remaining_of_endTask htask (by rw [hphase]; rfl) rfl
  | panicTask htask hrunning => exact remaining_of_endTask htask hrunning rfl
  | abortTask htask hrunning _ => exact remaining_of_endTask htask hrunning rfl

/-- `serve` or one of its handlers can go on to its end. -/
def Drains (state : ServeState) : Prop :=
  ∃ label : ServeLabel, label.draining = true ∧ (state.step true label).isSome = true

/-- A handler that is not over starts or is cancelled. -/
theorem task_drains {index : Nat} {task : HandlerTask} (htask : state.tasks[index]? = some task)
    (hrunning : task.phase.finished = false) : state.Drains := by
  cases hat : task.phase with
  | Spawned => exact ⟨.startTask index, rfl, by simp [step, htask, taskStep, hat]⟩
  | Active => exact ⟨.endTask index .Cancelled, rfl, by simp [step, htask, taskStep, hat]⟩
  | Ended | Panicked =>
      rw [hat] at hrunning
      cases hrunning

theorem drains_of_running (hrunning : state.phase.over = false) : state.Drains := by
  cases hat : state.phase with
  | Selecting => exact ⟨.pollShutdown, rfl, by simp [step, loopStep, hat]⟩
  | Joining => exact ⟨.joinPending, rfl, by simp [step, loopStep, hat]⟩
  | Accepting => exact ⟨.acceptPending, rfl, by simp [step, loopStep, hat]⟩
  | Accepted => exact ⟨.place, rfl, by simp only [step, loopStep, hat]; split <;> rfl⟩
  | Draining failure =>
      cases hdrained : state.drained with
      | true => exact ⟨.finish, rfl, by simp [step, loopStep, hat, hdrained]⟩
      | false =>
          obtain ⟨task, hmem, hjoined⟩ := List.all_eq_false.mp hdrained
          obtain ⟨index, htask⟩ := List.getElem?_of_mem hmem
          cases hended : task.phase.finished with
          | true =>
              have hready : state.joinable index = some task := by
                refine Option.filter_eq_some_iff.mpr ⟨htask, ?_⟩
                simp_all
              exact ⟨.join index, rfl, by simp [step, loopStep, hat, hready]⟩
          | false => exact task_drains htask hended
  | Returned | Crashed =>
      rw [hat] at hrunning
      cases hrunning

end ServeState

end Minotaur
