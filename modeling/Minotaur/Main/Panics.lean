import Minotaur.Main.Failures

/-!
A session that panicked stays unwound, and whoever spawned it is a loop that
then returns an error or crashes. So a process that exits successfully has seen
no session panic.
-/

namespace Minotaur

namespace ServerState

variable {canonicalReason : UInt16 → Option String} {state next : ServerState}

/-! ### Tasks -/

/-- Every task belongs to a loop. -/
def Owned (state : ServerState) : Prop :=
  ∀ task ∈ state.sessions, task.owner < state.loops.length

/-- The task of this index was unwound. -/
def UnwoundAt (state : ServerState) (index : Nat) : Prop :=
  ∃ task, state.sessions[index]? = some task ∧ task.phase = .Unwound

theorem UnwoundAt.set {index other : Nat} {task after : SessionTask}
    (h : state.UnwoundAt index) (htask : state.sessions[other]? = some task)
    (hsessions : next.sessions = state.sessions.set other after)
    (hphase : task.phase = .Unwound → after.phase = .Unwound) : next.UnwoundAt index := by
  obtain ⟨found, hfound, hunwound⟩ := h
  unfold UnwoundAt
  rw [hsessions, List.getElem?_set]
  split_ifs with heq hlength
  · subst heq
    obtain rfl := Option.some.inj (htask.symm.trans hfound)
    exact ⟨after, rfl, hphase hunwound⟩
  · subst heq
    exact absurd (List.getElem?_eq_some_iff.mp htask).1 hlength
  · exact ⟨found, hfound, hunwound⟩

theorem Owned.set {index : Nat} {task after : SessionTask} (h : state.Owned)
    (htask : state.sessions[index]? = some task)
    (hsessions : next.sessions = state.sessions.set index after) (howner : after.owner = task.owner)
    (hloops : next.loops.length = state.loops.length) : next.Owned := by
  unfold Owned
  rw [hsessions, hloops]
  exact Ledger.forall_mem_set h index (howner ▸ h task (List.mem_of_getElem? htask))

theorem LoopMove.tasks {index : Nat} {loop : EndpointLoop} {label : LoopLabel}
    (hmove : LoopMove state index loop label next) (hloop : state.loops[index]? = some loop)
    (h : state.Owned) :
    next.Owned ∧ ∀ session, state.UnwoundAt session → next.UnwoundAt session := by
  have hlength : ∀ endpoint phase,
      (state.loops.set index ⟨endpoint, phase⟩).length = state.loops.length :=
    fun _ _ => List.length_set
  have hsame : next.sessions = state.sessions → next.loops.length = state.loops.length →
      next.Owned ∧ ∀ session, state.UnwoundAt session → next.UnwoundAt session := by
    intro hsessions hloops
    unfold Owned UnwoundAt
    rw [hsessions, hloops]
    exact ⟨h, fun _ hunwound => hunwound⟩
  cases hmove with
  | join _ htask _ | joinPanicked _ htask _ | drain _ htask =>
      obtain ⟨htask, _⟩ := joinable_eq_some htask
      exact ⟨h.set htask rfl rfl (hlength _ _),
        fun session hunwound => hunwound.set htask rfl (fun hphase => hphase)⟩
  | spawn _ =>
      refine ⟨?_, ?_⟩
      · intro task htask
        rw [loops_setLoop, List.length_set]
        rcases List.mem_append.mp htask with htask | htask
        · exact h task htask
        · obtain rfl := List.mem_singleton.mp htask
          exact (List.getElem?_eq_some_iff.mp hloop).1
      · rintro session ⟨task, htask, hphase⟩
        refine ⟨task, ?_, hphase⟩
        exact (List.getElem?_append_left (List.getElem?_eq_some_iff.mp htask).1).trans htask
  | cancelled | poll | joinPending | accept | acceptFailed | acceptPending | ignored | notIgnored
  | limited | allowed | full | acquire | finish | crash => exact hsame rfl (hlength _ _)

theorem SessionMove.tasks {index : Nat} {task : SessionTask} {label : SessionLabel}
    (hmove : SessionMove canonicalReason state index task label next)
    (htask : state.sessions[index]? = some task) (h : state.Owned) :
    next.Owned ∧ (∀ session, state.UnwoundAt session → next.UnwoundAt session) ∧
      (label = .panic → next.UnwoundAt index) := by
  cases hmove with
  | start hphase | close hphase _ | log hphase | dropGuard hphase | finish hphase =>
      refine ⟨h.set htask rfl rfl rfl, fun session hunwound => hunwound.set htask rfl ?_, nofun⟩
      intro hunwound
      rw [hphase] at hunwound
      cases hunwound
  | panic _ =>
      refine ⟨h.set htask rfl rfl rfl, fun session hunwound => hunwound.set htask rfl (fun _ => rfl),
        fun _ => ?_⟩
      exact ⟨_, List.getElem?_set_self (List.getElem?_eq_some_iff.mp htask).1, rfl⟩
  | abort _ _ =>
      exact ⟨h.set htask rfl rfl rfl, fun session hunwound => hunwound.set htask rfl (fun _ => rfl),
        nofun⟩

/-- An unwound task stays unwound, and a panic unwinds its task. -/
theorem tasks_of_step {label : ServerLabel} (h : state.Owned)
    (hstep : state.step canonicalReason label = some next) :
    next.Owned ∧ (∀ session, state.UnwoundAt session → next.UnwoundAt session) ∧
      ∀ session, label = .session session .panic → next.UnwoundAt session := by
  cases label with
  | cancel | evict =>
      obtain rfl := Option.some.inj hstep
      exact ⟨h, fun _ hunwound => hunwound, fun _ heq => (by cases heq)⟩
  | writer label =>
      simp only [ServerState.step] at hstep
      split_ifs at hstep
      obtain ⟨logger, _, rfl⟩ := Option.map_eq_some_iff.mp hstep
      exact ⟨h, fun _ hunwound => hunwound, fun _ heq => (by cases heq)⟩
  | endpoint index label =>
      obtain ⟨loop, hloop, hmove⟩ := Option.bind_eq_some_iff.mp hstep
      obtain ⟨howned, hunwound⟩ := (loopMove_of_step hmove).tasks hloop h
      exact ⟨howned, hunwound, fun _ heq => (by cases heq)⟩
  | session index label =>
      obtain ⟨task, htask, hmove⟩ := Option.bind_eq_some_iff.mp hstep
      obtain ⟨howned, hunwound, hpanic⟩ :=
        (sessionMove_of_step canonicalReason hmove).tasks htask h
      refine ⟨howned, hunwound, ?_⟩
      rintro session heq
      obtain ⟨rfl, rfl⟩ := ServerLabel.session.inj heq
      exact hpanic rfl

end ServerState

namespace SensorState

variable {canonicalReason : UInt16 → Option String} {config : Config}
  {endpoints : List EndpointConfig} {state next : SensorState} {label : SensorLabel}
  {labels : List SensorLabel}

/-- Every panic of the run is still to be seen in its task. -/
structure Seen (labels : List SensorLabel) (state : SensorState) : Prop where
  owned : state.server.Owned
  unwound : ∀ index, .server (.session index .panic) ∈ labels → state.server.UnwoundAt index

theorem Seen.step (h : Seen labels state)
    (hstep : state.step canonicalReason label = some next) : Seen (labels ++ [label]) next := by
  have htasks : next.server.Owned ∧
      ∀ session, state.server.UnwoundAt session → next.server.UnwoundAt session := by
    obtain ⟨label', _, _, hserver, _⟩ | ⟨hloops, hsessions⟩ := (move_of_step hstep).server_cases
    · obtain ⟨howned, hunwound, _⟩ := ServerState.tasks_of_step h.owned hserver
      exact ⟨howned, hunwound⟩
    · unfold ServerState.Owned ServerState.UnwoundAt
      rw [hloops, hsessions]
      exact ⟨h.owned, fun _ hunwound => hunwound⟩
  refine ⟨htasks.1, ?_⟩
  intro index hlabel
  rcases List.mem_append.mp hlabel with hbefore | hnow
  · exact htasks.2 index (h.unwound index hbefore)
  · obtain rfl := List.mem_singleton.mp hnow
    cases move_of_step hstep with
    | server _ hserver => exact (ServerState.tasks_of_step h.owned hserver).2.2 index rfl

theorem seen_of_run
    (hrun : Steps.run (SensorState.step canonicalReason) (.new config endpoints) labels =
      some state) : Seen labels state :=
  Steps.run_history ⟨List.forall_mem_nil _, nofun⟩ (fun _ _ _ _ h hstep => Seen.step h hstep) hrun

/-- The loop of a session that panicked has not returned `Ok`, so neither has
anybody above it. -/
theorem noPanic_of_exit
    (hrun : Steps.run (SensorState.step canonicalReason) (.new config endpoints) labels =
      some state) (hreturned : state.main = .Returned (.ok ())) :
    ∀ label ∈ labels, label.noPanic = true := by
  have hhistory := history_of_run hrun
  unfold History at hhistory
  rw [hreturned] at hhistory
  have hloops := (supervised_of_run hrun).loops (serverResult_eq_ok.mp hhistory.2.1)
  have hseen := seen_of_run hrun
  intro label hlabel
  by_contra hpanic
  obtain ⟨index, rfl⟩ : ∃ index, label = .server (.session index .panic) := by
    unfold SensorLabel.noPanic at hpanic
    split at hpanic
    · exact ⟨_, rfl⟩
    · exact absurd rfl hpanic
  obtain ⟨task, htask, hunwound⟩ := hseen.unwound index hlabel
  have hmem := List.mem_of_getElem? htask
  have howner := hseen.owned task hmem
  exact (obedient_of_run hrun).server.panicked (List.getElem?_eq_getElem howner)
    (hloops _ (List.getElem_mem howner)) ⟨task, hmem, rfl, hunwound⟩ rfl

end SensorState

end Minotaur
