import Minotaur.Server.Moves

/-!
What an endpoint loop knows about its sessions, whatever panics: a session it
has joined is over, one that panicked has made it fail, and a loop that has
left its select finds the token cancelled. So neither a panic nor a failed
accept ends in an `Ok`.
-/

namespace Minotaur

/-- The loop has left its select. -/
@[simp] def LoopPhase.leaving : LoopPhase → Bool
  | .Draining _ | .Returned _ => true
  | _ => false

namespace ServerState

structure Sound (state : ServerState) : Prop where
  joined : ∀ task ∈ state.sessions, task.joined = true → task.phase.finished = true
  clean : ∀ index loop, state.loops[index]? = some loop → loop.phase.failing = false →
    ∀ task ∈ state.sessions, task.owner = index → task.joined = true → task.phase = .Ended
  complete : ∀ index loop result, state.loops[index]? = some loop →
    loop.phase = .Returned result →
    ∀ task ∈ state.sessions, task.owner = index → task.joined = true
  cancelled : ∀ loop ∈ state.loops, loop.phase.leaving = true → state.shutdown = true
  noticed : ∀ task ∈ state.sessions, task.joined = true → task.phase = .Unwound →
    state.shutdown = true

theorem sound_new (config : Config) (endpoints : List EndpointConfig) :
    (ServerState.new config endpoints).Sound where
  joined := List.forall_mem_nil _
  clean := fun _ _ _ _ => List.forall_mem_nil _
  complete := fun _ _ _ _ _ => List.forall_mem_nil _
  cancelled := by simp [ServerState.new]
  noticed := List.forall_mem_nil _

variable {canonicalReason : UInt16 → Option String} {state next : ServerState}

/-- Neither the loops nor the sessions changed, and the token is not taken back. -/
theorem Sound.frame (h : state.Sound) (hloops : next.loops = state.loops)
    (hsessions : next.sessions = state.sessions)
    (hshutdown : state.shutdown = true → next.shutdown = true) : next.Sound where
  joined := hsessions ▸ h.joined
  clean := by rw [hloops, hsessions]; exact h.clean
  complete := by rw [hloops, hsessions]; exact h.complete
  cancelled := by
    rw [hloops]
    intro loop hloop hleaving
    exact hshutdown (h.cancelled loop hloop hleaving)
  noticed := by
    rw [hsessions]
    intro task htask hjoined hunwound
    exact hshutdown (h.noticed task htask hjoined hunwound)

theorem joinable_eq_some {owner index : Nat} {task : SessionTask}
    (htask : state.joinable owner index = some task) :
    state.sessions[index]? = some task ∧ task.owner = owner ∧ task.joined = false ∧
      task.phase.finished = true := by
  unfold joinable at htask
  rw [Option.filter_eq_some_iff] at htask
  simpa [and_assoc] using htask

theorem drained_eq_true {owner : Nat} : state.drained owner = true ↔
    ∀ task ∈ state.sessions, task.owner = owner → task.joined = true := by
  simp [drained, Decidable.or_iff_not_imp_left]

section Loops

variable {index : Nat} {loop : EndpointLoop} {endpoint : EndpointConfig} {phase : LoopPhase}

/-- A loop moves on without joining a session. -/
theorem Sound.setLoop (h : state.Sound) (hloop : state.loops[index]? = some loop)
    (hloops : next.loops = state.loops.set index ⟨endpoint, phase⟩)
    (hsessions : next.sessions = state.sessions)
    (hshutdown : state.shutdown = true → next.shutdown = true)
    (hclean : phase.failing = false → loop.phase.failing = false)
    (hcomplete : ∀ result, phase = .Returned result → state.drained index = true)
    (hcancelled : phase.leaving = true → next.shutdown = true) : next.Sound := by
  refine ⟨hsessions ▸ h.joined, ?_, ?_, ?_, ?_⟩
  · intro other found hfound hfailing
    rw [hloops, List.getElem?_set] at hfound
    rw [hsessions]
    split_ifs at hfound with heq hlength
    · subst heq
      obtain rfl := Option.some.inj hfound
      exact h.clean index loop hloop (hclean hfailing)
    · exact h.clean other found hfound hfailing
  · intro other found result hfound hreturned
    rw [hloops, List.getElem?_set] at hfound
    rw [hsessions]
    split_ifs at hfound with heq hlength
    · subst heq
      obtain rfl := Option.some.inj hfound
      exact drained_eq_true.mp (hcomplete result hreturned)
    · exact h.complete other found result hfound hreturned
  · rw [hloops]
    exact Ledger.forall_mem_set (fun loop hloop hleaving =>
      hshutdown (h.cancelled loop hloop hleaving)) index hcancelled
  · rw [hsessions]
    exact fun task htask hjoined hunwound => hshutdown (h.noticed task htask hjoined hunwound)

/-- A session the loop has found finished is marked as joined. -/
theorem Sound.setJoined (h : state.Sound) (hloop : state.loops[index]? = some loop)
    {session : Nat} {task : SessionTask} (htask : state.joinable index session = some task)
    (hloops : next.loops = state.loops.set index ⟨endpoint, phase⟩)
    (hsessions : next.sessions = state.sessions.set session { task with joined := true })
    (hshutdown : state.shutdown = true → next.shutdown = true)
    (hclean : phase.failing = false → loop.phase.failing = false ∧ task.phase ≠ .Unwound)
    (hrunning : phase.over = false) (hcancelled : phase.leaving = true → next.shutdown = true)
    (hnoticed : task.phase = .Unwound → next.shutdown = true) : next.Sound := by
  obtain ⟨hsession, howner, _, hfinished⟩ := joinable_eq_some htask
  refine ⟨?_, ?_, ?_, ?_, ?_⟩
  · rw [hsessions]
    exact Ledger.forall_mem_set h.joined session (fun _ => hfinished)
  · intro other found hfound hfailing
    rw [hloops, List.getElem?_set] at hfound
    rw [hsessions]
    split_ifs at hfound with heq hlength
    · subst heq
      obtain rfl := Option.some.inj hfound
      obtain ⟨hbefore, hended⟩ := hclean hfailing
      apply Ledger.forall_mem_set (h.clean index loop hloop hbefore) session
      intro _ _
      cases hphase : task.phase <;> simp_all [SessionPhase.finished]
    · apply Ledger.forall_mem_set (h.clean other found hfound hfailing) session
      intro hother
      exact absurd (howner.symm.trans hother) heq
  · intro other found result hfound hreturned
    rw [hloops, List.getElem?_set] at hfound
    rw [hsessions]
    split_ifs at hfound with heq hlength
    · obtain rfl := Option.some.inj hfound
      change phase = .Returned result at hreturned
      rw [hreturned] at hrunning
      cases hrunning
    · exact Ledger.forall_mem_set (h.complete other found result hfound hreturned) session
        (fun _ => rfl)
  · rw [hloops]
    exact Ledger.forall_mem_set (fun loop hloop hleaving =>
      hshutdown (h.cancelled loop hloop hleaving)) index hcancelled
  · rw [hsessions]
    exact Ledger.forall_mem_set (fun task htask hjoined hunwound =>
      hshutdown (h.noticed task htask hjoined hunwound)) session (fun _ => hnoticed)

theorem Sound.spawn (h : state.Sound) (hloop : state.loops[index]? = some loop)
    {arrival : Arrival} (hphase : loop.phase = .Spawning arrival) :
    (state.spawn index arrival).Sound where
  joined := List.forall_mem_append.mpr ⟨h.joined, by simp⟩
  clean := by
    intro other found hfound hfailing
    exact List.forall_mem_append.mpr ⟨h.clean other found hfound hfailing, by simp⟩
  complete := by
    intro other found result hfound hreturned
    refine List.forall_mem_append.mpr ⟨h.complete other found result hfound hreturned, ?_⟩
    rw [List.forall_mem_singleton]
    rintro rfl
    change state.loops[index]? = some found at hfound
    rw [hloop] at hfound
    obtain rfl := Option.some.inj hfound
    rw [hphase] at hreturned
    cases hreturned
  cancelled := h.cancelled
  noticed := List.forall_mem_append.mpr ⟨h.noticed, by simp⟩

theorem LoopMove.sound {label : LoopLabel} (hmove : LoopMove state index loop label next)
    (hloop : state.loops[index]? = some loop) (h : state.Sound) : next.Sound := by
  have hcancelled : loop.phase.leaving = true → state.shutdown = true :=
    h.cancelled loop (List.mem_of_getElem? hloop)
  cases hmove with
  | cancelled hphase hshutdown =>
      exact h.setLoop hloop rfl rfl (fun h => h) (by simp [hphase]) nofun (fun _ => hshutdown)
  | poll hphase _ | joinPending hphase | acceptPending hphase | ignored hphase _
  | notIgnored hphase _ | limited hphase _ _ | allowed hphase _ | full hphase _
  | acquire hphase _ =>
      exact h.setLoop hloop rfl rfl (fun h => h) (by simp [hphase]) nofun nofun
  | accept conn hphase =>
      exact h.setLoop hloop rfl rfl (fun h => h) (by simp [hphase]) nofun nofun
  | join hphase htask hended =>
      exact h.setJoined hloop htask rfl rfl (fun h => h) (fun _ => ⟨by simp [hphase], hended⟩)
        rfl nofun (fun hunwound => absurd hunwound hended)
  | joinPanicked hphase htask _ =>
      exact h.setJoined hloop htask rfl rfl (fun _ => rfl) nofun rfl (fun _ => rfl)
        (fun _ => rfl)
  | acceptFailed hphase =>
      exact h.setLoop hloop rfl rfl (fun _ => rfl) nofun nofun (fun _ => rfl)
  | spawn hphase =>
      exact (h.spawn hloop hphase).setLoop hloop rfl rfl (fun h => h) (by simp [hphase]) nofun
        nofun
  | @drain failure session task hphase htask =>
      refine h.setJoined hloop htask rfl rfl (fun h => h) ?_ rfl
        (fun _ => hcancelled (by simp [hphase])) (fun _ => hcancelled (by simp [hphase]))
      intro hfailing
      cases failure with
      | some error => cases hfailing
      | none =>
          refine ⟨by simp [hphase], ?_⟩
          intro hunwound
          rw [hunwound] at hfailing
          cases hfailing
  | @finish failure hphase hdrained =>
      refine h.setLoop hloop rfl rfl (fun h => h) ?_ (fun _ _ => hdrained)
        (fun _ => hcancelled (by simp [hphase]))
      cases failure with
      | some error => nofun
      | none => simp [hphase]
  | crash => exact h.setLoop hloop rfl rfl (fun h => h) (by simp) (by simp) (by simp)

end Loops

/-! ### Sessions -/

/-- A session that is not over moves on. -/
theorem Sound.setSession (h : state.Sound) {index : Nat} {task : SessionTask}
    (htask : state.sessions[index]? = some task) (hrunning : task.phase.finished = false)
    {after : ServerState} {phase : SessionPhase} (hloops : after.loops = state.loops)
    (hsessions : after.sessions = state.sessions.set index { task with phase := phase })
    (hshutdown : after.shutdown = state.shutdown) : after.Sound := by
  have hmem := List.mem_of_getElem? htask
  have hnot : task.joined ≠ true := by
    intro htrue
    rw [h.joined task hmem htrue] at hrunning
    cases hrunning
  refine ⟨?_, ?_, ?_, ?_, ?_⟩
  · rw [hsessions]
    exact Ledger.forall_mem_set h.joined index (fun htrue => absurd htrue hnot)
  · rw [hloops, hsessions]
    intro other found hfound hfailing
    exact Ledger.forall_mem_set (h.clean other found hfound hfailing) index
      (fun _ htrue => absurd htrue hnot)
  · rw [hloops, hsessions]
    intro other found result hfound hreturned
    refine Ledger.forall_mem_set (h.complete other found result hfound hreturned) index ?_
    intro howner
    exact h.complete other found result hfound hreturned task hmem howner
  · rw [hloops, hshutdown]
    exact h.cancelled
  · rw [hsessions, hshutdown]
    exact Ledger.forall_mem_set h.noticed index (fun htrue => absurd htrue hnot)

theorem SessionMove.sound {index : Nat} {task : SessionTask} {label : SessionLabel}
    (hmove : SessionMove canonicalReason state index task label next)
    (htask : state.sessions[index]? = some task) (h : state.Sound) : next.Sound := by
  cases hmove with
  | start hphase | close hphase _ | log hphase | dropGuard hphase | finish hphase =>
      exact h.setSession htask (by rw [hphase]; rfl) rfl rfl rfl
  | panic hphase => exact h.setSession htask hphase rfl rfl rfl
  | abort hphase _ =>
      refine h.setSession htask ?_ rfl rfl rfl
      cases htaskPhase : task.phase <;> simp_all [SessionPhase.awaits, SessionPhase.finished]

theorem Sound.step {label : ServerLabel} (h : state.Sound)
    (hstep : state.step canonicalReason label = some next) : next.Sound := by
  cases label with
  | cancel =>
      obtain rfl := Option.some.inj hstep
      exact h.frame rfl rfl (fun _ => rfl)
  | evict now =>
      obtain rfl := Option.some.inj hstep
      exact h.frame rfl rfl (fun hcancelled => hcancelled)
  | writer label =>
      simp only [ServerState.step] at hstep
      split_ifs at hstep
      obtain ⟨logger, _, rfl⟩ := Option.map_eq_some_iff.mp hstep
      exact h.frame rfl rfl (fun hcancelled => hcancelled)
  | endpoint index label =>
      obtain ⟨loop, hloop, hmove⟩ := Option.bind_eq_some_iff.mp hstep
      exact (loopMove_of_step hmove).sound hloop h
  | session index label =>
      obtain ⟨task, htask, hmove⟩ := Option.bind_eq_some_iff.mp hstep
      exact (sessionMove_of_step canonicalReason hmove).sound htask h

/-- When a loop returns, a session of it that panicked has made it return an
error. -/
theorem Sound.panicked (h : state.Sound) {index : Nat} {loop : EndpointLoop}
    (hloop : state.loops[index]? = some loop) {result : Except RunError Unit}
    (hreturned : loop.phase = .Returned result)
    (hunwound : ∃ task ∈ state.sessions, task.owner = index ∧ task.phase = .Unwound) :
    result ≠ .ok () := by
  rintro rfl
  obtain ⟨task, htask, howner, hphase⟩ := hunwound
  have hjoined := h.complete index loop _ hloop hreturned task htask howner
  have hended := h.clean index loop hloop (by rw [hreturned]; rfl) task htask howner hjoined
  rw [hphase] at hended
  cases hended

end ServerState

end Minotaur
