import Minotaur.Logger.Moves

/-!
Every call of `log` is accounted for in every interleaving. The accepted
records are, in this order, the flushed ones, the one in progress, the queued
ones and the lost ones; the losses all happen in one step, after the queue was
closed, which is why one look at its length counts them.
-/

namespace Minotaur

variable {ρ : Type*}

/-- What the position of the writer says about the queue and the error
counters. -/
def Writer.Consistent : Writer ρ → Channel ρ → LoggerMetrics → Prop
  | .Receiving, channel, metrics | .Writing _, channel, metrics =>
      channel.closed = false ∧ metrics.loggerErrorsTotal = 0 ∧
        metrics.loggerDroppedTotal .writerError = 0
  | .Closed _, channel, metrics =>
      channel.closed = true ∧ metrics.loggerErrorsTotal = 0 ∧
        metrics.loggerDroppedTotal .writerError = 0
  | .Reported _, channel, metrics =>
      channel.closed = true ∧ metrics.loggerErrorsTotal = 1 ∧
        metrics.loggerDroppedTotal .writerError = 0
  | .Returned true, channel, metrics =>
      channel.closed = true ∧ channel.queue = [] ∧ metrics.loggerErrorsTotal = 0 ∧
        metrics.loggerDroppedTotal .writerError = 0
  | .Returned false, channel, metrics =>
      channel.closed = true ∧ channel.queue = [] ∧ metrics.loggerErrorsTotal = 1

structure LoggerState.Accounted (bufferSize : Nat) (state : LoggerState ρ) : Prop where
  capacity : state.channel.capacity = bufferSize
  calls : state.calls = state.accepted.length +
    state.metrics.loggerDroppedTotal .queueFull + state.metrics.loggerDroppedTotal .channelClosed
  accepted : ∃ lost, state.accepted =
      state.flushed ++ state.writer.inProgress ++ state.channel.queue ++ lost ∧
    lost.length = state.metrics.loggerDroppedTotal .writerError
  written : state.flushed.length = state.metrics.loggerWrittenTotal
  consistent : state.writer.Consistent state.channel state.metrics

namespace LoggerState

theorem accounted_spawn (bufferSize : Nat) : (spawn ρ bufferSize).Accounted bufferSize where
  capacity := rfl
  calls := rfl
  accepted := ⟨[], rfl, rfl⟩
  written := rfl
  consistent := ⟨rfl, rfl, rfl⟩

/-- While the queue is open no record is lost. -/
theorem Accounted.accepted_of_open {bufferSize : Nat} {state : LoggerState ρ}
    (h : state.Accounted bufferSize) (hopen : state.channel.closed = false) :
    state.accepted = state.flushed ++ state.writer.inProgress ++ state.channel.queue ∧
      state.metrics.loggerDroppedTotal .writerError = 0 := by
  obtain ⟨lost, haccepted, hlost⟩ := h.accepted
  have hzero : state.metrics.loggerDroppedTotal .writerError = 0 := by
    have hconsistent := h.consistent
    cases hwriter : state.writer with
    | Receiving => rw [hwriter] at hconsistent; exact hconsistent.2.2
    | Writing record => rw [hwriter] at hconsistent; exact hconsistent.2.2
    | Closed record => rw [hwriter] at hconsistent; exact hconsistent.2.2
    | Reported record => rw [hwriter] at hconsistent; exact hconsistent.2.2
    | Returned ok =>
        rw [hwriter] at hconsistent
        cases ok <;> simp [Writer.Consistent, hopen] at hconsistent
  rw [hzero, List.length_eq_zero_iff] at hlost
  rw [hlost, List.append_nil] at haccepted
  exact ⟨haccepted, hzero⟩

/-- Where the writer is fixes the open flag, the queue after the end and the
error counters, and an offer touches none of them. -/
theorem consistent_of_eq {writer : Writer ρ} {channel next : Channel ρ}
    {metrics metrics' : LoggerMetrics} (h : writer.Consistent channel metrics)
    (hclosed : next.closed = channel.closed)
    (hqueue : channel.closed = true → next.queue = channel.queue)
    (herrors : metrics'.loggerErrorsTotal = metrics.loggerErrorsTotal)
    (hlost : metrics'.loggerDroppedTotal .writerError = metrics.loggerDroppedTotal .writerError) :
    writer.Consistent next metrics' := by
  cases writer with
  | Receiving => exact ⟨hclosed.trans h.1, herrors.trans h.2.1, hlost.trans h.2.2⟩
  | Writing record => exact ⟨hclosed.trans h.1, herrors.trans h.2.1, hlost.trans h.2.2⟩
  | Closed record => exact ⟨hclosed.trans h.1, herrors.trans h.2.1, hlost.trans h.2.2⟩
  | Reported record => exact ⟨hclosed.trans h.1, herrors.trans h.2.1, hlost.trans h.2.2⟩
  | Returned ok =>
      cases ok with
      | true =>
          obtain ⟨hover, hempty, herr, hzero⟩ := h
          exact ⟨hclosed.trans hover, (hqueue hover).trans hempty, herrors.trans herr,
            hlost.trans hzero⟩
      | false =>
          obtain ⟨hover, hempty, herr⟩ := h
          exact ⟨hclosed.trans hover, (hqueue hover).trans hempty, herrors.trans herr⟩

/-- A call that is turned away is charged to the reason. -/
theorem Accounted.refuse {bufferSize : Nat} {state : LoggerState ρ}
    (h : state.Accounted bufferSize) {reason : DropReason} (hreason : reason ≠ .writerError) :
    ({ state with calls := state.calls + 1, metrics := state.metrics.drop reason 1 } :
      LoggerState ρ).Accounted bufferSize := by
  have hcalls := h.calls
  have hlost := state.metrics.drop_other hreason.symm 1
  refine ⟨h.capacity, ?_, ?_, h.written, consistent_of_eq h.consistent rfl (fun _ => rfl) rfl hlost⟩
  · cases reason with
    | writerError => exact absurd rfl hreason
    | queueFull | channelClosed =>
        dsimp only
        rw [LoggerMetrics.drop_same, LoggerMetrics.drop_other _ (by decide)]
        omega
  · rw [hlost]
    exact h.accepted

theorem Accounted.offer {bufferSize : Nat} {state : LoggerState ρ}
    (h : state.Accounted bufferSize) (record : ρ) : (state.offer record).Accounted bufferSize := by
  have hcalls := h.calls
  obtain ⟨hopen, tx, hsend, heq⟩ | ⟨_, _, heq⟩ | ⟨_, heq⟩ := offer_cases state record
  · obtain ⟨haccepted, hzero⟩ := h.accepted_of_open hopen
    obtain ⟨_, hqueue, hclosed, _, hcapacity⟩ := Channel.trySend_ok hsend
    rw [heq]
    refine ⟨hcapacity.trans h.capacity, ?_, ⟨[], ?_, hzero.symm⟩, h.written, ?_⟩
    · simp only [List.length_append, List.length_singleton]
      omega
    · simp only [haccepted, hqueue, List.append_assoc, List.append_nil]
    · refine consistent_of_eq h.consistent (hclosed.trans hopen.symm) ?_ rfl rfl
      intro hover
      rw [hopen] at hover
      exact absurd hover Bool.false_ne_true
  · rw [heq]
    exact h.refuse (by decide)
  · rw [heq]
    exact h.refuse (by decide)

/-- A failed write's bookkeeping: the record in progress and the backlog are
charged, exactly those and only once. -/
theorem Accounted.countLost {bufferSize : Nat} {state : LoggerState ρ} {record : ρ}
    (h : state.Accounted bufferSize) (hwriter : state.writer = .Reported record) :
    ({ state with
      channel := state.channel.dropReceiver
      writer := .Returned false
      metrics := state.metrics.drop .writerError (1 + state.channel.len) } :
      LoggerState ρ).Accounted bufferSize := by
  obtain ⟨hclosed, herrors, hzero⟩ : state.channel.closed = true ∧
      state.metrics.loggerErrorsTotal = 1 ∧
      state.metrics.loggerDroppedTotal .writerError = 0 := by
    simpa [hwriter, Writer.Consistent] using h.consistent
  obtain ⟨lost, haccepted, hlost⟩ := h.accepted
  rw [hzero, List.length_eq_zero_iff] at hlost
  refine ⟨h.capacity, ?_, ⟨record :: state.channel.queue, ?_, ?_⟩, h.written, ?_⟩
  · rw [LoggerMetrics.drop_other _ (by decide), LoggerMetrics.drop_other _ (by decide)]
    exact h.calls
  · simp [haccepted, hlost, hwriter, Writer.inProgress, Channel.dropReceiver]
  · rw [LoggerMetrics.drop_same, hzero, Channel.len, List.length_cons]
    omega
  · exact ⟨rfl, rfl, herrors⟩

/-- A writer that waits for a record has met no error. -/
theorem Accounted.receiving {bufferSize : Nat} {state : LoggerState ρ}
    (h : state.Accounted bufferSize) (hwriter : state.writer = .Receiving) :
    state.channel.closed = false ∧ state.metrics.loggerErrorsTotal = 0 ∧
      state.metrics.loggerDroppedTotal .writerError = 0 ∧
      state.accepted = state.flushed ++ state.channel.queue := by
  obtain ⟨hopen, herrors, hzero⟩ : state.channel.closed = false ∧
      state.metrics.loggerErrorsTotal = 0 ∧
      state.metrics.loggerDroppedTotal .writerError = 0 := by
    simpa [hwriter, Writer.Consistent] using h.consistent
  obtain ⟨haccepted, _⟩ := h.accepted_of_open hopen
  simp only [hwriter, Writer.inProgress, List.append_nil] at haccepted
  exact ⟨hopen, herrors, hzero, haccepted⟩

theorem Accounted.move {bufferSize : Nat} {state next : LoggerState ρ} {label : LoggerLabel ρ}
    (h : state.Accounted bufferSize) (hmove : Move state label next) :
    next.Accounted bufferSize := by
  cases hmove with
  | clone | dropSender =>
      exact ⟨h.capacity, h.calls, h.accepted, h.written,
        consistent_of_eq h.consistent rfl (fun _ => rfl) rfl rfl⟩
  | log record => exact h.offer record
  | recv hwriter hrecv =>
      obtain ⟨hopen, herrors, hzero, haccepted⟩ := h.receiving hwriter
      obtain ⟨hqueue, hclosed, _, hcapacity⟩ := Channel.recv_value hrecv
      refine ⟨hcapacity.trans h.capacity, h.calls, ⟨[], ?_, hzero.symm⟩, h.written, ?_⟩
      · simp [haccepted, hqueue, Writer.inProgress]
      · exact ⟨hclosed.trans hopen, herrors, hzero⟩
  | finished hwriter hrecv =>
      obtain ⟨_, herrors, hzero, haccepted⟩ := h.receiving hwriter
      obtain ⟨hempty, _⟩ := Channel.recv_finished.mp hrecv
      refine ⟨h.capacity, h.calls, ⟨[], ?_, hzero.symm⟩, h.written, ?_⟩
      · simp [haccepted, hempty, Writer.inProgress, Channel.dropReceiver]
      · exact ⟨rfl, rfl, herrors, hzero⟩
  | written hwriter =>
      obtain ⟨lost, haccepted, hlost⟩ := h.accepted
      have hconsistent := h.consistent
      rw [hwriter] at hconsistent
      refine ⟨h.capacity, h.calls, ⟨lost, ?_, hlost⟩, ?_, hconsistent⟩
      · simpa [hwriter, Writer.inProgress] using haccepted
      · simp [h.written]
  | writeFailed hwriter =>
      have haccepted := h.accepted
      have hconsistent := h.consistent
      rw [hwriter] at haccepted hconsistent
      exact ⟨h.capacity, h.calls, haccepted, h.written, rfl, hconsistent.2⟩
  | report hwriter =>
      have haccepted := h.accepted
      have hconsistent := h.consistent
      rw [hwriter] at haccepted hconsistent
      exact ⟨h.capacity, h.calls, haccepted, h.written, hconsistent.1,
        by simp [hconsistent.2.1], hconsistent.2.2⟩
  | countLost hwriter => exact h.countLost hwriter

/-! ### The labels -/

/-- The history is that of the labels: every call of `log` is one of them, and
so is every write. -/
structure Traced (labels : List (LoggerLabel ρ)) (state : LoggerState ρ) : Prop where
  calls : state.calls = (labels.filterMap LoggerLabel.offered).length
  accepted : state.accepted.Sublist (labels.filterMap LoggerLabel.offered)
  written : state.metrics.loggerWrittenTotal = labels.countP LoggerLabel.writes

theorem traced_spawn (bufferSize : Nat) : (spawn ρ bufferSize).Traced [] where
  calls := rfl
  accepted := List.Sublist.slnil
  written := rfl

/-- What one step adds to the history. -/
theorem Traced.extend {labels : List (LoggerLabel ρ)} {state next : LoggerState ρ}
    {label : LoggerLabel ρ} (h : state.Traced labels)
    (hcalls : next.calls = state.calls + label.offered.toList.length)
    (haccepted : next.accepted = state.accepted ∨
      next.accepted = state.accepted ++ label.offered.toList)
    (hwritten : next.metrics.loggerWrittenTotal =
      state.metrics.loggerWrittenTotal + if label.writes then 1 else 0) :
    next.Traced (labels ++ [label]) := by
  have hoffered : (labels ++ [label]).filterMap LoggerLabel.offered =
      labels.filterMap LoggerLabel.offered ++ label.offered.toList := by
    rw [List.filterMap_append]
    cases hlabel : label.offered <;> simp [hlabel]
  refine ⟨?_, ?_, ?_⟩
  · rw [hoffered, List.length_append, hcalls, h.calls]
  · rw [hoffered]
    obtain hsame | hmore := haccepted
    · rw [hsame]
      exact h.accepted.trans (List.sublist_append_left _ _)
    · rw [hmore]
      exact h.accepted.append (List.Sublist.refl _)
  · rw [hwritten, h.written, List.countP_append, List.countP_singleton]

theorem Traced.offer {labels : List (LoggerLabel ρ)} {state : LoggerState ρ}
    (h : state.Traced labels) (record : ρ) :
    (state.offer record).Traced (labels ++ [.log record]) := by
  obtain ⟨_, tx, _, heq⟩ | ⟨_, _, heq⟩ | ⟨_, heq⟩ := offer_cases state record
  · rw [heq]
    exact h.extend rfl (Or.inr rfl) rfl
  · rw [heq]
    exact h.extend rfl (Or.inl rfl) rfl
  · rw [heq]
    exact h.extend rfl (Or.inl rfl) rfl

theorem Traced.move {labels : List (LoggerLabel ρ)} {state next : LoggerState ρ}
    {label : LoggerLabel ρ} (h : state.Traced labels) (hmove : Move state label next) :
    next.Traced (labels ++ [label]) := by
  cases hmove with
  | log record => exact h.offer record
  | clone | dropSender | recv | finished | written | writeFailed | report | countLost =>
      exact h.extend rfl (Or.inl rfl) rfl

theorem traced_of_run {bufferSize : Nat} {labels : List (LoggerLabel ρ)}
    {state : LoggerState ρ} (hrun : Steps.run step (spawn ρ bufferSize) labels = some state) :
    state.Traced labels :=
  Steps.run_history (traced_spawn bufferSize)
    (fun _ _ _ _ h hstep => h.move (move_of_step hstep)) hrun

/-! ### One call -/

/-- `log` returns true exactly when the queue is open and has room, and then
the record is accepted. -/
theorem offer_accepts (state : LoggerState ρ) (record : ρ) :
    ((Minotaur.log state.channel state.metrics record).1 = true ↔
      state.channel.closed = false ∧ state.channel.queue.length < state.channel.capacity) ∧
    (state.offer record).accepted = state.accepted ++
      if (Minotaur.log state.channel state.metrics record).1 then [record] else [] := by
  unfold offer Minotaur.log
  cases hsend : state.channel.trySend record with
  | ok tx =>
      obtain ⟨hopen, hqueue, _, _, hcapacity⟩ := Channel.trySend_ok hsend
      have hbounded := tx.bounded
      rw [hqueue, hcapacity, List.length_append, List.length_singleton] at hbounded
      exact ⟨by simp [hopen]; omega, by simp⟩
  | error reason =>
      cases reason with
      | Full =>
          obtain ⟨_, hfull⟩ := Channel.trySend_full hsend
          simp [hfull]
      | Closed =>
          have hclosed := Channel.trySend_closed.mp hsend
          simp [hclosed]

/-- An offer changes nothing that was accepted before it. -/
theorem offer_keeps (state : LoggerState ρ) (record : ρ) :
    (state.offer record).flushed = state.flushed ∧
      (state.offer record).writer = state.writer ∧
      state.channel.queue <+: (state.offer record).channel.queue ∧
      state.accepted <+: (state.offer record).accepted := by
  obtain ⟨_, tx, hsend, heq⟩ | ⟨_, _, heq⟩ | ⟨_, heq⟩ := offer_cases state record
  · rw [heq]
    obtain ⟨_, hqueue, _⟩ := Channel.trySend_ok hsend
    exact ⟨rfl, rfl, hqueue ▸ List.prefix_append _ _, List.prefix_append _ _⟩
  · rw [heq]
    exact ⟨rfl, rfl, List.prefix_refl _, List.prefix_refl _⟩
  · rw [heq]
    exact ⟨rfl, rfl, List.prefix_refl _, List.prefix_refl _⟩

theorem accounted_of_run {bufferSize : Nat} {labels : List (LoggerLabel ρ)}
    {state : LoggerState ρ} (hrun : Steps.run step (spawn ρ bufferSize) labels = some state) :
    state.Accounted bufferSize :=
  Steps.run_invariant (fun _ _ _ h hstep => h.move (move_of_step hstep))
    (accounted_spawn bufferSize) hrun

end LoggerState

open LoggerState in
/-- Conservation and order of the log queue, in every state that any
interleaving of producers and writer reaches. The calls are the `log` labels of
the run, and the records written are its writes. -/
theorem logger_conservation (bufferSize : Nat) (labels : List (LoggerLabel ρ))
    (state : LoggerState ρ)
    (hrun : Steps.run LoggerState.step (spawn ρ bufferSize) labels = some state) :
    (state.calls = (labels.filterMap LoggerLabel.offered).length ∧
      state.accepted.Sublist (labels.filterMap LoggerLabel.offered) ∧
      state.metrics.loggerWrittenTotal = labels.countP LoggerLabel.writes) ∧
    (state.calls = state.channel.queue.length + state.writer.inProgress.length +
        state.metrics.loggerWrittenTotal + state.metrics.loggerDroppedTotal .queueFull +
        state.metrics.loggerDroppedTotal .channelClosed +
        state.metrics.loggerDroppedTotal .writerError ∧
      state.writer.inProgress.length ≤ 1 ∧ state.channel.queue.length ≤ bufferSize) ∧
    (state.flushed = state.accepted.take state.metrics.loggerWrittenTotal ∧
      state.flushed.length = state.metrics.loggerWrittenTotal ∧
      ∃ lost, state.accepted =
          state.flushed ++ state.writer.inProgress ++ state.channel.queue ++ lost ∧
        lost.length = state.metrics.loggerDroppedTotal .writerError) ∧
    (∀ record next, state.step (.log record) = some next →
      (((Minotaur.log state.channel state.metrics record).1 = true ↔
          state.channel.closed = false ∧ state.channel.queue.length < bufferSize) ∧
        next.accepted = state.accepted ++
          if (Minotaur.log state.channel state.metrics record).1 then [record] else []) ∧
      next.flushed = state.flushed ∧ next.writer = state.writer ∧
      state.channel.queue <+: next.channel.queue ∧ state.accepted <+: next.accepted) ∧
    (∀ ok, state.writer = .Returned ok →
      state.calls = state.metrics.loggerWrittenTotal + state.metrics.dropped ∧
      (state.metrics.loggerErrorsTotal = 1 ↔ ok = false)) := by
  have h := accounted_of_run hrun
  have htraced := traced_of_run hrun
  have hbounded := state.channel.bounded
  obtain ⟨lost, haccepted, hlost⟩ := h.accepted
  have hlength := congrArg List.length haccepted
  simp only [List.length_append] at hlength
  have hcalls := h.calls
  have hwritten := h.written
  refine ⟨⟨htraced.calls, htraced.accepted, htraced.written⟩,
    ⟨by omega, ?_, h.capacity ▸ hbounded⟩, ⟨?_, hwritten, lost, haccepted, hlost⟩, ?_, ?_⟩
  · cases state.writer <;> simp [Writer.inProgress]
  · rw [haccepted, ← hwritten]
    simp [List.append_assoc]
  · intro record next hstep
    cases move_of_step hstep with
    | log record hsenders =>
        obtain ⟨hreturns, hnext⟩ := state.offer_accepts record
        rw [h.capacity] at hreturns
        exact ⟨⟨hreturns, hnext⟩, state.offer_keeps record⟩
  · intro ok hreturned
    have hconsistent := h.consistent
    rw [hreturned] at hconsistent
    have hnone : state.writer.inProgress.length = 0 := by rw [hreturned]; rfl
    have hempty : state.channel.queue.length = 0 := by
      cases ok with
      | true => rw [hconsistent.2.1]; rfl
      | false => rw [hconsistent.2.1]; rfl
    refine ⟨by unfold LoggerMetrics.dropped; omega, ?_⟩
    cases ok with
    | true => simp [hconsistent.2.2.1]
    | false => simp [hconsistent.2.2]

/-- A queue of one: record 3 overflows while 1 is written, record 4 finds the
queue closed, and the failed write costs 1 and 2. -/
theorem logger_conservation_failure :
    ∃ state, Steps.run LoggerState.step (LoggerState.spawn Nat 1)
        [.clone, .log 0, .recv, .written, .log 1, .recv, .log 2, .log 3, .writeFailed, .log 4,
          .report, .countLost] = some state ∧
      state.calls = 5 ∧ state.accepted = [0, 1, 2] ∧ state.flushed = [0] ∧
      state.channel.queue.length = 0 ∧ state.writer.inProgress.length = 0 ∧
      state.metrics.loggerWrittenTotal = 1 ∧
      state.metrics.loggerDroppedTotal .queueFull = 1 ∧
      state.metrics.loggerDroppedTotal .channelClosed = 1 ∧
      state.metrics.loggerDroppedTotal .writerError = 2 ∧
      state.metrics.loggerErrorsTotal = 1 := by
  obtain ⟨state, hrun⟩ := Option.isSome_iff_exists.mp (show (Steps.run LoggerState.step
    (LoggerState.spawn Nat 1) [.clone, .log 0, .recv, .written, .log 1, .recv, .log 2, .log 3,
      .writeFailed, .log 4, .report, .countLost]).isSome = true from rfl)
  obtain ⟨⟨hcalls, _, hwritten⟩, _, ⟨hflushed, _⟩, _, hreturned⟩ :=
    logger_conservation 1 _ state hrun
  obtain rfl := Option.some.inj hrun
  exact ⟨_, rfl, hcalls, rfl, hflushed, rfl, rfl, hwritten, rfl, rfl, rfl,
    (hreturned false rfl).2.mpr rfl⟩

end Minotaur
