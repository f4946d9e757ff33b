import Minotaur.Logger.Conservation

/-!
A call of `log` is a producer, so the writer cannot have come to the end of its
queue before it. The queue is closed under a producer only by a failed write,
and a writer that ends without an error has refused nobody.
-/

namespace Minotaur

variable {ρ : Type*}

/-- The writer has met an error. -/
def Writer.failed : Writer ρ → Bool
  | .Closed _ | .Reported _ | .Returned false => true
  | _ => false

namespace LoggerState

/-! ### Senders -/

theorem senders_offer (state : LoggerState ρ) (record : ρ) :
    (state.offer record).channel.senders = state.channel.senders := by
  obtain ⟨_, tx, hsend, heq⟩ | ⟨_, _, heq⟩ | ⟨_, heq⟩ := offer_cases state record
  · rw [heq]
    exact (Channel.trySend_ok hsend).2.2.2.1
  · rw [heq]
  · rw [heq]

/-- Only the producers come and go. -/
theorem Move.senders {state next : LoggerState ρ} {label : LoggerLabel ρ}
    (hmove : Move state label next) (hclone : label ≠ .clone) (hdrop : label ≠ .dropSender) :
    next.channel.senders = state.channel.senders := by
  cases hmove with
  | clone => exact absurd rfl hclone
  | dropSender => exact absurd rfl hdrop
  | log record => exact senders_offer state record
  | recv _ hrecv => exact (Channel.recv_value hrecv).2.2.1
  | finished | written | writeFailed | report | countLost => rfl

/-- A writer that has returned stays so. -/
theorem Move.returned {state next : LoggerState ρ} {label : LoggerLabel ρ} {ok : Bool}
    (hmove : Move state label next) (hreturned : state.writer = .Returned ok) :
    next.writer = .Returned ok := by
  cases hmove with
  | clone | dropSender => exact hreturned
  | log record => exact (state.offer_keeps record).2.1.trans hreturned
  | recv hwriter | finished hwriter | written hwriter | writeFailed hwriter | report hwriter
  | countLost hwriter =>
      rw [hreturned] at hwriter
      cases hwriter

/-! ### The gauge -/

theorem ready_offer (state : LoggerState ρ) (record : ρ) :
    (state.offer record).metrics.ready = state.metrics.ready := by
  obtain ⟨_, tx, _, heq⟩ | ⟨_, _, heq⟩ | ⟨_, heq⟩ := offer_cases state record <;> rw [heq] <;> rfl

theorem errors_offer (state : LoggerState ρ) (record : ρ) :
    (state.offer record).metrics.loggerErrorsTotal = state.metrics.loggerErrorsTotal := by
  obtain ⟨_, tx, _, heq⟩ | ⟨_, _, heq⟩ | ⟨_, heq⟩ := offer_cases state record <;> rw [heq] <;> rfl

/-- The logger only ever takes the gauge down. -/
theorem Move.ready {state next : LoggerState ρ} {label : LoggerLabel ρ}
    (hmove : Move state label next) :
    next.metrics.ready = state.metrics.ready ∨ next.metrics.ready = 0 := by
  cases hmove with
  | log record => exact Or.inl (ready_offer state record)
  | report => exact Or.inr rfl
  | clone | dropSender | recv | finished | written | writeFailed | countLost => exact Or.inl rfl

/-! ### The end of the writer -/

structure Undisturbed (bufferSize : Nat) (state : LoggerState ρ) : Prop where
  accounted : state.Accounted bufferSize
  ended : state.writer = .Returned true → state.channel.senders = 0
  refused : state.writer.failed = false → state.metrics.loggerDroppedTotal .channelClosed = 0

theorem undisturbed_spawn (bufferSize : Nat) : (spawn ρ bufferSize).Undisturbed bufferSize where
  accounted := accounted_spawn bufferSize
  ended := nofun
  refused := fun _ => rfl

variable {bufferSize : Nat} {state next : LoggerState ρ}

/-- While somebody can still send, only a failed writer has closed the queue. -/
theorem Undisturbed.failed (h : state.Undisturbed bufferSize)
    (hsenders : state.channel.senders ≠ 0) (hclosed : state.channel.closed = true) :
    state.writer.failed = true := by
  have hconsistent := h.accounted.consistent
  cases hwriter : state.writer with
  | Receiving =>
      rw [hwriter] at hconsistent
      exact absurd (hconsistent.1.symm.trans hclosed) Bool.false_ne_true
  | Writing record =>
      rw [hwriter] at hconsistent
      exact absurd (hconsistent.1.symm.trans hclosed) Bool.false_ne_true
  | Closed record => rfl
  | Reported record => rfl
  | Returned ok =>
      cases ok with
      | true => exact absurd (h.ended hwriter) hsenders
      | false => rfl

theorem Undisturbed.offer (h : state.Undisturbed bufferSize)
    (hsenders : state.channel.senders ≠ 0) (record : ρ) :
    (state.offer record).Undisturbed bufferSize where
  accounted := h.accounted.offer record
  ended := by
    intro hreturned
    rw [(state.offer_keeps record).2.1] at hreturned
    exact absurd (h.ended hreturned) hsenders
  refused := by
    intro hfailed
    rw [(state.offer_keeps record).2.1] at hfailed
    have hrefused := h.refused hfailed
    obtain ⟨_, tx, _, heq⟩ | ⟨_, _, heq⟩ | ⟨hclosed, _⟩ := offer_cases state record
    · rw [heq]
      exact hrefused
    · rw [heq, LoggerMetrics.drop_other _ (by decide)]
      exact hrefused
    · rw [h.failed hsenders hclosed] at hfailed
      cases hfailed

theorem Undisturbed.move {label : LoggerLabel ρ} (h : state.Undisturbed bufferSize)
    (hmove : Move state label next) : next.Undisturbed bufferSize := by
  have haccounted := h.accounted.move hmove
  cases hmove with
  | clone hsenders | dropSender hsenders =>
      exact ⟨haccounted, fun hreturned => absurd (h.ended hreturned) hsenders, h.refused⟩
  | log record hsenders => exact h.offer hsenders record
  | recv hwriter | written hwriter =>
      exact ⟨haccounted, nofun, fun _ => h.refused (by rw [hwriter]; rfl)⟩
  | finished hwriter hrecv =>
      obtain ⟨hopen, _⟩ := h.accounted.receiving hwriter
      obtain ⟨_, hclosed | hsenders⟩ := Channel.recv_finished.mp hrecv
      · exact absurd (hopen.symm.trans hclosed) Bool.false_ne_true
      · exact ⟨haccounted, fun _ => hsenders, fun _ => h.refused (by rw [hwriter]; rfl)⟩
  | writeFailed | report | countLost => exact ⟨haccounted, nofun, nofun⟩

theorem Undisturbed.ready (h : state.Undisturbed bufferSize) (ready : Nat) :
    ({ state with metrics := { state.metrics with ready := ready } } :
      LoggerState ρ).Undisturbed bufferSize where
  accounted :=
    { h.accounted with
      consistent := consistent_of_eq h.accounted.consistent rfl (fun _ => rfl) rfl rfl }
  ended := h.ended
  refused := h.refused

/-- A writer that ends without an error has written every record that the queue
had room for. -/
theorem Undisturbed.returned (h : state.Undisturbed bufferSize)
    (hreturned : state.writer = .Returned true) :
    state.calls =
        state.metrics.loggerWrittenTotal + state.metrics.loggerDroppedTotal .queueFull ∧
      state.metrics.loggerDroppedTotal .channelClosed = 0 ∧
      state.metrics.loggerDroppedTotal .writerError = 0 := by
  have hrefused := h.refused (by rw [hreturned]; rfl)
  have hcalls := h.accounted.calls
  have hwritten := h.accounted.written
  have hconsistent := h.accounted.consistent
  obtain ⟨lost, haccepted, hlost⟩ := h.accounted.accepted
  rw [hreturned] at hconsistent haccepted
  obtain ⟨_, hempty, _, hzero⟩ := hconsistent
  rw [hzero, List.length_eq_zero_iff] at hlost
  rw [hempty, hlost] at haccepted
  have hlength := congrArg List.length haccepted
  simp only [Writer.inProgress, List.append_nil] at hlength
  exact ⟨by omega, hrefused, hzero⟩

end LoggerState

end Minotaur
