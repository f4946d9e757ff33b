import Minotaur.Logger.Queue

/-!
What a step of the log queue can be, and what a call of `log` can do to it. The
arguments about the queue are by cases on these.
-/

namespace Minotaur

variable {ρ : Type*}

namespace LoggerState

/-- What one call of `log` can do. -/
theorem offer_cases (state : LoggerState ρ) (record : ρ) :
    (state.channel.closed = false ∧ ∃ tx, state.channel.trySend record = .ok tx ∧
      state.offer record = { state with
        channel := tx, calls := state.calls + 1, accepted := state.accepted ++ [record] }) ∨
    (state.channel.closed = false ∧ state.channel.queue.length = state.channel.capacity ∧
      state.offer record = { state with
        calls := state.calls + 1, metrics := state.metrics.drop .queueFull 1 }) ∨
    (state.channel.closed = true ∧
      state.offer record = { state with
        calls := state.calls + 1, metrics := state.metrics.drop .channelClosed 1 }) := by
  cases hsend : state.channel.trySend record with
  | ok tx =>
      exact Or.inl ⟨(Channel.trySend_ok hsend).1, tx, rfl, by simp [offer, log, hsend]⟩
  | error reason =>
      cases reason with
      | Full =>
          obtain ⟨hopen, hfull⟩ := Channel.trySend_full hsend
          exact Or.inr (Or.inl ⟨hopen, hfull, by simp [offer, log, hsend]⟩)
      | Closed =>
          exact Or.inr (Or.inr ⟨Channel.trySend_closed.mp hsend, by simp [offer, log, hsend]⟩)

inductive Move (state : LoggerState ρ) : LoggerLabel ρ → LoggerState ρ → Prop where
  | clone (hsenders : state.channel.senders ≠ 0) :
      Move state .clone { state with channel := state.channel.cloneSender }
  | dropSender (hsenders : state.channel.senders ≠ 0) :
      Move state .dropSender { state with channel := state.channel.dropSender }
  | log (record : ρ) (hsenders : state.channel.senders ≠ 0) :
      Move state (.log record) (state.offer record)
  | recv {record : ρ} {rx : Channel ρ} (hwriter : state.writer = .Receiving)
      (hrecv : state.channel.recv = .value record rx) :
      Move state .recv { state with channel := rx, writer := .Writing record }
  | finished (hwriter : state.writer = .Receiving) (hrecv : state.channel.recv = .finished) :
      Move state .recv
        { state with channel := state.channel.dropReceiver, writer := .Returned true }
  | written {record : ρ} (hwriter : state.writer = .Writing record) :
      Move state .written { state with
        writer := .Receiving
        metrics := { state.metrics with
          loggerWrittenTotal := state.metrics.loggerWrittenTotal + 1 }
        flushed := state.flushed ++ [record] }
  | writeFailed {record : ρ} (hwriter : state.writer = .Writing record) :
      Move state .writeFailed
        { state with channel := state.channel.close, writer := .Closed record }
  | report {record : ρ} (hwriter : state.writer = .Closed record) :
      Move state .report { state with
        writer := .Reported record
        metrics := { state.metrics with
          ready := 0
          loggerErrorsTotal := state.metrics.loggerErrorsTotal + 1 } }
  | countLost {record : ρ} (hwriter : state.writer = .Reported record) :
      Move state .countLost { state with
        channel := state.channel.dropReceiver
        writer := .Returned false
        metrics := state.metrics.drop .writerError (1 + state.channel.len) }

theorem move_of_step {state next : LoggerState ρ} {label : LoggerLabel ρ}
    (hstep : state.step label = some next) : Move state label next := by
  unfold step at hstep
  split at hstep
  · split_ifs at hstep with hsenders
    obtain rfl := Option.some.inj hstep
    exact .clone hsenders
  · split_ifs at hstep with hsenders
    obtain rfl := Option.some.inj hstep
    exact .dropSender hsenders
  · split_ifs at hstep with hsenders
    obtain rfl := Option.some.inj hstep
    exact .log _ hsenders
  · split at hstep
    · rename_i hwriter
      split at hstep
      · rename_i hrecv
        obtain rfl := Option.some.inj hstep
        exact .recv hwriter hrecv
      · rename_i hrecv
        obtain rfl := Option.some.inj hstep
        exact .finished hwriter hrecv
      · cases hstep
    · cases hstep
  · split at hstep
    · rename_i hwriter
      obtain rfl := Option.some.inj hstep
      exact .written hwriter
    · cases hstep
  · split at hstep
    · rename_i hwriter
      obtain rfl := Option.some.inj hstep
      exact .writeFailed hwriter
    · cases hstep
  · split at hstep
    · rename_i hwriter
      obtain rfl := Option.some.inj hstep
      exact .report hwriter
    · cases hstep
  · split at hstep
    · rename_i hwriter
      obtain rfl := Option.some.inj hstep
      exact .countLost hwriter
    · cases hstep

end LoggerState

end Minotaur
