import Minotaur.Base.Channel
import Minotaur.Base.Steps

/-!
`Logger::log` from any number of clones against `run_writer`. A label is one
atomic step of some task. Producers only send; the writer receives a record,
writes it to all its sinks, and on the first failure closes the queue, reports
the error and charges what it leaves behind. Those are three steps, so that
producers may come in between. What a write does to a file is not looked at
here: `written` and `writeFailed` are its two results, the second also standing
for the deadline. `ρ` is the record; the queue never looks into one.

`calls`, `accepted` and `flushed` are not in the program. They are the history
the counters are compared with.
-/

namespace Minotaur

inductive DropReason where
  | queueFull
  | channelClosed
  | writerError
deriving DecidableEq, Repr

/-- The label of `logger_dropped_total`. -/
def DropReason.asStr : DropReason → String
  | .queueFull => "queue_full"
  | .channelClosed => "channel_closed"
  | .writerError => "writer_error"

structure LoggerMetrics where
  ready : Nat := 0
  loggerWrittenTotal : Nat := 0
  loggerDroppedTotal : DropReason → Nat := fun _ => 0
  loggerErrorsTotal : Nat := 0

namespace LoggerMetrics

def drop (metrics : LoggerMetrics) (reason : DropReason) (count : Nat) : LoggerMetrics :=
  { metrics with
    loggerDroppedTotal := fun other =>
      if other = reason then metrics.loggerDroppedTotal other + count
      else metrics.loggerDroppedTotal other }

def dropped (metrics : LoggerMetrics) : Nat :=
  metrics.loggerDroppedTotal .queueFull + metrics.loggerDroppedTotal .channelClosed +
    metrics.loggerDroppedTotal .writerError

@[simp] theorem drop_same (metrics : LoggerMetrics) (reason : DropReason) (count : Nat) :
    (metrics.drop reason count).loggerDroppedTotal reason =
      metrics.loggerDroppedTotal reason + count := by simp [drop]

theorem drop_other (metrics : LoggerMetrics) {reason other : DropReason} (hne : other ≠ reason)
    (count : Nat) :
    (metrics.drop reason count).loggerDroppedTotal other =
      metrics.loggerDroppedTotal other := by simp [drop, hne]

@[simp] theorem drop_written (metrics : LoggerMetrics) (reason : DropReason) (count : Nat) :
    (metrics.drop reason count).loggerWrittenTotal = metrics.loggerWrittenTotal := rfl

@[simp] theorem drop_errors (metrics : LoggerMetrics) (reason : DropReason) (count : Nat) :
    (metrics.drop reason count).loggerErrorsTotal = metrics.loggerErrorsTotal := rfl

@[simp] theorem dropped_drop (metrics : LoggerMetrics) (reason : DropReason) (count : Nat) :
    (metrics.drop reason count).dropped = metrics.dropped + count := by
  cases reason <;> simp [dropped, drop] <;> omega

end LoggerMetrics

variable {ρ : Type*}

/-- `Logger::log`: drop-newest on overflow, never waits. -/
def log (tx : Channel ρ) (metrics : LoggerMetrics) (record : ρ) :
    Bool × Channel ρ × LoggerMetrics :=
  match tx.trySend record with
  | .ok tx => (true, tx, metrics)
  | .error .Full => (false, tx, metrics.drop .queueFull 1)
  | .error .Closed => (false, tx, metrics.drop .channelClosed 1)

/-- Where `run_writer` is. -/
inductive Writer (ρ : Type*) where
  /-- At `rx.recv().await`. -/
  | Receiving
  /-- Inside the write future of this record. -/
  | Writing (record : ρ)
  /-- The write failed and the queue is closed. -/
  | Closed (record : ρ)
  /-- The error is reported; the losses are not counted yet. -/
  | Reported (record : ρ)
  | Returned (ok : Bool)

/-- The record the writer holds. -/
def Writer.inProgress : Writer ρ → List ρ
  | .Receiving => []
  | .Writing record => [record]
  | .Closed record => [record]
  | .Reported record => [record]
  | .Returned _ => []

structure LoggerState (ρ : Type*) where
  channel : Channel ρ
  writer : Writer ρ
  metrics : LoggerMetrics
  calls : Nat
  accepted : List ρ
  flushed : List ρ

/-- `Logger::spawn` after its sink is open. -/
def LoggerState.spawn (ρ : Type*) (bufferSize : Nat) : LoggerState ρ :=
  ⟨Channel.new bufferSize, .Receiving, {}, 0, [], []⟩

inductive LoggerLabel (ρ : Type*) where
  | clone
  | dropSender
  | log (record : ρ)
  | recv
  | written
  | writeFailed
  | report
  | countLost

/-- The record of a call of `log`. -/
def LoggerLabel.offered : LoggerLabel ρ → Option ρ
  | .log record => some record
  | _ => none

/-- A write to all sinks succeeds. -/
def LoggerLabel.writes : LoggerLabel ρ → Bool
  | .written => true
  | _ => false

namespace LoggerState

/-- One call of `Logger::log`, with what it returned kept in the history. -/
def offer (state : LoggerState ρ) (record : ρ) : LoggerState ρ :=
  let (ok, tx, metrics) := Minotaur.log state.channel state.metrics record
  { state with
    channel := tx
    metrics := metrics
    calls := state.calls + 1
    accepted := if ok then state.accepted ++ [record] else state.accepted }

@[simp] theorem calls_offer (state : LoggerState ρ) (record : ρ) :
    (state.offer record).calls = state.calls + 1 := rfl

def step (state : LoggerState ρ) : LoggerLabel ρ → Option (LoggerState ρ)
  | .clone =>
      if state.channel.senders = 0 then none
      else some { state with channel := state.channel.cloneSender }
  | .dropSender =>
      if state.channel.senders = 0 then none
      else some { state with channel := state.channel.dropSender }
  | .log record => if state.channel.senders = 0 then none else some (state.offer record)
  | .recv =>
      match state.writer with
      | .Receiving =>
          match state.channel.recv with
          | .value record rx => some { state with channel := rx, writer := .Writing record }
          -- The `while let` ends: every producer is gone and nothing is queued.
          | .finished =>
              some { state with channel := state.channel.dropReceiver, writer := .Returned true }
          | .pending => none
      | _ => none
  | .written =>
      match state.writer with
      | .Writing record =>
          some { state with
            writer := .Receiving
            metrics := { state.metrics with
              loggerWrittenTotal := state.metrics.loggerWrittenTotal + 1 }
            flushed := state.flushed ++ [record] }
      | _ => none
  | .writeFailed =>
      match state.writer with
      | .Writing record =>
          some { state with channel := state.channel.close, writer := .Closed record }
      | _ => none
  | .report =>
      match state.writer with
      | .Closed record =>
          some { state with
            writer := .Reported record
            metrics := { state.metrics with
              ready := 0
              loggerErrorsTotal := state.metrics.loggerErrorsTotal + 1 } }
      | _ => none
  | .countLost =>
      match state.writer with
      | .Reported _ =>
          some { state with
            channel := state.channel.dropReceiver
            writer := .Returned false
            metrics := state.metrics.drop .writerError (1 + state.channel.len) }
      | _ => none

end LoggerState

/-! ### Other records -/

section Map

variable {ρ' : Type*} (change : ρ → ρ')

def Writer.map : Writer ρ → Writer ρ'
  | .Receiving => .Receiving
  | .Writing record => .Writing (change record)
  | .Closed record => .Closed (change record)
  | .Reported record => .Reported (change record)
  | .Returned ok => .Returned ok

def LoggerLabel.map : LoggerLabel ρ → LoggerLabel ρ'
  | .clone => .clone
  | .dropSender => .dropSender
  | .log record => .log (change record)
  | .recv => .recv
  | .written => .written
  | .writeFailed => .writeFailed
  | .report => .report
  | .countLost => .countLost

namespace LoggerState

def map (state : LoggerState ρ) : LoggerState ρ' where
  channel := state.channel.map change
  writer := state.writer.map change
  metrics := state.metrics
  calls := state.calls
  accepted := state.accepted.map change
  flushed := state.flushed.map change

theorem offer_map (state : LoggerState ρ) (record : ρ) :
    (state.map change).offer (change record) = (state.offer record).map change := by
  have hsend := state.channel.trySend_map change record
  unfold offer map Minotaur.log
  rw [hsend]
  cases state.channel.trySend record with
  | ok tx => simp [Except.map]
  | error error => cases error <;> rfl

/-- The queue treats all records alike. -/
theorem step_map (state : LoggerState ρ) (label : LoggerLabel ρ) :
    (state.map change).step (label.map change) = (state.step label).map (map change) := by
  obtain ⟨channel, writer, metrics, calls, accepted, flushed⟩ := state
  cases label with
  | clone | dropSender =>
      simp only [step, LoggerLabel.map]
      rw [apply_ite (Option.map (map change))]
      rfl
  | log record =>
      have hoffer := offer_map change ⟨channel, writer, metrics, calls, accepted, flushed⟩ record
      simp only [step, LoggerLabel.map, hoffer]
      rw [apply_ite (Option.map (map change))]
      rfl
  | recv =>
      cases writer with
      | Receiving =>
          simp only [step, map, LoggerLabel.map, Writer.map, Channel.recv_map]
          cases channel.recv with
          | value record rx => rfl
          | finished => rfl
          | pending => rfl
      | Writing | Closed | Reported | Returned => rfl
  | written =>
      cases writer with
      | Writing record => simp [step, map, LoggerLabel.map, Writer.map]
      | Receiving | Closed | Reported | Returned => rfl
  | writeFailed | report =>
      cases writer <;> rfl
  | countLost =>
      cases writer with
      | Reported record =>
          simp [step, map, LoggerLabel.map, Writer.map, Channel.len, Channel.map,
            Channel.dropReceiver]
      | Receiving | Writing | Closed | Returned => rfl

end LoggerState

end Map

end Minotaur
