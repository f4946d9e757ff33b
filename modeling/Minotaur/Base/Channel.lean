import Mathlib.Tactic.Common

/-!
A bounded multi-producer queue with one receiver. Every operation is atomic.
Sending never waits: it is refused when the queue is closed or, otherwise,
when it holds `capacity` values. Receiving waits while the queue is empty and
somebody could still send. Closing keeps what is already queued.
-/

structure Channel (ρ : Type*) where
  capacity : Nat
  queue : List ρ
  closed : Bool
  senders : Nat
  bounded : queue.length ≤ capacity

namespace Channel

variable {ρ : Type*}

inductive TrySendError where
  | Full
  | Closed
deriving DecidableEq, Repr

def new (capacity : Nat) : Channel ρ := ⟨capacity, [], false, 1, Nat.zero_le _⟩

def trySend (channel : Channel ρ) (value : ρ) : Except TrySendError (Channel ρ) :=
  if channel.closed then .error .Closed
  else if hroom : channel.queue.length < channel.capacity then
    .ok { channel with
      queue := channel.queue ++ [value]
      bounded := by rw [List.length_append, List.length_singleton]; omega }
  else .error .Full

/-- What a receive finds: a value, the end of the stream, or nothing yet. -/
inductive Received (ρ : Type*) where
  | value (value : ρ) (channel : Channel ρ)
  | finished
  | pending

def recv (channel : Channel ρ) : Received ρ :=
  match hqueue : channel.queue with
  | value :: rest =>
      .value value { channel with
        queue := rest
        bounded := by
          have hbounded := channel.bounded
          rw [hqueue, List.length_cons] at hbounded
          omega }
  | [] => if channel.closed ∨ channel.senders = 0 then .finished else .pending

def close (channel : Channel ρ) : Channel ρ := { channel with closed := true }

def len (channel : Channel ρ) : Nat := channel.queue.length

/-- The receiver goes away with everything that is still queued. -/
def dropReceiver (channel : Channel ρ) : Channel ρ :=
  { channel with queue := [], closed := true, bounded := Nat.zero_le _ }

def cloneSender (channel : Channel ρ) : Channel ρ := { channel with senders := channel.senders + 1 }

def dropSender (channel : Channel ρ) : Channel ρ := { channel with senders := channel.senders - 1 }

/-! ### Other values -/

section Map

variable {ρ' : Type*} (change : ρ → ρ')

def map (channel : Channel ρ) : Channel ρ' :=
  { channel with
    queue := channel.queue.map change
    bounded := by rw [List.length_map]; exact channel.bounded }

def Received.map : Received ρ → Received ρ'
  | .value head channel => .value (change head) (channel.map change)
  | .finished => .finished
  | .pending => .pending

theorem trySend_map (channel : Channel ρ) (value : ρ) :
    (channel.map change).trySend (change value) =
      (channel.trySend value).map (Channel.map change) := by
  have hlength : (channel.map change).queue.length = channel.queue.length := List.length_map _
  unfold trySend
  change (if channel.closed then _ else _) = _
  by_cases hclosed : channel.closed = true
  · rw [if_pos hclosed, if_pos hclosed]
    rfl
  · rw [if_neg hclosed, if_neg hclosed]
    by_cases hroom : channel.queue.length < channel.capacity
    · have hroom' : (channel.map change).queue.length < (channel.map change).capacity := by
        rwa [hlength]
      rw [dif_pos hroom, dif_pos hroom']
      simp [Except.map, map]
    · have hroom' : ¬(channel.map change).queue.length < (channel.map change).capacity := by
        rwa [hlength]
      rw [dif_neg hroom, dif_neg hroom']
      rfl

theorem recv_map (channel : Channel ρ) :
    (channel.map change).recv = channel.recv.map change := by
  obtain ⟨capacity, queue, closed, senders, hbounded⟩ := channel
  cases queue with
  | nil =>
      simp only [recv, map, List.map_nil]
      split_ifs <;> rfl
  | cons value rest => rfl

end Map

/-! ### What the operations do to the queue -/

theorem trySend_ok {channel next : Channel ρ} {value : ρ}
    (hsend : channel.trySend value = .ok next) :
    channel.closed = false ∧ next.queue = channel.queue ++ [value] ∧
      next.closed = false ∧ next.senders = channel.senders ∧ next.capacity = channel.capacity := by
  unfold trySend at hsend
  cases hclosed : channel.closed with
  | true => simp [hclosed] at hsend
  | false =>
      rw [hclosed] at hsend
      split_ifs at hsend
      · exact absurd ‹_› Bool.false_ne_true
      · obtain rfl := Except.ok.inj hsend
        exact ⟨rfl, rfl, rfl, rfl, rfl⟩

theorem trySend_full {channel : Channel ρ} {value : ρ}
    (hsend : channel.trySend value = .error .Full) :
    channel.closed = false ∧ channel.queue.length = channel.capacity := by
  unfold trySend at hsend
  split_ifs at hsend with hclosed hroom
  · simp at hsend
  · have hbounded := channel.bounded
    exact ⟨by simpa using hclosed, by omega⟩

theorem trySend_closed {channel : Channel ρ} {value : ρ} :
    channel.trySend value = .error .Closed ↔ channel.closed = true := by
  unfold trySend
  cases channel.closed with
  | true => simp
  | false => by_cases hroom : channel.queue.length < channel.capacity <;> simp [hroom]

/-- Values come out in the order they were sent. -/
theorem recv_value {channel next : Channel ρ} {value : ρ}
    (hrecv : channel.recv = .value value next) :
    channel.queue = value :: next.queue ∧ next.closed = channel.closed ∧
      next.senders = channel.senders ∧ next.capacity = channel.capacity := by
  unfold recv at hrecv
  split at hrecv
  · injection hrecv with hvalue hnext
    subst hvalue hnext
    exact ⟨‹_›, rfl, rfl, rfl⟩
  · split_ifs at hrecv

theorem recv_finished {channel : Channel ρ} :
    channel.recv = .finished ↔
      channel.queue = [] ∧ (channel.closed = true ∨ channel.senders = 0) := by
  unfold recv
  split
  · simp [‹channel.queue = _ :: _›]
  · rename_i hempty
    by_cases hover : channel.closed = true ∨ channel.senders = 0 <;> simp [hempty, hover]

/-- A receive waits only while somebody could still send. -/
theorem recv_pending {channel : Channel ρ} (hrecv : channel.recv = .pending) :
    channel.queue = [] ∧ channel.closed = false ∧ channel.senders ≠ 0 := by
  unfold recv at hrecv
  split at hrecv
  · cases hrecv
  · split_ifs at hrecv with hover
    obtain ⟨hopen, hsenders⟩ := not_or.mp hover
    exact ⟨‹_›, by simpa using hopen, hsenders⟩

end Channel
