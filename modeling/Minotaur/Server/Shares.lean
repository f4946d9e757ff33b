import Minotaur.Server

/-!
What one connection has put into the counters so far. Metrics add up label by
label; a rejected connection contributes one rejection, and a session what its
phase says. Every update of the program adds the difference of two shares.
-/

namespace Minotaur

open Ledger

namespace ServerMetrics

instance : Zero ServerMetrics := ⟨{}⟩

instance : Add ServerMetrics where
  add a b :=
    { connectionsTotal := a.connectionsTotal + b.connectionsTotal
      rejectedTotal := a.rejectedTotal + b.rejectedTotal
      activeSessions := a.activeSessions + b.activeSessions
      bytesReceivedTotal := a.bytesReceivedTotal + b.bytesReceivedTotal
      closedSessionsTotal := a.closedSessionsTotal + b.closedSessionsTotal
      eventsTotal := a.eventsTotal + b.eventsTotal }

section Fields

variable (a b : ServerMetrics)

@[simp] theorem connectionsTotal_zero : (0 : ServerMetrics).connectionsTotal = 0 := rfl
@[simp] theorem rejectedTotal_zero : (0 : ServerMetrics).rejectedTotal = 0 := rfl
@[simp] theorem activeSessions_zero : (0 : ServerMetrics).activeSessions = 0 := rfl
@[simp] theorem bytesReceivedTotal_zero : (0 : ServerMetrics).bytesReceivedTotal = 0 := rfl
@[simp] theorem closedSessionsTotal_zero : (0 : ServerMetrics).closedSessionsTotal = 0 := rfl
@[simp] theorem eventsTotal_zero : (0 : ServerMetrics).eventsTotal = 0 := rfl

@[simp] theorem connectionsTotal_add :
    (a + b).connectionsTotal = a.connectionsTotal + b.connectionsTotal := rfl
@[simp] theorem rejectedTotal_add :
    (a + b).rejectedTotal = a.rejectedTotal + b.rejectedTotal := rfl
@[simp] theorem activeSessions_add :
    (a + b).activeSessions = a.activeSessions + b.activeSessions := rfl
@[simp] theorem bytesReceivedTotal_add :
    (a + b).bytesReceivedTotal = a.bytesReceivedTotal + b.bytesReceivedTotal := rfl
@[simp] theorem closedSessionsTotal_add :
    (a + b).closedSessionsTotal = a.closedSessionsTotal + b.closedSessionsTotal := rfl
@[simp] theorem eventsTotal_add : (a + b).eventsTotal = a.eventsTotal + b.eventsTotal := rfl

end Fields

instance : AddCommMonoid ServerMetrics where
  add_assoc a b c := by ext <;> simp [Nat.add_assoc, Int.add_assoc]
  zero_add a := by ext <;> simp
  add_zero a := by ext <;> simp
  add_comm a b := by ext <;> simp [Nat.add_comm, Int.add_comm]
  nsmul := nsmulRec

/-! ### Shares -/

def rejection (protocol : Protocol) (reason : String) : ServerMetrics :=
  { rejectedTotal := Pi.single (protocol, reason) 1 }

def connection (protocol : Protocol) : ServerMetrics :=
  { connectionsTotal := Pi.single protocol 1 }

def guard (count : Int) : ServerMetrics := { activeSessions := count }

/-- One session closed for this reason, its bytes, and one for every event of
its record. -/
def closing (protocol : Protocol) (record : SessionRecord) : ServerMetrics :=
  { bytesReceivedTotal := Pi.single protocol record.bytesReceived
    closedSessionsTotal := Pi.single (protocol, record.closeReason) 1
    eventsTotal := fun label => record.events.countP fun event =>
      (protocol, event.kind) = label }

section Updates

variable (metrics : ServerMetrics) (endpoint : EndpointConfig)

theorem reject_eq_add (reason : String) :
    metrics.reject endpoint reason = metrics + rejection endpoint.protocol reason := by
  ext <;> simp [reject, rejection, Counters.inc_eq_add]

theorem start_eq_add :
    metrics.start endpoint = metrics + (connection endpoint.protocol + guard 1) := by
  ext <;> simp [start, connection, guard, Counters.inc_eq_add]

theorem dropGuard_eq_add : metrics.dropGuard = metrics + guard (-1) := by
  ext <;> simp [dropGuard, guard, Int.sub_eq_add_neg]

theorem guard_add_neg : guard 1 + guard (-1) = 0 := by
  ext <;> simp [guard]

theorem foldl_inc_eq_add (protocol : Protocol) (events : List SessionEvent)
    (counters : Counters (Protocol × String)) :
    events.foldl (fun counters event => counters.inc (protocol, event.kind)) counters =
      counters + fun label => events.countP fun event => (protocol, event.kind) = label := by
  induction events generalizing counters with
  | nil =>
      funext label
      simp
  | cons event rest ih =>
      rw [List.foldl_cons, ih, Counters.inc_eq_add]
      funext label
      by_cases hlabel : (protocol, event.kind) = label
      · subst hlabel
        simp only [Pi.add_apply, Pi.single_eq_same, List.countP_cons, decide_true, if_true]
        omega
      · simp [hlabel, Ne.symm hlabel]

theorem settle_eq_add (record : SessionRecord) :
    metrics.settle endpoint record = metrics + closing endpoint.protocol record := by
  rw [settle, foldl_inc_eq_add]
  ext <;> simp [closing, Counters.inc_eq_add, Counters.incBy_eq_add]

end Updates

end ServerMetrics

/-! ### Phases -/

/-- The closing counters include the session. -/
def SessionPhase.counted : SessionPhase → Bool
  | .Counted | .Logged | .Released | .Ended => true
  | _ => false

/-- `Logger::log` was called for the session. -/
def SessionPhase.logged : SessionPhase → Bool
  | .Logged | .Released | .Ended => true
  | _ => false

/-- The session is over: `handle_session` has returned. -/
def SessionPhase.ended : SessionPhase → Bool
  | .Released | .Ended => true
  | _ => false

/-- The accepted connection a loop is still deciding on. -/
@[simp] def LoopPhase.handling : LoopPhase → List Arrival
  | .Accepted arrival | .Checking arrival | .Acquiring arrival | .Spawning arrival => [arrival]
  | _ => []

/-- The connection has passed the ignored addresses. -/
@[simp] def LoopPhase.checked : LoopPhase → List Arrival
  | .Checking arrival | .Acquiring arrival | .Spawning arrival => [arrival]
  | _ => []

def Settled.share (settled : Settled) : ServerMetrics :=
  match settled.fate with
  | .Rejected reason => .rejection settled.arrival.endpoint.protocol reason
  | .Spawned => 0

namespace SessionTask

def permits (task : SessionTask) : Nat := if task.phase.holdsPermit then 1 else 0

variable (canonicalReason : UInt16 → Option String) (config : Config) (task : SessionTask)

def record : SessionRecord := task.arrival.record canonicalReason config

def share : ServerMetrics :=
  match task.phase with
  | .Spawned | .Unwound => 0
  | .Active => .connection task.arrival.endpoint.protocol + .guard 1
  | .Counted | .Logged =>
      .connection task.arrival.endpoint.protocol + .guard 1 +
        .closing task.arrival.endpoint.protocol (task.record canonicalReason config)
  | .Released | .Ended =>
      .connection task.arrival.endpoint.protocol +
        .closing task.arrival.endpoint.protocol (task.record canonicalReason config)

def logged : List SessionRecord :=
  if task.phase.logged then [task.record canonicalReason config] else []

end SessionTask

end Minotaur
