import Minotaur.Protocols.Http.Events
import Minotaur.Protocols.Ssh.Events
import Minotaur.Protocols.Telnet.Events

/-!
One accepted connection from `handle_session`: the supervisor polls the
shutdown token and the lifetime timer before the handler, so a session can end
at any await of the handler and also before its first instruction. A
`Connection` is everything the program does not decide.
-/

namespace Minotaur

open Future Net

/-- `protocols::handle`. -/
def Protocols.handle (canonicalReason : UInt16 → Option String) (ep : EndpointConfig) :
    SessionIo CloseReason :=
  match ep.protocol with
  | .Raw => Raw.handle ep
  | .Ssh => Ssh.handle ep
  | .Http => Http.handle canonicalReason ep
  | .Telnet => Telnet.handle ep

/-- The two other branches of the supervising select. -/
inductive Interrupt where
  | Shutdown
  | LifetimeLimit
deriving DecidableEq, Repr

def Interrupt.reason : Interrupt → CloseReason
  | .Shutdown => .Shutdown
  | .LifetimeLimit => .LifetimeLimit

/-- The handler under its supervisor, from the first poll of the select. -/
def supervised (canonicalReason : UInt16 → Option String) (ep : EndpointConfig) :
    SessionIo CloseReason := do
  awaiting fun world => (PUnit.unit, world)
  Protocols.handle canonicalReason ep

/-- The accepted stream and the clock and random readings of its session. -/
structure Connection where
  id : BitVec 128
  startedAt : Nat
  finishedAt : Nat
  ts : Int
  peer : SocketAddr
  localAddr : Option SocketAddr
  wire : Wire
  interrupt : Interrupt := .Shutdown

namespace Connection

variable (canonicalReason : UInt16 → Option String) (conn : Connection) (cfg : Config)
  (ep : EndpointConfig)

def session : SessionState :=
  .new conn.id conn.startedAt conn.ts ep conn.peer (conn.localAddr.getD ep.bind) cfg

def world : SessionWorld := { wire := conn.wire, session := conn.session cfg ep }

def run : Outcome SessionWorld CloseReason := supervised canonicalReason ep (conn.world cfg ep)

def reason : Outcome SessionWorld CloseReason → CloseReason
  | .done reason _ => reason
  | .dropped _ => conn.interrupt.reason

/-- The record that goes to `Logger::log`. -/
def record : SessionRecord :=
  let outcome := conn.run canonicalReason cfg ep
  outcome.world.session.finalize conn.finishedAt (conn.reason outcome)

variable {cfg ep}

theorem fresh_session (hcfg : cfg.Accepted) : (conn.session cfg ep).Fresh :=
  SessionState.fresh_new hcfg _ _ _ _ _ _

theorem wp_run {complete : CloseReason → SessionWorld → Prop} {drop : SessionWorld → Prop}
    (hcfg : cfg.Accepted)
    (hdrop : ∀ world, Progress (conn.session cfg ep) conn.wire.incoming [] [] world → drop world)
    (hhandle : ∀ world, Progress (conn.session cfg ep) conn.wire.incoming [] [] world →
      world.wire.sent = conn.wire.sent →
      wp (Protocols.handle canonicalReason ep) complete drop world) :
    wp (supervised canonicalReason ep) complete drop (conn.world cfg ep) := by
  have hinit : Progress (conn.session cfg ep) conn.wire.incoming [] [] (conn.world cfg ep) :=
    @Progress.init (conn.world cfg ep) (conn.fresh_session hcfg)
  unfold supervised
  rw [wp_bind]
  apply wp_awaiting (hdrop _ hinit)
  intro patience
  exact hhandle _ (hinit.frame rfl rfl) rfl

theorem recorded (hcfg : cfg.Accepted) : Recorded (conn.session cfg ep) conn.wire.incoming
    (conn.run canonicalReason cfg ep).world := by
  apply wp_world
  apply conn.wp_run canonicalReason hcfg
  · intro world hprogress
    exact hprogress.recorded_nil
  · intro world hprogress _
    unfold Protocols.handle
    split
    · exact Raw.wp_handle hprogress
    · exact Ssh.wp_handle hprogress
    · exact Http.wp_handle canonicalReason hprogress
    · apply wp_mono (Telnet.wp_handle hprogress rfl)
      · intro reason after hlogged
        exact hlogged.toRecorded
      · intro after hlogged
        exact hlogged.toRecorded

/-- The record of any session is the capture of the bytes it received, a
prefix of the client's stream within the budget, and of at most four fitting
events. -/
theorem record_eq (hcfg : cfg.Accepted) :
    ∃ received pushed reason, received <+: conn.wire.incoming ∧
      received.length ≤ cfg.server.maxReadBytesPerSession ∧ pushed.length ≤ 4 ∧
      (∀ event ∈ pushed, event.Fits) ∧
      conn.record canonicalReason cfg ep =
        ((conn.session cfg ep).capture received pushed).finalize conn.finishedAt reason := by
  obtain ⟨received, pushed, hprogress, hcount, hfits⟩ :=
    @recorded canonicalReason conn cfg ep hcfg
  refine ⟨received, pushed, conn.reason (conn.run canonicalReason cfg ep),
    ⟨_, hprogress.stream⟩, hprogress.budget, hcount, hfits, ?_⟩
  unfold record
  dsimp only
  rw [hprogress.session]

end Connection

/-! ### Sample inputs -/

/-- A decoy on the loopback address. -/
def decoy (protocol : Protocol) : EndpointConfig :=
  { bind := .V4 0x7f000001#32 2222, protocol := protocol }

/-- A sensor with one decoy, all else by default. -/
def sensorOf (protocol : Protocol) : Config := { endpoints := [decoy protocol] }

/-- A client that sends `text` and then closes, unless the supervisor ends the
session before. -/
def client (text : String) (patience : Option Nat) : Connection where
  id := 0
  startedAt := 0
  finishedAt := 0
  ts := 0
  peer := .V4 0xc0000201#32 40000
  localAddr := some (.V4 0xc0000202#32 2222)
  wire := { incoming := bytes text, patience := patience }

end Minotaur
