import Minotaur.Base.Future
import Minotaur.Session

/-!
One session's network, as its handler sees it. The client's bytes wait in
`incoming`; each read takes some of them, as many as `chunks` says but at least
one and no more than fit. When none are left the `terminal` event happens.
Writes succeed or fail as `writes` says. The supervisor drops the handler at
the await at which `patience` is used up; until then every await completes.
`sent` lists the messages written in full.
-/

namespace Minotaur

/-- What a read finds when the client sends no more. -/
inductive Terminal where
  | Eof
  | Timeout
  | Error
deriving DecidableEq, Repr

inductive WriteResult where
  | Sent
  | TimedOut
  | Failed
deriving DecidableEq, Repr

structure Wire where
  incoming : List UInt8
  chunks : List Nat := []
  terminal : Terminal := .Eof
  writes : List WriteResult := []
  patience : Option Nat := none
  sent : List (List UInt8) := []

structure SessionWorld where
  wire : Wire
  session : SessionState

abbrev SessionIo := Future SessionWorld

/-- One await: it completes with `act`, unless the supervisor drops the
handler here. -/
def awaiting {α : Type} (act : SessionWorld → α × SessionWorld) : SessionIo α := fun world =>
  match world.wire.patience with
  | some 0 => .dropped world
  | patience =>
      let world := { world with wire := { world.wire with patience := patience.map (· - 1) } }
      .done (act world).1 (act world).2

/-- Changes the session without suspending. -/
def onSession (change : SessionState → SessionState) : SessionIo PUnit :=
  Future.modify fun world => { world with session := change world.session }

/-- The size of the next chunk of `waiting` bytes. -/
def chunkSize (chunks : List Nat) (available waiting : Nat) : Nat :=
  max 1 (min (chunks.headD available) (min available waiting))

/-- `stream.read` under the idle timeout, recorded in the session. -/
def receive (available : Nat) : SessionIo (Except CloseReason (Option (List UInt8))) :=
  awaiting fun world =>
    if world.wire.incoming = [] then
      match world.wire.terminal with
      | .Eof => (.ok none, world)
      | .Timeout => (.error .Timeout, world)
      | .Error => (.error .Error, world)
    else
      let n := chunkSize world.wire.chunks available world.wire.incoming.length
      let bytes := world.wire.incoming.take n
      (.ok (some bytes),
        { world with
          wire := { world.wire with
            incoming := world.wire.incoming.drop n
            chunks := world.wire.chunks.tail }
          session := world.session.recordBytes bytes })

/-- `SessionIo::read` into a buffer of `bufLen` bytes; the bytes it put there. -/
def read (bufLen : Nat) : SessionIo (Except CloseReason (Option (List UInt8))) := do
  let available := min (← Future.get).session.remainingInput bufLen
  if available = 0 then pure (.error .ByteLimit) else receive available

/-- `SessionIo::write`. -/
def write (message : List UInt8) : SessionIo (Except CloseReason PUnit) :=
  awaiting fun world =>
    let wire := { world.wire with writes := world.wire.writes.tail }
    match world.wire.writes.headD .Sent with
    | .Sent => (.ok ⟨⟩, { world with wire := { wire with sent := wire.sent ++ [message] } })
    | .TimedOut => (.error .Timeout, { world with wire := wire })
    | .Failed => (.error .Error, { world with wire := wire })

/-- Bytes still to come: every read that returns some lowers it. -/
def unread (world : SessionWorld) : Nat := world.wire.incoming.length

/-! ### Specifications -/

section Rules

variable {drop : SessionWorld → Prop} {world : SessionWorld}

@[simp] theorem wp_onSession {complete : PUnit → SessionWorld → Prop}
    (change : SessionState → SessionState) :
    Future.wp (onSession change) complete drop world ↔
      complete ⟨⟩ { world with session := change world.session } := Iff.rfl

theorem wp_awaiting {α : Type} {act : SessionWorld → α × SessionWorld}
    {complete : α → SessionWorld → Prop} (hdrop : drop world)
    (hact : ∀ patience, complete
      (act { world with wire := { world.wire with patience := patience } }).1
      (act { world with wire := { world.wire with patience := patience } }).2) :
    Future.wp (awaiting act) complete drop world := by
  unfold Future.wp awaiting
  cases hpatience : world.wire.patience with
  | none => simpa [hpatience] using hact none
  | some left =>
      cases left with
      | zero => simpa [hpatience] using hdrop
      | succ left => simpa [hpatience] using hact (some left)

theorem chunkSize_pos (chunks : List Nat) (available waiting : Nat) :
    1 ≤ chunkSize chunks available waiting := Nat.le_max_left _ _

theorem chunkSize_le {available : Nat} (hpos : 0 < available) (chunks : List Nat)
    (waiting : Nat) : chunkSize chunks available waiting ≤ available := by
  unfold chunkSize
  omega

/-- Everything a read can return. -/
theorem wp_read {bufLen : Nat}
    {complete : Except CloseReason (Option (List UInt8)) → SessionWorld → Prop}
    (hdrop : drop world)
    (hend : ∀ patience, complete (.ok none)
      { world with wire := { world.wire with patience := patience } })
    (herror : ∀ reason patience, reason = .ByteLimit ∨ reason = .Timeout ∨ reason = .Error →
      complete (.error reason) { world with wire := { world.wire with patience := patience } })
    (hbytes : ∀ (bytes rest : List UInt8) chunks patience, bytes ≠ [] → bytes.length ≤ bufLen →
      bytes.length ≤ world.session.remainingInput → world.wire.incoming = bytes ++ rest →
      complete (.ok (some bytes))
        { world with
          wire := { world.wire with incoming := rest, chunks := chunks, patience := patience }
          session := world.session.recordBytes bytes }) :
    Future.wp (read bufLen) complete drop world := by
  unfold read
  simp only [Future.wp_bind, Future.wp_get]
  split_ifs with hnone
  · simpa using herror .ByteLimit world.wire.patience (Or.inl rfl)
  · unfold receive
    apply wp_awaiting hdrop
    intro patience
    dsimp only
    split_ifs with hempty
    · split
      · exact hend patience
      · exact herror .Timeout patience (by simp)
      · exact herror .Error patience (by simp)
    · have hpos := chunkSize_pos world.wire.chunks (min world.session.remainingInput bufLen)
        world.wire.incoming.length
      have hle := chunkSize_le (Nat.pos_of_ne_zero hnone) world.wire.chunks
        world.wire.incoming.length
      apply hbytes
      · intro hnil
        rcases List.take_eq_nil_iff.mp hnil with hzero | hzero
        · omega
        · exact hempty hzero
      · rw [List.length_take]
        omega
      · rw [List.length_take]
        omega
      · exact (List.take_append_drop _ _).symm

theorem length_lt_of_read {bytes rest : List UInt8} {wire : Wire} (hnonempty : bytes ≠ [])
    (hincoming : wire.incoming = bytes ++ rest) : rest.length < wire.incoming.length := by
  have hpos := List.length_pos_of_ne_nil hnonempty
  rw [hincoming, List.length_append]
  omega

/-- A write sends the message or fails. -/
theorem wp_write_sent {message : List UInt8}
    {complete : Except CloseReason PUnit → SessionWorld → Prop} (hdrop : drop world)
    (hwritten : ∀ result wire, wire.incoming = world.wire.incoming →
      (result = .ok ⟨⟩ ∧ wire.sent = world.wire.sent ++ [message] ∨
        (result = .error .Timeout ∨ result = .error .Error) ∧ wire.sent = world.wire.sent) →
      complete result { world with wire := wire }) :
    Future.wp (write message) complete drop world := by
  unfold write
  apply wp_awaiting hdrop
  intro patience
  dsimp only
  split
  · exact hwritten _ _ rfl (Or.inl ⟨rfl, rfl⟩)
  · exact hwritten _ _ rfl (Or.inr ⟨Or.inl rfl, rfl⟩)
  · exact hwritten _ _ rfl (Or.inr ⟨Or.inr rfl, rfl⟩)

theorem wp_write {message : List UInt8}
    {complete : Except CloseReason PUnit → SessionWorld → Prop} (hdrop : drop world)
    (hwritten : ∀ result wire, wire.incoming = world.wire.incoming →
      (result = .ok ⟨⟩ ∨ result = .error .Timeout ∨ result = .error .Error) →
      complete result { world with wire := wire }) :
    Future.wp (write message) complete drop world := by
  apply wp_write_sent hdrop
  intro result wire hincoming hresult
  exact hwritten result wire hincoming (hresult.imp And.left And.left)

end Rules

end Minotaur
