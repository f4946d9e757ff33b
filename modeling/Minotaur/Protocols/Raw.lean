import Minotaur.Protocols.Io

/-!
The raw decoy: an optional banner, then reads until something ends them. The
draining turn is also what the SSH decoy does once it has its identification.
-/

namespace Minotaur

open Future

def sendOptional (message : Option (List UInt8)) : SessionIo (Except CloseReason PUnit) :=
  match message with
  | some message => write message
  | none => pure (.ok ⟨⟩)

namespace Raw

def turn (_ : PUnit) : SessionIo (Turn PUnit CloseReason) := do
  match ← read 4096 with
  | .ok none => pure (.exit .ClientClosed)
  | .ok (some _) => pure (.again ⟨⟩)
  | .error reason => pure (.exit reason)

def handle (ep : EndpointConfig) : SessionIo CloseReason := do
  match ← sendOptional (ep.banner.map bytes) with
  | .error reason => pure reason
  | .ok _ => loop unread turn ⟨⟩

end Raw

theorem Raw.decreasing_turn : Decreasing unread Raw.turn := by
  apply decreasing_of_wp
  intro locals world
  unfold Raw.turn
  rw [wp_bind]
  apply wp_read trivial
  · intro patience
    trivial
  · intro reason patience _
    trivial
  · intro buffer rest chunks patience hnonempty _ _ hincoming
    exact length_lt_of_read hnonempty hincoming

end Minotaur
