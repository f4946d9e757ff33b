import Minotaur.Protocols.Raw

/-!
The SSH decoy: one identification line, no key exchange. The buffer loop of
the source is `scan`, which stops at the line end, at the length limit or at
the end of the buffer.
-/

namespace Minotaur.Ssh

open Future

def defaultBanner : String := "SSH-2.0-OpenSSH_9.6"

def maxIdentificationBytes : Nat := 255

def stripPrefix (start line : List UInt8) : Option (List UInt8) :=
  if start.isPrefixOf line then some (line.drop start.length) else none

/-- `strip_suffix(..).unwrap_or(line)` for one byte. -/
def stripLast (last : UInt8) (line : List UInt8) : List UInt8 :=
  if line.getLast? = some last then line.dropLast else line

def validIdentification (line : List UInt8) : Bool :=
  let software := (stripPrefix (bytes "SSH-2.0-") line).or (stripPrefix (bytes "SSH-1.99-") line)
  software.any (fun value => value ≠ [] && value.head? ≠ some 32) && line.all printableByte

/-- The line of a complete identification, without its LF and an optional CR. -/
def identificationLine (identification : List UInt8) : List UInt8 :=
  stripLast 13 (stripLast 10 identification)

def scan (identification : List UInt8) :
    List UInt8 → SessionIo (Turn (List UInt8 × Bool) CloseReason)
  | [] => pure (.again (identification, false))
  | byte :: rest =>
      let identification := identification ++ [byte]
      if byte = 10 then
        let line := identificationLine identification
        if validIdentification line then do
          onSession (·.pushEvent (.SshClientBanner (String.ofList (Utf8.lossy line))))
          pure (.again (identification, true))
        else do
          onSession (·.notice "ssh_invalid_identification")
          pure (.exit .ProtocolError)
      else if maxIdentificationBytes ≤ identification.length then do
        onSession (·.notice "ssh_identification_too_long")
        pure (.exit .ProtocolError)
      else scan identification rest

def noticeIncomplete (identification : List UInt8) (identified : Bool) : SessionIo PUnit :=
  if !identified && identification ≠ [] then onSession (·.notice "ssh_incomplete_identification")
  else pure ⟨⟩

/-- What a turn does with the outcome of its read. -/
def afterRead (locals : List UInt8 × Bool) :
    Except CloseReason (Option (List UInt8)) → SessionIo (Turn (List UInt8 × Bool) CloseReason)
  | .ok none => do
      noticeIncomplete locals.1 locals.2
      pure (.exit .ClientClosed)
  | .ok (some buffer) => if locals.2 then pure (.again locals) else scan locals.1 buffer
  | .error reason => pure (.exit reason)

def turn (locals : List UInt8 × Bool) : SessionIo (Turn (List UInt8 × Bool) CloseReason) :=
  read 4096 >>= afterRead locals

def greeting (ep : EndpointConfig) : List UInt8 :=
  bytes (ep.banner.getD defaultBanner ++ "\r\n")

def handle (ep : EndpointConfig) : SessionIo CloseReason := do
  match ← write (greeting ep) with
  | .error reason => pure reason
  | .ok _ => loop unread turn ([], false)

/-- Scanning a buffer does no input. -/
theorem wp_scan_unread (identification buffer : List UInt8) (world : SessionWorld) :
    wp (scan identification buffer) (fun _ after => unread after = unread world)
      (fun _ => True) world := by
  induction buffer generalizing identification with
  | nil => exact (wp_pure _).mpr rfl
  | cons byte rest ih =>
      unfold scan
      dsimp only
      split_ifs
      · simp [unread]
      · simp [unread]
      · simp [unread]
      · exact ih _

theorem decreasing_turn : Decreasing unread turn := by
  apply decreasing_of_wp
  intro locals world
  unfold turn
  rw [wp_bind]
  apply wp_read trivial
  · intro patience
    unfold afterRead noticeIncomplete
    split_ifs <;> trivial
  · intro reason patience _
    trivial
  · intro buffer rest chunks patience hnonempty _ _ hincoming
    have hless := length_lt_of_read hnonempty hincoming
    unfold afterRead
    split_ifs
    · exact hless
    · apply wp_mono (wp_scan_unread locals.1 buffer _)
      · intro turn after hunread
        cases turn with
        | again again =>
            change unread after < unread world
            rw [hunread]
            exact hless
        | exit reason => trivial
      · intro after _
        trivial

end Minotaur.Ssh
