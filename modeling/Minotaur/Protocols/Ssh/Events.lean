import Minotaur.Protocols.Progress
import Minotaur.Protocols.Ssh

/-!
The events of an SSH session: nothing, the identification line, or one notice.
Until the line is there the identification buffer holds everything received,
no LF and fewer than 255 bytes; a line of 255 bytes has its LF among them.
-/

namespace Minotaur.Ssh

open Future

variable {start : SessionState} {stream : List UInt8}

def bannerEvent (line : List UInt8) : SessionEvent :=
  .SshClientBanner (String.ofList (Utf8.lossy line))

/-- The loop invariant. -/
def Listening (start : SessionState) (stream : List UInt8) (locals : List UInt8 × Bool)
    (world : SessionWorld) : Prop :=
  (locals.2 = false ∧ locals.1.length < maxIdentificationBytes ∧
    Progress start stream locals.1 [] world) ∨
  (locals.2 = true ∧ ∃ received line, line.length ≤ 254 ∧
    Progress start stream received [bannerEvent line] world)

theorem length_stripLast_le (last : UInt8) (line : List UInt8) :
    (stripLast last line).length ≤ line.length := by
  unfold stripLast
  split_ifs
  · rw [List.length_dropLast]
    omega
  · exact Nat.le_refl _

theorem length_identificationLine_le (line : List UInt8) :
    (identificationLine (line ++ [10])).length ≤ line.length := by
  unfold identificationLine
  have hstrip : stripLast 10 (line ++ [10]) = line := by simp [stripLast]
  rw [hstrip]
  exact length_stripLast_le 13 line

theorem recorded_banner {received line : List UInt8} {world : SessionWorld}
    (h : Progress start stream received [bannerEvent line] world) (hline : line.length ≤ 254) :
    Recorded start stream world := by
  apply h.recorded (by simp)
  intro event hevent
  obtain rfl : event = bannerEvent line := by simpa using hevent
  have hlossy := Utf8.length_lossy_le line
  change (String.ofList (Utf8.lossy line)).length ≤ 254
  rw [String.length_ofList]
  omega

/-- Scanning leaves the bytes received alone; `identification` is the part of
them already scanned and `buffer` the rest. -/
theorem wp_scan {received : List UInt8} {world : SessionWorld}
    (h : Progress start stream received [] world) (identification buffer : List UInt8)
    (hreceived : received = identification ++ buffer)
    (hshort : identification.length < maxIdentificationBytes) :
    wp (scan identification buffer)
      (Turn.Leaves (Listening start stream) fun _ => Recorded start stream)
      (Recorded start stream) world := by
  induction buffer generalizing identification with
  | nil =>
      rw [List.append_nil] at hreceived
      subst hreceived
      exact Or.inl ⟨rfl, hshort, h⟩
  | cons byte rest ih =>
      unfold scan
      dsimp only
      split_ifs with hend hvalid hlong
      · subst hend
        have hline := length_identificationLine_le identification
        have hlimit : maxIdentificationBytes = 255 := rfl
        exact Or.inr ⟨rfl, received, _, by omega, h.push rfl rfl⟩
      · exact h.recorded_notice (by decide) rfl rfl
      · exact h.recorded_notice (by decide) rfl rfl
      · apply ih
        · simpa using hreceived
        · omega

theorem Listening.recorded {locals : List UInt8 × Bool} {world : SessionWorld}
    (h : Listening start stream locals world) : Recorded start stream world := by
  rcases h with ⟨_, _, h⟩ | ⟨_, received, line, hline, h⟩
  · exact h.recorded_nil
  · exact recorded_banner h hline

theorem Listening.frame {locals : List UInt8 × Bool} {world after : SessionWorld}
    (h : Listening start stream locals world) (hsession : after.session = world.session)
    (hincoming : after.wire.incoming = world.wire.incoming) :
    Listening start stream locals after := by
  rcases h with ⟨hflag, hshort, h⟩ | ⟨hflag, received, line, hline, h⟩
  · exact Or.inl ⟨hflag, hshort, h.frame hsession hincoming⟩
  · exact Or.inr ⟨hflag, received, line, hline, h.frame hsession hincoming⟩

theorem wp_afterEnd {locals : List UInt8 × Bool} {world : SessionWorld}
    (h : Listening start stream locals world) :
    wp (afterRead locals (.ok none))
      (Turn.Leaves (Listening start stream) fun _ => Recorded start stream)
      (Recorded start stream) world := by
  unfold afterRead noticeIncomplete
  dsimp only
  split_ifs with hnotice
  · rcases h with ⟨_, _, h⟩ | ⟨hflag, _⟩
    · exact h.recorded_notice (by decide) rfl rfl
    · simp [hflag] at hnotice
  · exact h.recorded

theorem wp_turn {locals : List UInt8 × Bool} {world : SessionWorld}
    (h : Listening start stream locals world) :
    wp (turn locals)
      (Turn.Leaves (Listening start stream) fun _ => Recorded start stream)
      (Recorded start stream) world := by
  unfold turn
  rw [wp_bind]
  apply wp_read h.recorded
  · intro patience
    exact wp_afterEnd (h.frame rfl rfl)
  · intro reason patience _
    exact Listening.recorded (h.frame rfl rfl)
  · intro buffer rest chunks patience _ _ hremaining hincoming
    unfold afterRead
    rcases h with ⟨hflag, hshort, h⟩ | ⟨hflag, received, line, hline, h⟩
    · rw [hflag]
      exact wp_scan (h.receive rfl hincoming hremaining) locals.1 buffer rfl hshort
    · rw [hflag]
      exact Or.inr ⟨hflag, _, line, hline, h.receive rfl hincoming hremaining⟩

theorem wp_handle {ep : EndpointConfig} {world : SessionWorld}
    (h : Progress start stream [] [] world) :
    wp (handle ep) (fun _ => Recorded start stream) (Recorded start stream) world := by
  unfold handle
  rw [wp_bind]
  apply wp_write h.recorded_nil
  intro result wire hincoming _
  cases result with
  | error reason => exact Progress.recorded_nil (Progress.frame h rfl hincoming)
  | ok value =>
      apply wp_loop decreasing_turn (Listening start stream)
      · intro locals world hinv
        exact wp_turn hinv
      · exact Or.inl ⟨rfl, by decide, Progress.frame h rfl hincoming⟩

end Minotaur.Ssh
