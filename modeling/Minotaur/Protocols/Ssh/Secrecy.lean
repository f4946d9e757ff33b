import Minotaur.Protocols.Secrecy
import Minotaur.Protocols.Ssh

/-!
What the SSH decoy tells of its client: the first identification line it
accepts, and of what follows only how much there was.
-/

namespace Minotaur.Ssh

open Future

/-- A line that `handle` takes as the identification, with its LF. -/
structure AcceptedIdentification (identification line : List UInt8) : Prop where
  ended : identification = line ++ [10]
  noLf : 10 ∉ line
  length : identification.length ≤ maxIdentificationBytes
  valid : validIdentification (identificationLine identification) = true

/-- The same input, or inputs that differ after the same accepted
identification. -/
def SameIdentification (left right : List UInt8) : Prop :=
  left = right ∨ ∃ identification line rest rest', AcceptedIdentification identification line ∧
    left = identification ++ rest ∧ right = identification ++ rest' ∧ rest.length = rest'.length

/-! ### Scanning -/

/-- Nothing happens up to the line end. -/
theorem scan_append (identification first rest : List UInt8) (hnoLf : 10 ∉ first)
    (hlength : identification.length + first.length < maxIdentificationBytes) :
    scan identification (first ++ rest) = scan (identification ++ first) rest := by
  induction first generalizing identification with
  | nil => rw [List.append_nil, List.nil_append]
  | cons byte first ih =>
      rw [List.mem_cons, not_or] at hnoLf
      rw [List.length_cons] at hlength
      have hbyte : ¬ byte = 10 := fun h => hnoLf.1 h.symm
      have hshort : ¬ maxIdentificationBytes ≤ (identification ++ [byte]).length := by
        rw [List.length_append, List.length_singleton]
        omega
      rw [List.cons_append, scan]
      dsimp only
      rw [if_neg hbyte, if_neg hshort, ih _ hnoLf.2]
      · rw [List.append_assoc, List.singleton_append]
      · rw [List.length_append, List.length_singleton]
        omega

theorem scan_accepted {identification line : List UInt8}
    (h : AcceptedIdentification identification line) (scanned first rest : List UInt8)
    (hline : line = scanned ++ first) :
    scan scanned (first ++ 10 :: rest) = (do
      onSession (·.pushEvent (.SshClientBanner
        (String.ofList (Utf8.lossy (identificationLine identification)))))
      pure (.again (identification, true))) := by
  have hended := h.ended
  have hlength := h.length
  have hvalid := h.valid
  have hnoLf : 10 ∉ first := by
    intro hmem
    exact h.noLf (hline ▸ List.mem_append_right scanned hmem)
  rw [hended, List.length_append, List.length_singleton, hline, List.length_append] at hlength
  rw [scan_append scanned first _ hnoLf (by omega), ← hline, scan]
  dsimp only
  rw [if_pos rfl, ← hended, if_pos hvalid]

/-- Scanning the same buffer in sessions that are alike. -/
theorem together_scan {left right : SessionWorld} (h : Alike left right)
    (identification buffer : List UInt8) :
    Together (Turn.LeaveTogether
        (fun locals locals' left' right' => locals = locals' ∧ Alike left' right' ∧
          left'.wire.incoming = left.wire.incoming ∧ right'.wire.incoming = right.wire.incoming)
        SameEnd) Alike
      (scan identification buffer) (scan identification buffer) left right := by
  induction buffer generalizing identification with
  | nil => exact ⟨rfl, h, rfl, rfl⟩
  | cons byte rest ih =>
      unfold scan
      dsimp only
      split_ifs
      · exact ⟨rfl, h.pushEvent rfl, rfl, rfl⟩
      · exact ⟨rfl, h.notice _⟩
      · exact ⟨rfl, h.notice _⟩
      · exact ih _

/-! ### The handler -/

/-- The two runs before their next read. -/
def Listens (locals locals' : List UInt8 × Bool) (left right : SessionWorld) : Prop :=
  locals = locals' ∧ Alike left right ∧
    (locals.2 = true ∨ left.wire.incoming = right.wire.incoming ∨
      ∃ identification line pending rest rest', AcceptedIdentification identification line ∧
        line = locals.1 ++ pending ∧ left.wire.incoming = pending ++ 10 :: rest ∧
        right.wire.incoming = pending ++ 10 :: rest')

/-- A read ends before the LF or takes it along. -/
theorem cut_at_lf {pending rest bytes after : List UInt8}
    (h : pending ++ 10 :: rest = bytes ++ after) :
    (∃ more, pending = bytes ++ more ∧ after = more ++ 10 :: rest) ∨
      ∃ more, bytes = pending ++ 10 :: more ∧ rest = more ++ after := by
  rcases List.append_eq_append_iff.mp h with ⟨more, hbytes, hrest⟩ | ⟨more, hpending, hafter⟩
  · cases more with
    | nil => exact Or.inl ⟨[], by simpa using hbytes.symm, by simpa using hrest.symm⟩
    | cons byte more =>
        rw [List.cons_append, List.cons.injEq] at hrest
        obtain ⟨rfl, hrest⟩ := hrest
        exact Or.inr ⟨more, hbytes, hrest⟩
  · exact Or.inl ⟨more, hpending, hafter⟩

/-- One buffer of each run, cut from inputs with the same identification. -/
theorem together_scan_pending {left right : SessionWorld} (h : Alike left right)
    {identification line scanned pending rest rest' bytes bytes' : List UInt8}
    (haccepted : AcceptedIdentification identification line) (hline : line = scanned ++ pending)
    (hlength : bytes.length = bytes'.length)
    (hleft : pending ++ 10 :: rest = bytes ++ left.wire.incoming)
    (hright : pending ++ 10 :: rest' = bytes' ++ right.wire.incoming) :
    Together (Turn.LeaveTogether Listens SameEnd) Alike
      (scan scanned bytes) (scan scanned bytes') left right := by
  rcases cut_at_lf hleft with ⟨more, hpending, hafter⟩ | ⟨more, hbytes, _⟩
  · rcases cut_at_lf hright with ⟨more', hpending', hafter'⟩ | ⟨more', hbytes', _⟩
    · obtain ⟨rfl, rfl⟩ := List.append_inj (hpending.symm.trans hpending') hlength
      have hnoLf : 10 ∉ bytes := by
        intro hmem
        rw [hpending] at hline
        exact haccepted.noLf (hline ▸ List.mem_append_right _ (List.mem_append_left _ hmem))
      have hshort : scanned.length + bytes.length < maxIdentificationBytes := by
        have hlimit := haccepted.length
        rw [haccepted.ended, hline, hpending] at hlimit
        simp only [List.length_append, List.length_singleton] at hlimit
        omega
      have hscan := scan_append scanned bytes [] hnoLf hshort
      rw [List.append_nil] at hscan
      rw [hscan]
      refine ⟨rfl, h, Or.inr (Or.inr ⟨identification, line, more, rest, rest', haccepted, ?_,
        hafter, hafter'⟩)⟩
      rw [hline, hpending, List.append_assoc]
    · have hshort := congrArg List.length hpending
      rw [hbytes', List.length_append, List.length_cons] at hlength
      rw [List.length_append] at hshort
      omega
  · rcases cut_at_lf hright with ⟨more', hpending', _⟩ | ⟨more', hbytes', _⟩
    · have hshort := congrArg List.length hpending'
      rw [hbytes, List.length_append, List.length_cons] at hlength
      rw [List.length_append] at hshort
      omega
    · rw [hbytes, hbytes', scan_accepted haccepted scanned pending more hline,
        scan_accepted haccepted scanned pending more' hline]
      exact ⟨rfl, h.pushEvent rfl, Or.inl rfl⟩

theorem together_turn {locals locals' : List UInt8 × Bool} {left right : SessionWorld}
    (h : Listens locals locals' left right) :
    Together (Turn.LeaveTogether Listens SameEnd) Alike (turn locals) (turn locals') left right := by
  obtain ⟨rfl, h, hcase⟩ := h
  unfold turn
  apply together_bind
  apply together_read h
  · intro left right h
    unfold afterRead noticeIncomplete
    dsimp only
    split_ifs
    · exact ⟨rfl, h.notice _⟩
    · exact ⟨rfl, h⟩
  · intro reason left right h
    exact ⟨rfl, h⟩
  · intro bytes bytes' left' right' h' hlength _ hleft hright
    unfold afterRead
    dsimp only
    split_ifs with hidentified
    · exact ⟨rfl, h', Or.inl hidentified⟩
    · rcases hcase with hflag | hequal | ⟨identification, line, pending, rest, rest', haccepted,
        hline, hpending, hpending'⟩
      · exact absurd hflag hidentified
      · rw [hequal, hright] at hleft
        obtain ⟨rfl, hincoming⟩ := List.append_inj hleft hlength.symm
        apply together_mono (together_scan h' locals.1 bytes')
        · intro turn turn' left'' right'' hturn
          cases turn with
          | again locals =>
              cases turn' with
              | again locals' =>
                  obtain ⟨rfl, hafter, hleft'', hright''⟩ := hturn
                  refine ⟨rfl, hafter, Or.inr (Or.inl ?_)⟩
                  rw [hleft'', hright'']
                  exact hincoming.symm
              | exit reason => exact hturn.elim
          | exit reason =>
              cases turn' with
              | again locals' => exact hturn.elim
              | exit reason' => exact hturn
        · intro left right h
          exact h
      · rw [hpending] at hleft
        rw [hpending'] at hright
        exact together_scan_pending h' haccepted hline hlength hleft hright

/-- Inputs with the same identification end in the same record. -/
theorem together_handle {ep : EndpointConfig} {left right : SessionWorld} (h : Alike left right)
    (hsame : SameIdentification left.wire.incoming right.wire.incoming) :
    Together SameEnd Alike (handle ep) (handle ep) left right := by
  unfold handle
  apply together_bind
  apply together_write h
  intro result left' right' h' hleft hright
  cases result with
  | error reason => exact ⟨rfl, h'⟩
  | ok value =>
      apply together_loop decreasing_turn Listens
      · intro locals locals' left right hinv
        exact together_turn hinv
      · refine ⟨rfl, h', Or.inr ?_⟩
        rw [hleft, hright]
        rcases hsame with hequal | ⟨identification, line, rest, rest', haccepted, hinput, hinput', _⟩
        · exact Or.inl hequal
        · refine Or.inr ⟨identification, line, line, rest, rest', haccepted, rfl, ?_, ?_⟩
          · rw [hinput, haccepted.ended, List.append_assoc, List.singleton_append]
          · rw [hinput', haccepted.ended, List.append_assoc, List.singleton_append]

end Minotaur.Ssh
