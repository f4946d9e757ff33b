import Minotaur.Base.Utf8.Ascii
import Minotaur.Protocols.Ssh.Outcome

/-!
The decoy as its own client. The validator and the reader of identifications
check the same line separately: length and characters agree, but only the
reader asks what comes after the version. A banner that stops there, or goes on
with a space, is announced and would be refused.
-/

namespace Minotaur.Ssh

open Future

/-- The text without a software name: nothing but a version, or a space after
it. -/
def Nameless (banner : String) : Prop :=
  ∃ version ∈ ["SSH-2.0-", "SSH-1.99-"],
    banner = version ∨ version.toList ++ [' '] <+: banner.toList

instance (banner : String) : Decidable (Nameless banner) :=
  inferInstanceAs (Decidable (∃ version ∈ ["SSH-2.0-", "SSH-1.99-"], _))

/-- The banner that the endpoint announces. -/
def announced (ep : EndpointConfig) : String := ep.banner.getD defaultBanner

/-- What validation promises of an announced banner. -/
structure Announceable (banner : String) : Prop where
  length : (bytes banner).length ≤ 253
  version : ∃ version ∈ ["SSH-2.0-", "SSH-1.99-"], version.toList <+: banner.toList
  printable : (bytes banner).all printableByte = true

theorem announceable {cfg : Config} (hcfg : cfg.Accepted) {ep : EndpointConfig}
    (hep : ep ∈ cfg.endpoints) (hssh : ep.protocol = .Ssh) : Announceable (announced ep) := by
  unfold announced
  cases hbanner : ep.banner with
  | none => exact ⟨by decide, ⟨"SSH-2.0-", by decide, by decide⟩, by decide⟩
  | some banner =>
      obtain ⟨hlength, hversion, hprintable⟩ := ((hcfg.endpoint ep hep).banner banner hbanner).2.2 hssh
      refine ⟨hlength, ?_, List.all_eq_true.mpr hprintable⟩
      rcases hversion with hnew | hold
      · exact ⟨"SSH-2.0-", by decide, hnew⟩
      · exact ⟨"SSH-1.99-", by decide, hold⟩

namespace Announceable

variable {banner : String}

theorem ascii (h : Announceable banner) : ∀ c ∈ banner.toList, c.toNat < 0x80 := by
  have hprintable : ∀ b, printableByte b = true → b.toNat < 0x80 := by
    intro b hb
    simp only [printableByte, Bool.and_eq_true, decide_eq_true_eq, UInt8.le_iff_toNat_le,
      UInt8.reduceToNat] at hb
    omega
  intro c hc
  exact (Utf8.of_all_encode hprintable h.printable hc).1

theorem lossy_bytes (h : Announceable banner) :
    String.ofList (Utf8.lossy (bytes banner)) = banner := by
  rw [show bytes banner = Utf8.encode banner.toList from rfl, Utf8.lossy_encode_of_ascii h.ascii,
    String.ofList_toList]

/-- The line has no line end of its own. -/
theorem newline_notMem (h : Announceable banner) : (10 : UInt8) ∉ bytes banner := by
  intro hmem
  have hbad : printableByte 10 = true := List.all_eq_true.mp h.printable 10 hmem
  cases hbad

/-- The characters after the version. -/
theorem nameless_iff {version : String} (hversion : version ∈ ["SSH-2.0-", "SSH-1.99-"])
    {software : List Char} (hsoftware : banner.toList = version.toList ++ software) :
    Nameless banner ↔ software = [] ∨ software.head? = some ' ' := by
  have heq (other : String) : banner = other ↔ version.toList ++ software = other.toList := by
    rw [← hsoftware, String.toList_inj]
  have hspace : [' '] <+: software ↔ software.head? = some ' ' := by
    cases software with
    | nil => simp
    | cons c rest => simp [eq_comm]
  unfold Nameless
  simp only [heq, hsoftware]
  constructor
  · rintro ⟨other, hother, hnameless⟩
    have hsame : other = version := by
      -- The versions differ in their fifth characters.
      simp only [List.mem_cons, List.not_mem_nil, or_false] at hversion hother
      rcases hversion with rfl | rfl <;> rcases hother with rfl | rfl <;> first
        | rfl
        | simp at hnameless
    subst hsame
    rw [List.append_right_eq_self, List.prefix_append_right_inj, hspace] at hnameless
    exact hnameless
  · intro hnameless
    refine ⟨version, hversion, ?_⟩
    rw [List.append_right_eq_self, List.prefix_append_right_inj, hspace]
    exact hnameless

/-- After the version, a name begins exactly where the reader finds one. -/
theorem identification_iff (h : Announceable banner) :
    Identification (bytes banner) ↔ ¬ Nameless banner := by
  obtain ⟨version, hversion, software, hsoftware⟩ := h.version
  have hbytes : bytes banner = bytes version ++ Utf8.encode software := by
    unfold bytes
    rw [← hsoftware, List.flatMap_append]
    rfl
  have hascii : ∀ c ∈ software, c.toNat < 0x80 := fun c hc =>
    h.ascii c (hsoftware ▸ List.mem_append_right _ hc)
  have hunique : ∀ found, (bytes banner = bytes "SSH-2.0-" ++ found ∨
      bytes banner = bytes "SSH-1.99-" ++ found) ↔ Utf8.encode software = found := by
    intro found
    rw [← stripPrefix_eq_some, ← stripPrefix_eq_some, hbytes]
    simp only [List.mem_cons, List.not_mem_nil, or_false] at hversion
    rcases hversion with rfl | rfl
    · rw [stripPrefix_eq_some, List.append_cancel_left_eq]
      exact or_iff_left nofun
    · rw [@stripPrefix_eq_some (bytes "SSH-1.99-"), List.append_cancel_left_eq]
      exact or_iff_right nofun
  rw [nameless_iff hversion hsoftware.symm]
  unfold Identification
  simp only [hunique, exists_eq_left', h.printable, and_true, not_or]
  cases software with
  | nil => simp
  | cons c rest =>
      have hc := hascii c List.mem_cons_self
      have hspace : UInt8.ofNat c.toNat = 32 ↔ c = ' ' := by
        rw [← UInt8.toNat_inj, UInt8.toNat_ofNat', Nat.mod_eq_of_lt (by omega), ← Char.toNat_inj]
        rfl
      simp [Utf8.encode, Utf8.encodeChar_of_ascii hc, hspace]

end Announceable

/-! ### Reading it back -/

/-- The first line of the greeting is the banner, and it ends within the
limits. -/
theorem identify_greeting {ep : EndpointConfig} (h : Announceable (announced ep)) {limit : Nat}
    (hlimit : (greeting ep).length ≤ limit) (terminal : Terminal) :
    (identify limit terminal (greeting ep)).2 =
      if Nameless (announced ep) then [.Notice "ssh_invalid_identification"]
      else [.SshClientBanner (announced ep)] := by
  have hstream : (bytes (announced ep) ++ [13]) ++ 10 :: [] = greeting ep := by
    unfold greeting
    rw [bytes_append, List.append_assoc]
    rfl
  have hlength := congrArg List.length hstream
  simp only [List.length_append, List.length_singleton] at hlength
  have hshort := h.length
  have hline : (10 : UInt8) ∉ bytes (announced ep) ++ [13] := by
    simpa using h.newline_notMem
  have hstrip : stripLast 13 (bytes (announced ep) ++ [13]) = bytes (announced ep) := by
    simp [stripLast]
  rw [@identify_line limit terminal _ _ [] hline
    (by rw [List.length_append, List.length_singleton]; omega)
    (by rw [List.length_append, List.length_singleton]; omega) hstream, hstrip]
  have hevent : bannerEvent (bytes (announced ep)) = .SshClientBanner (announced ep) :=
    congrArg SessionEvent.SshClientBanner h.lossy_bytes
  by_cases hnameless : Nameless (announced ep)
  · rw [if_neg (h.identification_iff.not.mpr (not_not.mpr hnameless)), if_pos hnameless]
  · rw [if_pos (h.identification_iff.mpr hnameless), if_neg hnameless, hevent]

/-- An accepted SSH endpoint whose greeting comes back to an SSH decoy as the
client's whole stream, in whatever pieces: the decoy records the banner, and
nothing else, exactly if the banner names software after its version. -/
theorem own_banner_recorded_iff {cfg : Config} (hvalid : cfg.validate = .ok ())
    {ep : EndpointConfig} (hep : ep ∈ cfg.endpoints) (hssh : ep.protocol = .Ssh)
    (reader : EndpointConfig) {world : SessionWorld} (hfresh : world.session.Fresh)
    (hsteady : world.wire.Steady) (hstream : world.wire.incoming = greeting ep)
    (hbudget : (greeting ep).length ≤ world.session.inputLimit) :
    ∃ reason after, handle reader world = .done reason after ∧
      (after.session.events = [.SshClientBanner (announced ep)] ↔ ¬ Nameless (announced ep)) := by
  have hannounce := announceable ((validate_ok_iff cfg).mp hvalid) hep hssh
  apply wp_completes
  apply wp_weaken (wp_handle_answered reader hfresh hsteady)
  intro reason after hafter
  rw [hafter.events, hstream]
  unfold reference
  rw [identify_greeting hannounce hbudget]
  split_ifs with hnameless
  · simp [hnameless, PrivacyConfig.redact]
  · simp [hnameless, PrivacyConfig.redact]

theorem own_banner_recorded_default :
    let world := (client "SSH-2.0-OpenSSH_9.6\r\n" none).world (sensorOf .Ssh) (decoy .Ssh)
    ∃ reason after, handle (decoy .Ssh) world = .done reason after ∧
      after.session.events = [.SshClientBanner "SSH-2.0-OpenSSH_9.6"] := by
  intro world
  have hvalid : (sensorOf .Ssh).validate = .ok () := by decide
  have hfresh : world.session.Fresh := ⟨rfl, rfl, rfl, rfl, by decide⟩
  have hsteady : world.wire.Steady := ⟨rfl, nofun⟩
  obtain ⟨reason, after, hrun, hrecorded⟩ := own_banner_recorded_iff hvalid
    (List.mem_singleton_self (decoy .Ssh)) rfl (decoy .Ssh) hfresh hsteady rfl (by decide)
  exact ⟨reason, after, hrun, hrecorded.mpr (by decide)⟩

/-- Validation accepts a bare version as a banner; the reader refuses it. -/
theorem bare_version_refused :
    let ep : EndpointConfig := { decoy .Ssh with banner := some "SSH-2.0-" }
    let cfg : Config := { endpoints := [ep] }
    let world := (client "SSH-2.0-\r\n" none).world cfg ep
    cfg.validate = .ok () ∧ world.wire.incoming = greeting ep ∧
      (greeting ep).length ≤ world.session.inputLimit ∧
      ∃ reason after, handle ep world = .done reason after ∧
        after.session.events = [.Notice "ssh_invalid_identification"] := by
  intro ep cfg world
  have hfresh : world.session.Fresh := ⟨rfl, rfl, rfl, rfl, by decide⟩
  have hsteady : world.wire.Steady := ⟨rfl, nofun⟩
  refine ⟨by decide, rfl, by decide, ?_⟩
  apply wp_completes
  apply wp_weaken (wp_handle_answered ep hfresh hsteady)
  intro reason after hafter
  exact hafter.events

end Minotaur.Ssh
