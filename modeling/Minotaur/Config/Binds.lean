import Minotaur.Config.Accepted
import Mathlib.Data.Set.Lattice
import Mathlib.Order.CompletePartialOrder

/-!
The overlap check against what listeners are. A listener receives connections
for a set of addresses on one port; two listeners overlap when they have one
in common. `bindsConflict` decides exactly that, and `validate` complains
about an overlap exactly where there is one.
-/

namespace Minotaur

open Net

/-! ### Address sets -/

/-- What a socket bound to this address receives connections for: its own
address, or as a wildcard every IPv4 address or every address. -/
def reach (ip : IpAddr) : Set IpAddr :=
  if ip.isUnspecified = true then {other | ip.isIpv4 = true → other.isIpv4 = true} else {ip}

/-- The addresses a listener covers. -/
def coveredIps (bind : SocketAddr) : Set IpAddr := reach (canonicalIp bind.ip)

def covered (bind : SocketAddr) : Set (IpAddr × UInt16) :=
  {target | target.1 ∈ coveredIps bind ∧ target.2 = bind.port}

theorem mem_reach {ip other : IpAddr} :
    other ∈ reach ip ↔
      other = ip ∨ ip.isUnspecified = true ∧ (ip.isIpv4 = true → other.isIpv4 = true) := by
  unfold reach
  split_ifs with hwildcard
  · constructor
    · exact fun hfamily => Or.inr ⟨hwildcard, hfamily⟩
    · rintro (rfl | ⟨_, hfamily⟩)
      · exact fun hfour => hfour
      · exact hfamily
  · simp [hwildcard]

theorem mem_reach_self (ip : IpAddr) : ip ∈ reach ip := mem_reach.mpr (Or.inl rfl)

/-- Two sockets that meet at all meet at the address of one of them. -/
theorem nonempty_reach_inter (a b : IpAddr) :
    (reach a ∩ reach b).Nonempty ↔ a ∈ reach b ∨ b ∈ reach a := by
  constructor
  · rintro ⟨ip, ha, hb⟩
    rcases mem_reach.mp ha with rfl | ⟨hwildcardA, _⟩
    · exact Or.inl hb
    · rcases mem_reach.mp hb with rfl | ⟨hwildcardB, _⟩
      · exact Or.inr ha
      · by_cases hfour : a.isIpv4 = true
        · exact Or.inl (mem_reach.mpr (Or.inr ⟨hwildcardB, fun _ => hfour⟩))
        · exact Or.inr (mem_reach.mpr (Or.inr ⟨hwildcardA, fun h => absurd h hfour⟩))
  · rintro (hmem | hmem)
    · exact ⟨a, mem_reach_self a, hmem⟩
    · exact ⟨b, hmem, mem_reach_self b⟩

theorem nonempty_covered_inter (a b : SocketAddr) :
    (covered a ∩ covered b).Nonempty ↔
      a.port = b.port ∧ (coveredIps a ∩ coveredIps b).Nonempty := by
  constructor
  · rintro ⟨⟨ip, port⟩, ⟨hip, hport⟩, hip', hport'⟩
    exact ⟨hport.symm.trans hport', ip, hip, hip'⟩
  · rintro ⟨hport, ip, hip, hip'⟩
    exact ⟨(ip, a.port), ⟨hip, rfl⟩, hip', hport⟩

/-- `binds_conflict` is sound and complete. -/
theorem bindsConflict_iff (a b : SocketAddr) :
    bindsConflict a b = true ↔
      (a.port ≠ 0 ∧ b.port ≠ 0) ∧ a.port = b.port ∧ (coveredIps a ∩ coveredIps b).Nonempty := by
  unfold coveredIps
  rw [nonempty_reach_inter, mem_reach, mem_reach]
  unfold bindsConflict
  by_cases hports : a.port = 0 ∨ b.port = 0 ∨ a.port ≠ b.port
  · rw [if_pos hports]
    refine iff_of_false Bool.false_ne_true ?_
    rintro ⟨⟨_, hb⟩, hport, _⟩
    simp [hb, hport] at hports
  · obtain ⟨ha, hb, hport⟩ : a.port ≠ 0 ∧ b.port ≠ 0 ∧ a.port = b.port := by
      simpa using hports
    rw [if_neg hports, and_iff_right ⟨ha, hb⟩, and_iff_right hport]
    dsimp only
    split_ifs with hsame hfamily
    · simp [hsame]
    · simp [hsame, Ne.symm hsame, hfamily, or_comm]
    · cases hfour : (canonicalIp a.ip).isIpv4 with
      | true =>
          have hother : (canonicalIp b.ip).isIpv4 = false := by simpa [hfour] using hfamily
          simp [hsame, Ne.symm hsame, hother]
      | false =>
          have hother : (canonicalIp b.ip).isIpv4 = true := by simpa [hfour] using hfamily
          simp [hsame, Ne.symm hsame, hother]

theorem bindsConflict_comm (a b : SocketAddr) : bindsConflict a b = bindsConflict b a := by
  rw [Bool.eq_iff_iff, bindsConflict_iff, bindsConflict_iff, and_comm (a := a.port ≠ 0),
    eq_comm (a := a.port), Set.inter_comm]

/-! ### The listeners of a configuration -/

/-- The sockets a configuration asks for at ports of its own choice. -/
def Config.listeners (cfg : Config) : List SocketAddr :=
  (cfg.endpoints.map EndpointConfig.bind ++
    if cfg.metrics.enabled then [cfg.metrics.bind] else []).filter (fun bind => bind.port ≠ 0)

/-- No address and port belongs to two listeners. -/
def Config.NoOverlap (cfg : Config) : Prop :=
  cfg.listeners.Pairwise fun a b => Disjoint (covered a) (covered b)

theorem disjoint_covered_iff {a b : SocketAddr} (ha : a.port ≠ 0) (hb : b.port ≠ 0) :
    Disjoint (covered a) (covered b) ↔ bindsConflict a b = false := by
  rw [Set.disjoint_iff_inter_eq_empty, ← Set.not_nonempty_iff_eq_empty, nonempty_covered_inter,
    ← Bool.not_eq_true, bindsConflict_iff]
  simp [ha, hb]

/-- The checks of `validate`, all at once. -/
theorem noOverlap_iff (cfg : Config) :
    cfg.NoOverlap ↔
      cfg.endpoints.Pairwise (fun other ep => bindsConflict ep.bind other.bind = false) ∧
      (cfg.metrics.enabled = true →
        ∀ ep ∈ cfg.endpoints, bindsConflict ep.bind cfg.metrics.bind = false) := by
  have hconflict : cfg.NoOverlap ↔ (cfg.endpoints.map EndpointConfig.bind ++
      if cfg.metrics.enabled then [cfg.metrics.bind] else []).Pairwise
        (fun a b => bindsConflict a b = false) := by
    unfold Config.NoOverlap Config.listeners
    rw [List.pairwise_filter]
    apply List.Pairwise.iff
    intro a b
    simp only [ne_eq, decide_not, Bool.not_eq_true', decide_eq_false_iff_not]
    constructor
    · intro h
      by_contra hne
      obtain ⟨⟨ha, hb⟩, _⟩ := (bindsConflict_iff a b).mp (by simpa using hne)
      exact hne ((disjoint_covered_iff ha hb).mp (h ha hb))
    · exact fun h ha hb => (disjoint_covered_iff ha hb).mpr h
  rw [hconflict, List.pairwise_append, List.pairwise_map]
  have hswap : cfg.endpoints.Pairwise (fun a b => bindsConflict a.bind b.bind = false) ↔
      cfg.endpoints.Pairwise (fun other ep => bindsConflict ep.bind other.bind = false) := by
    apply List.Pairwise.iff
    intro a b
    rw [bindsConflict_comm]
  rw [hswap]
  cases cfg.metrics.enabled <;> simp

theorem Config.Accepted.noOverlap {cfg : Config} (h : cfg.Accepted) : cfg.NoOverlap :=
  (noOverlap_iff cfg).mpr
    ⟨h.disjointBinds, fun henabled ep hep => (h.endpoint ep hep).metricsBind henabled⟩

/-! ### Overlap errors -/

/-- The two complaints of `validate` about an overlap. -/
def OverlapError (msg : String) : Prop :=
  (∃ a b : SocketAddr,
    msg = s!"overlapping or duplicate endpoint binds: {a.show} and {b.show}") ∨
  ∃ a : SocketAddr, msg = s!"endpoint {a.show} overlaps the metrics bind"

/-- What tells these texts from every other one: the first letter, or the
first word with the last letter. -/
def overlapText (msg : String) : Bool :=
  msg.toList.head? = some 'o' ||
    (msg.toList.take 9 = "endpoint ".toList && msg.toList.getLast? = some 'd')

theorem OverlapError.text {msg : String} (h : OverlapError msg) : overlapText msg = true := by
  rcases h with ⟨a, b, rfl⟩ | ⟨a, rfl⟩
  · simp [overlapText, toString]
  · simp [overlapText, toString, List.getLast?_cons, List.getLast?_append]

/-- A check that does not complain about an overlap. -/
def Quiet (check : Except String Unit) : Prop :=
  ∀ msg, check = .error msg → overlapText msg = false

theorem quiet_ok : Quiet (.ok ()) := nofun

theorem quiet_ensure {msg : String} (cond : Bool) (hmsg : overlapText msg = false) :
    Quiet (ensure cond msg) := by
  intro other hother
  unfold ensure at hother
  split_ifs at hother
  obtain rfl := Except.error.inj hother
  exact hmsg

theorem quiet_bind {first second : Except String Unit} (hfirst : Quiet first)
    (hsecond : Quiet second) : Quiet (first >>= fun _ => second) := by
  intro msg hmsg
  cases first with
  | error other => exact hfirst msg hmsg
  | ok value => exact hsecond msg hmsg

theorem quiet_forM {α : Type} {check : α → Except String Unit} {list : List α}
    (hcheck : ∀ a ∈ list, Quiet (check a)) : Quiet (list.forM check) := by
  induction list with
  | nil => exact quiet_ok
  | cons head tail ih =>
      obtain ⟨hhead, htail⟩ := List.forall_mem_cons.mp hcheck
      exact quiet_bind hhead (ih htail)

theorem quiet_option_forM {α : Type} {check : α → Except String Unit} (option : Option α)
    (hcheck : ∀ a, Quiet (check a)) : Quiet (option.forM check) := by
  cases option with
  | none => exact quiet_ok
  | some value => exact hcheck value

theorem quiet_sensor (sensor : SensorConfig) : Quiet (validateSensor sensor) := by
  unfold validateSensor identifier safeText
  refine quiet_bind (quiet_ensure _ rfl) (quiet_bind (quiet_ensure _ rfl) ?_)
  refine quiet_bind (quiet_ensure _ rfl) (quiet_forM fun tag _ => ?_)
  exact quiet_bind (quiet_ensure _ rfl) (quiet_ensure _ rfl)

theorem quiet_ignored (ignored ips : List IpAddr) : Quiet (validateIgnored ignored ips) := by
  induction ips generalizing ignored with
  | nil => exact quiet_ok
  | cons ip rest ih => exact quiet_bind (quiet_ensure _ (by simp [overlapText, toString])) (ih _)

theorem quiet_server (s : ServerConfig) : Quiet (validateServer s) := by
  unfold validateServer range
  repeat' apply quiet_bind
  all_goals first
    | exact quiet_ignored _ _
    | exact quiet_ensure _ rfl

theorem quiet_logging (s : ServerConfig) (l : LoggingConfig) : Quiet (validateLogging s l) := by
  unfold validateLogging range
  repeat' apply quiet_bind
  all_goals exact quiet_ensure _ rfl

theorem quiet_metrics (m : MetricsConfig) : Quiet (validateMetrics m) := by
  unfold validateMetrics range
  repeat' apply quiet_bind
  all_goals exact quiet_ensure _ rfl

theorem quiet_name (names : List String) (ep : EndpointConfig) : Quiet (validateName names ep) := by
  unfold validateName identifier
  split_ifs
  · exact quiet_ok
  · exact quiet_bind (quiet_ensure _ rfl)
      (quiet_ensure _ (by simp [overlapText, toString]))

theorem quiet_banner (ep : EndpointConfig) (banner : String) : Quiet (validateBanner ep banner) := by
  unfold validateBanner
  refine quiet_bind (quiet_ensure _ rfl) (quiet_bind (quiet_ensure _ rfl) ?_)
  split_ifs
  · refine quiet_bind (quiet_ensure _ rfl) ?_
    exact quiet_bind (quiet_ensure _ rfl) (quiet_ensure _ rfl)
  · exact quiet_ok

/-- An endpoint without an overlap. -/
theorem quiet_endpoint {m : MetricsConfig} {previous : List EndpointConfig} {ep : EndpointConfig}
    (names : List String) (hprevious : ∀ other ∈ previous, bindsConflict ep.bind other.bind = false)
    (hmetrics : m.enabled = true → bindsConflict ep.bind m.bind = false) :
    Quiet (validateEndpoint m names previous ep) := by
  unfold validateEndpoint validateServerHeader validateStatus validatePrompt safeText
  refine quiet_bind (quiet_name names ep) (quiet_bind (quiet_forM fun other hother => ?_) ?_)
  · rw [hprevious other hother]
    exact quiet_ok
  refine quiet_bind ?_ ?_
  · have hpassed : (!m.enabled || !bindsConflict ep.bind m.bind) = true := by
      cases henabled : m.enabled with
      | false => rfl
      | true => simp [hmetrics henabled]
    rw [hpassed]
    exact quiet_ok
  refine quiet_bind (quiet_option_forM _ (quiet_banner ep)) ?_
  refine quiet_bind (quiet_option_forM _ fun header => ?_) ?_
  · exact quiet_bind (quiet_ensure _ rfl) (quiet_ensure _ rfl)
  refine quiet_bind (quiet_option_forM _ fun status => ?_) (quiet_option_forM _ fun prompt => ?_)
  · exact quiet_bind (quiet_ensure _ rfl) (quiet_ensure _ rfl)
  · refine quiet_bind (quiet_ensure _ rfl) ?_
    exact quiet_bind (quiet_ensure _ rfl) (quiet_ensure _ rfl)

theorem quiet_endpoints {m : MetricsConfig} (names : List String)
    {previous endpoints : List EndpointConfig}
    (hpairs : endpoints.Pairwise (fun other ep => bindsConflict ep.bind other.bind = false))
    (hprevious : ∀ ep ∈ endpoints, ∀ other ∈ previous, bindsConflict ep.bind other.bind = false)
    (hmetrics : m.enabled = true → ∀ ep ∈ endpoints, bindsConflict ep.bind m.bind = false) :
    Quiet (validateEndpoints m names previous endpoints) := by
  induction endpoints generalizing names previous with
  | nil => exact quiet_ok
  | cons ep rest ih =>
      obtain ⟨hhead, hrest⟩ := List.pairwise_cons.mp hpairs
      obtain ⟨hep, hothers⟩ := List.forall_mem_cons.mp hprevious
      refine quiet_bind (quiet_endpoint names hep ?_) (ih _ hrest ?_ ?_)
      · exact fun henabled => hmetrics henabled ep List.mem_cons_self
      · intro next hnext other hother
        rcases List.mem_append.mp hother with hold | hnew
        · exact hothers next hnext other hold
        · obtain rfl := List.mem_singleton.mp hnew
          exact hhead next hnext
      · exact fun henabled next hnext => hmetrics henabled next (List.mem_cons_of_mem _ hnext)

theorem Config.NoOverlap.quiet {cfg : Config} (h : cfg.NoOverlap) : Quiet cfg.validate := by
  obtain ⟨hpairs, hmetrics⟩ := (noOverlap_iff cfg).mp h
  unfold Config.validate range
  refine quiet_bind (quiet_ensure _ rfl) (quiet_bind (quiet_ensure _ rfl) ?_)
  refine quiet_bind (quiet_sensor _) (quiet_bind (quiet_server _) ?_)
  refine quiet_bind (quiet_logging _ _) (quiet_bind (quiet_metrics _) ?_)
  exact quiet_endpoints [] hpairs (fun _ _ _ hother => absurd hother List.not_mem_nil) hmetrics

/-- Overlaps are what `binds_conflict` and `validate` say they are. -/
theorem overlap_detection :
    (∀ a b : SocketAddr, a.port ≠ 0 → b.port ≠ 0 →
      (bindsConflict a b = true ↔
        a.port = b.port ∧ (coveredIps a ∩ coveredIps b).Nonempty) ∧
      bindsConflict a b = bindsConflict b a) ∧
    (∀ cfg : Config, cfg.validate = .ok () → cfg.NoOverlap) ∧
    ∀ cfg : Config, cfg.NoOverlap → ∀ msg, cfg.validate = .error msg → ¬ OverlapError msg := by
  refine ⟨?_, ?_, ?_⟩
  · intro a b ha hb
    refine ⟨?_, bindsConflict_comm a b⟩
    rw [bindsConflict_iff, and_iff_right ⟨ha, hb⟩]
  · intro cfg hvalid
    exact ((validate_ok_iff cfg).mp hvalid).noOverlap
  · intro cfg hdisjoint msg hmsg hoverlap
    have htext := hdisjoint.quiet msg hmsg
    rw [hoverlap.text] at htext
    cases htext

/-- Two decoys and the management endpoint, on different addresses of one port
and on a port of its own. -/
def apart : Config :=
  { endpoints := [⟨"", .V4 0x7f000001#32 22, .Ssh, none, none, none, none⟩,
      ⟨"", .V4 0x7f000002#32 22, .Raw, none, none, none, none⟩]
    metrics := { enabled := true, bind := .V4 0x7f000001#32 9100 } }

/-- The same with no room for a session, which is another fault. -/
def idle : Config := { apart with server := { maxConcurrentSessions := 0 } }

theorem overlap_detection_wildcard :
    let wildcard : SocketAddr := .V6 0 22 0 0
    let mapped : SocketAddr := .V6 (toIpv6Mapped 0xc0000201#32) 22 0 0
    ((bindsConflict wildcard mapped = true ↔
        wildcard.port = mapped.port ∧ (coveredIps wildcard ∩ coveredIps mapped).Nonempty) ∧
      bindsConflict wildcard mapped = bindsConflict mapped wildcard) ∧
    apart.NoOverlap ∧
    ∃ msg, idle.validate = .error msg ∧ ¬ OverlapError msg := by
  have hapart : apart.NoOverlap := overlap_detection.2.1 apart (by decide)
  refine ⟨overlap_detection.1 _ _ (by decide) (by decide), hapart, ?_⟩
  cases hidle : idle.validate with
  | ok value =>
      have hfails : idle.validate ≠ .ok () := by decide
      exact absurd hidle hfails
  | error msg => exact ⟨msg, rfl, overlap_detection.2.2 idle hapart msg hidle⟩

end Minotaur
