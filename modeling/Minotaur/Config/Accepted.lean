import Minotaur.Config

/-!
What `Config::validate` establishes. Every section of the check is equivalent
to a record of the facts it tested, so later proofs name the fact they need
and never run the validator.
-/

namespace Minotaur

open Net

structure IsIdentifier (value : String) : Prop where
  nonempty : value ≠ ""
  length : (bytes value).length ≤ 64
  alphabet : ∀ b ∈ bytes value, identifierByte b = true

structure IsSafeText (value : String) (max : Nat) : Prop where
  length : (bytes value).length ≤ max
  noControl : ∀ c ∈ value.toList, isControl c = false

structure SensorConfig.Accepted (sensor : SensorConfig) : Prop where
  id : IsIdentifier sensor.id
  environment : IsIdentifier sensor.environment
  tagCount : sensor.tags.entries.length ≤ 8
  tagKey : ∀ tag ∈ sensor.tags.entries, IsIdentifier tag.1
  tagValue : ∀ tag ∈ sensor.tags.entries, IsSafeText tag.2 128

structure ServerConfig.Accepted (s : ServerConfig) : Prop where
  maxConcurrentSessions : 1 ≤ s.maxConcurrentSessions ∧ s.maxConcurrentSessions ≤ 4096
  sessionTimeoutSeconds : 1 ≤ s.sessionTimeoutSeconds ∧ s.sessionTimeoutSeconds ≤ 300
  maxSessionDurationSeconds :
    1 ≤ s.maxSessionDurationSeconds ∧ s.maxSessionDurationSeconds ≤ 3600
  shutdownGraceSeconds : 1 ≤ s.shutdownGraceSeconds ∧ s.shutdownGraceSeconds ≤ 60
  rateLimitPerIpPerMin : s.rateLimitPerIpPerMin ≤ 10000
  maxTrackedIps : 1 ≤ s.maxTrackedIps ∧ s.maxTrackedIps ≤ 65536
  maxBytesPerSession : s.maxBytesPerSession ≤ 65536
  maxReadBytesPerSession :
    1 ≤ s.maxReadBytesPerSession ∧ s.maxReadBytesPerSession ≤ 16777216
  preview_le_read : s.maxBytesPerSession ≤ s.maxReadBytesPerSession
  historyBudget : s.maxTrackedIps * s.rateLimitPerIpPerMin ≤ 1000000
  ignoredCount : s.ignoreSourceIps.length ≤ 256
  ignoredDistinct : (s.ignoreSourceIps.map canonicalIp).Nodup

structure LoggingConfig.Accepted (s : ServerConfig) (l : LoggingConfig) : Prop where
  output : Char.ofNat 0 ∉ l.output.toList
  bufferSize : 1 ≤ l.bufferSize ∧ l.bufferSize ≤ 4096
  maxFileBytes : 1048576 ≤ l.maxFileBytes ∧ l.maxFileBytes ≤ 1073741824
  maxFiles : 1 ≤ l.maxFiles ∧ l.maxFiles ≤ 20
  writeTimeoutSeconds : 1 ≤ l.writeTimeoutSeconds ∧ l.writeTimeoutSeconds ≤ 30
  queueBudget : (65536 + 3 * s.maxBytesPerSession) * l.bufferSize ≤ 268435456

structure MetricsConfig.Accepted (m : MetricsConfig) : Prop where
  maxConnections : 1 ≤ m.maxConnections ∧ m.maxConnections ≤ 256
  requestTimeoutSeconds : 1 ≤ m.requestTimeoutSeconds ∧ m.requestTimeoutSeconds ≤ 30
  remote : m.enabled = true → m.bind.ip.isLoopback = true ∨ m.allowRemote = true

/-- What is checked of one endpoint alone. -/
structure EndpointConfig.Accepted (m : MetricsConfig) (ep : EndpointConfig) : Prop where
  name : ep.name ≠ "" → IsIdentifier ep.name
  metricsBind : m.enabled = true → bindsConflict ep.bind m.bind = false
  banner : ∀ banner, ep.banner = some banner →
    (bytes banner).length ≤ 4096 ∧ ep.protocol ≠ .Http ∧
    (ep.protocol = .Ssh → (bytes banner).length ≤ 253 ∧
      ("SSH-2.0-".toList <+: banner.toList ∨ "SSH-1.99-".toList <+: banner.toList) ∧
      ∀ b ∈ bytes banner, printableByte b = true)
  serverHeader : ∀ header, ep.serverHeader = some header →
    ep.protocol = .Http ∧ header ≠ "" ∧ (bytes header).length ≤ 256 ∧
    ∀ b ∈ bytes header, printableByte b = true
  httpStatus : ∀ status, ep.httpStatus = some status →
    ep.protocol = .Http ∧ 200 ≤ status ∧ status ≤ 599
  loginPrompt : ∀ prompt, ep.loginPrompt = some prompt →
    ep.protocol = .Telnet ∧ IsSafeText prompt 128 ∧ prompt ≠ ""

structure Config.Accepted (cfg : Config) : Prop where
  endpointCount : 1 ≤ cfg.endpoints.length ∧ cfg.endpoints.length ≤ 32
  sensor : cfg.sensor.Accepted
  server : cfg.server.Accepted
  logging : cfg.logging.Accepted cfg.server
  metrics : cfg.metrics.Accepted
  endpoint : ∀ ep ∈ cfg.endpoints, ep.Accepted cfg.metrics
  distinctNames : ((cfg.endpoints.map EndpointConfig.name).filter (· ≠ "")).Nodup
  disjointBinds : cfg.endpoints.Pairwise
    (fun previous ep => bindsConflict ep.bind previous.bind = false)

/-! ### Chains of checks -/

@[simp] theorem ensure_ok_iff (cond : Bool) (msg : String) :
    ensure cond msg = .ok () ↔ cond = true := by
  cases cond <;> simp [ensure]

@[simp] theorem bind_ok_iff (first second : Except String Unit) :
    (first >>= fun _ => second) = .ok () ↔ first = .ok () ∧ second = .ok () := by
  cases first with
  | error msg => simp [bind, Except.bind]
  | ok value => simp [bind, Except.bind]

@[simp] theorem forM_ok_iff {α : Type} (check : α → Except String Unit) (list : List α) :
    list.forM check = .ok () ↔ ∀ a ∈ list, check a = .ok () := by
  induction list with
  | nil => simp [pure, Except.pure]
  | cons head tail ih =>
      change (check head >>= fun _ => tail.forM check) = .ok () ↔ _
      rw [bind_ok_iff, ih, List.forall_mem_cons]

@[simp] theorem option_forM_ok_iff {α : Type} (check : α → Except String Unit)
    (option : Option α) :
    option.forM check = .ok () ↔ ∀ a, option = some a → check a = .ok () := by
  cases option with
  | none => simp [Option.forM, pure, Except.pure]
  | some value => simp [Option.forM]

@[simp] theorem range_ok_iff (name : String) (value min max : Nat) :
    range name value min max = .ok () ↔ min ≤ value ∧ value ≤ max := by
  simp [range]

@[simp] theorem identifier_ok_iff (name value : String) :
    identifier name value = .ok () ↔ IsIdentifier value := by
  simp only [identifier, ensure_ok_iff, Bool.and_eq_true, decide_eq_true_eq, List.all_eq_true]
  constructor
  · rintro ⟨⟨hne, hlen⟩, hall⟩
    exact ⟨by simpa using hne, hlen, hall⟩
  · intro h
    exact ⟨⟨by simpa using h.nonempty, h.length⟩, h.alphabet⟩

@[simp] theorem safeText_ok_iff (name value : String) (max : Nat) :
    safeText name value max = .ok () ↔ IsSafeText value max := by
  simp only [safeText, ensure_ok_iff, Bool.not_eq_true', Bool.or_eq_false_iff,
    decide_eq_false_iff_not, Nat.not_lt, List.any_eq_false, Bool.not_eq_true]
  exact ⟨fun h => ⟨h.1, h.2⟩, fun h => ⟨h.length, h.noControl⟩⟩

theorem validateSensor_ok_iff (sensor : SensorConfig) :
    validateSensor sensor = .ok () ↔ sensor.Accepted := by
  simp only [validateSensor, bind_ok_iff, identifier_ok_iff, ensure_ok_iff, forM_ok_iff,
    safeText_ok_iff, decide_eq_true_eq]
  constructor
  · rintro ⟨hid, henv, hcount, htags⟩
    exact ⟨hid, henv, hcount, fun tag h => (htags tag h).1, fun tag h => (htags tag h).2⟩
  · intro h
    exact ⟨h.id, h.environment, h.tagCount, fun tag ht => ⟨h.tagKey tag ht, h.tagValue tag ht⟩⟩

theorem validateIgnored_ok_iff (ignored ips : List IpAddr) :
    validateIgnored ignored ips = .ok () ↔
      (ips.map canonicalIp).Nodup ∧ ∀ ip ∈ ips, canonicalIp ip ∉ ignored := by
  induction ips generalizing ignored with
  | nil => simp [validateIgnored]
  | cons ip rest ih =>
      simp only [validateIgnored, bind_ok_iff, ensure_ok_iff, decide_eq_true_eq, ih,
        List.map_cons, List.nodup_cons, List.mem_cons, List.mem_map, not_or]
      constructor
      · rintro ⟨hfresh, hnodup, hrest⟩
        refine ⟨⟨?_, hnodup⟩, ?_⟩
        · rintro ⟨other, hother, heq⟩
          exact (hrest other hother).1 heq
        · rintro other (rfl | hother)
          · exact hfresh
          · exact (hrest other hother).2
      · rintro ⟨⟨hdistinct, hnodup⟩, hall⟩
        refine ⟨hall ip (Or.inl rfl), hnodup, ?_⟩
        intro other hother
        exact ⟨fun heq => hdistinct ⟨other, hother, heq⟩, hall other (Or.inr hother)⟩

theorem validateServer_ok_iff (s : ServerConfig) :
    validateServer s = .ok () ↔ s.Accepted := by
  simp only [validateServer, bind_ok_iff, range_ok_iff, ensure_ok_iff, decide_eq_true_eq,
    validateIgnored_ok_iff]
  constructor
  · rintro ⟨h1, h2, h3, h4, h5, h6, h7, h8, h9, h10, h11, h12⟩
    exact ⟨h1, h2, h3, h4, h5.2, h6, h7.2, h8, h9, h10, h11, h12.1⟩
  · intro h
    exact ⟨h.maxConcurrentSessions, h.sessionTimeoutSeconds, h.maxSessionDurationSeconds,
      h.shutdownGraceSeconds, ⟨Nat.zero_le _, h.rateLimitPerIpPerMin⟩, h.maxTrackedIps,
      ⟨Nat.zero_le _, h.maxBytesPerSession⟩, h.maxReadBytesPerSession, h.preview_le_read,
      h.historyBudget, h.ignoredCount, h.ignoredDistinct, by simp⟩

theorem validateLogging_ok_iff (s : ServerConfig) (l : LoggingConfig) :
    validateLogging s l = .ok () ↔ l.Accepted s := by
  simp only [validateLogging, bind_ok_iff, range_ok_iff, ensure_ok_iff, decide_eq_true_eq,
    Bool.not_eq_true', List.contains_eq_mem, decide_eq_false_iff_not]
  exact ⟨fun ⟨h1, h2, h3, h4, h5, h6⟩ => ⟨h1, h2, h3, h4, h5, h6⟩,
    fun h => ⟨h.output, h.bufferSize, h.maxFileBytes, h.maxFiles, h.writeTimeoutSeconds,
      h.queueBudget⟩⟩

theorem validateMetrics_ok_iff (m : MetricsConfig) :
    validateMetrics m = .ok () ↔ m.Accepted := by
  simp only [validateMetrics, bind_ok_iff, range_ok_iff, ensure_ok_iff]
  constructor
  · rintro ⟨h1, h2, h3⟩
    refine ⟨h1, h2, fun henabled => ?_⟩
    simpa [henabled] using h3
  · intro h
    refine ⟨h.maxConnections, h.requestTimeoutSeconds, ?_⟩
    cases henabled : m.enabled with
    | false => rfl
    | true => simpa using h.remote henabled

theorem validateBanner_ok_iff (ep : EndpointConfig) (banner : String) :
    validateBanner ep banner = .ok () ↔
      (bytes banner).length ≤ 4096 ∧ ep.protocol ≠ .Http ∧
      (ep.protocol = .Ssh → (bytes banner).length ≤ 253 ∧
        ("SSH-2.0-".toList <+: banner.toList ∨ "SSH-1.99-".toList <+: banner.toList) ∧
        ∀ b ∈ bytes banner, printableByte b = true) := by
  by_cases hssh : ep.protocol = .Ssh
  · simp [validateBanner, hssh]
  · simp [validateBanner, hssh, pure, Except.pure]

theorem validateName_ok_iff (names : List String) (ep : EndpointConfig) :
    validateName names ep = .ok () ↔
      (ep.name ≠ "" → IsIdentifier ep.name ∧ ep.name ∉ names) := by
  by_cases hempty : ep.name = "" <;> simp [validateName, hempty]

theorem validateEndpoint_ok_iff (m : MetricsConfig) (names : List String)
    (previous : List EndpointConfig) (ep : EndpointConfig) :
    validateEndpoint m names previous ep = .ok () ↔
      ep.Accepted m ∧ (ep.name ≠ "" → ep.name ∉ names) ∧
      ∀ other ∈ previous, bindsConflict ep.bind other.bind = false := by
  have hmetrics : (!m.enabled || !bindsConflict ep.bind m.bind) = true ↔
      (m.enabled = true → bindsConflict ep.bind m.bind = false) := by
    cases m.enabled <;> simp
  simp only [validateEndpoint, bind_ok_iff, validateName_ok_iff, hmetrics, ensure_ok_iff, forM_ok_iff,
    option_forM_ok_iff, validateBanner_ok_iff, validateServerHeader, validateStatus,
    validatePrompt, safeText_ok_iff, Bool.not_eq_true', decide_eq_true_eq, Bool.and_eq_true,
    List.all_eq_true]
  constructor
  · rintro ⟨hid, hprev, hbind, hbanner, hheader, hstatus, hprompt⟩
    refine ⟨⟨fun h => (hid h).1, hbind, hbanner, ?_, hstatus, hprompt⟩,
      fun h => (hid h).2, hprev⟩
    intro header h
    obtain ⟨hhttp, ⟨hne, hlen⟩, hall⟩ := hheader header h
    exact ⟨hhttp, hne, hlen, hall⟩
  · rintro ⟨hep, hfresh, hprev⟩
    refine ⟨fun h => ⟨hep.name h, hfresh h⟩, hprev, hep.metricsBind, hep.banner, ?_,
      hep.httpStatus, hep.loginPrompt⟩
    intro header h
    obtain ⟨hhttp, hne, hlen, hall⟩ := hep.serverHeader header h
    exact ⟨hhttp, ⟨hne, hlen⟩, hall⟩

theorem validateEndpoints_ok_iff (m : MetricsConfig) (names : List String)
    (previous endpoints : List EndpointConfig) :
    validateEndpoints m names previous endpoints = .ok () ↔
      (∀ ep ∈ endpoints, ep.Accepted m) ∧
      ((endpoints.map EndpointConfig.name).filter (· ≠ "")).Nodup ∧
      (∀ ep ∈ endpoints, ep.name ≠ "" → ep.name ∉ names) ∧
      endpoints.Pairwise (fun other ep => bindsConflict ep.bind other.bind = false) ∧
      ∀ ep ∈ endpoints, ∀ other ∈ previous, bindsConflict ep.bind other.bind = false := by
  induction endpoints generalizing names previous with
  | nil => simp [validateEndpoints]
  | cons ep rest ih =>
      simp only [validateEndpoints, bind_ok_iff, validateEndpoint_ok_iff, ih,
        List.forall_mem_cons, List.map_cons, List.pairwise_cons, List.forall_mem_append,
        List.mem_singleton, forall_eq]
      by_cases hempty : ep.name = ""
      · simp only [hempty, ne_eq, not_true_eq_false, decide_false, Bool.false_eq_true,
          not_false_eq_true, List.filter_cons_of_neg, if_true, false_implies, true_and]
        constructor
        · rintro ⟨⟨ha, hp⟩, hall, hnodup, hnames, hpair, hprev⟩
          exact ⟨⟨ha, hall⟩, hnodup, hnames, ⟨fun e he => (hprev e he).2, hpair⟩, hp,
            fun e he => (hprev e he).1⟩
        · rintro ⟨⟨ha, hall⟩, hnodup, hnames, ⟨hhead, hpair⟩, hp, hprev⟩
          exact ⟨⟨ha, hp⟩, hall, hnodup, hnames, hpair, fun e he => ⟨hprev e he, hhead e he⟩⟩
      · have hkeep : (ep.name :: rest.map EndpointConfig.name).filter (· ≠ "") =
            ep.name :: (rest.map EndpointConfig.name).filter (· ≠ "") := by
          simp [hempty]
        rw [hkeep]
        simp only [hempty, ne_eq, not_false_eq_true, forall_true_left, if_false,
          List.nodup_cons, List.mem_filter, List.mem_map, decide_not, Bool.not_eq_true',
          decide_eq_false_iff_not, and_true, List.mem_cons, not_or, not_exists, not_and]
        constructor
        · rintro ⟨⟨ha, hn, hp⟩, hall, hnodup, hnames, hpair, hprev⟩
          refine ⟨⟨ha, hall⟩, ⟨?_, hnodup⟩, ⟨hn, fun e he hne => (hnames e he hne).2⟩,
            ⟨fun e he => (hprev e he).2, hpair⟩, hp, fun e he => (hprev e he).1⟩
          intro e he heq
          exact (hnames e he (by rw [heq]; exact hempty)).1 heq
        · rintro ⟨⟨ha, hall⟩, ⟨hdistinct, hnodup⟩, ⟨hn, hnames⟩, ⟨hhead, hpair⟩, hp, hprev⟩
          exact ⟨⟨ha, hn, hp⟩, hall, hnodup,
            fun e he hne => ⟨fun heq => hdistinct e he heq, hnames e he hne⟩, hpair,
            fun e he => ⟨hprev e he, hhead e he⟩⟩

/-- `Config::validate` accepts a configuration exactly when it has every one
of the facts of `Config.Accepted`. -/
theorem validate_ok_iff (cfg : Config) : cfg.validate = .ok () ↔ cfg.Accepted := by
  simp only [Config.validate, bind_ok_iff, ensure_ok_iff, range_ok_iff, validateSensor_ok_iff,
    validateServer_ok_iff, validateLogging_ok_iff, validateMetrics_ok_iff,
    validateEndpoints_ok_iff]
  constructor
  · rintro ⟨_, hcount, hsensor, hserver, hlogging, hmetrics, hep, hnames, _, hbinds, _⟩
    exact ⟨hcount, hsensor, hserver, hlogging, hmetrics, hep, hnames, hbinds⟩
  · intro h
    refine ⟨?_, h.endpointCount, h.sensor, h.server, h.logging, h.metrics, h.endpoint,
      h.distinctNames, by simp, h.disjointBinds, by simp⟩
    have hcount := h.endpointCount.1
    cases hnil : cfg.endpoints with
    | nil => simp [hnil] at hcount
    | cons _ _ => rfl

theorem canonicalIp_idem (ip : IpAddr) : canonicalIp (canonicalIp ip) = canonicalIp ip := by
  cases ip with
  | V4 addr => rfl
  | V6 addr =>
      cases hmapped : toIpv4Mapped addr with
      | none => simp [canonicalIp, hmapped]
      | some v4 => simp [canonicalIp, hmapped]

end Minotaur
