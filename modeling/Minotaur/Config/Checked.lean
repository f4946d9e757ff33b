import Minotaur.Config.Accepted

/-!
The validator over `u64`: the two budget products, and the sum in the second
one, are the only arithmetic of `Config::validate`. `none` is an operation
whose exact result does not fit.
-/

namespace Minotaur

/-- A check that may overflow on the way. -/
abbrev Checked := ExceptT String Option Unit

def checkedU64 (value : Nat) : ExceptT String Option Nat :=
  ExceptT.mk (if value ≤ u64Max then some (.ok value) else none)

def plain (check : Except String Unit) : Checked := ExceptT.mk (some check)

def ServerConfig.validateU64 (s : ServerConfig) : Checked := do
  plain (range "server.max_concurrent_sessions" s.maxConcurrentSessions 1 4096)
  plain (range "server.session_timeout_seconds" s.sessionTimeoutSeconds 1 300)
  plain (range "server.max_session_duration_seconds" s.maxSessionDurationSeconds 1 3600)
  plain (range "server.shutdown_grace_seconds" s.shutdownGraceSeconds 1 60)
  plain (range "server.rate_limit_per_ip_per_min" s.rateLimitPerIpPerMin 0 10000)
  plain (range "server.max_tracked_ips" s.maxTrackedIps 1 65536)
  plain (range "server.max_bytes_per_session" s.maxBytesPerSession 0 65536)
  plain (range "server.max_read_bytes_per_session" s.maxReadBytesPerSession 1 16777216)
  plain (ensure (decide (s.maxBytesPerSession ≤ s.maxReadBytesPerSession))
    "preview limit must not exceed the total read limit")
  let timestamps ← checkedU64 (s.maxTrackedIps * s.rateLimitPerIpPerMin)
  plain (ensure (decide (timestamps ≤ 1000000))
    "rate-limit history budget exceeds 1,000,000 timestamps")
  plain (ensure (decide (s.ignoreSourceIps.length ≤ 256))
    "ignore_source_ips allows at most 256 addresses")
  plain (validateIgnored [] s.ignoreSourceIps)

def LoggingConfig.validateU64 (s : ServerConfig) (l : LoggingConfig) : Checked := do
  plain (ensure (!l.output.toList.contains (Char.ofNat 0)) "logging.output contains a NUL byte")
  plain (range "logging.buffer_size" l.bufferSize 1 4096)
  plain (range "logging.max_file_bytes" l.maxFileBytes 1048576 1073741824)
  plain (range "logging.max_files" l.maxFiles 1 20)
  plain (range "logging.write_timeout_seconds" l.writeTimeoutSeconds 1 30)
  let previewBytes ← checkedU64 (3 * s.maxBytesPerSession)
  let estimatedRecordBytes ← checkedU64 (65536 + previewBytes)
  let queueBytes ← checkedU64 (estimatedRecordBytes * l.bufferSize)
  plain (ensure (decide (queueBytes ≤ 268435456))
    "logging queue budget exceeds 256 MiB; reduce buffer_size or preview size")

def Config.validateU64 (cfg : Config) : Checked := do
  plain (ensure (!cfg.endpoints.isEmpty) "at least one [[endpoint]] is required")
  plain (range "endpoint count" cfg.endpoints.length 1 32)
  plain (validateSensor cfg.sensor)
  cfg.server.validateU64
  LoggingConfig.validateU64 cfg.server cfg.logging
  plain (validateMetrics cfg.metrics)
  plain (validateEndpoints cfg.metrics [] [] cfg.endpoints)

/-! ### Nothing overflows -/

theorem checkedU64_bind {value : Nat} (hfits : value ≤ u64Max) (next : Nat → Checked) :
    checkedU64 value >>= next = next value := by
  unfold checkedU64
  rw [if_pos hfits]
  rfl

/-- What follows a check may use that it passed. -/
theorem plain_bind_congr {check : Except String Unit} {next next' : Unit → Checked}
    (hnext : check = .ok () → next () = next' ()) : plain check >>= next = plain check >>= next' := by
  cases check with
  | error msg => rfl
  | ok value => exact hnext rfl

theorem plain_bind (check : Except String Unit) (next : Unit → Except String Unit) :
    plain (check >>= next) = plain check >>= fun value => plain (next value) := by
  cases check with
  | error msg => rfl
  | ok value => rfl

theorem ServerConfig.validateU64_eq (s : ServerConfig) : s.validateU64 = plain (validateServer s) := by
  unfold ServerConfig.validateU64 validateServer
  simp only [plain_bind]
  refine plain_bind_congr fun _ => plain_bind_congr fun _ => ?_
  refine plain_bind_congr fun _ => plain_bind_congr fun _ => ?_
  refine plain_bind_congr fun hlimit => plain_bind_congr fun hips => ?_
  refine plain_bind_congr fun _ => plain_bind_congr fun _ => plain_bind_congr fun _ => ?_
  rw [range_ok_iff] at hlimit hips
  have hfits : s.maxTrackedIps * s.rateLimitPerIpPerMin ≤ u64Max :=
    (Nat.mul_le_mul hips.2 hlimit.2).trans (by decide)
  exact checkedU64_bind hfits _

theorem LoggingConfig.validateU64_eq {s : ServerConfig} (hserver : validateServer s = .ok ())
    (l : LoggingConfig) : LoggingConfig.validateU64 s l = plain (validateLogging s l) := by
  have hbytes : s.maxBytesPerSession ≤ 65536 := 
    ((validateServer_ok_iff s).mp hserver).maxBytesPerSession
  unfold LoggingConfig.validateU64 validateLogging
  simp only [plain_bind]
  refine plain_bind_congr fun _ => plain_bind_congr fun hbuffer => ?_
  refine plain_bind_congr fun _ => plain_bind_congr fun _ => plain_bind_congr fun _ => ?_
  rw [range_ok_iff] at hbuffer
  have hpreview : 3 * s.maxBytesPerSession ≤ u64Max :=
    (Nat.mul_le_mul_left 3 hbytes).trans (by decide)
  have hrecord : 65536 + 3 * s.maxBytesPerSession ≤ 262144 := by omega
  have hqueue : (65536 + 3 * s.maxBytesPerSession) * l.bufferSize ≤ u64Max :=
    (Nat.mul_le_mul hrecord hbuffer.2).trans (by decide)
  rw [checkedU64_bind hpreview, checkedU64_bind (hrecord.trans (by decide)), checkedU64_bind hqueue]

theorem Config.validateU64_eq (cfg : Config) : cfg.validateU64 = plain cfg.validate := by
  unfold Config.validateU64 Config.validate
  simp only [plain_bind]
  refine plain_bind_congr fun _ => plain_bind_congr fun _ => plain_bind_congr fun _ => ?_
  rw [cfg.server.validateU64_eq]
  refine plain_bind_congr fun hserver => ?_
  rw [LoggingConfig.validateU64_eq hserver]

end Minotaur
