import Minotaur.Config.Decode

/-!
The round trip of the configuration. A configuration that was read and
accepted is written to a document that reads as the same configuration. The
file it was read from has no key that is ignored, and it says what it changes
about the defaults: it reads like the written defaults with the file laid over
them.
-/

namespace Minotaur

open Net Toml

/-! ### One record -/

theorem readMap_serialize (map : BTreeMap) : readMap map.serialize = some map := by
  have hread := @mapM_map _ (String × String) _
    (fun entry => (readString entry.2).map fun text => (entry.1, text))
    (fun entry : String × String => (entry.1, Value.String entry.2)) map.entries id
    (fun _ _ => rfl)
  rw [List.map_id] at hread
  simp only [BTreeMap.serialize, readMap, hread, Option.map_some, BTreeMap.ofList_entries]

theorem readMode_serialize (mode : PrivacyMode) : readMode mode.serialize = some mode := by
  cases mode <;> rfl

theorem readProtocol_serialize (protocol : Protocol) :
    readProtocol protocol.serialize = some protocol := by
  cases protocol <;> rfl

/-- A table that has every field of a record. -/
structure SensorConfig.Written (config : SensorConfig) (entries : List (String × Value)) :
    Prop where
  known : Known names entries
  id : (entries.lookup "id").bind readString = some config.id
  environment : (entries.lookup "environment").bind readString = some config.environment
  tags : (entries.lookup "tags").bind readMap = some config.tags

theorem SensorConfig.written (config : SensorConfig) : config.Written config.entries where
  known := ⟨by simp [keys, entries, names], by simp [keys, entries]⟩
  id := rfl
  environment := rfl
  tags := readMap_serialize config.tags

namespace SensorConfig.Written

variable {config : SensorConfig} {base : List (String × Value)}

theorem deserialize (h : config.Written base) : deserialize (.Table base) = some config := by
  unfold SensorConfig.deserialize
  rw [fields_of_known h.known]
  simp only [Option.bind_eq_bind, Option.bind_some, Fields.default_of_reads h.id,
    Fields.default_of_reads h.environment, Fields.default_of_reads h.tags]
  rfl

theorem overlay (h : Written {} base) (entries : List (String × Value)) :
    SensorConfig.deserialize (.Table (overlay base entries)) =
      SensorConfig.deserialize (.Table entries) := by
  unfold SensorConfig.deserialize
  rw [fields_overlay h.known, Option.bind_eq_bind, Option.bind_eq_bind, Option.bind_map]
  simp only [Function.comp_def, Fields.default_or h.id, Fields.default_or h.environment,
    Fields.default_or h.tags]

end SensorConfig.Written

structure PrivacyConfig.Written (config : PrivacyConfig) (entries : List (String × Value)) :
    Prop where
  known : Known names entries
  mode : (entries.lookup "mode").bind readMode = some config.mode
  captureHttpPath :
    (entries.lookup "capture_http_path").bind readBoolean = some config.captureHttpPath

theorem PrivacyConfig.written (config : PrivacyConfig) : config.Written config.entries where
  known := ⟨by simp [keys, entries, names], by simp [keys, entries]⟩
  mode := readMode_serialize config.mode
  captureHttpPath := rfl

namespace PrivacyConfig.Written

variable {config : PrivacyConfig} {base : List (String × Value)}

theorem deserialize (h : config.Written base) : deserialize (.Table base) = some config := by
  unfold PrivacyConfig.deserialize
  rw [fields_of_known h.known]
  simp only [Option.bind_eq_bind, Option.bind_some, Fields.default_of_reads h.mode,
    Fields.default_of_reads h.captureHttpPath]
  rfl

theorem overlay (h : Written {} base) (entries : List (String × Value)) :
    PrivacyConfig.deserialize (.Table (overlay base entries)) =
      PrivacyConfig.deserialize (.Table entries) := by
  unfold PrivacyConfig.deserialize
  rw [fields_overlay h.known, Option.bind_eq_bind, Option.bind_eq_bind, Option.bind_map]
  simp only [Function.comp_def, Fields.default_or h.mode, Fields.default_or h.captureHttpPath]

end PrivacyConfig.Written

structure LoggingConfig.Written (config : LoggingConfig) (entries : List (String × Value)) :
    Prop where
  known : Known names entries
  output : (entries.lookup "output").bind readString = some config.output
  stdout : (entries.lookup "stdout").bind readBoolean = some config.stdout
  bufferSize : (entries.lookup "buffer_size").bind (readUnsigned (2 ^ 64)) = some config.bufferSize
  maxFileBytes :
    (entries.lookup "max_file_bytes").bind (readUnsigned (2 ^ 64)) = some config.maxFileBytes
  maxFiles : (entries.lookup "max_files").bind (readUnsigned (2 ^ 64)) = some config.maxFiles
  writeTimeoutSeconds : (entries.lookup "write_timeout_seconds").bind (readUnsigned (2 ^ 64)) =
    some config.writeTimeoutSeconds

theorem LoggingConfig.written {s : ServerConfig} {config : LoggingConfig}
    (haccepted : config.Accepted s) :
    ∃ written, config.entries = some written ∧ config.Written written := by
  obtain ⟨_, hbuffer, hbytes, hfiles, htimeout, _⟩ := haccepted
  simp only [entries, writeUnsigned_eq (by omega : config.bufferSize < 2 ^ 63),
    writeUnsigned_eq (by omega : config.maxFileBytes < 2 ^ 63),
    writeUnsigned_eq (by omega : config.maxFiles < 2 ^ 63),
    writeUnsigned_eq (by omega : config.writeTimeoutSeconds < 2 ^ 63), Option.bind_eq_bind,
    Option.bind_some]
  exact ⟨_, rfl, {
    known := ⟨by simp [keys, names], by simp [keys]⟩
    output := rfl
    stdout := rfl
    bufferSize := Fields.reads_of_lookup rfl (readUnsigned_integer (by omega))
    maxFileBytes := Fields.reads_of_lookup rfl (readUnsigned_integer (by omega))
    maxFiles := Fields.reads_of_lookup rfl (readUnsigned_integer (by omega))
    writeTimeoutSeconds := Fields.reads_of_lookup rfl (readUnsigned_integer (by omega)) }⟩

namespace LoggingConfig.Written

variable {config : LoggingConfig} {base : List (String × Value)}

theorem deserialize (h : config.Written base) : deserialize (.Table base) = some config := by
  unfold LoggingConfig.deserialize
  rw [fields_of_known h.known]
  simp only [Option.bind_eq_bind, Option.bind_some, Fields.default_of_reads h.output,
    Fields.default_of_reads h.stdout, Fields.default_of_reads h.bufferSize,
    Fields.default_of_reads h.maxFileBytes, Fields.default_of_reads h.maxFiles,
    Fields.default_of_reads h.writeTimeoutSeconds]
  rfl

theorem overlay (h : Written {} base) (entries : List (String × Value)) :
    LoggingConfig.deserialize (.Table (overlay base entries)) =
      LoggingConfig.deserialize (.Table entries) := by
  unfold LoggingConfig.deserialize
  rw [fields_overlay h.known, Option.bind_eq_bind, Option.bind_eq_bind, Option.bind_map]
  simp only [Function.comp_def, Fields.default_or h.output, Fields.default_or h.stdout,
    Fields.default_or h.bufferSize, Fields.default_or h.maxFileBytes, Fields.default_or h.maxFiles,
    Fields.default_or h.writeTimeoutSeconds]

end LoggingConfig.Written

theorem readBind_show (bind : SocketAddr) : readBind (.String bind.show) = some bind.unlabelled :=
  SocketAddr.parse_show bind

theorem readIp_show (ip : IpAddr) : readIp (.String ip.show) = some ip := IpAddr.parse_show ip

structure MetricsConfig.Written (config : MetricsConfig) (entries : List (String × Value)) :
    Prop where
  known : Known names entries
  enabled : (entries.lookup "enabled").bind readBoolean = some config.enabled
  bind : (entries.lookup "bind").bind readBind = some config.bind
  allowRemote : (entries.lookup "allow_remote").bind readBoolean = some config.allowRemote
  maxConnections :
    (entries.lookup "max_connections").bind (readUnsigned (2 ^ 64)) = some config.maxConnections
  requestTimeoutSeconds : (entries.lookup "request_timeout_seconds").bind
    (readUnsigned (2 ^ 64)) = some config.requestTimeoutSeconds

theorem MetricsConfig.written {config : MetricsConfig} (haccepted : config.Accepted)
    (hbind : config.bind.unlabelled = config.bind) :
    ∃ written, config.entries = some written ∧ config.Written written := by
  obtain ⟨hconnections, htimeout, _⟩ := haccepted
  simp only [entries, writeUnsigned_eq (by omega : config.maxConnections < 2 ^ 63),
    writeUnsigned_eq (by omega : config.requestTimeoutSeconds < 2 ^ 63), Option.bind_eq_bind,
    Option.bind_some]
  exact ⟨_, rfl, {
    known := ⟨by simp [keys, names], by simp [keys]⟩
    enabled := rfl
    bind := Fields.reads_of_lookup rfl (by rw [readBind_show, hbind])
    allowRemote := rfl
    maxConnections := Fields.reads_of_lookup rfl (readUnsigned_integer (by omega))
    requestTimeoutSeconds := Fields.reads_of_lookup rfl (readUnsigned_integer (by omega)) }⟩

namespace MetricsConfig.Written

variable {config : MetricsConfig} {base : List (String × Value)}

theorem deserialize (h : config.Written base) : deserialize (.Table base) = some config := by
  unfold MetricsConfig.deserialize
  rw [fields_of_known h.known]
  simp only [Option.bind_eq_bind, Option.bind_some, Fields.default_of_reads h.enabled,
    Fields.default_of_reads h.bind, Fields.default_of_reads h.allowRemote,
    Fields.default_of_reads h.maxConnections, Fields.default_of_reads h.requestTimeoutSeconds]
  rfl

theorem overlay (h : Written {} base) (entries : List (String × Value)) :
    MetricsConfig.deserialize (.Table (overlay base entries)) =
      MetricsConfig.deserialize (.Table entries) := by
  unfold MetricsConfig.deserialize
  rw [fields_overlay h.known, Option.bind_eq_bind, Option.bind_eq_bind, Option.bind_map]
  simp only [Function.comp_def, Fields.default_or h.enabled, Fields.default_or h.bind,
    Fields.default_or h.allowRemote, Fields.default_or h.maxConnections,
    Fields.default_or h.requestTimeoutSeconds]

end MetricsConfig.Written

structure ServerConfig.Written (config : ServerConfig) (entries : List (String × Value)) :
    Prop where
  known : Known names entries
  maxConcurrentSessions : (entries.lookup "max_concurrent_sessions").bind
    (readUnsigned (2 ^ 64)) = some config.maxConcurrentSessions
  sessionTimeoutSeconds : (entries.lookup "session_timeout_seconds").bind
    (readUnsigned (2 ^ 64)) = some config.sessionTimeoutSeconds
  maxSessionDurationSeconds : (entries.lookup "max_session_duration_seconds").bind
    (readUnsigned (2 ^ 64)) = some config.maxSessionDurationSeconds
  shutdownGraceSeconds : (entries.lookup "shutdown_grace_seconds").bind
    (readUnsigned (2 ^ 64)) = some config.shutdownGraceSeconds
  rateLimitPerIpPerMin : (entries.lookup "rate_limit_per_ip_per_min").bind
    (readUnsigned (2 ^ 32)) = some config.rateLimitPerIpPerMin
  maxTrackedIps :
    (entries.lookup "max_tracked_ips").bind (readUnsigned (2 ^ 64)) = some config.maxTrackedIps
  maxBytesPerSession : (entries.lookup "max_bytes_per_session").bind
    (readUnsigned (2 ^ 64)) = some config.maxBytesPerSession
  maxReadBytesPerSession : (entries.lookup "max_read_bytes_per_session").bind
    (readUnsigned (2 ^ 64)) = some config.maxReadBytesPerSession
  ignoreSourceIps :
    (entries.lookup "ignore_source_ips").bind (readList readIp) = some config.ignoreSourceIps

theorem ServerConfig.written {config : ServerConfig} (haccepted : config.Accepted) :
    ∃ written, config.entries = some written ∧ config.Written written := by
  obtain ⟨hsessions, htimeout, hduration, hgrace, hlimit, hips, hbytes, hread, _⟩ := haccepted
  simp only [entries, writeUnsigned_eq (by omega : config.maxConcurrentSessions < 2 ^ 63),
    writeUnsigned_eq (by omega : config.sessionTimeoutSeconds < 2 ^ 63),
    writeUnsigned_eq (by omega : config.maxSessionDurationSeconds < 2 ^ 63),
    writeUnsigned_eq (by omega : config.shutdownGraceSeconds < 2 ^ 63),
    writeUnsigned_eq (by omega : config.rateLimitPerIpPerMin < 2 ^ 63),
    writeUnsigned_eq (by omega : config.maxTrackedIps < 2 ^ 63),
    writeUnsigned_eq (by omega : config.maxBytesPerSession < 2 ^ 63),
    writeUnsigned_eq (by omega : config.maxReadBytesPerSession < 2 ^ 63), Option.bind_eq_bind,
    Option.bind_some]
  have hips : readList readIp (.Array (config.ignoreSourceIps.map fun ip => .String ip.show)) =
      some config.ignoreSourceIps := by
    have hmap := @mapM_map _ _ _ readIp (fun ip : IpAddr => Value.String ip.show)
      config.ignoreSourceIps id (fun ip _ => readIp_show ip)
    rwa [List.map_id] at hmap
  exact ⟨_, rfl, {
    known := ⟨by simp [keys, names], by simp [keys]⟩
    maxConcurrentSessions := Fields.reads_of_lookup rfl (readUnsigned_integer (by omega))
    sessionTimeoutSeconds := Fields.reads_of_lookup rfl (readUnsigned_integer (by omega))
    maxSessionDurationSeconds := Fields.reads_of_lookup rfl (readUnsigned_integer (by omega))
    shutdownGraceSeconds := Fields.reads_of_lookup rfl (readUnsigned_integer (by omega))
    rateLimitPerIpPerMin := Fields.reads_of_lookup rfl (readUnsigned_integer (by omega))
    maxTrackedIps := Fields.reads_of_lookup rfl (readUnsigned_integer (by omega))
    maxBytesPerSession := Fields.reads_of_lookup rfl (readUnsigned_integer (by omega))
    maxReadBytesPerSession := Fields.reads_of_lookup rfl (readUnsigned_integer (by omega))
    ignoreSourceIps := Fields.reads_of_lookup rfl hips }⟩

namespace ServerConfig.Written

variable {config : ServerConfig} {base : List (String × Value)}

theorem deserialize (h : config.Written base) : deserialize (.Table base) = some config := by
  unfold ServerConfig.deserialize
  rw [fields_of_known h.known]
  simp only [Option.bind_eq_bind, Option.bind_some,
    Fields.default_of_reads h.maxConcurrentSessions,
    Fields.default_of_reads h.sessionTimeoutSeconds,
    Fields.default_of_reads h.maxSessionDurationSeconds,
    Fields.default_of_reads h.shutdownGraceSeconds,
    Fields.default_of_reads h.rateLimitPerIpPerMin, Fields.default_of_reads h.maxTrackedIps,
    Fields.default_of_reads h.maxBytesPerSession,
    Fields.default_of_reads h.maxReadBytesPerSession, Fields.default_of_reads h.ignoreSourceIps]
  rfl

theorem overlay (h : Written {} base) (entries : List (String × Value)) :
    ServerConfig.deserialize (.Table (overlay base entries)) =
      ServerConfig.deserialize (.Table entries) := by
  unfold ServerConfig.deserialize
  rw [fields_overlay h.known, Option.bind_eq_bind, Option.bind_eq_bind, Option.bind_map]
  simp only [Function.comp_def, Fields.default_or h.maxConcurrentSessions,
    Fields.default_or h.sessionTimeoutSeconds, Fields.default_or h.maxSessionDurationSeconds,
    Fields.default_or h.shutdownGraceSeconds, Fields.default_or h.rateLimitPerIpPerMin,
    Fields.default_or h.maxTrackedIps, Fields.default_or h.maxBytesPerSession,
    Fields.default_or h.maxReadBytesPerSession, Fields.default_or h.ignoreSourceIps]

end ServerConfig.Written

/-- The addresses of a configuration have no flow label. -/
structure Config.Unlabelled (cfg : Config) : Prop where
  metrics : cfg.metrics.bind.unlabelled = cfg.metrics.bind
  endpoint : ∀ ep ∈ cfg.endpoints, ep.bind.unlabelled = ep.bind

theorem EndpointConfig.known (ep : EndpointConfig) : Known names ep.entries := by
  apply Known.of_sublist
  · have hoptional := (keys_optionalEntry "banner" (ep.banner.map .String)).append
      ((keys_optionalEntry "server_header" (ep.serverHeader.map .String)).append
        ((keys_optionalEntry "http_status"
          (ep.httpStatus.map fun status => .Integer status.toNat)).append
          (keys_optionalEntry "login_prompt" (ep.loginPrompt.map .String))))
    have hall := (List.Sublist.refl ["name", "bind", "protocol"]).append hoptional
    simpa [keys, entries, names] using hall
  · decide

theorem EndpointConfig.deserialize_entries {ep : EndpointConfig}
    (hbind : ep.bind.unlabelled = ep.bind) : deserialize (.Table ep.entries) = some ep := by
  have hshow : readBind (.String ep.bind.show) = some ep.bind := by rw [readBind_show, hbind]
  have hstring : ∀ text, readString (.String text) = some text := fun _ => rfl
  have hname : (ep.entries.lookup "name").bind readString = some ep.name := rfl
  have hbind : (ep.entries.lookup "bind").bind readBind = some ep.bind :=
    Fields.reads_of_lookup rfl hshow
  have hprotocol : (ep.entries.lookup "protocol").bind readProtocol = some ep.protocol :=
    Fields.reads_of_lookup rfl (readProtocol_serialize ep.protocol)
  have hbanner : ep.entries.lookup "banner" = ep.banner.map .String := by
    simp [entries, List.lookup_append, List.lookup_cons, lookup_optionalEntry]
  have hheader : ep.entries.lookup "server_header" = ep.serverHeader.map .String := by
    simp [entries, List.lookup_append, List.lookup_cons, lookup_optionalEntry]
  have hstatus : ep.entries.lookup "http_status" =
      ep.httpStatus.map fun status => .Integer status.toNat := by
    simp [entries, List.lookup_append, List.lookup_cons, lookup_optionalEntry]
  have hprompt : ep.entries.lookup "login_prompt" = ep.loginPrompt.map .String := by
    simp [entries, List.lookup_append, List.lookup_cons, lookup_optionalEntry]
  unfold deserialize
  rw [fields_of_known ep.known]
  simp only [Option.bind_eq_bind, Option.bind_some, Fields.default_of_reads hname,
    Fields.required_of_reads hbind, Fields.required_of_reads hprotocol,
    Fields.optional_of_lookup hbanner hstring,
    Fields.optional_of_lookup hheader hstring,
    Fields.optional_of_lookup hstatus readU16_integer,
    Fields.optional_of_lookup hprompt hstring]
  rfl

/-! ### The whole configuration -/

structure Config.Written (cfg : Config) (entries : List (String × Value)) : Prop where
  known : Known names entries
  sensor : ∃ table, entries.lookup "sensor" = some (.Table table) ∧ cfg.sensor.Written table
  privacy : ∃ table, entries.lookup "privacy" = some (.Table table) ∧ cfg.privacy.Written table
  logging : ∃ table, entries.lookup "logging" = some (.Table table) ∧ cfg.logging.Written table
  metrics : ∃ table, entries.lookup "metrics" = some (.Table table) ∧ cfg.metrics.Written table
  server : ∃ table, entries.lookup "server" = some (.Table table) ∧ cfg.server.Written table
  endpoint : ∃ items, entries.lookup "endpoint" = some (.Array items) ∧
    readList EndpointConfig.deserialize (.Array items) = some cfg.endpoints

theorem Config.written {cfg : Config} (hserver : cfg.server.Accepted)
    (hlogging : cfg.logging.Accepted cfg.server) (hmetrics : cfg.metrics.Accepted)
    (hunlabelled : cfg.Unlabelled) :
    ∃ written, cfg.entries = some written ∧ cfg.Written written := by
  obtain ⟨logging, hlogging, hloggingWritten⟩ := LoggingConfig.written hlogging
  obtain ⟨metrics, hmetrics, hmetricsWritten⟩ :=
    MetricsConfig.written hmetrics hunlabelled.metrics
  obtain ⟨server, hserver, hserverWritten⟩ := ServerConfig.written hserver
  have hendpoints := @mapM_map _ _ _ EndpointConfig.deserialize
    (fun ep : EndpointConfig => Value.Table ep.entries) cfg.endpoints id
    (fun ep hep => EndpointConfig.deserialize_entries (hunlabelled.endpoint ep hep))
  rw [List.map_id] at hendpoints
  simp only [entries, hlogging, hmetrics, hserver, Option.bind_eq_bind, Option.bind_some]
  exact ⟨_, rfl, {
    known := ⟨by simp [keys, names], by simp [keys]⟩
    sensor := ⟨_, rfl, cfg.sensor.written⟩
    privacy := ⟨_, rfl, cfg.privacy.written⟩
    logging := ⟨_, rfl, hloggingWritten⟩
    metrics := ⟨_, rfl, hmetricsWritten⟩
    server := ⟨_, rfl, hserverWritten⟩
    endpoint := ⟨_, rfl, hendpoints⟩ }⟩

namespace Config.Written

variable {cfg : Config} {base : List (String × Value)}

theorem deserialize (h : cfg.Written base) : deserialize (.Table base) = some cfg := by
  obtain ⟨_, hsensor, hsensorWritten⟩ := h.sensor
  obtain ⟨_, hprivacy, hprivacyWritten⟩ := h.privacy
  obtain ⟨_, hlogging, hloggingWritten⟩ := h.logging
  obtain ⟨_, hmetrics, hmetricsWritten⟩ := h.metrics
  obtain ⟨_, hserver, hserverWritten⟩ := h.server
  obtain ⟨_, hendpoint, hendpoints⟩ := h.endpoint
  unfold Config.deserialize
  rw [fields_of_known h.known]
  simp only [Option.bind_eq_bind, Option.bind_some,
    Fields.default_of_reads (Fields.reads_of_lookup hsensor hsensorWritten.deserialize),
    Fields.default_of_reads (Fields.reads_of_lookup hprivacy hprivacyWritten.deserialize),
    Fields.default_of_reads (Fields.reads_of_lookup hlogging hloggingWritten.deserialize),
    Fields.default_of_reads (Fields.reads_of_lookup hmetrics hmetricsWritten.deserialize),
    Fields.default_of_reads (Fields.reads_of_lookup hserver hserverWritten.deserialize),
    Fields.default_of_reads (Fields.reads_of_lookup hendpoint hendpoints)]
  rfl

/-- Reading a file is reading the written defaults with the file over them. -/
theorem overlay (h : Written {} base) (entries : List (String × Value)) :
    Config.deserialize (.Table (overlaySections base entries)) =
      Config.deserialize (.Table entries) := by
  obtain ⟨_, hsensor, hsensorWritten⟩ := h.sensor
  obtain ⟨_, hprivacy, hprivacyWritten⟩ := h.privacy
  obtain ⟨_, hlogging, hloggingWritten⟩ := h.logging
  obtain ⟨_, hmetrics, hmetricsWritten⟩ := h.metrics
  obtain ⟨_, hserver, hserverWritten⟩ := h.server
  obtain ⟨_, hendpoint, hendpoints⟩ := h.endpoint
  unfold Config.deserialize
  rw [fields_overlaySections h.known, Option.bind_eq_bind, Option.bind_eq_bind, Option.bind_map]
  simp only [Function.comp_def,
    Fields.default_section hsensor hsensorWritten.deserialize (over_table hsensorWritten.overlay),
    Fields.default_section hprivacy hprivacyWritten.deserialize
      (over_table hprivacyWritten.overlay),
    Fields.default_section hlogging hloggingWritten.deserialize
      (over_table hloggingWritten.overlay),
    Fields.default_section hmetrics hmetricsWritten.deserialize
      (over_table hmetricsWritten.overlay),
    Fields.default_section hserver hserverWritten.deserialize (over_table hserverWritten.overlay),
    Fields.default_section hendpoint hendpoints fun _ => rfl]

end Config.Written

/-! ### What a file can say -/

/-- Every key of the file is one of the configuration. -/
structure Strict (entries : List (String × Value)) : Prop where
  known : Known Config.names entries
  sections : ∀ key names, (key, names) ∈ [("sensor", SensorConfig.names),
      ("privacy", PrivacyConfig.names), ("logging", LoggingConfig.names),
      ("metrics", MetricsConfig.names), ("server", ServerConfig.names)] →
    ∀ value, entries.lookup key = some value → ∃ table, value = .Table table ∧ Known names table
  endpoint : ∀ value, entries.lookup "endpoint" = some value → ∃ items, value = .Array items ∧
    ∀ item ∈ items, ∃ table, item = .Table table ∧ Known EndpointConfig.names table

theorem MetricsConfig.unlabelled_of_deserialize {value : Value} {config : MetricsConfig}
    (h : deserialize value = some config) : config.bind.unlabelled = config.bind := by
  simp only [deserialize, Option.bind_eq_bind, Option.bind_eq_some_iff, Option.pure_def,
    Option.some.injEq] at h
  obtain ⟨field, _, _, _, bind, hbind, _, _, _, _, _, _, rfl⟩ := h
  rcases Fields.default_eq_some hbind with ⟨_, rfl⟩ | ⟨written, _, hread⟩
  · rfl
  · cases written with
    | String text => exact SocketAddr.unlabelled_of_parse hread
    | _ => cases hread

theorem EndpointConfig.unlabelled_of_deserialize {value : Value} {ep : EndpointConfig}
    (h : deserialize value = some ep) : ep.bind.unlabelled = ep.bind := by
  simp only [deserialize, Option.bind_eq_bind, Option.bind_eq_some_iff, Option.pure_def,
    Option.some.injEq] at h
  obtain ⟨field, _, _, _, bind, hbind, _, _, _, _, _, _, _, _, _, _, rfl⟩ := h
  obtain ⟨written, _, hread⟩ := Option.bind_eq_some_iff.mp hbind
  cases written with
  | String text => exact SocketAddr.unlabelled_of_parse hread
  | _ => cases hread

theorem items_of_endpoints {value : Value} {endpoints : List EndpointConfig}
    (h : readList EndpointConfig.deserialize value = some endpoints) :
    ∃ items, value = .Array items ∧
      (∀ item ∈ items, ∃ ep, EndpointConfig.deserialize item = some ep) ∧
      ∀ ep ∈ endpoints, ∃ item, EndpointConfig.deserialize item = some ep := by
  cases value with
  | Array items => exact ⟨items, rfl, read_of_mapM h⟩
  | _ => cases h

theorem Config.of_deserialize {document : Value} {cfg : Config}
    (h : deserialize document = some cfg) :
    ∃ entries, document = .Table entries ∧ Strict entries ∧ cfg.Unlabelled := by
  simp only [deserialize, Option.bind_eq_bind, Option.bind_eq_some_iff, Option.pure_def,
    Option.some.injEq] at h
  obtain ⟨_, hfields, sensor, hsensor, privacy, hprivacy, logging, hlogging, metrics, hmetrics,
    server, hserver, endpoints, hendpoints, rfl⟩ := h
  obtain ⟨entries, htable, hknown, rfl⟩ := table_of_fields hfields
  refine ⟨entries, htable, ⟨hknown, ?_, ?_⟩, ⟨?_, ?_⟩⟩
  · intro key names hmem value hvalue
    simp only [List.mem_cons, Prod.mk.injEq, List.not_mem_nil, or_false] at hmem
    obtain ⟨rfl, rfl⟩ | ⟨rfl, rfl⟩ | ⟨rfl, rfl⟩ | ⟨rfl, rfl⟩ | ⟨rfl, rfl⟩ := hmem
    · exact table_of_bind (Fields.read_of_default hsensor hvalue)
    · exact table_of_bind (Fields.read_of_default hprivacy hvalue)
    · exact table_of_bind (Fields.read_of_default hlogging hvalue)
    · exact table_of_bind (Fields.read_of_default hmetrics hvalue)
    · exact table_of_bind (Fields.read_of_default hserver hvalue)
  · intro value hvalue
    obtain ⟨items, hitems, hread, _⟩ :=
      items_of_endpoints (Fields.read_of_default hendpoints hvalue)
    refine ⟨items, hitems, ?_⟩
    intro item hitem
    obtain ⟨ep, hep⟩ := hread item hitem
    exact table_of_bind hep
  · rcases Fields.default_eq_some hmetrics with ⟨_, rfl⟩ | ⟨value, _, hread⟩
    · rfl
    · exact MetricsConfig.unlabelled_of_deserialize hread
  · intro ep hep
    rcases Fields.default_eq_some hendpoints with ⟨_, rfl⟩ | ⟨value, _, hread⟩
    · cases hep
    · obtain ⟨items, _, _, hall⟩ := items_of_endpoints hread
      obtain ⟨item, hitem⟩ := hall ep hep
      exact EndpointConfig.unlabelled_of_deserialize hitem

theorem validate_bind_ok_iff (read cfg : Config) :
    (read.validate >>= fun _ => pure read) = .ok cfg ↔ read = cfg ∧ cfg.validate = .ok () := by
  cases hvalid : read.validate with
  | error msg =>
      constructor
      · intro h
        cases h
      · rintro ⟨rfl, hok⟩
        rw [hvalid] at hok
        cases hok
  | ok value =>
      constructor
      · intro h
        obtain rfl := Except.ok.inj h
        exact ⟨rfl, hvalid⟩
      · rintro ⟨rfl, _⟩
        rfl

theorem Config.fromToml_ok_iff {fromStr : String → Option Value} {raw : String} {cfg : Config} :
    Config.fromToml fromStr raw = .ok cfg ↔
      (bytes raw).length ≤ 65536 ∧ (fromStr raw).bind Config.deserialize = some cfg ∧
        cfg.validate = .ok () := by
  unfold Config.fromToml ensure
  by_cases hlength : (bytes raw).length ≤ 65536
  · rw [decide_eq_true hlength, if_pos rfl, and_iff_right hlength]
    cases (fromStr raw).bind Config.deserialize with
    | none =>
        constructor
        · intro h
          cases h
        · rintro ⟨h, _⟩
          cases h
    | some read => exact (validate_bind_ok_iff read cfg).trans (by rw [Option.some.injEq])
  · rw [decide_eq_false hlength, if_neg (by decide)]
    constructor
    · intro h
      cases h
    · intro h
      exact absurd h.1 hlength

/-- A file that is accepted has no key that is ignored, and it reads like the
written defaults with the file laid over them. What it says can be written
down, and any text of that document is accepted as the same configuration. -/
theorem config_reads_back (fromStr : String → Option Value) (raw : String) (cfg : Config)
    (hread : Config.fromToml fromStr raw = .ok cfg) :
    ∃ entries defaults written : List (String × Value),
      fromStr raw = some (.Table entries) ∧ Strict entries ∧
      ({} : Config).entries = some defaults ∧
      Config.deserialize (.Table (overlaySections defaults entries)) = some cfg ∧
      cfg.entries = some written ∧
      ∀ text, (bytes text).length ≤ 65536 → fromStr text = some (.Table written) →
        Config.fromToml fromStr text = .ok cfg := by
  obtain ⟨hlength, hbind, hvalid⟩ := Config.fromToml_ok_iff.mp hread
  obtain ⟨document, hdocument, hdeserialize⟩ := Option.bind_eq_some_iff.mp hbind
  obtain ⟨entries, rfl, hstrict, hunlabelled⟩ := Config.of_deserialize hdeserialize
  have haccepted := (validate_ok_iff cfg).mp hvalid
  obtain ⟨written, hwritten, hall⟩ := Config.written haccepted.server haccepted.logging
    haccepted.metrics hunlabelled
  obtain ⟨defaults, hdefaults, hdefault⟩ := @Config.written {}
    ((validateServer_ok_iff {}).mp (by decide)) ((validateLogging_ok_iff {} {}).mp (by decide))
    ((validateMetrics_ok_iff {}).mp (by decide)) ⟨rfl, by simp⟩
  refine ⟨entries, defaults, written, hdocument, hstrict, hdefaults, ?_, hwritten, ?_⟩
  · rw [hdefault.overlay entries, hdeserialize]
  · intro text htext hparse
    refine Config.fromToml_ok_iff.mpr ⟨htext, ?_, hvalid⟩
    rw [hparse, Option.bind_some, hall.deserialize]

/-- A file with one endpoint. -/
def sshFile : String := "[[endpoint]]\nbind='127.0.0.1:2222'\nprotocol={ssh={}}\n"

def sshOnly : Config :=
  { endpoints := [⟨"", .V4 0x7f000001#32 2222, .Ssh, none, none, none, none⟩] }

/-- The document of that file; any other text is the written configuration. -/
def sshGrammar (text : String) : Option Value :=
  if text = sshFile then
    some (.Table [("endpoint", .Array [.Table [("bind", .String "127.0.0.1:2222"),
      ("protocol", .Table [("ssh", .Table [])])]])])
  else sshOnly.entries.map .Table

theorem config_reads_back_sshOnly :
    Config.fromToml sshGrammar sshFile = .ok sshOnly ∧
    Config.fromToml sshGrammar "[sensor]\n…" = .ok sshOnly := by
  have hread : Config.fromToml sshGrammar sshFile = .ok sshOnly :=
    Config.fromToml_ok_iff.mpr ⟨by decide +kernel, rfl, by decide +kernel⟩
  obtain ⟨_, _, written, _, _, _, _, hwritten, hback⟩ := config_reads_back _ _ _ hread
  refine ⟨hread, hback _ (by decide +kernel) ?_⟩
  rw [sshGrammar, if_neg (by decide +kernel), hwritten, Option.map_some]

end Minotaur
