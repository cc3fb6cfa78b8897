import OcppProxy.Payload
import OcppProxy.Publisher

/-!
# The configuration of the process

`config.rs` above the charging settings, and the constants of `main.rs`. What the `config` crate
makes of the YAML file and the environment is a parameter, as is what the file system says of the
certificate paths.
-/

namespace OcppProxy

structure MqttConfig where
  host : String
  port : UInt16
  username : String
  password : String
  caCertPath : Option String := none
  clientCertPath : Option String := none
  clientKeyPath : Option String := none
  deriving DecidableEq, Repr

def MqttConfig.tlsEnabled (c : MqttConfig) : Bool := c.caCertPath.isSome

def MqttConfig.clientAuthEnabled (c : MqttConfig) : Bool :=
  c.clientCertPath.isSome && c.clientKeyPath.isSome

structure BufferConfig where
  messageBufferSize : Nat := 100
  mqttBufferSize : Nat := 500
  maxBackoffSeconds : Nat := 60
  deriving DecidableEq, Repr

structure ProxyConfig where
  centralSystemUrl : String
  listenPort : UInt16
  chargePointId : Option String := none
  healthPort : UInt16 := 8080
  mqtt : MqttConfig
  buffers : BufferConfig := {}
  stateFile : String := "/var/lib/ocpp-proxy/state.json"
  /-- `charging.enabled`, the master switch. -/
  chargingEnabled : Bool := false
  charging : ChargingConfig := {}
  deriving DecidableEq, Repr

structure FileProbe where
  /-- `Path::exists`. -/
  isThere : String → Bool
  /-- `File::open` succeeds. -/
  opens : String → Bool

def FileProbe.readable (files : FileProbe) (path : String) : Bool :=
  files.isThere path && files.opens path

namespace ProxyConfig

def pathErrors (files : FileProbe) (name : String) : Option String → List String
  | none => []
  | some path =>
    if !files.isThere path then [s!"{name} does not exist: {path}"]
    else if !files.opens path then [s!"{name} exists but is not readable: {path}"]
    else []

def validate (files : FileProbe) (c : ProxyConfig) : List String :=
  (if c.listenPort < 1024 then
    [s!"listen_port must be between 1024 and 65535, got: {c.listenPort}"] else []) ++
  (if c.healthPort < 1024 then
    [s!"health_port must be between 1024 and 65535, got: {c.healthPort}"] else []) ++
  (if c.listenPort = c.healthPort then
    [s!"listen_port and health_port must differ, both are: {c.listenPort}"] else []) ++
  (if !c.centralSystemUrl.startsWith "ws://" && !c.centralSystemUrl.startsWith "wss://" then
    [s!"central_system_url must start with ws:// or wss://, got: {c.centralSystemUrl}"] else []) ++
  (if c.mqtt.port = 0 then ["mqtt.port must be between 1 and 65535"] else []) ++
  (pathErrors files "mqtt.ca_cert_path" c.mqtt.caCertPath ++
    pathErrors files "mqtt.client_cert_path" c.mqtt.clientCertPath ++
    pathErrors files "mqtt.client_key_path" c.mqtt.clientKeyPath) ++
  (if c.mqtt.clientCertPath.isSome != c.mqtt.clientKeyPath.isSome then
    ["mqtt.client_cert_path and mqtt.client_key_path must be set together"] else []) ++
  (if !c.mqtt.tlsEnabled && c.mqtt.clientAuthEnabled then
    ["mqtt client certificates require mqtt.ca_cert_path to be set"] else []) ++
  c.charging.validate

structure Valid (files : FileProbe) (c : ProxyConfig) : Prop where
  listenPort : 1024 ≤ c.listenPort
  healthPort : 1024 ≤ c.healthPort
  ports : c.listenPort ≠ c.healthPort
  centralSystemUrl : c.centralSystemUrl.startsWith "ws://" ∨ c.centralSystemUrl.startsWith "wss://"
  mqttPort : c.mqtt.port ≠ 0
  paths : ∀ path, c.mqtt.caCertPath = some path ∨ c.mqtt.clientCertPath = some path ∨
    c.mqtt.clientKeyPath = some path → files.readable path = true
  /-- Plaintext, server authentication or both; nothing in between. -/
  tls : (c.mqtt.clientCertPath.isSome ↔ c.mqtt.clientKeyPath.isSome) ∧
    (c.mqtt.clientCertPath.isSome → c.mqtt.caCertPath.isSome)
  charging : c.charging.validate = []

theorem pathErrors_eq_nil {files : FileProbe} {name : String} {given : Option String} :
    pathErrors files name given = [] ↔ ∀ path, given = some path → files.readable path = true := by
  cases given with
  | none => simp [pathErrors]
  | some path =>
    cases hthere : files.isThere path <;> cases hopens : files.opens path <;>
      simp [pathErrors, FileProbe.readable, hthere, hopens]

/-- Every check that fails is reported, so none failed if and only if the configuration is valid. -/
theorem validate_eq_nil_iff {files : FileProbe} {c : ProxyConfig} :
    c.validate files = [] ↔ c.Valid files := by
  simp only [validate, List.append_eq_nil_iff, ite_eq_right_iff, reduceCtorEq, imp_false,
    pathErrors_eq_nil, UInt16.not_lt, and_assoc]
  constructor
  · rintro ⟨hlisten, hhealth, hports, hurl, hport, hca, hcert, hkey, htogether, hclient, hcharging⟩
    refine ⟨hlisten, hhealth, hports, ?_, hport, ?_, ⟨?_, ?_⟩, hcharging⟩
    · by_contra hneither
      exact hurl (by simpa [not_or] using hneither)
    · rintro path (h | h | h)
      · exact hca path h
      · exact hcert path h
      · exact hkey path h
    · rw [← Bool.eq_iff_iff]
      simpa using htogether
    · intro hsome
      by_contra hnone
      have hkeySome : c.mqtt.clientKeyPath.isSome = true := by
        rw [← show c.mqtt.clientCertPath.isSome = c.mqtt.clientKeyPath.isSome by
          simpa using htogether]
        exact hsome
      exact hclient (by
        simp [MqttConfig.tlsEnabled, MqttConfig.clientAuthEnabled, hsome, hkeySome, hnone])
  · rintro ⟨hlisten, hhealth, hports, hurl, hport, hpaths, ⟨htogether, hca⟩, hcharging⟩
    refine ⟨hlisten, hhealth, hports, ?_, hport, fun path h => hpaths path (.inl h),
      fun path h => hpaths path (.inr (.inl h)), fun path h => hpaths path (.inr (.inr h)), ?_, ?_,
      hcharging⟩
    · rcases hurl with h | h <;> simp [h]
    · simpa using Bool.eq_iff_iff.mpr htogether
    · intro h
      simp only [MqttConfig.tlsEnabled, MqttConfig.clientAuthEnabled, Bool.and_eq_true,
        Bool.not_eq_true'] at h
      rw [hca h.2.1] at h
      exact absurd h.1 (by simp)

end ProxyConfig

/-! ## Loading -/

structure RawMqttConfig where
  host : Option String
  port : Option UInt16
  username : Option String
  password : Option String
  deriving DecidableEq, Repr

/-- The required parameters, each perhaps absent. -/
structure RawProxyConfig where
  centralSystemUrl : Option String
  listenPort : Option UInt16
  mqtt : Option RawMqttConfig
  deriving DecidableEq, Repr

def RawProxyConfig.missingRequired (raw : RawProxyConfig) : List String :=
  (if raw.centralSystemUrl.isNone then ["central_system_url"] else []) ++
  (if raw.listenPort.isNone then ["listen_port"] else []) ++
  match raw.mqtt with
  | none => ["mqtt.host", "mqtt.port", "mqtt.username", "mqtt.password"]
  | some mqtt =>
    (if mqtt.host.isNone then ["mqtt.host"] else []) ++
    (if mqtt.port.isNone then ["mqtt.port"] else []) ++
    (if mqtt.username.isNone then ["mqtt.username"] else []) ++
    (if mqtt.password.isNone then ["mqtt.password"] else [])

/-- The two readings of the merged settings. -/
structure Settings where
  /-- `try_deserialize::<RawProxyConfig>`, where it succeeds. -/
  raw : Option RawProxyConfig
  /-- `try_deserialize::<ProxyConfig>`. -/
  full : Except String ProxyConfig

namespace ProxyConfig

/-- `load_from_path` after the builder; an error is the description of a `ProxyError::Config`. -/
def loadFromPath (files : FileProbe) (built : Except String Settings) :
    Except String ProxyConfig := do
  let settings ← built.mapError fun e => s!"Failed to load configuration: {e}"
  let missing := settings.raw.elim [] (·.missingRequired)
  if missing ≠ [] then
    let s := if missing.length = 1 then "" else "s"
    throw (s!"Missing required configuration parameter{s}:\n" ++
      "\n".intercalate (missing.map fun m => s!"  - {m}"))
  let c ← settings.full.mapError fun e => s!"Failed to deserialize configuration: {e}"
  let errors := c.validate files
  if errors ≠ [] then
    throw ("Configuration validation failed:\n" ++ "\n".intercalate errors)
  return c

/-- A configuration that loads is the one in the settings, and valid. -/
theorem loadFromPath_eq_ok {files : FileProbe} {built : Except String Settings} {c : ProxyConfig} :
    loadFromPath files built = .ok c ↔ ∃ settings, built = .ok settings ∧
      (∀ raw, settings.raw = some raw → raw.missingRequired = []) ∧ settings.full = .ok c ∧
        c.Valid files := by
  rw [← validate_eq_nil_iff]
  obtain e | ⟨raw, full⟩ := built
  · simp [loadFromPath, Except.mapError, bind, Except.bind]
  · have hmissing : raw.elim [] (·.missingRequired) = [] ↔
        ∀ r, raw = some r → r.missingRequired = [] := by
      cases raw <;> simp
    simp only [loadFromPath, Except.mapError, bind, Except.bind, Except.ok.injEq, exists_eq_left',
      ← hmissing]
    by_cases hnone : raw.elim [] (·.missingRequired) = []
    · obtain e | c' := full
      · simp [hnone]
      · by_cases hvalid : c'.validate files = []
        · simp only [hnone, ne_eq, not_true_eq_false, if_false, hvalid, pure, Except.pure,
            Except.ok.injEq, true_and]
          exact ⟨fun h => ⟨h, h ▸ hvalid⟩, And.left⟩
        · simp only [hnone, ne_eq, not_true_eq_false, if_false, hvalid, not_false_eq_true, if_true,
            throw, throwThe, MonadExceptOf.throw, pure, Except.pure, reduceCtorEq, true_and,
            Except.ok.injEq, false_iff, not_and]
          rintro rfl
          exact hvalid
    · simp [hnone, throw, throwThe, MonadExceptOf.throw]

/-! ## What `main` builds from it -/

def sessionConfig (c : ProxyConfig) : SessionConfig where
  messageBufferSize := c.buffers.messageBufferSize
  maxBufferDuration := Duration.fromSecs 30
  initialBackoff := Duration.fromSecs 2
  maxBackoff := Duration.fromSecs c.buffers.maxBackoffSeconds
  maxReconnectWindow := Duration.fromSecs 300
  callTrackerMaxAge := Duration.fromSecs 300
  charging := c.charging

/-- An empty path disables persistence. -/
def snapshotStore (c : ProxyConfig) (file : SnapshotMap) : SnapshotStore :=
  { enabled := !(trim c.stateFile).isEmpty, file }

def publisherSetup (c : ProxyConfig) (file : SnapshotMap) : PublisherSetup where
  lwtChargePointId := c.chargePointId
  maxBufferSize := c.buffers.mqttBufferSize
  snapshotStore := c.snapshotStore file
  commands := if c.chargingEnabled then some (.empty, c.charging) else none
  stateManager := some {}

end ProxyConfig

end OcppProxy
