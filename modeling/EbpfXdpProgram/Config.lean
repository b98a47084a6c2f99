import EbpfXdpProgram.Alert.IpManager
import EbpfXdpProgram.Alert.ProtoManager
import EbpfXdpProgram.Anomaly.Detectors
import EbpfXdpProgram.Lib.Run

/-!
# Configuration

`config.rs`, from the parsed TOML on: the optional overrides, the values they resolve to, and the
detectors, rules and managers built from them. An error is the list of its messages, the outermost
context first; `debug` is what `{:?}` makes of a string.
-/

namespace EbpfXdp

variable {F : Type} [F64 F]

/-- `ANOMALY_EVAL_INTERVAL`. -/
def anomalyEvalInterval : Duration := 30000000000

/-- `Duration::as_secs`. -/
def secs (d : Duration) : ℕ := d / 1000000000

/-- Overrides for the parameters of the baseline estimator. -/
structure BaselineConfig (F : Type) where
  alpha : Option F
  minSamples : Option ℕ
  minStddev : Option F
  minElapsedSecs : Option ℕ

/-- The parameters of the baseline estimator with the defaults merged in. -/
structure ResolvedBaselineConfig (F : Type) where
  alpha : F
  minSamples : ℕ
  minStddev : F
  minElapsedSecs : ℕ
deriving DecidableEq

def buildEstimator (baseline : Option (BaselineConfig F)) :
    EwmaEstimator F × ResolvedBaselineConfig F :=
  let alpha := (baseline.bind (·.alpha)).getD 0.4
  let minSamples := (baseline.bind (·.minSamples)).getD 5
  let minStddev := (baseline.bind (·.minStddev)).getD 1e-3
  let minElapsedSecs := (baseline.bind (·.minElapsedSecs)).getD 120
  let minElapsedTicks := divUp minElapsedSecs (secs anomalyEvalInterval)
  (.new alpha minSamples minStddev minElapsedTicks,
    { alpha := alpha
      minSamples := minSamples
      minStddev := minStddev
      minElapsedSecs := minElapsedSecs })

/-- The estimator has the resolved parameters; its tick gate is the seconds rounded up to ticks. -/
theorem gates_buildEstimator (baseline : Option (BaselineConfig F)) :
    (buildEstimator baseline).1.gates =
      ((buildEstimator baseline).2.minSamples, (buildEstimator baseline).2.minStddev,
        divUp (buildEstimator baseline).2.minElapsedSecs 30) := rfl

/-! ## Sections -/

structure AlertRuleConfig (F : Type) where
  kind : String
  minLevel : String
  minConfidence : F
  cooldownSecs : ℕ
  consecutiveThreshold : UInt32
  resolveConsecutiveThreshold : UInt32
  freezesBaseline : Bool

structure EmergencyThresholdConfig (F : Type) where
  proto : String
  maxPps : Option F
  maxBps : Option F

structure SynFloodConfig (F : Type) where
  maxSynPps : Option F
  topN : Option ℕ
  cooldownSecs : Option ℕ
  consecutiveThreshold : Option UInt32
  resolveConsecutiveThreshold : Option UInt32

structure PortScanConfig where
  maxDistinctPorts : Option UInt32
  windowSecs : Option ℕ
  topN : Option ℕ
  cooldownSecs : Option ℕ
  consecutiveThreshold : Option UInt32
  resolveConsecutiveThreshold : Option UInt32

structure AlertmanagerConfig where
  enabled : Option Bool
  url : Option String
  timeoutSecs : Option ℕ
  generatorUrl : Option String

/-- The parsed file; absent sections are `none` or empty. -/
structure Config (F : Type) where
  baseline : Option (BaselineConfig F)
  alertRules : List (AlertRuleConfig F)
  emergencyThresholds : List (EmergencyThresholdConfig F)
  synFlood : Option (SynFloodConfig F)
  portScan : Option PortScanConfig
  alertmanager : Option AlertmanagerConfig

/-- `Config::default`: the empty file. -/
def Config.empty : Config F := ⟨none, [], [], none, none, none⟩

/-! ## Resolved values -/

structure ResolvedAlertRuleConfig (F : Type) where
  kind : String
  minLevel : String
  minConfidence : F
  cooldownSecs : ℕ
  consecutiveThreshold : UInt32
  resolveConsecutiveThreshold : UInt32
  freezesBaseline : Bool

structure ResolvedEmergencyThresholdConfig (F : Type) where
  proto : String
  maxPps : Option F
  maxBps : Option F

structure ResolvedSynFloodConfig (F : Type) where
  maxSynPps : F
  topN : ℕ
  cooldownSecs : ℕ
  consecutiveThreshold : UInt32
  resolveConsecutiveThreshold : UInt32

structure ResolvedPortScanConfig where
  maxDistinctPorts : UInt32
  windowSecs : ℕ
  topN : ℕ
  cooldownSecs : ℕ
  consecutiveThreshold : UInt32
  resolveConsecutiveThreshold : UInt32

structure ResolvedAlertmanagerConfig where
  enabled : Bool
  url : Option String
  timeoutSecs : ℕ
  generatorUrl : Option String

structure ResolvedConfig (F : Type) where
  baseline : ResolvedBaselineConfig F
  alertRules : List (ResolvedAlertRuleConfig F)
  emergencyThresholds : List (ResolvedEmergencyThresholdConfig F)
  synFlood : ResolvedSynFloodConfig F
  portScan : ResolvedPortScanConfig
  alertmanager : ResolvedAlertmanagerConfig

/-! ## Parsers -/

/-- `anyhow::Error`: its messages, the outermost context first. -/
abbrev ConfigError := List String

def withContext {α : Type} (context : String) (result : Except ConfigError α) :
    Except ConfigError α :=
  result.mapError (context :: ·)

section Build

variable (debug : String → String)

def parseAnomalyLevel (s : String) : Except ConfigError AnomalyLevel :=
  match s.toLower with
  | "normal" => .ok .normal
  | "suspicious" => .ok .suspicious
  | "severe" => .ok .severe
  | other => .error ["unknown anomaly level: " ++ debug other]

def parseAlertKind (s : String) : Except ConfigError AlertKind :=
  match s.toLower with
  | "spike" => .ok .spike
  | "drop" => .ok .drop
  | "emergency" => .ok .emergency
  | other => .error ["unknown alert kind: " ++ debug other]

def parseProtoIndex (s : String) : Except ConfigError ProtoIndex :=
  match s.toLower with
  | "icmp" => .ok .icmp
  | "tcp" => .ok .tcp
  | "udp" => .ok .udp
  | "ipv6" => .ok .ipv6
  | "other" => .ok .other
  | other => .error ["unknown protocol: " ++ debug other]

/-! ## Builders -/

/-- `Duration::from_secs`. -/
def fromSecs (s : ℕ) : Duration := s * 1000000000

def buildAlertRules (rules : List (AlertRuleConfig F)) : Except ConfigError (List (AlertRule F)) :=
  rules.zipIdx.mapM fun (r, i) => do
    let kind ← withContext s!"alert_rules[{i}].kind" (parseAlertKind debug r.kind)
    let minLevel ← withContext s!"alert_rules[{i}].min_level" (parseAnomalyLevel debug r.minLevel)
    return {
      kind := kind
      minLevel := minLevel
      minConfidence := r.minConfidence
      cooldown := fromSecs r.cooldownSecs
      consecutiveThreshold := r.consecutiveThreshold
      resolveConsecutiveThreshold := r.resolveConsecutiveThreshold
      freezesBaseline := r.freezesBaseline }

def resolveAlertRule (rule : AlertRule F) : ResolvedAlertRuleConfig F where
  kind := rule.kind.label
  minLevel := rule.minLevel.label
  minConfidence := rule.minConfidence
  cooldownSecs := secs rule.cooldown
  consecutiveThreshold := rule.consecutiveThreshold
  resolveConsecutiveThreshold := rule.resolveConsecutiveThreshold
  freezesBaseline := rule.freezesBaseline

def resolveEmergencyThresholds (ts : List (EmergencyThreshold F)) :
    List (ResolvedEmergencyThresholdConfig F) :=
  ts.map fun t => { proto := t.proto.label.toLower, maxPps := t.maxPps, maxBps := t.maxBps }

def buildEmergencyDetector (thresholds : List (EmergencyThresholdConfig F)) :
    Except ConfigError (EmergencyDetector F × List (ResolvedEmergencyThresholdConfig F)) := do
  let ts ← thresholds.zipIdx.mapM fun (t, i) => do
    let proto ← withContext s!"emergency_thresholds[{i}].proto" (parseProtoIndex debug t.proto)
    return ({ proto := proto, maxPps := t.maxPps, maxBps := t.maxBps } : EmergencyThreshold F)
  let resolved := resolveEmergencyThresholds ts
  return (⟨ts⟩, resolved)

def buildSynflood (cfg : Option (SynFloodConfig F)) :
    SynFloodDetector F × IpAlertLifecycleManager (SynFloodSignal F) (SynFloodAlert F) ×
      ResolvedSynFloodConfig F :=
  let maxSynPps := (cfg.bind (·.maxSynPps)).getD 100.0
  let topN := (cfg.bind (·.topN)).getD 10
  let cooldownSecs := (cfg.bind (·.cooldownSecs)).getD 60
  let consecutiveThreshold := (cfg.bind (·.consecutiveThreshold)).getD 3
  let resolveConsecutiveThreshold := (cfg.bind (·.resolveConsecutiveThreshold)).getD 3
  ({ maxSynPps := maxSynPps, topN := topN },
    .new (fromSecs cooldownSecs) consecutiveThreshold resolveConsecutiveThreshold,
    { maxSynPps := maxSynPps
      topN := topN
      cooldownSecs := cooldownSecs
      consecutiveThreshold := consecutiveThreshold
      resolveConsecutiveThreshold := resolveConsecutiveThreshold })

/-- `build_port_scan`; the nanoseconds of the window are cut to 64 bits. -/
def buildPortScan (cfg : Option PortScanConfig) :
    PortScanDetector × IpAlertLifecycleManager (PortScanSignal F) (PortScanAlert F) ×
      ResolvedPortScanConfig :=
  let maxDistinctPorts := (cfg.bind (·.maxDistinctPorts)).getD 20
  let windowSecs := (cfg.bind (·.windowSecs)).getD 30
  let topN := (cfg.bind (·.topN)).getD 10
  let cooldownSecs := (cfg.bind (·.cooldownSecs)).getD 60
  let consecutiveThreshold := (cfg.bind (·.consecutiveThreshold)).getD 3
  let resolveConsecutiveThreshold := (cfg.bind (·.resolveConsecutiveThreshold)).getD 3
  let windowNs := fromSecs windowSecs % 2 ^ 64
  ({ maxDistinctPorts := maxDistinctPorts, topN := topN, windowNs := windowNs },
    .new (fromSecs cooldownSecs) consecutiveThreshold resolveConsecutiveThreshold,
    { maxDistinctPorts := maxDistinctPorts
      windowSecs := windowSecs
      topN := topN
      cooldownSecs := cooldownSecs
      consecutiveThreshold := consecutiveThreshold
      resolveConsecutiveThreshold := resolveConsecutiveThreshold })

def buildAlertmanager (cfg : Option AlertmanagerConfig) :
    Except ConfigError ResolvedAlertmanagerConfig := do
  let enabled := (cfg.bind (·.enabled)).getD false
  let url := cfg.bind (·.url)
  if enabled && url.all (· = "") then
    throw ["alertmanager.enabled=true requires alertmanager.url to be set"]
  let timeoutSecs := (cfg.bind (·.timeoutSecs)).getD 5
  let generatorUrl := cfg.bind (·.generatorUrl)
  return {
    enabled := enabled
    url := url
    timeoutSecs := timeoutSecs
    generatorUrl := generatorUrl }

/-! ## Loading -/

structure ResolvedDetectors (F : Type) where
  baseline : EwmaEstimator F
  emergency : EmergencyDetector F
  alertRules : List (AlertRule F)
  synfloodDetector : SynFloodDetector F
  synfloodAlertLifecycleManager : IpAlertLifecycleManager (SynFloodSignal F) (SynFloodAlert F)
  portScanDetector : PortScanDetector
  portScanAlertLifecycleManager : IpAlertLifecycleManager (PortScanSignal F) (PortScanAlert F)

def defaultEmergencyThresholds : List (EmergencyThreshold F) := [⟨.icmp, some 3.0, none⟩]

def defaultEmergencyDetector : EmergencyDetector F := ⟨defaultEmergencyThresholds⟩

/-- `load_config`, after the file is read and parsed. -/
def loadConfig (cfg : Config F) :
    Except ConfigError (ResolvedDetectors F × ResolvedConfig F) := do
  let (estimator, resolvedBaseline) := buildEstimator cfg.baseline
  let (emergency, resolvedEmergencyThresholds) ←
    if cfg.emergencyThresholds.isEmpty then
      pure (defaultEmergencyDetector, resolveEmergencyThresholds defaultEmergencyThresholds)
    else
      buildEmergencyDetector debug cfg.emergencyThresholds
  let rules ←
    if cfg.alertRules.isEmpty then pure defaultAlertRules
    else buildAlertRules debug cfg.alertRules
  let resolvedAlertRules := rules.map resolveAlertRule
  let (synfloodDetector, synfloodAlertLifecycleManager, resolvedSynflood) :=
    buildSynflood cfg.synFlood
  let (portScanDetector, portScanAlertLifecycleManager, resolvedPortScan) :=
    buildPortScan cfg.portScan
  let resolvedAlertmanager ← buildAlertmanager cfg.alertmanager
  return (
    { baseline := estimator
      emergency := emergency
      alertRules := rules
      synfloodDetector := synfloodDetector
      synfloodAlertLifecycleManager := synfloodAlertLifecycleManager
      portScanDetector := portScanDetector
      portScanAlertLifecycleManager := portScanAlertLifecycleManager },
    { baseline := resolvedBaseline
      alertRules := resolvedAlertRules
      emergencyThresholds := resolvedEmergencyThresholds
      synFlood := resolvedSynflood
      portScan := resolvedPortScan
      alertmanager := resolvedAlertmanager })

def defaultBaselineEstimator : EwmaEstimator F := (buildEstimator none).1

def defaultSynfloodDetector : SynFloodDetector F := (buildSynflood none).1

def defaultSynfloodAlertLifecycleManager :
    IpAlertLifecycleManager (SynFloodSignal F) (SynFloodAlert F) :=
  (buildSynflood none).2.1

def defaultPortScanDetector (F : Type) [F64 F] : PortScanDetector := (buildPortScan (F := F) none).1

def defaultPortScanAlertLifecycleManager :
    IpAlertLifecycleManager (PortScanSignal F) (PortScanAlert F) :=
  (buildPortScan none).2.1

/-- `Result::expect`, of a result that is known to be `Ok`. -/
def expect {ε α : Type} : (result : Except ε α) → result.isOk = true → α
  | .ok a, _ => a

/-- `default_resolved_config`; its `expect` never panics. -/
def defaultResolvedConfig : ResolvedConfig F where
  baseline := (buildEstimator none).2
  alertRules := defaultAlertRules.map resolveAlertRule
  emergencyThresholds := resolveEmergencyThresholds defaultEmergencyThresholds
  synFlood := (buildSynflood none).2.2
  portScan := (buildPortScan (F := F) none).2.2
  alertmanager := expect (buildAlertmanager none) rfl

/-- `resolve_all`, of the parsed file if there is one. -/
def resolveAll (config : Option (Config F)) :
    Except ConfigError (ResolvedDetectors F × ResolvedConfig F) :=
  match config with
  | some cfg => loadConfig debug cfg
  | none =>
    .ok (
      { baseline := defaultBaselineEstimator
        emergency := defaultEmergencyDetector
        alertRules := defaultAlertRules
        synfloodDetector := defaultSynfloodDetector
        synfloodAlertLifecycleManager := defaultSynfloodAlertLifecycleManager
        portScanDetector := defaultPortScanDetector F
        portScanAlertLifecycleManager := defaultPortScanAlertLifecycleManager },
      defaultResolvedConfig)

end Build

end EbpfXdp
