import EbpfXdpProgram.Config

/-!
# The resolved configuration reloads

`/config` shows the resolved values. Written back into their sections they load again, to the same
detectors and the same resolved values (`config_reloads`): labels parse back, scalars are taken as
they are, and no list is empty, so that none falls back to its default.
-/

namespace EbpfXdp

variable {F : Type} [F64 F]

/-! ## Writing the values back -/

def ResolvedBaselineConfig.toConfig (r : ResolvedBaselineConfig F) : BaselineConfig F where
  alpha := some r.alpha
  minSamples := some r.minSamples
  minStddev := some r.minStddev
  minElapsedSecs := some r.minElapsedSecs

def ResolvedAlertRuleConfig.toConfig (r : ResolvedAlertRuleConfig F) : AlertRuleConfig F where
  kind := r.kind
  minLevel := r.minLevel
  minConfidence := r.minConfidence
  cooldownSecs := r.cooldownSecs
  consecutiveThreshold := r.consecutiveThreshold
  resolveConsecutiveThreshold := r.resolveConsecutiveThreshold
  freezesBaseline := r.freezesBaseline

def ResolvedEmergencyThresholdConfig.toConfig (r : ResolvedEmergencyThresholdConfig F) :
    EmergencyThresholdConfig F where
  proto := r.proto
  maxPps := r.maxPps
  maxBps := r.maxBps

def ResolvedSynFloodConfig.toConfig (r : ResolvedSynFloodConfig F) : SynFloodConfig F where
  maxSynPps := some r.maxSynPps
  topN := some r.topN
  cooldownSecs := some r.cooldownSecs
  consecutiveThreshold := some r.consecutiveThreshold
  resolveConsecutiveThreshold := some r.resolveConsecutiveThreshold

def ResolvedPortScanConfig.toConfig (r : ResolvedPortScanConfig) : PortScanConfig where
  maxDistinctPorts := some r.maxDistinctPorts
  windowSecs := some r.windowSecs
  topN := some r.topN
  cooldownSecs := some r.cooldownSecs
  consecutiveThreshold := some r.consecutiveThreshold
  resolveConsecutiveThreshold := some r.resolveConsecutiveThreshold

def ResolvedAlertmanagerConfig.toConfig (r : ResolvedAlertmanagerConfig) : AlertmanagerConfig where
  enabled := some r.enabled
  url := r.url
  timeoutSecs := some r.timeoutSecs
  generatorUrl := r.generatorUrl

def ResolvedConfig.toConfig (r : ResolvedConfig F) : Config F where
  baseline := some r.baseline.toConfig
  alertRules := r.alertRules.map (·.toConfig)
  emergencyThresholds := r.emergencyThresholds.map (·.toConfig)
  synFlood := some r.synFlood.toConfig
  portScan := some r.portScan.toConfig
  alertmanager := some r.alertmanager.toConfig

/-! ## Labels -/

section Labels

variable (debug : String → String)

theorem parseAnomalyLevel_label (l : AnomalyLevel) : parseAnomalyLevel debug l.label = .ok l := by
  have hlower : l.label.toLower = l.label := by cases l <;> decide +kernel
  unfold parseAnomalyLevel
  rw [hlower]
  cases l <;> rfl

theorem parseAlertKind_label (k : AlertKind) : parseAlertKind debug k.label = .ok k := by
  have hlower : k.label.toLower = k.label := by cases k <;> decide +kernel
  unfold parseAlertKind
  rw [hlower]
  cases k <;> rfl

theorem parseProtoIndex_label (p : ProtoIndex) :
    parseProtoIndex debug p.label.toLower = .ok p := by
  unfold parseProtoIndex
  cases p
  · rw [show ProtoIndex.icmp.label.toLower.toLower = "icmp" by decide +kernel]
    rfl
  · rw [show ProtoIndex.tcp.label.toLower.toLower = "tcp" by decide +kernel]
    rfl
  · rw [show ProtoIndex.udp.label.toLower.toLower = "udp" by decide +kernel]
    rfl
  · rw [show ProtoIndex.ipv6.label.toLower.toLower = "ipv6" by decide +kernel]
    rfl
  · rw [show ProtoIndex.other.label.toLower.toLower = "other" by decide +kernel]
    rfl

end Labels

/-! ## Collecting results -/

section Collect

variable {ε α β : Type} {step : α × ℕ → Except ε β}

theorem bind_ok {x : Except ε α} {f : α → Except ε β} {b : β} (h : x >>= f = .ok b) :
    ∃ a, x = .ok a ∧ f a = .ok b := by
  cases x with
  | error e => cases h
  | ok a => exact ⟨a, rfl, h⟩

/-- Each item collected is what a step makes of the item in its place. -/
theorem mapM_zipIdx_ok {xs : List α} {n : ℕ} {ys : List β}
    (h : (xs.zipIdx n).mapM step = .ok ys) :
    List.Forall₂ (fun x y => ∃ i, step (x, i) = .ok y) xs ys := by
  induction xs generalizing n ys with
  | nil =>
    obtain rfl : [] = ys := Except.ok.inj h
    exact .nil
  | cons x xs ih =>
    rw [List.zipIdx_cons, List.mapM_cons] at h
    obtain ⟨y, hx, h⟩ := bind_ok h
    obtain ⟨rest, hxs, h⟩ := bind_ok h
    obtain rfl : y :: rest = ys := Except.ok.inj h
    exact .cons ⟨n, hx⟩ (ih hxs)

/-- What every result of a step satisfies, every item collected satisfies. -/
theorem forall_of_mapM_zipIdx_ok {P : β → Prop} (hP : ∀ x i y, step (x, i) = .ok y → P y)
    {xs : List α} {n : ℕ} {ys : List β} (h : (xs.zipIdx n).mapM step = .ok ys) : ∀ y ∈ ys, P y := by
  have hcollected := mapM_zipIdx_ok h
  clear h
  induction hcollected with
  | nil => exact fun y hy => absurd hy List.not_mem_nil
  | cons hstep _ ih =>
    obtain ⟨i, hi⟩ := hstep
    exact List.forall_mem_cons.mpr ⟨hP _ i _ hi, ih⟩

/-- Steps that succeed on the images of the items collect what they make of them. -/
theorem mapM_zipIdx_map {γ : Type} {f : γ → α} {g : γ → β} {zs : List γ}
    (h : ∀ z ∈ zs, ∀ i, step (f z, i) = .ok (g z)) (n : ℕ) :
    ((zs.map f).zipIdx n).mapM step = .ok (zs.map g) := by
  induction zs generalizing n with
  | nil => rfl
  | cons z zs ih =>
    rw [List.map_cons, List.zipIdx_cons, List.mapM_cons, h z List.mem_cons_self,
      ih fun w hw => h w (List.mem_cons_of_mem _ hw)]
    rfl

end Collect

/-! ## Sections that reload -/

section Sections

variable (debug : String → String)

/-- The cooldown is a number of seconds, as it is shown. -/
def AlertRule.WholeSecs (rule : AlertRule F) : Prop := fromSecs 1 ∣ rule.cooldown

omit [F64 F] in
theorem AlertRule.WholeSecs.fromSecs_secs {rule : AlertRule F} (h : rule.WholeSecs) :
    fromSecs (secs rule.cooldown) = rule.cooldown := Nat.div_mul_cancel h

theorem wholeSecs_defaultAlertRules : ∀ rule ∈ (defaultAlertRules : List (AlertRule F)),
    rule.WholeSecs := by
  intro rule hr
  rcases List.mem_cons.mp hr with rfl | hr
  · exact ⟨120, by norm_num [fromSecs]⟩
  · obtain rfl := List.mem_singleton.mp hr
    exact ⟨60, by norm_num [fromSecs]⟩

omit [F64 F] in
theorem wholeSecs_buildAlertRules {configs : List (AlertRuleConfig F)} {rules : List (AlertRule F)}
    (h : buildAlertRules debug configs = .ok rules) :
    rules.length = configs.length ∧ ∀ rule ∈ rules, rule.WholeSecs := by
  refine ⟨(mapM_zipIdx_ok h).length_eq.symm, forall_of_mapM_zipIdx_ok ?_ h⟩
  intro r i rule hstep
  obtain ⟨kind, -, hstep⟩ := bind_ok hstep
  obtain ⟨level, -, hstep⟩ := bind_ok hstep
  obtain rfl := Except.ok.inj hstep
  exact ⟨r.cooldownSecs, Nat.mul_comm ..⟩

omit [F64 F] in
theorem buildAlertRules_resolved {rules : List (AlertRule F)} (h : ∀ rule ∈ rules, rule.WholeSecs) :
    buildAlertRules debug ((rules.map resolveAlertRule).map (·.toConfig)) = .ok rules := by
  unfold buildAlertRules
  rw [List.map_map]
  refine (mapM_zipIdx_map (g := id) (fun rule hr i => ?_) 0).trans (by rw [List.map_id])
  have hsecs := (h rule hr).fromSecs_secs
  have hkind := parseAlertKind_label debug rule.kind
  have hlevel := parseAnomalyLevel_label debug rule.minLevel
  simp only [Function.comp_apply, resolveAlertRule, ResolvedAlertRuleConfig.toConfig, hkind, hlevel,
    hsecs]
  rfl

omit [F64 F] in
theorem buildEmergencyDetector_resolved (ts : List (EmergencyThreshold F)) :
    buildEmergencyDetector debug ((resolveEmergencyThresholds ts).map (·.toConfig)) =
      .ok (⟨ts⟩, resolveEmergencyThresholds ts) := by
  unfold buildEmergencyDetector
  nth_rewrite 1 [resolveEmergencyThresholds]
  rw [List.map_map, mapM_zipIdx_map (g := id), List.map_id]
  · rfl
  · intro t _ i
    simp only [Function.comp_apply, ResolvedEmergencyThresholdConfig.toConfig,
      parseProtoIndex_label debug t.proto]
    rfl

theorem buildEstimator_resolved (cfg : Option (BaselineConfig F)) :
    buildEstimator (some (buildEstimator cfg).2.toConfig) = buildEstimator cfg := rfl

theorem buildSynflood_resolved (cfg : Option (SynFloodConfig F)) :
    buildSynflood (some (buildSynflood cfg).2.2.toConfig) = buildSynflood cfg := rfl

omit [F64 F] in
theorem buildPortScan_resolved (cfg : Option PortScanConfig) :
    buildPortScan (F := F) (some (buildPortScan (F := F) cfg).2.2.toConfig) = buildPortScan cfg :=
  rfl

theorem buildAlertmanager_resolved {cfg : Option AlertmanagerConfig}
    {resolved : ResolvedAlertmanagerConfig} (h : buildAlertmanager cfg = .ok resolved) :
    buildAlertmanager (some resolved.toConfig) = .ok resolved := by
  unfold buildAlertmanager at h
  dsimp only at h
  split_ifs at h with hurl
  · cases h
  · obtain rfl := Except.ok.inj h
    unfold buildAlertmanager
    exact if_neg hurl

/-- The thresholds of a load: the defaults, or those of the section. -/
def loadThresholds (configs : List (EmergencyThresholdConfig F)) :
    Except ConfigError (EmergencyDetector F × List (ResolvedEmergencyThresholdConfig F)) :=
  if configs.isEmpty then
    .ok (defaultEmergencyDetector, resolveEmergencyThresholds defaultEmergencyThresholds)
  else buildEmergencyDetector debug configs

/-- The rules of a load: the defaults, or those of the section. -/
def loadRules (configs : List (AlertRuleConfig F)) : Except ConfigError (List (AlertRule F)) :=
  if configs.isEmpty then .ok defaultAlertRules else buildAlertRules debug configs

/-- What a load makes of its thresholds, its rules, its Alertmanager section and the rest. -/
def loaded (cfg : Config F)
    (thresholds : EmergencyDetector F × List (ResolvedEmergencyThresholdConfig F))
    (rules : List (AlertRule F)) (alertmanager : ResolvedAlertmanagerConfig) :
    ResolvedDetectors F × ResolvedConfig F :=
  ({ baseline := (buildEstimator cfg.baseline).1
     emergency := thresholds.1
     alertRules := rules
     synfloodDetector := (buildSynflood cfg.synFlood).1
     synfloodAlertLifecycleManager := (buildSynflood cfg.synFlood).2.1
     portScanDetector := (buildPortScan (F := F) cfg.portScan).1
     portScanAlertLifecycleManager := (buildPortScan cfg.portScan).2.1 },
    { baseline := (buildEstimator cfg.baseline).2
      alertRules := rules.map resolveAlertRule
      emergencyThresholds := thresholds.2
      synFlood := (buildSynflood cfg.synFlood).2.2
      portScan := (buildPortScan (F := F) cfg.portScan).2.2
      alertmanager := alertmanager })

theorem loadConfig_eq (cfg : Config F) :
    loadConfig debug cfg =
      loadThresholds debug cfg.emergencyThresholds >>= fun thresholds =>
        loadRules debug cfg.alertRules >>= fun rules =>
          buildAlertmanager cfg.alertmanager >>= fun alertmanager =>
            .ok (loaded cfg thresholds rules alertmanager) := by
  unfold loadConfig loadThresholds loadRules
  dsimp only
  split_ifs <;> rfl

theorem thresholds_of_ok {configs : List (EmergencyThresholdConfig F)}
    {built : EmergencyDetector F × List (ResolvedEmergencyThresholdConfig F)}
    (h : loadThresholds debug configs = .ok built) :
    ∃ ts, ts ≠ [] ∧ built = (⟨ts⟩, resolveEmergencyThresholds ts) := by
  unfold loadThresholds at h
  split_ifs at h with hempty
  · obtain rfl := Except.ok.inj h
    exact ⟨defaultEmergencyThresholds, List.cons_ne_nil _ _, rfl⟩
  · unfold buildEmergencyDetector at h
    obtain ⟨ts, hts, hbuilt⟩ := bind_ok h
    obtain rfl := Except.ok.inj hbuilt
    have hlen := (mapM_zipIdx_ok hts).length_eq
    refine ⟨ts, fun hnil => hempty ?_, rfl⟩
    rw [hnil] at hlen
    exact List.isEmpty_iff.mpr (List.length_eq_zero_iff.mp hlen)

theorem rules_of_ok {configs : List (AlertRuleConfig F)} {rules : List (AlertRule F)}
    (h : loadRules debug configs = .ok rules) :
    rules ≠ [] ∧ ∀ rule ∈ rules, rule.WholeSecs := by
  unfold loadRules at h
  split_ifs at h with hempty
  · obtain rfl := Except.ok.inj h
    exact ⟨List.cons_ne_nil _ _, wholeSecs_defaultAlertRules⟩
  · obtain ⟨hlen, hwhole⟩ := wholeSecs_buildAlertRules debug h
    refine ⟨fun hnil => hempty ?_, hwhole⟩
    rw [hnil] at hlen
    exact List.isEmpty_iff.mpr (List.length_eq_zero_iff.mp hlen.symm)

theorem loadThresholds_resolved {ts : List (EmergencyThreshold F)} (h : ts ≠ []) :
    loadThresholds debug ((resolveEmergencyThresholds ts).map (·.toConfig)) =
      .ok (⟨ts⟩, resolveEmergencyThresholds ts) := by
  refine (if_neg fun hempty => h ?_).trans (buildEmergencyDetector_resolved debug ts)
  exact List.map_eq_nil_iff.mp (List.map_eq_nil_iff.mp (List.isEmpty_iff.mp hempty))

theorem loadRules_resolved {rules : List (AlertRule F)} (hne : rules ≠ [])
    (h : ∀ rule ∈ rules, rule.WholeSecs) :
    loadRules debug ((rules.map resolveAlertRule).map (·.toConfig)) = .ok rules := by
  refine (if_neg fun hempty => hne ?_).trans (buildAlertRules_resolved debug h)
  exact List.map_eq_nil_iff.mp (List.map_eq_nil_iff.mp (List.isEmpty_iff.mp hempty))

theorem loaded_toConfig (cfg : Config F)
    (thresholds : EmergencyDetector F × List (ResolvedEmergencyThresholdConfig F))
    (rules : List (AlertRule F)) (alertmanager : ResolvedAlertmanagerConfig) :
    loaded (loaded cfg thresholds rules alertmanager).2.toConfig thresholds rules alertmanager =
      loaded cfg thresholds rules alertmanager := by
  unfold loaded ResolvedConfig.toConfig
  dsimp only
  rw [buildEstimator_resolved, buildSynflood_resolved, buildPortScan_resolved]

theorem loadConfig_toConfig {cfg : Config F} {result : ResolvedDetectors F × ResolvedConfig F}
    (h : loadConfig debug cfg = .ok result) :
    loadConfig debug result.2.toConfig = .ok result := by
  rw [loadConfig_eq] at h
  obtain ⟨built, hbuilt, h⟩ := bind_ok h
  obtain ⟨ts, hts, rfl⟩ := thresholds_of_ok debug hbuilt
  obtain ⟨rules, hrules, h⟩ := bind_ok h
  obtain ⟨hne, hwhole⟩ := rules_of_ok debug hrules
  obtain ⟨alertmanager, ham, h⟩ := bind_ok h
  obtain rfl := Except.ok.inj h
  have hthresholds := loadThresholds_resolved debug hts
  have hrules := loadRules_resolved debug hne hwhole
  have ham := buildAlertmanager_resolved ham
  refine (loadConfig_eq debug _).trans ?_
  show (loadThresholds debug ((resolveEmergencyThresholds ts).map (·.toConfig)) >>= fun _ => _) = _
  rw [hthresholds]
  show (loadRules debug ((rules.map resolveAlertRule).map (·.toConfig)) >>= fun _ => _) = _
  rw [hrules]
  show (buildAlertmanager (some alertmanager.toConfig) >>= fun _ => _) = _
  rw [ham]
  exact congrArg Except.ok (loaded_toConfig cfg _ rules alertmanager)

/-- What is shown of a loaded file loads again, to the same detectors and the same view, and the
empty file loads as no file does. -/
theorem config_reloads :
    (∀ (cfg : Config F) detectors resolved, loadConfig debug cfg = .ok (detectors, resolved) →
      loadConfig debug resolved.toConfig = .ok (detectors, resolved)) ∧
    (∃ result : ResolvedDetectors F × ResolvedConfig F,
      loadConfig debug Config.empty = .ok result ∧ resolveAll debug none = .ok result) :=
  ⟨fun _ _ _ h => loadConfig_toConfig debug h, _, rfl, rfl⟩

/-- A file with a rule and a threshold of its own, in mixed case. -/
def mixedCase : Config ℚ where
  baseline := none
  alertRules := [⟨"Spike", "SEVERE", 0.5, 90, 2, 4, true⟩]
  emergencyThresholds := [⟨"Tcp", some 1000, none⟩]
  synFlood := none
  portScan := none
  alertmanager := none

theorem loadConfig_mixedCase : loadConfig debug mixedCase =
    .ok (loaded mixedCase
      (⟨[⟨.tcp, some 1000, none⟩]⟩, resolveEmergencyThresholds [⟨.tcp, some 1000, none⟩])
      [⟨.spike, .severe, 0.5, fromSecs 90, 2, 4, true⟩] ⟨false, none, 5, none⟩) := by
  have hspike : "Spike".toLower = "spike" := by decide +kernel
  have hsevere : "SEVERE".toLower = "severe" := by decide +kernel
  have htcp : "Tcp".toLower = "tcp" := by decide +kernel
  have hkind : parseAlertKind debug "Spike" = .ok .spike := by
    unfold parseAlertKind
    rw [hspike]
    rfl
  have hlevel : parseAnomalyLevel debug "SEVERE" = .ok .severe := by
    unfold parseAnomalyLevel
    rw [hsevere]
    rfl
  have hproto : parseProtoIndex debug "Tcp" = .ok .tcp := by
    unfold parseProtoIndex
    rw [htcp]
    rfl
  rw [loadConfig_eq]
  simp only [mixedCase, loadThresholds, loadRules, buildEmergencyDetector, buildAlertRules,
    List.zipIdx_cons, List.zipIdx_nil, List.mapM_cons, List.mapM_nil, hkind, hlevel, hproto]
  rfl

end Sections

theorem config_reloads_mixedCase :
    ∃ detectors resolved, loadConfig String.quote mixedCase = .ok (detectors, resolved) ∧
      loadConfig String.quote resolved.toConfig = .ok (detectors, resolved) :=
  ⟨_, _, loadConfig_mixedCase String.quote,
    (config_reloads String.quote).1 _ _ _ (loadConfig_mixedCase String.quote)⟩

end EbpfXdp
