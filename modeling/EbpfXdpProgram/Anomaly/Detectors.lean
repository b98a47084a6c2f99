import EbpfXdpProgram.Baseline.Estimator

/-!
# Detectors

`EwmaDetector`, `EmergencyDetector`, `SynFloodDetector` and `PortScanDetector` of `anomaly/`. Each
looks at one rate at a time and gives at most one signal for it.
-/

namespace EbpfXdp

open F64

variable {F : Type} [F64 F]

/-- Twice the threshold has confidence 1. -/
def ratioConfidence (observed threshold : F) : F := clamp (observed / threshold - 1.0) 0.0 1.0

omit [F64 F] in
/-- Where a signal has the protocol of its rate, a protocol's signals are those of its rates. -/
theorem filter_filterMap_proto {g : ProtoRate F → Option (AlertSignal F)}
    (hg : ∀ rate s, g rate = some s → s.proto = rate.proto) (rates : List (ProtoRate F))
    (p : ProtoIndex) :
    (rates.filterMap g).filter (·.proto = p) = (rates.filter (·.proto = p)).filterMap g := by
  induction rates with
  | nil => rfl
  | cons rate rates ih =>
    by_cases hp : rate.proto = p
    · rw [List.filter_cons_of_pos (by simpa using hp)]
      cases hs : g rate with
      | none => rw [List.filterMap_cons_none hs, List.filterMap_cons_none hs, ih]
      | some s =>
        rw [List.filterMap_cons_some hs, List.filterMap_cons_some hs,
          List.filter_cons_of_pos (by simpa [hg rate s hs] using hp), ih]
    · rw [List.filter_cons_of_neg (by simpa using hp)]
      cases hs : g rate with
      | none => rw [List.filterMap_cons_none hs, ih]
      | some s =>
        rw [List.filterMap_cons_some hs,
          List.filter_cons_of_neg (by simpa [hg rate s hs] using hp), ih]

/-! ## The EWMA detector -/

def anomalyLevelFromZ (z : F) : AnomalyLevel :=
  let a := F64.abs z
  if lt a 3.0 then .normal
  else if lt a 6.0 then .suspicious
  else .severe

namespace EwmaDetector

/-- The body of the loop of `detect`. -/
def examine (state : BaselineState F) (rate : ProtoRate F) : Option (AlertSignal F) :=
  let (anomalyLevel, zPps, zBps) : AnomalyLevel × Option F × Option F :=
    match state with
    | .ready protoBaseline =>
      let (zPps, zBps) := computeProtoZScores protoBaseline rate.pps rate.bps
      let level :=
        match anomalyLevelFromZ zPps, anomalyLevelFromZ zBps with
        | .severe, _ | _, .severe => .severe
        | .suspicious, _ | _, .suspicious => .suspicious
        | _, _ => .normal
      (level, some zPps, some zBps)
    | .warming => (.normal, none, none)
  if anomalyLevel.isNormal then none
  else
    let dominantZ :=
      match zPps, zBps with
      | some zp, some zb => some (if le (F64.abs zb) (F64.abs zp) then zp else zb)
      | some z, none | none, some z => some z
      | none, none => none
    let confidence :=
      let pps := (zPps.map F64.abs).getD 0.0
      let bps := (zBps.map F64.abs).getD 0.0
      min (max pps bps / 10.0) 1.0
    let kind :=
      match dominantZ with
      | some z => if le 0.0 z then .spike else .drop
      | none => .spike
    some { proto := rate.proto, level := anomalyLevel, kind := kind, confidence := confidence }

/-- `detect`, for the baselines `snapshot`. -/
def detect (snapshot : ProtoIndex → BaselineState F) (rates : List (ProtoRate F)) :
    List (AlertSignal F) :=
  rates.filterMap fun rate => examine (snapshot rate.proto) rate

/-- A signal is of the protocol of its rate, is not normal, and is no emergency. -/
theorem examine_spec {state : BaselineState F} {rate : ProtoRate F} {s : AlertSignal F}
    (h : examine state rate = some s) :
    s.proto = rate.proto ∧ s.level ≠ .normal ∧ s.kind ≠ .emergency := by
  unfold examine at h
  dsimp only at h
  split_ifs at h with hnormal
  obtain rfl := Option.some.inj h
  refine ⟨rfl, fun hlevel => hnormal (congrArg AnomalyLevel.isNormal hlevel), ?_⟩
  dsimp only
  split
  · split_ifs
    · exact AlertKind.noConfusion
    · exact AlertKind.noConfusion
  · exact AlertKind.noConfusion

theorem proto_of_examine {state : BaselineState F} {rate : ProtoRate F} {s : AlertSignal F}
    (h : examine state rate = some s) : s.proto = rate.proto := (examine_spec h).1

/-- A baseline that is warming up gives no signal. -/
theorem isReady_of_examine {state : BaselineState F} {rate : ProtoRate F} {s : AlertSignal F}
    (h : examine state rate = some s) : state.isReady = true := by
  cases state with
  | ready B => rfl
  | warming => exact absurd h (Option.some_ne_none s).symm

theorem filter_detect (snapshot : ProtoIndex → BaselineState F) (rates : List (ProtoRate F))
    (p : ProtoIndex) :
    (detect snapshot rates).filter (·.proto = p) =
      (rates.filter (·.proto = p)).filterMap (examine (snapshot p)) := by
  unfold detect
  rw [filter_filterMap_proto fun rate s hs => proto_of_examine hs]
  apply List.filterMap_congr
  intro rate hrate
  rw [of_decide_eq_true (List.mem_filter.mp hrate).2]

end EwmaDetector

/-! ## The emergency detector -/

structure EmergencyThreshold (F : Type) where
  proto : ProtoIndex
  maxPps : Option F
  maxBps : Option F
deriving DecidableEq

structure EmergencyDetector (F : Type) where
  thresholds : List (EmergencyThreshold F)
deriving DecidableEq

namespace EmergencyDetector

/-- The body of the loop of `detect`: the first threshold of the protocol counts. -/
def examine (d : EmergencyDetector F) (rate : ProtoRate F) : Option (AlertSignal F) :=
  match d.thresholds.find? fun t => t.proto = rate.proto with
  | none => none
  | some t =>
    let ppsExceeded := t.maxPps.any fun l => lt l rate.pps
    let bpsExceeded := t.maxBps.any fun l => lt l rate.bps
    if ppsExceeded || bpsExceeded then
      let ppsConfidence :=
        ((t.maxPps.filter fun l => lt 0.0 l).map fun l => ratioConfidence rate.pps l).getD 0.0
      let bpsConfidence :=
        ((t.maxBps.filter fun l => lt 0.0 l).map fun l => ratioConfidence rate.bps l).getD 0.0
      some
        { proto := rate.proto
          level := .severe
          kind := .emergency
          confidence := max ppsConfidence bpsConfidence }
    else none

def detect (d : EmergencyDetector F) (rates : List (ProtoRate F)) : List (AlertSignal F) :=
  rates.filterMap d.examine

/-- A signal is of the protocol of its rate, severe, and an emergency. -/
theorem examine_spec {d : EmergencyDetector F} {rate : ProtoRate F} {s : AlertSignal F}
    (h : d.examine rate = some s) :
    s.proto = rate.proto ∧ s.level = .severe ∧ s.kind = .emergency := by
  unfold examine at h
  split at h
  · exact absurd h (Option.some_ne_none s).symm
  · dsimp only at h
    split_ifs at h
    obtain rfl := Option.some.inj h
    exact ⟨rfl, rfl, rfl⟩

theorem proto_of_examine {d : EmergencyDetector F} {rate : ProtoRate F} {s : AlertSignal F}
    (h : d.examine rate = some s) : s.proto = rate.proto := (examine_spec h).1

theorem kind_of_examine {d : EmergencyDetector F} {rate : ProtoRate F} {s : AlertSignal F}
    (h : d.examine rate = some s) : s.kind = .emergency := (examine_spec h).2.2

theorem filter_detect (d : EmergencyDetector F) (rates : List (ProtoRate F)) (p : ProtoIndex) :
    (d.detect rates).filter (·.proto = p) =
      (rates.filter (·.proto = p)).filterMap d.examine :=
  filter_filterMap_proto (fun _ _ hs => proto_of_examine hs) rates p

end EmergencyDetector

/-! ## The SYN-flood detector -/

structure SynFloodDetector (F : Type) where
  maxSynPps : F
  topN : ℕ
deriving DecidableEq

def SynFloodDetector.detect (d : SynFloodDetector F) (rates : List (SynIpRate F)) :
    List (SynFloodSignal F) :=
  (rates.filter fun r => lt d.maxSynPps r.pps).map fun r =>
    { srcIp := r.srcIp, pps := r.pps, confidence := ratioConfidence r.pps d.maxSynPps }

/-! ## The port-scan detector -/

structure PortScanDetector where
  maxDistinctPorts : UInt32
  topN : ℕ
  windowNs : ℕ
deriving DecidableEq

def PortScanDetector.detect (d : PortScanDetector) (breadths : List PortScanIpBreadth) :
    List (PortScanSignal F) :=
  (breadths.filter fun b => d.maxDistinctPorts < b.distinctPorts).map fun b =>
    { srcIp := b.srcIp
      distinctPorts := b.distinctPorts
      confidence :=
        ratioConfidence (ofNat b.distinctPorts.toNat) (ofNat d.maxDistinctPorts.toNat) }

end EbpfXdp
