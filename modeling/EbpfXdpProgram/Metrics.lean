import EbpfXdpProgram.Lib.Registry
import EbpfXdpProgram.Pipeline.PortScanRunner
import EbpfXdpProgram.Pipeline.Published
import EbpfXdpProgram.Pipeline.SynFloodRunner
import EbpfXdpProgram.Rate.Mix

/-!
# Metrics

`MetricsHandle` of `metrics.rs`, as the writes to the global registry, and what each runner's tick
records. No series is labelled with a source address, so that the series are finitely many, whatever
traffic comes (`card_gaugeSeries`, `card_counterSeries`).
-/

namespace EbpfXdp

open F64

/-- A metric with its labels. -/
structure Series where
  name : String
  labels : List (String × String)
deriving DecidableEq

abbrev MetricOp (F : Type) := Metric.Op Series F
abbrev MetricRegistry (F : Type) := Metric.Registry Series F

namespace Series

def proto (name : String) (p : ProtoIndex) : Series := ⟨name, [("proto", p.label)]⟩

def slot (name : String) (key : AlertKey) : Series :=
  ⟨name, [("proto", key.proto.label), ("kind", key.kind.label)]⟩

def bare (name : String) : Series := ⟨name, []⟩

def alertEvents (key : AlertKey) (lifecycle : AlertLifecycle) : Series :=
  ⟨"xdp_alert_events_total",
    [("proto", key.proto.label), ("kind", key.kind.label), ("lifecycle", lifecycle.label)]⟩

def ipEvents (name : String) (lifecycle : AlertLifecycle) : Series :=
  ⟨name, [("lifecycle", lifecycle.label)]⟩

end Series

/-! ## The writes -/

variable {F : Type} [F64 F]

def updateMix (mixPcts : List (ProtoIndex × F)) : List (MetricOp F) :=
  mixPcts.map fun (proto, pct) => .set (.proto "xdp_traffic_mix_pct" proto) pct

def updateRates (rates : List (ProtoRate F)) : List (MetricOp F) :=
  rates.flatMap fun r =>
    [.set (.proto "xdp_traffic_pps" r.proto) r.pps, .set (.proto "xdp_traffic_bps" r.proto) r.bps]

/-- A protocol that is warming keeps the mean and the deviation that it has. -/
def updateBaseline (estimator : EwmaEstimator F) : List (MetricOp F) :=
  ProtoIndex.every.flatMap fun proto =>
    match estimator.snapshot proto with
    | .ready baseline =>
      [.set (.proto "xdp_baseline_ready" proto) 1.0,
        .set (.proto "xdp_baseline_pps_mean" proto) baseline.pps.mean,
        .set (.proto "xdp_baseline_pps_stddev" proto) baseline.pps.stddev,
        .set (.proto "xdp_baseline_bps_mean" proto) baseline.bps.mean,
        .set (.proto "xdp_baseline_bps_stddev" proto) baseline.bps.stddev]
    | .warming => [.set (.proto "xdp_baseline_ready" proto) 0.0]

/-- A gauge of `update_anomaly`. -/
def Gauge.op (g : Gauge F) : MetricOp F := .set ⟨g.name, [("proto", g.proto)]⟩ g.value

def updateAlerts (snaps : List AlertMetricsSnapshot) (frozenProtos : Finset ProtoIndex) :
    List (MetricOp F) :=
  (ProtoIndex.every.map fun proto =>
    .set (.proto "xdp_alert_baseline_frozen" proto) (if proto ∈ frozenProtos then 1.0 else 0.0)) ++
  snaps.flatMap fun snap =>
    [.set (.slot "xdp_alert_phase" ⟨snap.proto, snap.kind⟩) (ofNat snap.phaseValue),
      .set (.slot "xdp_alert_consecutive_count" ⟨snap.proto, snap.kind⟩)
        (ofNat snap.consecutiveCount.toNat)]

omit [F64 F] in
def recordAlertEvent (proto : ProtoIndex) (kind : AlertKind) (lifecycle : AlertLifecycle) :
    MetricOp F := .increment (.alertEvents ⟨proto, kind⟩ lifecycle)

/-- `update_synflood` and `update_port_scan`: the value of the source at the top, and the active
count. -/
def updateTop (topName activeName : String) (top : Option F) (activeAlerts : ℕ) :
    List (MetricOp F) :=
  [.set (.bare topName) (top.getD 0.0), .set (.bare activeName) (ofNat activeAlerts)]

def updateSynflood (topN : List (SynIpRate F)) (activeAlerts : ℕ) : List (MetricOp F) :=
  updateTop "xdp_synflood_top_offender_pps" "xdp_synflood_active_alerts"
    (topN.head?.map fun r => r.pps) activeAlerts

def updatePortScan (topN : List PortScanIpBreadth) (activeAlerts : ℕ) : List (MetricOp F) :=
  updateTop "xdp_portscan_top_breadth" "xdp_portscan_active_alerts"
    (topN.head?.map fun b => ofNat b.distinctPorts.toNat) activeAlerts

def recordSynfloodEvent (lifecycle : AlertLifecycle) : MetricOp F :=
  .increment (.ipEvents "xdp_synflood_alert_events_total" lifecycle)

def recordPortScanEvent (lifecycle : AlertLifecycle) : MetricOp F :=
  .increment (.ipEvents "xdp_portscan_alert_events_total" lifecycle)

def recordAlertmanagerPush (success : Bool) : MetricOp F :=
  .increment ⟨"xdp_alertmanager_push_total", [("result", if success then "success" else "failure")]⟩

def recordAlertmanagerDropped : MetricOp F := .increment (.bare "xdp_alertmanager_dropped_total")

/-! ## What a tick records -/

/-- The writes of `AnomalyRunner::tick`; `o` is the iteration order of the slots. -/
def AnomalyRunner.records (o : IterOrder AlertKey) (r : AnomalyRunner F) (t : RunnerTick) :
    List (MetricOp F) :=
  match r.prevCounters, t.current with
  | some _, some curr =>
    let rates := r.rates t
    let (next, alerts) := step r t
    updateRates rates ++ updateBaseline next.baseline ++
      (updateAnomaly rates next.baseline).map Gauge.op ++
      updateAlerts (next.alertLifecycleManager.snapshot o)
        (next.alertLifecycleManager.frozenProtos curr.timestamp) ++
      alerts.transitions.map fun event =>
        recordAlertEvent event.alert.proto event.alert.kind event.lifecycle
  | _, _ => []

/-- The writes of `SynFloodRunner::tick`. -/
def SynFloodRunner.records (r : SynFloodRunner F) (t : SynTick) : List (MetricOp F) :=
  match r.prevSnapshot, t.current with
  | some _, some _ =>
    let (next, alerts) := step r t
    updateSynflood next.lastTopN next.alertLifecycleManager.activeCount ++
      alerts.transitions.map fun event => recordSynfloodEvent event.lifecycle
  | _, _ => []

/-- The writes of `PortScanRunner::tick`. -/
def PortScanRunner.records (r : PortScanRunner F) (t : PortScanTick) : List (MetricOp F) :=
  match t.current with
  | some _ =>
    let (next, alerts) := step r t
    updatePortScan next.lastTopN next.alertLifecycleManager.activeCount ++
      alerts.transitions.map fun event => recordPortScanEvent event.lifecycle
  | none => []

/-! ## The registered series -/

/-- The gauges with a protocol label. -/
def protoGauges : List String :=
  ["xdp_traffic_pps", "xdp_traffic_bps", "xdp_traffic_mix_pct", "xdp_baseline_pps_mean",
    "xdp_baseline_pps_stddev", "xdp_baseline_bps_mean", "xdp_baseline_bps_stddev",
    "xdp_baseline_ready", "xdp_anomaly_z_score_pps", "xdp_anomaly_z_score_bps",
    "xdp_anomaly_level", "xdp_anomaly_confidence", "xdp_alert_baseline_frozen"]

/-- The gauges with a protocol and a kind label. -/
def slotGauges : List String := ["xdp_alert_phase", "xdp_alert_consecutive_count"]

/-- The gauges without a label. -/
def bareGauges : List String :=
  ["xdp_synflood_top_offender_pps", "xdp_synflood_active_alerts", "xdp_portscan_top_breadth",
    "xdp_portscan_active_alerts"]

def AlertKey.every : List AlertKey :=
  ProtoIndex.every.flatMap fun p => [AlertKind.spike, .drop, .emergency].map (⟨p, ·⟩)

def AlertLifecycle.every : List AlertLifecycle := [.fired, .resolved]

def gaugeSeries : List Series :=
  (protoGauges.flatMap fun name => ProtoIndex.every.map (.proto name)) ++
    (slotGauges.flatMap fun name => AlertKey.every.map (.slot name)) ++ bareGauges.map .bare

def counterSeries : List Series :=
  (AlertKey.every.flatMap fun key => AlertLifecycle.every.map (.alertEvents key)) ++
    (["xdp_synflood_alert_events_total", "xdp_portscan_alert_events_total"].flatMap fun name =>
      AlertLifecycle.every.map (.ipEvents name)) ++
    [⟨"xdp_alertmanager_push_total", [("result", "success")]⟩,
      ⟨"xdp_alertmanager_push_total", [("result", "failure")]⟩,
      .bare "xdp_alertmanager_dropped_total"]

theorem AlertKey.mem_every (key : AlertKey) : key ∈ AlertKey.every := by
  obtain ⟨p, k⟩ := key
  cases p <;> cases k <;> decide

theorem AlertLifecycle.mem_every (l : AlertLifecycle) : l ∈ AlertLifecycle.every := by
  cases l <;> decide

theorem card_gaugeSeries : gaugeSeries.toFinset.card ≤ 99 := gaugeSeries.toFinset_card_le

theorem card_counterSeries : counterSeries.toFinset.card ≤ 37 := counterSeries.toFinset_card_le

theorem proto_mem_gaugeSeries {name : String} (h : name ∈ protoGauges) (p : ProtoIndex) :
    .proto name p ∈ gaugeSeries :=
  List.mem_append_left _ (List.mem_append_left _
    (List.mem_flatMap.mpr ⟨name, h, List.mem_map_of_mem p.mem_every⟩))

theorem slot_mem_gaugeSeries {name : String} (h : name ∈ slotGauges) (key : AlertKey) :
    .slot name key ∈ gaugeSeries :=
  List.mem_append_left _ (List.mem_append_right _
    (List.mem_flatMap.mpr ⟨name, h, List.mem_map_of_mem key.mem_every⟩))

theorem bare_mem_gaugeSeries {name : String} (h : name ∈ bareGauges) : .bare name ∈ gaugeSeries :=
  List.mem_append_right _ (List.mem_map_of_mem h)

theorem alertEvents_mem_counterSeries (key : AlertKey) (l : AlertLifecycle) :
    .alertEvents key l ∈ counterSeries :=
  List.mem_append_left _ (List.mem_append_left _
    (List.mem_flatMap.mpr ⟨key, key.mem_every, List.mem_map_of_mem l.mem_every⟩))

/-- The write is to one of the series. -/
def Registers (op : MetricOp F) : Prop := op.Within gaugeSeries.toFinset counterSeries.toFinset

end EbpfXdp
