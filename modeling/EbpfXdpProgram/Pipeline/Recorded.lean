import EbpfXdpProgram.Alert.Balance
import EbpfXdpProgram.Metrics

/-!
# What a tick records

Each part of a tick writes series with names of its own (`WritesOnly`), and so a series is read off
the part that writes it. A tick that skips its work records nothing.
-/

namespace EbpfXdp

open F64 Metric

namespace Series

@[simp] theorem name_proto (name : String) (p : ProtoIndex) : (proto name p).name = name := rfl

@[simp] theorem name_slot (name : String) (key : AlertKey) : (slot name key).name = name := rfl

@[simp] theorem name_bare (name : String) : (bare name).name = name := rfl

@[simp] theorem proto_inj {name name' : String} {p q : ProtoIndex} :
    proto name p = proto name' q ↔ name = name' ∧ p = q := by
  refine ⟨fun h => ?_, by rintro ⟨rfl, rfl⟩; rfl⟩
  unfold proto at h
  simp only [mk.injEq, List.cons.injEq, Prod.mk.injEq, true_and, and_true] at h
  exact ⟨h.1, ProtoIndex.label_injective h.2⟩

@[simp] theorem slot_inj {name name' : String} {key key' : AlertKey} :
    slot name key = slot name' key' ↔ name = name' ∧ key = key' := by
  refine ⟨fun h => ?_, by rintro ⟨rfl, rfl⟩; rfl⟩
  obtain ⟨p, k⟩ := key
  obtain ⟨p', k'⟩ := key'
  unfold slot at h
  simp only [mk.injEq, List.cons.injEq, Prod.mk.injEq, true_and, and_true] at h
  obtain ⟨hname, hp, hk⟩ := h
  exact ⟨hname, by rw [ProtoIndex.label_injective hp, AlertKind.label_injective hk]⟩

theorem lifecycle_label_injective : Function.Injective AlertLifecycle.label := by
  intro a b h
  cases a <;> cases b <;> first | rfl | exact absurd h (by decide)

@[simp] theorem alertEvents_inj {key key' : AlertKey} {l l' : AlertLifecycle} :
    alertEvents key l = alertEvents key' l' ↔ key = key' ∧ l = l' := by
  refine ⟨fun h => ?_, by rintro ⟨rfl, rfl⟩; rfl⟩
  obtain ⟨p, k⟩ := key
  obtain ⟨p', k'⟩ := key'
  unfold alertEvents at h
  simp only [mk.injEq, List.cons.injEq, Prod.mk.injEq, true_and, and_true] at h
  obtain ⟨hp, hk, hl⟩ := h
  exact ⟨by rw [ProtoIndex.label_injective hp, AlertKind.label_injective hk],
    lifecycle_label_injective hl⟩

@[simp] theorem ipEvents_inj {name name' : String} {l l' : AlertLifecycle} :
    ipEvents name l = ipEvents name' l' ↔ name = name' ∧ l = l' := by
  refine ⟨fun h => ?_, by rintro ⟨rfl, rfl⟩; rfl⟩
  unfold ipEvents at h
  simp only [mk.injEq, List.cons.injEq, Prod.mk.injEq, true_and, and_true] at h
  exact ⟨h.1, lifecycle_label_injective h.2⟩

end Series

variable {F : Type}

/-! ## The names that a part writes -/

/-- Every write is to one of the series, and the metric is among `names`. -/
def WritesOnly (names : List String) (ops : List (MetricOp F)) : Prop :=
  ∀ op ∈ ops, op.series.name ∈ names ∧ Registers op

namespace WritesOnly

variable {names names' : List String} {ops ops' : List (MetricOp F)}

theorem untouched (h : WritesOnly names ops) {k : Series} (hk : k.name ∉ names) :
    written ops k = none ∧ incremented ops k = 0 :=
  Metric.untouched fun op hop hseries => hk (hseries ▸ (h op hop).1)

theorem nil (names : List String) : WritesOnly names ([] : List (MetricOp F)) :=
  fun _ h => absurd h List.not_mem_nil

theorem append (h : WritesOnly names ops) (h' : WritesOnly names ops') :
    WritesOnly names (ops ++ ops') :=
  List.forall_mem_append.mpr ⟨h, h'⟩

theorem mono (h : WritesOnly names ops) (hsub : names ⊆ names') : WritesOnly names' ops :=
  fun op hop => ⟨hsub (h op hop).1, (h op hop).2⟩

theorem proto (name : String) (h : name ∈ names) (hgauge : name ∈ protoGauges) (p : ProtoIndex)
    (value : F) : WritesOnly names [.set (.proto name p) value] := by
  intro op hop
  obtain rfl := List.mem_singleton.mp hop
  exact ⟨h, List.mem_toFinset.mpr (proto_mem_gaugeSeries hgauge p)⟩

theorem slot {name : String} (h : name ∈ names) (hgauge : name ∈ slotGauges) (key : AlertKey)
    (value : F) : WritesOnly names [.set (.slot name key) value] := by
  intro op hop
  obtain rfl := List.mem_singleton.mp hop
  exact ⟨h, List.mem_toFinset.mpr (slot_mem_gaugeSeries hgauge key)⟩

theorem bare {name : String} (h : name ∈ names) (hgauge : name ∈ bareGauges) (value : F) :
    WritesOnly names [.set (.bare name) value] := by
  intro op hop
  obtain rfl := List.mem_singleton.mp hop
  exact ⟨h, List.mem_toFinset.mpr (bare_mem_gaugeSeries hgauge)⟩

theorem increment {k : Series} (h : k.name ∈ names) (hcounter : k ∈ counterSeries) :
    WritesOnly names ([.increment k] : List (MetricOp F)) := by
  intro op hop
  obtain rfl := List.mem_singleton.mp hop
  exact ⟨h, List.mem_toFinset.mpr hcounter⟩

theorem flatMap {ι : Type} {xs : List ι} {f : ι → List (MetricOp F)}
    (h : ∀ x ∈ xs, WritesOnly names (f x)) : WritesOnly names (xs.flatMap f) := by
  intro op hop
  obtain ⟨x, hx, hop⟩ := List.mem_flatMap.mp hop
  exact h x hx op hop

theorem map {ι : Type} {xs : List ι} {f : ι → MetricOp F} (h : ∀ x ∈ xs, WritesOnly names [f x]) :
    WritesOnly names (xs.map f) := by
  rw [← List.flatMap_pure_eq_map]
  exact flatMap h

end WritesOnly

def rateNames : List String := ["xdp_traffic_pps", "xdp_traffic_bps"]

def baselineNames : List String :=
  ["xdp_baseline_ready", "xdp_baseline_pps_mean", "xdp_baseline_pps_stddev",
    "xdp_baseline_bps_mean", "xdp_baseline_bps_stddev"]

def anomalyNames : List String :=
  ["xdp_anomaly_z_score_pps", "xdp_anomaly_z_score_bps", "xdp_anomaly_level",
    "xdp_anomaly_confidence"]

def alertNames : List String :=
  ["xdp_alert_baseline_frozen", "xdp_alert_phase", "xdp_alert_consecutive_count"]

/-- The metrics of the anomaly runner. -/
def runnerNames : List String :=
  rateNames ++ baselineNames ++ anomalyNames ++ alertNames ++ ["xdp_alert_events_total"]

def synfloodNames : List String :=
  ["xdp_synflood_top_offender_pps", "xdp_synflood_active_alerts", "xdp_synflood_alert_events_total"]

def portScanNames : List String :=
  ["xdp_portscan_top_breadth", "xdp_portscan_active_alerts", "xdp_portscan_alert_events_total"]

section Names

theorem writesOnly_updateMix (mixPcts : List (ProtoIndex × F)) :
    WritesOnly ["xdp_traffic_mix_pct"] (updateMix mixPcts) :=
  .map fun x _ => .proto _ (by decide) (by decide) x.1 x.2

theorem writesOnly_updateRates (rates : List (ProtoRate F)) :
    WritesOnly rateNames (updateRates rates) :=
  .flatMap fun r _ => .append (.proto _ (by decide) (by decide) r.proto r.pps)
    (.proto _ (by decide) (by decide) r.proto r.bps)

theorem writesOnly_alertEvents (events : List (AlertEvent F)) :
    WritesOnly (F := F) ["xdp_alert_events_total"] (events.map fun event =>
      recordAlertEvent event.alert.proto event.alert.kind event.lifecycle) :=
  .map fun _ _ => .increment (List.mem_singleton_self _) (alertEvents_mem_counterSeries ..)

theorem writesOnly_recordSynfloodEvent (l : AlertLifecycle) :
    WritesOnly synfloodNames ([recordSynfloodEvent l] : List (MetricOp F)) :=
  .increment (by cases l <;> decide) (by cases l <;> decide)

theorem writesOnly_recordPortScanEvent (l : AlertLifecycle) :
    WritesOnly portScanNames ([recordPortScanEvent l] : List (MetricOp F)) :=
  .increment (by cases l <;> decide) (by cases l <;> decide)

variable [F64 F]

theorem writesOnly_updateBaseline (e : EwmaEstimator F) :
    WritesOnly baselineNames (updateBaseline e) := by
  refine .flatMap fun p _ => ?_
  cases e.snapshot p with
  | warming => exact .proto _ (by decide) (by decide) p _
  | ready b =>
    refine .append (.proto _ (by decide) (by decide) p _) ?_
    refine .append (.proto _ (by decide) (by decide) p _) ?_
    refine .append (.proto _ (by decide) (by decide) p _) ?_
    exact .append (.proto _ (by decide) (by decide) p _) (.proto _ (by decide) (by decide) p _)

theorem writesOnly_updateAnomaly (rates : List (ProtoRate F)) (e : EwmaEstimator F) :
    WritesOnly anomalyNames ((updateAnomaly rates e).map Gauge.op) := by
  unfold updateAnomaly
  rw [List.map_flatMap]
  refine .flatMap fun r _ => ?_
  refine .append (.proto "xdp_anomaly_z_score_pps" (by decide) (by decide) r.proto _) ?_
  refine .append (.proto "xdp_anomaly_z_score_bps" (by decide) (by decide) r.proto _) ?_
  exact .append (.proto "xdp_anomaly_level" (by decide) (by decide) r.proto _)
    (.proto "xdp_anomaly_confidence" (by decide) (by decide) r.proto _)

theorem writesOnly_updateAlerts (snaps : List AlertMetricsSnapshot) (frozen : Finset ProtoIndex) :
    WritesOnly alertNames (updateAlerts snaps frozen : List (MetricOp F)) :=
  .append (.map fun p _ => .proto _ (by decide) (by decide) p _)
    (.flatMap fun s _ => .append (.slot (by decide) (by decide) ⟨s.proto, s.kind⟩ _)
      (.slot (by decide) (by decide) ⟨s.proto, s.kind⟩ _))

theorem writesOnly_updateSynflood (topN : List (SynIpRate F)) (active : ℕ) :
    WritesOnly synfloodNames (updateSynflood topN active) :=
  .append (.bare (by decide) (by decide) _) (.bare (by decide) (by decide) _)

theorem writesOnly_updatePortScan (topN : List PortScanIpBreadth) (active : ℕ) :
    WritesOnly portScanNames (updatePortScan topN active : List (MetricOp F)) :=
  .append (.bare (by decide) (by decide) _) (.bare (by decide) (by decide) _)

end Names

/-! ## The value of a gauge -/

section Values

/-- Of the writes for every protocol, those for the one matter. -/
theorem written_every {f : ProtoIndex → List (MetricOp F)} {k : Series} {p : ProtoIndex}
    (h : ∀ q, q ≠ p → written (f q) k = none) :
    written (ProtoIndex.every.flatMap f) k = written (f p) k := by
  rw [written_flatMap fun q _ => h q, if_pos p.mem_every]

variable [F64 F]

/-- The gauges of a slot. -/
def slotWrites (key : AlertKey) (s : AlertState) : List (MetricOp F) :=
  [.set (.slot "xdp_alert_phase" key) (ofNat s.phaseValue),
    .set (.slot "xdp_alert_consecutive_count" key) (ofNat s.consecutiveCount.toNat)]

theorem updateAlerts_snapshot (o : IterOrder AlertKey) (m : AlertLifecycleManager F)
    (frozen : Finset ProtoIndex) :
    updateAlerts (m.snapshot o) frozen =
      (ProtoIndex.every.flatMap fun p =>
        [.set (.proto "xdp_alert_baseline_frozen" p) (if p ∈ frozen then 1.0 else 0.0)]) ++
      (o.enum m.states.keys).flatMap fun key =>
        (m.states.lookup key).toList.flatMap (slotWrites (F := F) key) := by
  unfold updateAlerts AlertLifecycleManager.snapshot
  congr 1
  rw [List.filterMap_eq_flatMap_toList, List.flatMap_assoc]
  congr 1
  funext key
  cases m.states.lookup key <;> rfl

/-- A tracked slot has its gauges written, and no other. -/
theorem written_slot (o : IterOrder AlertKey) (m : AlertLifecycleManager F)
    (frozen : Finset ProtoIndex) (key : AlertKey) {name : String} (hname : name ∈ slotGauges) :
    written (updateAlerts (m.snapshot o) frozen) (.slot name key) =
      (m.states.lookup key).bind fun s => written (slotWrites (F := F) key s) (.slot name key) := by
  have hother : ∀ key', key' ≠ key → ∀ s : AlertState,
      written (slotWrites (F := F) key' s) (.slot name key) = none := fun key' hne s => by
    simp [slotWrites, Op.valueOf, hne]
  have hfrozen : written (ProtoIndex.every.flatMap fun p =>
      [(.set (.proto "xdp_alert_baseline_frozen" p) (if p ∈ frozen then 1.0 else 0.0) :
        MetricOp F)]) (.slot name key) = none := by
    refine (@WritesOnly.untouched _ ["xdp_alert_baseline_frozen"] _
      (.flatMap fun p _ => .proto _ (by decide) (by decide) p _) _ ?_).1
    unfold slotGauges at hname
    simp only [List.mem_cons, List.not_mem_nil, or_false] at hname
    rcases hname with rfl | rfl <;> simp
  rw [updateAlerts_snapshot, written_append, hfrozen, Option.or_none,
    written_flatMap (x := key) fun key' _ hne => ?_]
  · simp only [o.mem_enum, Table.mem_keys]
    cases m.states.lookup key with
    | none => rfl
    | some s => simp
  · cases m.states.lookup key' with
    | none => rfl
    | some s => simpa using hother key' hne s

theorem written_frozen (o : IterOrder AlertKey) (m : AlertLifecycleManager F)
    (frozen : Finset ProtoIndex) (p : ProtoIndex) :
    written (updateAlerts (m.snapshot o) frozen) (.proto "xdp_alert_baseline_frozen" p) =
      some (if p ∈ frozen then 1.0 else 0.0 : F) := by
  have hslots : written ((o.enum m.states.keys).flatMap fun key =>
      (m.states.lookup key).toList.flatMap (slotWrites (F := F) key))
      (.proto "xdp_alert_baseline_frozen" p) = none := by
    refine (@WritesOnly.untouched _ slotGauges _ (.flatMap fun key _ =>
      .flatMap fun s _ => ?_) _ (by simp [slotGauges])).1
    exact .append (.slot (by decide) (by decide) key _) (.slot (by decide) (by decide) key _)
  rw [updateAlerts_snapshot, written_append, hslots, Option.none_or, written_every (p := p)]
  · simp [Op.valueOf]
  · intro q hq
    simp [Op.valueOf, hq]

/-- The gauges of a baseline that is ready, with what they show. -/
def baselineGauges : List (String × (ProtoBaseline F → F)) :=
  [("xdp_baseline_pps_mean", fun b => b.pps.mean),
    ("xdp_baseline_pps_stddev", fun b => b.pps.stddev),
    ("xdp_baseline_bps_mean", fun b => b.bps.mean),
    ("xdp_baseline_bps_stddev", fun b => b.bps.stddev)]

/-- The baseline of a protocol, if it is ready. -/
def BaselineState.baseline? : BaselineState F → Option (ProtoBaseline F)
  | .ready b => some b
  | .warming => none

theorem written_ready (e : EwmaEstimator F) (p : ProtoIndex) :
    written (updateBaseline e) (.proto "xdp_baseline_ready" p) =
      some (if (e.snapshot p).isReady = true then 1.0 else 0.0) := by
  unfold updateBaseline
  rw [written_every (p := p)]
  · cases e.snapshot p <;> simp [Op.valueOf, BaselineState.isReady]
  · intro q hq
    cases e.snapshot q <;> simp [Op.valueOf, hq]

/-- A baseline gauge is written where the baseline is ready. -/
theorem written_baseline (e : EwmaEstimator F) (p : ProtoIndex) {g : String × (ProtoBaseline F → F)}
    (hg : g ∈ baselineGauges) :
    written (updateBaseline e) (.proto g.1 p) = (e.snapshot p).baseline?.map g.2 := by
  unfold updateBaseline
  rw [written_every (p := p)]
  · unfold baselineGauges at hg
    simp only [List.mem_cons, List.not_mem_nil, or_false] at hg
    rcases hg with rfl | rfl | rfl | rfl <;>
      cases e.snapshot p <;> simp [Op.valueOf, BaselineState.baseline?]
  · intro q hq
    cases e.snapshot q <;> simp [Op.valueOf, hq]

end Values

/-! ## The anomaly runner -/

namespace AnomalyRunner

variable [F64 F] {r : AnomalyRunner F} {t : RunnerTick} {o : IterOrder AlertKey}

theorem records_skipped (h : r.prevCounters = none ∨ t.current = none) : r.records o t = [] := by
  unfold records
  rcases h with h | h
  · rw [h]
  · rw [h]
    cases r.prevCounters <;> rfl

theorem records_processed {prev curr : TrafficCountersSnapshot} (hprev : r.prevCounters = some prev)
    (hcurr : t.current = some curr) :
    r.records o t =
      updateRates (r.rates t) ++ updateBaseline (step r t).1.baseline ++
        (updateAnomaly (r.rates t) (step r t).1.baseline).map Gauge.op ++
        updateAlerts ((step r t).1.alertLifecycleManager.snapshot o)
          ((step r t).1.alertLifecycleManager.frozenProtos curr.timestamp) ++
        (step r t).2.transitions.map fun event =>
          recordAlertEvent event.alert.proto event.alert.kind event.lifecycle := by
  unfold records
  rw [hprev, hcurr]

theorem writesOnly_records (o : IterOrder AlertKey) (r : AnomalyRunner F) (t : RunnerTick) :
    WritesOnly runnerNames (r.records o t) := by
  rcases processed_or_skipped r t with h | ⟨prev, curr, hprev, hcurr⟩
  · rw [records_skipped h]
    exact .nil _
  · rw [records_processed hprev hcurr]
    refine .append (.append (.append (.append ?_ ?_) ?_) ?_) ?_
    · exact (writesOnly_updateRates _).mono (by decide)
    · exact (writesOnly_updateBaseline _).mono (by decide)
    · exact (writesOnly_updateAnomaly _ _).mono (by decide)
    · exact (writesOnly_updateAlerts _ _).mono (by decide)
    · exact (writesOnly_alertEvents _).mono (by decide)

/-- An alert event counter is incremented once for each event of the slot. -/
theorem incremented_records (o : IterOrder AlertKey) (r : AnomalyRunner F) (t : RunnerTick)
    (key : AlertKey) (l : AlertLifecycle) :
    incremented (r.records o t) (.alertEvents key l) =
      (slotEvents (step r t) key).count l := by
  rcases processed_or_skipped r t with h | ⟨prev, curr, hprev, hcurr⟩
  · unfold slotEvents
    rw [records_skipped h, (step_skipped h).2.2]
    rfl
  · have hname : (Series.alertEvents key l).name = "xdp_alert_events_total" := rfl
    rw [records_processed hprev hcurr]
    simp only [incremented_append]
    rw [((writesOnly_updateRates _).untouched (by rw [hname]; decide)).2,
      ((writesOnly_updateBaseline _).untouched (by rw [hname]; decide)).2,
      ((writesOnly_updateAnomaly _ _).untouched (by rw [hname]; decide)).2,
      ((writesOnly_updateAlerts _ _).untouched (by rw [hname]; decide)).2]
    unfold incremented slotEvents
    rw [List.countP_map, List.count_eq_countP, List.countP_map, List.countP_filter]
    simp only [Nat.zero_add]
    apply List.countP_congr
    intro e _
    simp only [recordAlertEvent, Op.increments, Function.comp_apply, decide_eq_true_eq,
      Series.alertEvents_inj, Bool.and_eq_true, beq_iff_eq]
    exact and_comm

/-- A tick of the runner balances, whether it has two snapshots or not. -/
theorem balance_slot (r : AnomalyRunner F) (t : RunnerTick) (key : AlertKey) :
    (r.alertLifecycleManager.slotState key).isFiring.toNat + (slotEvents (step r t) key).count .fired =
      (slotEvents (step r t) key).count .resolved +
        ((step r t).1.alertLifecycleManager.slotState key).isFiring.toNat := by
  unfold slotEvents
  rcases processed_or_skipped r t with h | ⟨prev, curr, hprev, hcurr⟩
  · obtain ⟨-, hmanager, hout⟩ := step_skipped h
    rw [hmanager, hout]
    simp
  · obtain ⟨-, hmanager, hout⟩ := step_processed hprev hcurr
    rw [hmanager, hout]
    exact r.alertLifecycleManager.balance_slot (r.protoTick t) key

/-- A tick drops no slot. -/
theorem tracked_step {key : AlertKey}
    (h : (r.alertLifecycleManager.states.lookup key).isSome = true) :
    ((step r t).1.alertLifecycleManager.states.lookup key).isSome = true := by
  have hfold : ∀ (rules : List (AlertRule F)) (signal : Option (AlertSignal F)) (v : Slot F),
      v.tracked = true → (rules.foldl (Slot.advance key signal t.now) v).tracked = true := by
    intro rules signal
    induction rules with
    | nil => exact fun _ hv => hv
    | cons rule rules ih =>
      intro v hv
      apply ih
      show (v.tracked || signal.isSome) = true
      rw [hv]
      rfl
  rcases processed_or_skipped r t with hskip | ⟨prev, curr, hprev, hcurr⟩
  · rw [(step_skipped hskip).2.1]
    exact h
  · rw [(step_processed hprev hcurr).2.1]
    unfold AlertLifecycleManager.step
    rw [(AlertLifecycleManager.tick_slot ..).1]
    exact hfold _ _ _ h

section Processed

variable {prev curr : TrafficCountersSnapshot} (hprev : r.prevCounters = some prev)
  (hcurr : t.current = some curr)

include hprev hcurr

/-- The alert gauges are read off `update_alerts`. -/
theorem written_records_alerts {k : Series} (hk : k.name ∈ alertNames) :
    written (r.records o t) k =
      written (updateAlerts ((step r t).1.alertLifecycleManager.snapshot o)
        ((step r t).1.alertLifecycleManager.frozenProtos curr.timestamp)) k := by
  have hdisjoint : ∀ name ∈ alertNames,
      name ∉ rateNames ++ baselineNames ++ anomalyNames ++ ["xdp_alert_events_total"] := by decide
  have hother := hdisjoint _ hk
  simp only [List.mem_append, not_or] at hother
  obtain ⟨⟨⟨hrate, hbaseline⟩, hanomaly⟩, hevents⟩ := hother
  rw [records_processed hprev hcurr]
  simp only [written_append]
  rw [((writesOnly_updateRates _).untouched hrate).1,
    ((writesOnly_updateBaseline _).untouched hbaseline).1,
    ((writesOnly_updateAnomaly _ _).untouched hanomaly).1,
    ((writesOnly_alertEvents _).untouched hevents).1]
  simp

theorem written_records_slot (key : AlertKey) {name : String} (hname : name ∈ slotGauges) :
    written (r.records o t) (.slot name key) =
      ((step r t).1.alertLifecycleManager.states.lookup key).bind fun s =>
        written (slotWrites (F := F) key s) (.slot name key) := by
  have hslot : ∀ name ∈ slotGauges, name ∈ alertNames := by decide
  exact (written_records_alerts hprev hcurr (hslot _ hname)).trans (written_slot o _ _ key hname)

/-- The rate gauges are read off `update_rates`. -/
theorem written_records_rates {k : Series} (hk : k.name ∈ rateNames) :
    written (r.records o t) k = written (updateRates (r.rates t)) k := by
  have hdisjoint : ∀ name ∈ rateNames,
      name ∉ baselineNames ++ alertNames ++ anomalyNames ++ ["xdp_alert_events_total"] := by decide
  have hother := hdisjoint _ hk
  simp only [List.mem_append, not_or] at hother
  obtain ⟨⟨⟨hbaseline, halert⟩, hanomaly⟩, hevents⟩ := hother
  rw [records_processed hprev hcurr]
  simp only [written_append]
  rw [((writesOnly_updateBaseline _).untouched hbaseline).1,
    ((writesOnly_updateAlerts _ _).untouched halert).1,
    ((writesOnly_updateAnomaly _ _).untouched hanomaly).1,
    ((writesOnly_alertEvents _).untouched hevents).1]
  simp

/-- The baseline gauges are read off `update_baseline`. -/
theorem written_records_baseline {k : Series} (hk : k.name ∈ baselineNames) :
    written (r.records o t) k = written (updateBaseline (step r t).1.baseline) k := by
  have hdisjoint : ∀ name ∈ baselineNames,
      name ∉ rateNames ++ alertNames ++ anomalyNames ++ ["xdp_alert_events_total"] := by decide
  have hother := hdisjoint _ hk
  simp only [List.mem_append, not_or] at hother
  obtain ⟨⟨⟨hrate, halert⟩, hanomaly⟩, hevents⟩ := hother
  rw [records_processed hprev hcurr]
  simp only [written_append]
  rw [((writesOnly_updateRates _).untouched hrate).1,
    ((writesOnly_updateAlerts _ _).untouched halert).1,
    ((writesOnly_updateAnomaly _ _).untouched hanomaly).1,
    ((writesOnly_alertEvents _).untouched hevents).1]
  simp

end Processed

end AnomalyRunner

/-! ## The per-source runners -/

/-- What a per-source tick with `events` records: the two gauges, and each event. -/
theorem incremented_ipEvents {S : Type} (name : String) (l : AlertLifecycle)
    (events : List (IpAlertEvent S)) :
    incremented (events.map fun e => (.increment (.ipEvents name e.lifecycle) : MetricOp F))
      (.ipEvents name l) = (events.map (·.lifecycle)).count l := by
  unfold incremented
  rw [List.countP_map, List.count_eq_countP, List.countP_map]
  apply List.countP_congr
  intro e _
  simp [Op.increments]

namespace SynFloodRunner

variable [F64 F] {r : SynFloodRunner F} {t : SynTick}

omit [F64 F] in
theorem processed_or_skipped (r : SynFloodRunner F) (t : SynTick) :
    (r.prevSnapshot = none ∨ t.current = none) ∨
      ∃ prev curr, r.prevSnapshot = some prev ∧ t.current = some curr := by
  cases r.prevSnapshot with
  | none => exact .inl (.inl rfl)
  | some prev =>
    cases t.current with
    | none => exact .inl (.inr rfl)
    | some curr => exact .inr ⟨prev, curr, rfl, rfl⟩

/-- A tick without two snapshots leaves the manager and the top alone, and records nothing. -/
theorem skipped (h : r.prevSnapshot = none ∨ t.current = none) :
    (step r t).1.alertLifecycleManager = r.alertLifecycleManager ∧
      (step r t).1.lastTopN = r.lastTopN ∧ (step r t).2 = ⟨[], []⟩ ∧ r.records t = [] := by
  unfold records step primeOrDiff
  rcases hprev : r.prevSnapshot with _ | prev <;> rcases hcurr : t.current with _ | curr
  · exact ⟨rfl, rfl, rfl, rfl⟩
  · exact ⟨rfl, rfl, rfl, rfl⟩
  · exact ⟨rfl, rfl, rfl, rfl⟩
  · rw [hprev, hcurr] at h
    rcases h with h | h <;> exact absurd h (Option.some_ne_none _)

/-- A tick with two snapshots is a tick of the manager on the interval between them. -/
theorem processed {prev curr : SynCountersSnapshot} (hprev : r.prevSnapshot = some prev)
    (hcurr : t.current = some curr) :
    let m := r.alertLifecycleManager.step (r.detector.managerTick ⟨prev, curr, t⟩)
    (step r t).1.alertLifecycleManager = m.1 ∧
      (step r t).1.lastTopN = computeSynRatesTopN t.counterOrder prev curr r.detector.topN ∧
      (step r t).2 = ⟨m.2.1, m.2.2⟩ := by
  unfold step primeOrDiff
  rw [hcurr, hprev]
  exact ⟨rfl, rfl, rfl⟩

theorem balance (r : SynFloodRunner F) (t : SynTick) :
    r.alertLifecycleManager.firingSources.card +
        ((step r t).2.transitions.map (·.lifecycle)).count .fired =
      ((step r t).2.transitions.map (·.lifecycle)).count .resolved +
        (step r t).1.alertLifecycleManager.firingSources.card := by
  rcases processed_or_skipped r t with h | ⟨prev, curr, hprev, hcurr⟩
  · obtain ⟨hmanager, -, hout, -⟩ := skipped h
    rw [hmanager, hout]
    simp
  · obtain ⟨hmanager, -, hout⟩ := processed hprev hcurr
    rw [hmanager, hout]
    exact r.alertLifecycleManager.balance _

theorem records_processed {prev curr : SynCountersSnapshot} (hprev : r.prevSnapshot = some prev)
    (hcurr : t.current = some curr) :
    r.records t = updateSynflood (step r t).1.lastTopN (step r t).1.alertLifecycleManager.activeCount ++
      (step r t).2.transitions.map fun event => recordSynfloodEvent event.lifecycle := by
  unfold records
  rw [hprev, hcurr]

theorem writesOnly_records (r : SynFloodRunner F) (t : SynTick) :
    WritesOnly synfloodNames (r.records t) := by
  rcases processed_or_skipped r t with h | ⟨prev, curr, hprev, hcurr⟩
  · rw [(skipped h).2.2.2]
    exact .nil _
  · rw [records_processed hprev hcurr]
    exact .append (writesOnly_updateSynflood _ _) (.map fun _ _ => writesOnly_recordSynfloodEvent _)

/-- The event counter is incremented once an event. -/
theorem incremented_records (r : SynFloodRunner F) (t : SynTick) (l : AlertLifecycle) :
    incremented (r.records t) (.ipEvents "xdp_synflood_alert_events_total" l) =
      ((step r t).2.transitions.map (·.lifecycle)).count l := by
  rcases processed_or_skipped r t with h | ⟨prev, curr, hprev, hcurr⟩
  · obtain ⟨-, -, hout, hrecords⟩ := skipped h
    rw [hrecords, hout]
    rfl
  · rw [records_processed hprev hcurr, incremented_append]
    exact (Nat.zero_add _).trans (incremented_ipEvents ..)

end SynFloodRunner

namespace PortScanRunner

variable [F64 F] {r : PortScanRunner F} {t : PortScanTick}

theorem skipped (h : t.current = none) : step r t = (r, ⟨[], []⟩) ∧ r.records t = [] := by
  unfold records step
  rw [h]
  exact ⟨rfl, rfl⟩

/-- A tick with a snapshot is a tick of the manager on it. -/
theorem processed {curr : PortScanCountersSnapshot} (hcurr : t.current = some curr) :
    let m := r.alertLifecycleManager.step (r.detector.managerTick ⟨curr, t⟩)
    (step r t).1.alertLifecycleManager = m.1 ∧
      (step r t).1.lastTopN = r.detector.breadths ⟨curr, t⟩ ∧ (step r t).2 = ⟨m.2.1, m.2.2⟩ := by
  unfold step
  rw [hcurr]
  exact ⟨rfl, rfl, rfl⟩

theorem balance (r : PortScanRunner F) (t : PortScanTick) :
    r.alertLifecycleManager.firingSources.card +
        ((step r t).2.transitions.map (·.lifecycle)).count .fired =
      ((step r t).2.transitions.map (·.lifecycle)).count .resolved +
        (step r t).1.alertLifecycleManager.firingSources.card := by
  cases hcurr : t.current with
  | none =>
    rw [(skipped hcurr).1]
    simp
  | some curr =>
    obtain ⟨hmanager, -, hout⟩ := processed (r := r) hcurr
    rw [hmanager, hout]
    exact r.alertLifecycleManager.balance _

theorem records_processed {curr : PortScanCountersSnapshot} (hcurr : t.current = some curr) :
    r.records t = updatePortScan (step r t).1.lastTopN (step r t).1.alertLifecycleManager.activeCount ++
      (step r t).2.transitions.map fun event => recordPortScanEvent event.lifecycle := by
  unfold records
  rw [hcurr]

theorem writesOnly_records (r : PortScanRunner F) (t : PortScanTick) :
    WritesOnly portScanNames (r.records t) := by
  cases hcurr : t.current with
  | none =>
    rw [(skipped hcurr).2]
    exact .nil _
  | some curr =>
    rw [records_processed hcurr]
    exact .append (writesOnly_updatePortScan _ _) (.map fun _ _ => writesOnly_recordPortScanEvent _)

/-- The event counter is incremented once an event. -/
theorem incremented_records (r : PortScanRunner F) (t : PortScanTick) (l : AlertLifecycle) :
    incremented (r.records t) (.ipEvents "xdp_portscan_alert_events_total" l) =
      ((step r t).2.transitions.map (·.lifecycle)).count l := by
  cases hcurr : t.current with
  | none =>
    obtain ⟨hstep, hrecords⟩ := skipped (r := r) hcurr
    rw [hrecords, hstep]
    rfl
  | some curr =>
    rw [records_processed hcurr, incremented_append]
    exact (Nat.zero_add _).trans (incremented_ipEvents ..)

end PortScanRunner

end EbpfXdp
