import EbpfXdpProgram.MainLoop.Registry

/-!
# The gauges of the protocols

Each anomaly tick that processes data writes the gauges of the protocols anew, except that a
protocol without a rate keeps the rate, and one that is warming the statistics, that were written
for it last. What a gauge shows is therefore read off the processed ticks of the run
(`gauges_shown`).
-/

namespace EbpfXdp

open F64 Metric

variable {F : Type} [F64 F]

/-- The gauges of a rate, with what they show. -/
def rateGauges : List (String × (ProtoRate F → F)) :=
  [("xdp_traffic_pps", fun r => r.pps), ("xdp_traffic_bps", fun r => r.bps)]

omit [F64 F] in
theorem name_mem_rateNames {g : String × (ProtoRate F → F)} (hg : g ∈ rateGauges) :
    g.1 ∈ rateNames := by
  have hnames : rateNames = (rateGauges (F := F)).map Prod.fst := rfl
  rw [hnames]
  exact List.mem_map_of_mem hg

omit [F64 F] in
theorem name_mem_baselineNames {g : String × (ProtoBaseline F → F)} (hg : g ∈ baselineGauges) :
    g.1 ∈ baselineNames := by
  have hnames : ∀ name ∈ (baselineGauges (F := F)).map Prod.fst, name ∈ baselineNames := by
    simp [baselineGauges, baselineNames]
  exact hnames _ (List.mem_map_of_mem hg)

omit [F64 F] in
theorem written_rates (rates : List (ProtoRate F)) (p : ProtoIndex) {g : String × (ProtoRate F → F)}
    (hg : g ∈ rateGauges) :
    written (updateRates rates) (.proto g.1 p) = (rates.filter (·.proto = p)).getLast?.map g.2 := by
  unfold updateRates
  induction rates with
  | nil => rfl
  | cons rate rates ih =>
    rw [List.flatMap_cons, written_append, ih]
    by_cases hp : rate.proto = p
    · have hself : written [(.set (.proto "xdp_traffic_pps" rate.proto) rate.pps : MetricOp F),
          .set (.proto "xdp_traffic_bps" rate.proto) rate.bps] (.proto g.1 p) = some (g.2 rate) := by
        unfold rateGauges at hg
        simp only [List.mem_cons, List.not_mem_nil, or_false] at hg
        rcases hg with rfl | rfl <;> simp [Op.valueOf, hp]
      rw [hself, List.filter_cons_of_pos (by simpa using hp), List.getLast?_cons]
      cases (rates.filter (·.proto = p)).getLast? <;> rfl
    · have hother : written [(.set (.proto "xdp_traffic_pps" rate.proto) rate.pps : MetricOp F),
          .set (.proto "xdp_traffic_bps" rate.proto) rate.bps] (.proto g.1 p) = none := by
        simp [Op.valueOf, hp]
      rw [hother, List.filter_cons_of_neg (by simpa using hp), Option.or_none]

/-- A tick of the anomaly runner that processes `curr`. -/
structure ProcessedTick (F : Type) where
  runner : AnomalyRunner F
  tick : RunnerTick
  curr : TrafficCountersSnapshot

namespace ProcessedTick

def next (t : ProcessedTick F) : AnomalyRunner F := (t.runner.step t.tick).1

def frozen (t : ProcessedTick F) : Finset ProtoIndex :=
  t.next.alertLifecycleManager.frozenProtos t.curr.timestamp

end ProcessedTick

namespace MainLoop

section Gauges

variable {fmt : WireFormat F} {amSink : Bool} {amGeneratorUrl : Option String}

def processedTick (l : MainLoop F) (e : LoopEvent) : Option (ProcessedTick F) :=
  if l.status = .running then
    match e with
    | .anomalyEval eval =>
      match l.anomalyRunner.prevCounters, l.currentCounters with
      | some _, some curr => some ⟨l.anomalyRunner, l.runnerTick eval, curr⟩
      | _, _ => none
    | _ => none
  else none

variable (fmt amSink amGeneratorUrl) in
/-- The ticks that the anomaly runner has processed. -/
def processedTicks (l : MainLoop F) (events : List LoopEvent) : List (ProcessedTick F) :=
  Run.passedOn (recordStep fmt amSink amGeneratorUrl) processedTick l events

/-- The value is what a processed tick writes to the gauge. -/
def Reads (k : Series) (w : ProcessedTick F → Option F) : Prop :=
  ∀ (o : IterOrder AlertKey) (r : AnomalyRunner F) (t : RunnerTick) (prev curr),
    r.prevCounters = some prev → t.current = some curr → written (r.records o t) k = w ⟨r, t, curr⟩

theorem written_step {k : Series} (hk : k.name ∈ runnerNames) {w : ProcessedTick F → Option F}
    (hw : Reads k w) (l : MainLoop F) (e : LoopEvent) :
    written (l.recordStep fmt amSink amGeneratorUrl e).2 k = (l.processedTick e).bind w := by
  have hdisjoint : ∀ name ∈ runnerNames,
      name ∉ ["xdp_traffic_mix_pct"] ∧ name ∉ synfloodNames ∧ name ∉ portScanNames := by decide
  obtain ⟨hmix, hsynflood, hportScan⟩ := hdisjoint _ hk
  unfold recordStep step processedTick
  split_ifs
  · unfold turn
    cases e with
    | statsPoll read now => cases read <;> rfl
    | mixAggregation => exact (l.writesOnly_mixAggregation.untouched hmix).1
    | anomalyEval eval =>
      dsimp only
      cases hprev : l.anomalyRunner.prevCounters with
      | none => exact congrArg (written · k) (AnomalyRunner.records_skipped (.inl hprev))
      | some prev =>
        cases hcurr : l.currentCounters with
        | none =>
          have hskipped : (l.runnerTick eval).current = none := hcurr
          exact congrArg (written · k) (AnomalyRunner.records_skipped (.inr hskipped))
        | some curr => exact hw eval.slots _ (l.runnerTick eval) prev curr hprev hcurr
    | synfloodEval eval => exact ((l.writesOnly_synfloodEval eval).untouched hsynflood).1
    | portScanEval eval => exact ((l.writesOnly_portScanEval eval).untouched hportScan).1
    | apiExit => rfl
    | sigint => rfl
    | sigterm => rfl
  · rfl

theorem gauge_of_processed {k : Series} (hk : k.name ∈ runnerNames) {w : ProcessedTick F → Option F}
    (hw : Reads k w) (l : MainLoop F) (events : List LoopEvent) :
    (l.registry fmt amSink amGeneratorUrl events).gauges.lookup k =
      ((l.processedTicks fmt amSink amGeneratorUrl events).filterMap w).getLast? :=
  gauge_of_passed (written_step hk hw) events

theorem reads_rate (p : ProtoIndex) {g : String × (ProtoRate F → F)} (hg : g ∈ rateGauges) :
    Reads (.proto g.1 p) fun t => (t.runner.ratesOf p t.tick).getLast?.map g.2 := by
  intro o r t prev curr hprev hcurr
  rw [AnomalyRunner.written_records_rates hprev hcurr (name_mem_rateNames hg)]
  exact written_rates _ p hg

theorem reads_ready (p : ProtoIndex) :
    Reads (F := F) (.proto "xdp_baseline_ready" p) fun t =>
      some (if (t.next.baseline.snapshot p).isReady = true then 1.0 else 0.0) := by
  intro o r t prev curr hprev hcurr
  rw [AnomalyRunner.written_records_baseline hprev hcurr (by simp [baselineNames])]
  exact written_ready _ p

theorem reads_baseline (p : ProtoIndex) {g : String × (ProtoBaseline F → F)}
    (hg : g ∈ baselineGauges) :
    Reads (.proto g.1 p) fun t => (t.next.baseline.snapshot p).baseline?.map g.2 := by
  intro o r t prev curr hprev hcurr
  rw [AnomalyRunner.written_records_baseline hprev hcurr (name_mem_baselineNames hg)]
  exact written_baseline _ p hg

theorem reads_frozen (p : ProtoIndex) :
    Reads (F := F) (.proto "xdp_alert_baseline_frozen" p) fun t =>
      some (if p ∈ t.frozen then 1.0 else 0.0) := by
  intro o r t prev curr hprev hcurr
  rw [AnomalyRunner.written_records_alerts hprev hcurr (by simp [alertNames])]
  exact written_frozen o _ _ p

/-- **What the gauges of a protocol show**, after every run: its last rate; whether its baseline was
ready and whether it was frozen at the last processed tick; and the statistics of its baseline at
the last processed tick at which it was ready. -/
theorem gauges_shown (l : MainLoop F) (events : List LoopEvent) (p : ProtoIndex) :
    let gauge name := (l.registry fmt amSink amGeneratorUrl events).gauges.lookup (.proto name p)
    let ticks := l.processedTicks fmt amSink amGeneratorUrl events
    (∀ g ∈ rateGauges,
      gauge g.1 = (ticks.flatMap fun t => t.runner.ratesOf p t.tick).getLast?.map g.2) ∧
    gauge "xdp_baseline_ready" = ticks.getLast?.map (fun t =>
      if (t.next.baseline.snapshot p).isReady = true then 1.0 else 0.0) ∧
    (∀ g ∈ baselineGauges, gauge g.1 =
      (ticks.filterMap fun t => (t.next.baseline.snapshot p).baseline?).getLast?.map g.2) ∧
    gauge "xdp_alert_baseline_frozen" =
      ticks.getLast?.map (fun t => if p ∈ t.frozen then 1.0 else 0.0) := by
  intro gauge ticks
  refine ⟨fun g hg => ?_, ?_, fun g hg => ?_, ?_⟩
  · have hname : g.1 ∈ runnerNames := by simp [runnerNames, name_mem_rateNames hg]
    refine (gauge_of_processed hname (reads_rate p hg) l events).trans ?_
    rw [← List.map_filterMap, List.getLast?_map, List.getLast?_filterMap, List.getLast?_flatMap]
  · have hname : "xdp_baseline_ready" ∈ runnerNames := by decide
    refine (gauge_of_processed hname (reads_ready p) l events).trans ?_
    rw [List.filterMap_eq_map', List.getLast?_map]
  · have hname : g.1 ∈ runnerNames := by simp [runnerNames, name_mem_baselineNames hg]
    refine (gauge_of_processed hname (reads_baseline p hg) l events).trans ?_
    rw [← List.map_filterMap, List.getLast?_map]
  · have hname : "xdp_alert_baseline_frozen" ∈ runnerNames := by decide
    refine (gauge_of_processed hname (reads_frozen p) l events).trans ?_
    rw [List.filterMap_eq_map', List.getLast?_map]

end Gauges

end MainLoop

end EbpfXdp
