import EbpfXdpProgram.MainLoop.Start
import EbpfXdpProgram.Pipeline.Recorded

/-!
# The registry of the process

What the turns of the main loop have recorded. Each metric is written by one arm, so that its series
follow one runner: the event counters balance with the alerts that are firing, and the gauges show
the FSMs and the sources at the top (`alerts_shown`, `sources_shown`).
-/

namespace EbpfXdp

open F64 Metric

variable {F : Type} [F64 F]

namespace MainLoop

section Registry

variable (fmt : WireFormat F) (amSink : Bool) (amGeneratorUrl : Option String)

/-- A turn, with what it records. -/
def recordStep (l : MainLoop F) (e : LoopEvent) : MainLoop F × List (MetricOp F) :=
  ((l.step fmt amSink amGeneratorUrl e).1, (l.step fmt amSink amGeneratorUrl e).2.metrics)

def registry (l : MainLoop F) (events : List LoopEvent) : MetricRegistry F :=
  recorded (recordStep fmt amSink amGeneratorUrl) l events

theorem registry_eq (l : MainLoop F) (events : List LoopEvent) :
    l.registry fmt amSink amGeneratorUrl events =
      .record .empty ((l.turns fmt amSink amGeneratorUrl events).flatMap (·.metrics)) := by
  unfold registry recorded turns
  rw [List.flatMap_def, ← Run.outs_map]
  rfl

variable {fmt amSink amGeneratorUrl}

/-- What every turn keeps of the loop and the registry holds after every run. -/
theorem registry_invariant {R : MainLoop F → MetricRegistry F → Prop} {l : MainLoop F}
    (h0 : R l .empty)
    (hstep : ∀ l e reg, R l reg → R (l.step fmt amSink amGeneratorUrl e).1
      (reg.record (l.step fmt amSink amGeneratorUrl e).2.metrics)) (events : List LoopEvent) :
    R (l.after fmt amSink amGeneratorUrl events) (l.registry fmt amSink amGeneratorUrl events) := by
  show R (Run.exec (recordStep fmt amSink amGeneratorUrl) l events) _
  exact recorded_invariant h0 hstep events

/-! ## Which arm writes a metric -/

theorem writesOnly_mixAggregation (l : MainLoop F) :
    WritesOnly ["xdp_traffic_mix_pct"] l.mixAggregation.2.metrics := by
  unfold mixAggregation primeOrDiff
  rcases l.currentCounters with _ | curr
  · exact .nil _
  · rcases l.prevMixCounters with _ | prev
    · exact .nil _
    · dsimp only
      split_ifs
      · exact .nil _
      · exact writesOnly_updateMix _

theorem writesOnly_synfloodEval (l : MainLoop F) (eval : SynFloodEval) :
    WritesOnly synfloodNames (l.synfloodEval fmt amSink amGeneratorUrl eval).2.metrics := by
  unfold synfloodEval
  cases eval.tick.current with
  | none => exact .nil _
  | some curr => exact SynFloodRunner.writesOnly_records _ _

theorem writesOnly_portScanEval (l : MainLoop F) (eval : PortScanEval) :
    WritesOnly portScanNames (l.portScanEval fmt amSink amGeneratorUrl eval).2.metrics := by
  unfold portScanEval
  cases eval.tick.current with
  | none => exact .nil _
  | some curr => exact PortScanRunner.writesOnly_records _ _

def loopNames : List String :=
  ["xdp_traffic_mix_pct"] ++ runnerNames ++ synfloodNames ++ portScanNames

theorem writesOnly_step (l : MainLoop F) (e : LoopEvent) :
    WritesOnly loopNames (l.step fmt amSink amGeneratorUrl e).2.metrics := by
  have hcase := l.step_cases fmt amSink amGeneratorUrl e
  generalize l.step fmt amSink amGeneratorUrl e = s at hcase ⊢
  cases hcase with
  | silent _ => exact .nil _
  | mix => exact l.writesOnly_mixAggregation.mono fun _ h => by simp_all [loopNames]
  | anomaly eval =>
    exact (AnomalyRunner.writesOnly_records eval.slots _ _).mono fun _ h => by simp [loopNames, h]
  | synflood eval _ => exact (l.writesOnly_synfloodEval eval).mono fun _ h => by simp [loopNames, h]
  | portScan eval _ => exact (l.writesOnly_portScanEval eval).mono fun _ h => by simp [loopNames, h]

/-- What a turn does to the anomaly runner, and to its metrics. -/
theorem anomaly_step (l : MainLoop F) (e : LoopEvent) :
    let s := l.step fmt amSink amGeneratorUrl e
    (∃ eval, e = .anomalyEval eval ∧
      s.1.anomalyRunner = (l.anomalyRunner.step (l.runnerTick eval)).1 ∧
      s.2.metrics = l.anomalyRunner.records eval.slots (l.runnerTick eval)) ∨
    s.1.anomalyRunner = l.anomalyRunner ∧
      ∀ k : Series, k.name ∈ runnerNames →
        written s.2.metrics k = none ∧ incremented s.2.metrics k = 0 := by
  have hdisjoint : ∀ name ∈ runnerNames,
      name ∉ ["xdp_traffic_mix_pct"] ∧ name ∉ synfloodNames ∧ name ∉ portScanNames := by decide
  intro s
  have hcase : StepCase fmt amSink amGeneratorUrl l e s := l.step_cases fmt amSink amGeneratorUrl e
  clear_value s
  cases hcase with
  | silent h => exact .inr ⟨h.anomaly, fun _ _ => ⟨rfl, rfl⟩⟩
  | mix =>
    exact .inr ⟨l.sameRunners_mixAggregation.anomaly, fun k hk =>
      l.writesOnly_mixAggregation.untouched (hdisjoint _ hk).1⟩
  | anomaly eval => exact .inl ⟨eval, rfl, rfl, rfl⟩
  | synflood eval hcurr =>
    refine .inr ⟨?_, fun k hk => (l.writesOnly_synfloodEval eval).untouched (hdisjoint _ hk).2.1⟩
    unfold synfloodEval
    rw [hcurr]
  | portScan eval hcurr =>
    refine .inr ⟨?_, fun k hk => (l.writesOnly_portScanEval eval).untouched (hdisjoint _ hk).2.2⟩
    unfold portScanEval
    rw [hcurr]

theorem synflood_step (l : MainLoop F) (e : LoopEvent) :
    let s := l.step fmt amSink amGeneratorUrl e
    (∃ t : SynTick, s.1.synfloodRunner = (l.synfloodRunner.step t).1 ∧
      s.2.metrics = l.synfloodRunner.records t) ∨
    s.1.synfloodRunner = l.synfloodRunner ∧
      ∀ k : Series, k.name ∈ synfloodNames →
        written s.2.metrics k = none ∧ incremented s.2.metrics k = 0 := by
  have hdisjoint : ∀ name ∈ synfloodNames,
      name ∉ ["xdp_traffic_mix_pct"] ∧ name ∉ runnerNames ∧ name ∉ portScanNames := by decide
  intro s
  have hcase : StepCase fmt amSink amGeneratorUrl l e s := l.step_cases fmt amSink amGeneratorUrl e
  clear_value s
  cases hcase with
  | silent h => exact .inr ⟨h.synflood, fun _ _ => ⟨rfl, rfl⟩⟩
  | mix =>
    exact .inr ⟨l.sameRunners_mixAggregation.synflood, fun k hk =>
      l.writesOnly_mixAggregation.untouched (hdisjoint _ hk).1⟩
  | anomaly eval =>
    exact .inr ⟨rfl, fun k hk =>
      (AnomalyRunner.writesOnly_records eval.slots _ _).untouched (hdisjoint _ hk).2.1⟩
  | synflood eval hcurr =>
    unfold synfloodEval
    rw [hcurr]
    exact .inl ⟨eval.tick, rfl, rfl⟩
  | portScan eval hcurr =>
    refine .inr ⟨?_, fun k hk => (l.writesOnly_portScanEval eval).untouched (hdisjoint _ hk).2.2⟩
    unfold portScanEval
    rw [hcurr]

theorem portScan_step (l : MainLoop F) (e : LoopEvent) :
    let s := l.step fmt amSink amGeneratorUrl e
    (∃ t : PortScanTick, s.1.portScanRunner = (l.portScanRunner.step t).1 ∧
      s.2.metrics = l.portScanRunner.records t) ∨
    s.1.portScanRunner = l.portScanRunner ∧
      ∀ k : Series, k.name ∈ portScanNames →
        written s.2.metrics k = none ∧ incremented s.2.metrics k = 0 := by
  have hdisjoint : ∀ name ∈ portScanNames,
      name ∉ ["xdp_traffic_mix_pct"] ∧ name ∉ runnerNames ∧ name ∉ synfloodNames := by decide
  intro s
  have hcase : StepCase fmt amSink amGeneratorUrl l e s := l.step_cases fmt amSink amGeneratorUrl e
  clear_value s
  cases hcase with
  | silent h => exact .inr ⟨h.portScan, fun _ _ => ⟨rfl, rfl⟩⟩
  | mix =>
    exact .inr ⟨l.sameRunners_mixAggregation.portScan, fun k hk =>
      l.writesOnly_mixAggregation.untouched (hdisjoint _ hk).1⟩
  | anomaly eval =>
    exact .inr ⟨rfl, fun k hk =>
      (AnomalyRunner.writesOnly_records eval.slots _ _).untouched (hdisjoint _ hk).2.1⟩
  | synflood eval hcurr =>
    refine .inr ⟨?_, fun k hk => (l.writesOnly_synfloodEval eval).untouched (hdisjoint _ hk).2.2⟩
    unfold synfloodEval
    rw [hcurr]
  | portScan eval hcurr =>
    unfold portScanEval
    rw [hcurr]
    exact .inl ⟨eval.tick, rfl, rfl⟩

/-! ## The alert metrics -/

/-- The alert metrics are those of the manager: each slot that fired and is not firing has been
resolved, and the gauges show the FSMs of the tracked slots. -/
structure AlertsShown (m : AlertLifecycleManager F) (reg : MetricRegistry F) : Prop where
  events : ∀ key, reg.count (.alertEvents key .fired) =
    reg.count (.alertEvents key .resolved) + (m.slotState key).isFiring.toNat
  phase : ∀ key, reg.gauges.lookup (.slot "xdp_alert_phase" key) =
    (m.states.lookup key).map fun s => ofNat s.phaseValue
  count : ∀ key, reg.gauges.lookup (.slot "xdp_alert_consecutive_count" key) =
    (m.states.lookup key).map fun s => ofNat s.consecutiveCount.toNat

theorem alertsShown_new (rules : List (AlertRule F)) : AlertsShown (.new rules) .empty where
  events _ := rfl
  phase _ := rfl
  count _ := rfl

theorem gauge_tick {r : AnomalyRunner F} {reg : MetricRegistry F} {name : String}
    (hname : name ∈ slotGauges) {value : AlertState → F}
    (hvalue : ∀ key s, written (slotWrites (F := F) key s) (.slot name key) = some (value s))
    (h : ∀ key, reg.gauges.lookup (.slot name key) =
      (r.alertLifecycleManager.states.lookup key).map value) (o : IterOrder AlertKey)
    (t : RunnerTick) (key : AlertKey) :
    (reg.record (r.records o t)).gauges.lookup (.slot name key) =
      ((r.step t).1.alertLifecycleManager.states.lookup key).map value := by
  rw [Registry.gauge_record]
  rcases r.processed_or_skipped t with hskip | ⟨prev, curr, hprev, hcurr⟩
  · rw [AnomalyRunner.records_skipped hskip, (AnomalyRunner.step_skipped hskip).2.1]
    exact h key
  · rw [AnomalyRunner.written_records_slot hprev hcurr key hname]
    cases hl : (r.step t).1.alertLifecycleManager.states.lookup key with
    | some s => simp [hvalue]
    | none =>
      -- a slot that is not tracked after the tick never was
      have hnone : r.alertLifecycleManager.states.lookup key = none := by
        by_contra hsome
        have htracked := AnomalyRunner.tracked_step (t := t) (Option.isSome_iff_ne_none.mpr hsome)
        rw [hl] at htracked
        exact absurd htracked (by decide)
      rw [Option.bind_none, Option.none_or, h key, hnone]

theorem AlertsShown.tick {r : AnomalyRunner F} {reg : MetricRegistry F}
    (h : AlertsShown r.alertLifecycleManager reg) (o : IterOrder AlertKey) (t : RunnerTick) :
    AlertsShown (r.step t).1.alertLifecycleManager (reg.record (r.records o t)) where
  events key := by
    have hbalance := r.balance_slot t key
    have hevents := h.events key
    rw [Registry.count_record, Registry.count_record, AnomalyRunner.incremented_records,
      AnomalyRunner.incremented_records]
    omega
  phase := gauge_tick (by decide) (fun _ _ => by simp [slotWrites, Op.valueOf]) h.phase o t
  count := gauge_tick (by decide) (fun _ _ => by simp [slotWrites, Op.valueOf]) h.count o t

theorem AlertsShown.other {m : AlertLifecycleManager F} {reg : MetricRegistry F}
    (h : AlertsShown m reg) {ops : List (MetricOp F)}
    (hops : ∀ k : Series, k.name ∈ runnerNames → written ops k = none ∧ incremented ops k = 0) :
    AlertsShown m (reg.record ops) where
  events key := by
    have hname : ∀ l, (Series.alertEvents key l).name ∈ runnerNames := fun _ =>
      List.mem_append_right _ (List.mem_singleton_self _)
    rw [Registry.count_record, Registry.count_record, (hops _ (hname .fired)).2,
      (hops _ (hname .resolved)).2]
    exact h.events key
  phase key := by
    rw [Registry.gauge_record, (hops _ (by simp [runnerNames, alertNames])).1]
    exact h.phase key
  count key := by
    rw [Registry.gauge_record, (hops _ (by simp [runnerNames, alertNames])).1]
    exact h.count key

/-- **The alert metrics are true**: after every run of the loop, each alert that has fired more
often than it has been resolved is firing, and no other, and the gauges show the FSMs as they
are. -/
theorem alerts_shown (detectors : ResolvedDetectors F) (now : Instant) (events : List LoopEvent) :
    AlertsShown
      ((new detectors now).after fmt amSink amGeneratorUrl events).anomalyRunner.alertLifecycleManager
      ((new detectors now).registry fmt amSink amGeneratorUrl events) := by
  refine registry_invariant
    (R := fun l reg => AlertsShown l.anomalyRunner.alertLifecycleManager reg)
    (alertsShown_new detectors.alertRules) (fun l e reg h => ?_) events
  rcases l.anomaly_step e with ⟨eval, -, hrunner, hmetrics⟩ | ⟨hrunner, hmetrics⟩
  · rw [hrunner, hmetrics]
    exact h.tick eval.slots (l.runnerTick eval)
  · rw [hrunner]
    exact h.other hmetrics

/-! ## The per-source metrics -/

/-- The per-source metrics are those of the manager and of the source at the top: each source that
fired and is not firing has been resolved, and the gauges show the tracked sources and the value at
the top, zero if they are not set yet. -/
structure SourcesShown {S A : Type} (topName activeName eventsName : String)
    (m : IpAlertLifecycleManager S A) (top : Option F) (reg : MetricRegistry F) : Prop where
  events : reg.count (.ipEvents eventsName .fired) =
    reg.count (.ipEvents eventsName .resolved) + m.firingSources.card
  active : (reg.gauges.lookup (.bare activeName)).getD (ofNat 0) = ofNat m.activeCount
  top : (reg.gauges.lookup (.bare topName)).getD 0.0 = top.getD 0.0

section Sources

variable {S A : Type} {topName activeName eventsName : String} {m m' : IpAlertLifecycleManager S A}
  {top top' : Option F} {reg : MetricRegistry F}

theorem sourcesShown_new (C : Duration) (K R : UInt32) :
    SourcesShown topName activeName eventsName (.new C K R : IpAlertLifecycleManager S A)
      (none : Option F) .empty where
  events := rfl
  active := rfl
  top := rfl

/-- A tick that balances and shows its manager and its top keeps the metrics true. -/
theorem SourcesShown.tick (h : SourcesShown topName activeName eventsName m top reg)
    (hne : topName ≠ activeName) {events : List (IpAlertEvent A)}
    (hbalance : m.firingSources.card + (events.map (·.lifecycle)).count .fired =
      (events.map (·.lifecycle)).count .resolved + m'.firingSources.card) :
    SourcesShown topName activeName eventsName m' top'
      (reg.record (updateTop topName activeName top' m'.activeCount ++
        events.map fun e => .increment (.ipEvents eventsName e.lifecycle))) := by
  have hincrements : ∀ k, written (events.map fun e =>
      (.increment (.ipEvents eventsName e.lifecycle) : MetricOp F)) k = none := fun k =>
    written_eq_none fun op hop => by
      obtain ⟨e, -, rfl⟩ := List.mem_map.mp hop
      rfl
  refine ⟨?_, ?_, ?_⟩
  · have hsets : ∀ k, incremented (updateTop topName activeName top' m'.activeCount) k = 0 :=
      fun k => rfl
    have hevents := h.events
    simp only [Registry.count_record, incremented_append, hsets, incremented_ipEvents]
    omega
  · have hwritten : written (updateTop topName activeName top' m'.activeCount) (.bare activeName) =
        some (ofNat m'.activeCount) := by simp [updateTop, Op.valueOf]
    rw [Registry.gauge_record, written_append, hincrements, hwritten]
    rfl
  · have hactive : Series.bare activeName ≠ .bare topName := fun h => hne (congrArg Series.name h).symm
    have hwritten : written (updateTop topName activeName top' m'.activeCount) (.bare topName) =
        some (top'.getD 0.0) := by simp [updateTop, Op.valueOf, hactive]
    rw [Registry.gauge_record, written_append, hincrements, hwritten]
    rfl

theorem SourcesShown.other (h : SourcesShown topName activeName eventsName m top reg)
    {ops : List (MetricOp F)} (hops : ∀ k : Series, k.name ∈ [topName, activeName, eventsName] →
      written ops k = none ∧ incremented ops k = 0) :
    SourcesShown topName activeName eventsName m top (reg.record ops) where
  events := by
    have hname : ∀ l, (Series.ipEvents eventsName l).name ∈ [topName, activeName, eventsName] :=
      fun _ => List.mem_of_mem_drop (i := 2) (List.mem_singleton_self _)
    rw [Registry.count_record, Registry.count_record, (hops _ (hname .fired)).2,
      (hops _ (hname .resolved)).2]
    exact h.events
  active := by
    rw [Registry.gauge_record, (hops _ (by simp)).1]
    exact h.active
  top := by
    rw [Registry.gauge_record, (hops _ (by simp)).1]
    exact h.top

end Sources

def SynfloodShown (r : SynFloodRunner F) (reg : MetricRegistry F) : Prop :=
  SourcesShown "xdp_synflood_top_offender_pps" "xdp_synflood_active_alerts"
    "xdp_synflood_alert_events_total" r.alertLifecycleManager (r.lastTopN.head?.map (·.pps)) reg

def PortScanShown (r : PortScanRunner F) (reg : MetricRegistry F) : Prop :=
  SourcesShown "xdp_portscan_top_breadth" "xdp_portscan_active_alerts"
    "xdp_portscan_alert_events_total" r.alertLifecycleManager
    (r.lastTopN.head?.map fun b => ofNat b.distinctPorts.toNat) reg

theorem SynfloodShown.tick {r : SynFloodRunner F} {reg : MetricRegistry F} (h : SynfloodShown r reg)
    (t : SynTick) : SynfloodShown (r.step t).1 (reg.record (r.records t)) := by
  rcases r.processed_or_skipped t with hskip | ⟨prev, curr, hprev, hcurr⟩
  · obtain ⟨hmanager, htop, -, hrecords⟩ := SynFloodRunner.skipped hskip
    unfold SynfloodShown
    rw [hmanager, htop, hrecords]
    exact h
  · rw [SynFloodRunner.records_processed hprev hcurr]
    exact SourcesShown.tick h (by decide) (r.balance t)

theorem PortScanShown.tick {r : PortScanRunner F} {reg : MetricRegistry F} (h : PortScanShown r reg)
    (t : PortScanTick) : PortScanShown (r.step t).1 (reg.record (r.records t)) := by
  cases hcurr : t.current with
  | none =>
    obtain ⟨hstep, hrecords⟩ := PortScanRunner.skipped (r := r) hcurr
    rw [hstep, hrecords]
    exact h
  | some curr =>
    rw [PortScanRunner.records_processed hcurr]
    exact SourcesShown.tick h (by decide) (r.balance t)

/-- **The per-source metrics are true**: after every run of the loop from an accepted configuration,
the sources that fired and were not resolved since are as many as are firing, and the gauges show
the tracked sources and the top. -/
theorem sources_shown (debug : String → String) (config : Option (Config F))
    (detectors : ResolvedDetectors F) (resolved : ResolvedConfig F)
    (h : resolveAll debug config = .ok (detectors, resolved)) (now : Instant)
    (events : List LoopEvent) :
    let l := (new detectors now).after fmt amSink amGeneratorUrl events
    let reg := (new detectors now).registry fmt amSink amGeneratorUrl events
    SynfloodShown l.synfloodRunner reg ∧ PortScanShown l.portScanRunner reg := by
  obtain ⟨⟨P, hsyn⟩, ⟨Q, hport⟩, -⟩ := started_of_ok h
  refine registry_invariant
    (R := fun l reg => SynfloodShown l.synfloodRunner reg ∧ PortScanShown l.portScanRunner reg)
    ⟨?_, ?_⟩ (fun l e reg h => ⟨?_, ?_⟩) events
  · unfold SynfloodShown
    show SourcesShown _ _ _ detectors.synfloodAlertLifecycleManager none _
    rw [hsyn]
    exact sourcesShown_new ..
  · unfold PortScanShown
    show SourcesShown _ _ _ detectors.portScanAlertLifecycleManager none _
    rw [hport]
    exact sourcesShown_new ..
  · rcases l.synflood_step e with ⟨t, hrunner, hmetrics⟩ | ⟨hrunner, hmetrics⟩
    · rw [hrunner, hmetrics]
      exact h.1.tick t
    · rw [hrunner]
      exact SourcesShown.other h.1 hmetrics
  · rcases l.portScan_step e with ⟨t, hrunner, hmetrics⟩ | ⟨hrunner, hmetrics⟩
    · rw [hrunner, hmetrics]
      exact h.2.tick t
    · rw [hrunner]
      exact SourcesShown.other h.2 hmetrics

end Registry

/-- One source at 200 SYNs a second, with the built-in configuration. -/
theorem sources_shown_flood :
    let fmt : WireFormat ℚ := ⟨Nat.repr, fun _ _ => ""⟩
    let events := [floodEval 0 0, floodEval 5 1000, floodEval 10 2000, floodEval 15 3000]
    ∃ detectors resolved, resolveAll String.quote none = .ok (detectors, resolved) ∧
      ((new detectors 0).registry fmt false none events).count
          (.ipEvents "xdp_synflood_alert_events_total" .fired) =
        ((new detectors 0).registry fmt false none events).count
            (.ipEvents "xdp_synflood_alert_events_total" .resolved) +
          ((new detectors 0).after fmt false none
            events).synfloodRunner.alertLifecycleManager.firingSources.card := by
  intro fmt events
  exact ⟨_, _, rfl,
    (@sources_shown ℚ _ fmt false none String.quote none _ _ rfl 0 events).1.events⟩

end MainLoop

end EbpfXdp
