import EbpfXdpProgram.Anomaly.View
import EbpfXdpProgram.Baseline.Bounds
import EbpfXdpProgram.Pipeline.Freeze
import EbpfXdpProgram.Pipeline.WarmUp

/-!
# Published anomaly state

`MetricsHandle::update_anomaly` and `AnomalyRunner::snapshot` classify the rates of a tick anew, and
both run after the tick has updated the baseline. What they publish is therefore the detector's
verdict against the new baseline (`published_agrees`); it is the verdict that the alerts of the tick
rest on where the baseline was frozen.
-/

namespace EbpfXdp

variable {F : Type} [F64 F]

/-! ## Metrics -/

/-- One `metrics::gauge!(name, "proto" => proto).set(value)`. -/
structure Gauge (F : Type) where
  name : String
  proto : String
  value : F

def AnomalyLevel.value : AnomalyLevel → F
  | .normal => 0.0
  | .suspicious => 1.0
  | .severe => 2.0

/-- The gauges that `update_anomaly` sets, in order. -/
def updateAnomaly (rates : List (ProtoRate F)) (estimator : EwmaEstimator F) : List (Gauge F) :=
  rates.flatMap fun r =>
    let label := r.proto.label
    let view := computeAnomalyView (estimator.snapshot r.proto) r.pps r.bps
    [⟨"xdp_anomaly_z_score_pps", label, view.zPps⟩,
      ⟨"xdp_anomaly_z_score_bps", label, view.zBps⟩,
      ⟨"xdp_anomaly_level", label, view.level.value⟩,
      ⟨"xdp_anomaly_confidence", label, view.confidence⟩]

/-- The value that a gauge has been set to last. -/
def exported (gauges : List (Gauge F)) (name proto : String) : Option F :=
  ((gauges.filter (·.proto = proto)).filter (·.name = name)).getLast?.map (·.value)

theorem filter_updateAnomaly (rates : List (ProtoRate F)) (e : EwmaEstimator F) (p : ProtoIndex) :
    (updateAnomaly rates e).filter (·.proto = p.label) =
      updateAnomaly (rates.filter (·.proto = p)) e := by
  unfold updateAnomaly
  induction rates with
  | nil => rfl
  | cons rate rates ih =>
    rw [List.flatMap_cons, List.filter_append, ih]
    by_cases hp : rate.proto = p
    · have hcons : (rate :: rates).filter (·.proto = p) = rate :: rates.filter (·.proto = p) :=
        List.filter_cons_of_pos (by simpa using hp)
      rw [hcons, List.flatMap_cons]
      congr 1
      simp [hp]
    · have hlabel : rate.proto.label ≠ p.label := fun h => hp (ProtoIndex.label_injective h)
      have hcons : (rate :: rates).filter (·.proto = p) = rates.filter (·.proto = p) :=
        List.filter_cons_of_neg (by simpa using hp)
      rw [hcons]
      simp [hlabel]

/-! ## The snapshot of the runner -/

structure AlertSlotSnapshot where
  kind : AlertKind
  phaseLabel : String
  consecutiveCount : UInt32
deriving DecidableEq

structure ProtoSnapshot (F : Type) where
  proto : ProtoIndex
  rate : Option (ProtoRate F)
  baseline : BaselineState F
  anomaly : Option (AnomalyView F)
  alerts : List AlertSlotSnapshot
  frozen : Bool

structure RunnerSnapshot (F : Type) where
  protos : List (ProtoSnapshot F)

namespace AnomalyRunner

/-- `snapshot`; `o` is the iteration order of the slots. -/
def snapshot (o : IterOrder AlertKey) (r : AnomalyRunner F) (now : Instant) : RunnerSnapshot F :=
  let frozen := r.alertLifecycleManager.frozenProtos now
  let alertSnapshots := r.alertLifecycleManager.snapshot o
  let protos := ((List.range ProtoIndex.count).filterMap ProtoIndex.fromIndex).map fun proto =>
    let rate := r.lastRates.find? fun r => r.proto = proto
    let baseline := r.baseline.snapshot proto
    { proto := proto
      rate := rate
      baseline := baseline
      anomaly := rate.map fun r => computeAnomalyView baseline r.pps r.bps
      alerts := (alertSnapshots.filter fun s => s.proto = proto).map fun s =>
        { kind := s.kind, phaseLabel := s.phaseLabel, consecutiveCount := s.consecutiveCount }
      frozen := decide (proto ∈ frozen) }
  ⟨protos⟩

/-- What metrics export in the tick and the snapshot shows right after it for the protocol: one
view. -/
structure Publishes (r : AnomalyRunner F) (t : RunnerTick) (p : ProtoIndex) (v : AnomalyView F) :
    Prop where
  level : exported (updateAnomaly (r.rates t) (step r t).1.baseline) "xdp_anomaly_level" p.label =
    some v.level.value
  confidence : exported (updateAnomaly (r.rates t) (step r t).1.baseline) "xdp_anomaly_confidence"
    p.label = some v.confidence
  snapshot : ∀ o now, ∃ s ∈ ((step r t).1.snapshot o now).protos, s.proto = p ∧ s.anomaly = some v

theorem lastRates_step {r : AnomalyRunner F} {t : RunnerTick} {prev curr : TrafficCountersSnapshot}
    (hprev : r.prevCounters = some prev) (hcurr : t.current = some curr) :
    (step r t).1.lastRates = r.rates t := by
  unfold step primeOrDiff rates
  rw [hprev, hcurr]

/-- What is published of a rate is its view against the baseline after the tick. -/
theorem publishes_view {r : AnomalyRunner F} {t : RunnerTick} {rate : ProtoRate F}
    (h : rate ∈ r.rates t) :
    Publishes r t rate.proto
      (computeAnomalyView ((step r t).1.baseline.snapshot rate.proto) rate.pps rate.bps) := by
  have hone := filter_key_of_nodup (nodup_rates r t) h
  have hgauges := filter_updateAnomaly (r.rates t) (step r t).1.baseline rate.proto
  rw [hone] at hgauges
  refine ⟨?_, ?_, fun o now => ?_⟩
  · unfold exported
    rw [hgauges]
    rfl
  · unfold exported
    rw [hgauges]
    rfl
  · obtain ⟨prev, curr, hprev, hcurr⟩ := processed_of_rate h
    have hfind : (step r t).1.lastRates.find? (fun r => r.proto = rate.proto) = some rate := by
      rw [lastRates_step hprev hcurr, ← List.head?_filter, hone]
      rfl
    have hmem : rate.proto ∈ (List.range ProtoIndex.count).filterMap ProtoIndex.fromIndex := by
      rw [List.mem_filterMap]
      exact ⟨rate.proto.toUsize, List.mem_range.mpr rate.proto.toUsize_lt,
        ProtoIndex.fromIndex_eq_some.mpr rfl⟩
    refine ⟨_, List.mem_map.mpr ⟨rate.proto, hmem, rfl⟩, rfl, ?_⟩
    show Option.map _ ((step r t).1.lastRates.find? fun r => r.proto = rate.proto) = _
    rw [hfind]
    rfl

/-- A tick that leaves the protocol frozen judges it against the baseline it leaves. -/
theorem snapshot_step_of_frozen {r : AnomalyRunner F} {t : RunnerTick} {p : ProtoIndex}
    (h : ∀ curr, t.current = some curr →
      p ∈ (step r t).1.alertLifecycleManager.frozenProtos curr.timestamp) :
    (step r t).1.baseline.snapshot p = r.baseline.advance.snapshot p := by
  apply EwmaEstimator.snapshot_congr
  · exact ewmas_step_of_frozen fun curr hcurr _ => h curr hcurr
  · exact gates_step r t
  · exact elapsedTicks_step r t

/-- **Published anomaly state**: for each rate of a tick, metrics and snapshot publish one view,
which agrees with the detector's verdict on the rate against the baseline after the tick; where the
tick leaves the protocol frozen, that is the verdict of the tick itself. -/
theorem published_agrees (r : AnomalyRunner ℝ) (t : RunnerTick) :
    ∀ rate ∈ r.rates t, ∃ v, Publishes r t rate.proto v ∧
      v.Agrees (EwmaDetector.examine ((step r t).1.baseline.snapshot rate.proto) rate) ∧
      ((∀ curr, t.current = some curr →
          rate.proto ∈ (step r t).1.alertLifecycleManager.frozenProtos curr.timestamp) →
        v.Agrees (EwmaDetector.examine (r.baseline.advance.snapshot rate.proto) rate)) := by
  intro rate hrate
  refine ⟨_, publishes_view hrate, agrees_examine _ rate, fun hfrozen => ?_⟩
  rw [← snapshot_step_of_frozen hfrozen]
  exact agrees_examine _ rate

end AnomalyRunner

/-! ## A verdict that is not published -/

theorem AnomalyLevel.value_injective : Function.Injective (AnomalyLevel.value (F := ℝ)) := by
  intro a b h
  cases a <;> cases b <;> first | rfl | (simp only [AnomalyLevel.value] at h; norm_num at h)

theorem stddev_not_lt_zero (e : Ewma ℝ) : F64.lt e.stddev (0 : ℝ) = false := by
  have hpos : (1e-9 : ℝ) ≤ e.stddev := le_max_right _ _
  rw [← Bool.not_eq_true, F64.real_lt]
  linarith

theorem zScore_mean (mean stddev : ℝ) : (zScore mean mean stddev).getD 0.0 = 0 := by
  unfold zScore
  split_ifs
  · norm_num
  · rw [Option.getD_some, sub_self, zero_div]

theorem level_of_mean {e : EwmaEstimator ℝ} {p : ProtoIndex} {pps bps : ℝ}
    (hpps : (e.ppsEwma p).mean = pps) (hbps : (e.bpsEwma p).mean = bps) :
    (computeAnomalyView (e.snapshot p) pps bps).level = .normal := by
  unfold EwmaEstimator.snapshot
  dsimp only
  split_ifs
  · rfl
  · have hz : computeProtoZScores (e.stats p) pps bps = (0, 0) := by
      unfold computeProtoZScores EwmaEstimator.stats
      rw [hpps, hbps, zScore_mean, zScore_mean]
    unfold computeAnomalyView
    dsimp only
    rw [hz]
    simp only [F64.real_le, F64.real_abs, abs_zero, max_self]
    norm_num

/-- With weight one, an EWMA whose limit allows it takes over the sample. -/
theorem mean_update {e : Ewma ℝ} {sample : ℝ} (halpha : e.alpha = 1)
    (hlimit : |sample - e.mean| ≤ 3 * e.robustStddev) : (e.update sample).mean = sample := by
  have hbounded : huber (sample - e.mean) e.robustStddev 3.0 = sample - e.mean := by
    unfold huber
    rw [F64.real_three]
    exact F64.real_clamp (abs_le.mp hlimit).1 (abs_le.mp hlimit).2
  unfold Ewma.update
  dsimp only
  rw [hbounded, halpha]
  ring

namespace AnomalyRunner

/-- The counters after so many seconds with nothing but ICMP packets. -/
def icmpSnapshot (secs packets : ℕ) : TrafficCountersSnapshot :=
  ⟨secs * 1000000000, [⟨packets, 0⟩, ⟨0, 0⟩, ⟨0, 0⟩, ⟨0, 0⟩, ⟨0, 0⟩]⟩

def icmpTick (secs packets : ℕ) : RunnerTick :=
  ⟨some (icmpSnapshot secs packets), secs * 1000000000, fun _ => AlertKey.order⟩

/-- A runner without rules that learns at once, after a second with 100 packets. -/
noncomputable def eager : AnomalyRunner ℝ :=
  after (new (.new 1 1 0 0) ⟨[]⟩ (.new [])) [icmpTick 0 0, icmpTick 1 100]

def surge : RunnerTick := icmpTick 2 300

section Tick

variable {r : AnomalyRunner ℝ} {secs a b : ℕ}
  (hprev : r.prevCounters = some (icmpSnapshot secs a))

include hprev

theorem mem_rates_icmpTick :
    (⟨.icmp, (b - a : ℕ), 0⟩ : ProtoRate ℝ) ∈ r.rates (icmpTick (secs + 1) b) := by
  have hdt : (dtSecs (secs * 1000000000) ((secs + 1) * 1000000000) : Option ℝ) = some 1 := by
    have hlt : (secs * 1000000000 : ℕ) < (secs + 1) * 1000000000 := by omega
    have hsecs : ((secs + 1) * 1000000000 - secs * 1000000000 : ℕ) = 1000000000 := by omega
    rw [dtSecs_eq_some hlt, F64.asSecs_real]
    unfold durationSince
    rw [hsecs]
    norm_num
  have hrates : ratesOf .icmp r (icmpTick (secs + 1) b) = [⟨.icmp, (b - a : ℕ), 0⟩] := by
    rw [ratesOf_eq, hprev]
    show (protoRate .icmp (secs * 1000000000, some ⟨a, 0⟩)
      ((secs + 1) * 1000000000, some ⟨b, 0⟩)).toList = _
    unfold protoRate
    rw [hdt]
    simp [rate, F64.real_ofNat]
  exact (List.mem_filter.mp (hrates ▸ List.mem_singleton_self _)).1

theorem ewmas_icmpTick (hrules : r.alertLifecycleManager.rules = []) :
    (step r (icmpTick (secs + 1) b)).1.baseline.ewmas .icmp =
      EwmaEstimator.observe (r.baseline.ewmas .icmp) ⟨.icmp, (b - a : ℕ), 0⟩ := by
  refine ewmas_step_of_unfrozen (by rw [hrules]; exact List.nodup_nil) rfl
    (mem_rates_icmpTick hprev) fun rule hr => ?_
  rw [hrules] at hr
  exact absurd hr List.not_mem_nil

end Tick

theorem prevCounters_eager : eager.prevCounters = some (icmpSnapshot 1 100) := rfl

theorem mem_rates_surge : (⟨.icmp, 200, 0⟩ : ProtoRate ℝ) ∈ eager.rates surge := by
  have hmem := mem_rates_icmpTick (b := 300) prevCounters_eager
  norm_num at hmem
  exact hmem

/-- The surge is published as the detector would judge it after the tick. -/
theorem published_agrees_surge :
    ∃ v, Publishes eager surge .icmp v ∧ v.Agrees (EwmaDetector.examine
      ((step eager surge).1.baseline.snapshot .icmp) ⟨.icmp, 200, 0⟩) := by
  obtain ⟨v, hv, hagrees, -⟩ := published_agrees eager surge _ mem_rates_surge
  exact ⟨v, hv, hagrees⟩

theorem ewmas_eager :
    eager.baseline.ewmas .icmp = ((Ewma.new 1).update 100, (Ewma.new 1).update 0) := by
  have hewmas := ewmas_icmpTick (b := 100)
    (show (after (new (.new (1 : ℝ) 1 0 0) ⟨[]⟩ (.new [])) [icmpTick 0 0]).prevCounters =
      some (icmpSnapshot 0 0) from rfl) rfl
  norm_num at hewmas
  exact hewmas

/-- The first sample is clipped to almost nothing, except in the MAD. -/
theorem update_new : ((Ewma.new (1 : ℝ)).update 100).mean = 3e-9 ∧
    ((Ewma.new (1 : ℝ)).update 100).stddev = 3e-9 ∧ ((Ewma.new (1 : ℝ)).update 100).mad = 100 := by
  have hclip : Smoothing.clip (Ewma.new (1 : ℝ)).window (100 - (Ewma.new (1 : ℝ)).mean) = 3e-9 := by
    unfold Ewma.window
    rw [Ewma.robustStddev_new]
    norm_num [Smoothing.clip, Ewma.new]
  have hmean : ((Ewma.new (1 : ℝ)).update 100).mean = 3e-9 := by
    rw [Ewma.mean_update]
    unfold Smoothing.approach
    rw [hclip]
    norm_num [Ewma.new]
  have hvariance : ((Ewma.new (1 : ℝ)).update 100).variance = 3e-9 ^ 2 := by
    rw [Ewma.variance_update, hclip]
    norm_num [Smoothing.mix, Ewma.new]
  refine ⟨hmean, ?_, ?_⟩
  · unfold Ewma.stddev Ewma.epsilon
    rw [hvariance]
    show max (Real.sqrt (3e-9 ^ 2)) 1e-9 = 3e-9
    rw [Real.sqrt_sq (by norm_num)]
    norm_num
  · rw [Ewma.mad_update]
    norm_num [Smoothing.mix, Ewma.new]

/-- The surge is severe against the baseline before the tick. -/
theorem severe_before_surge :
    (computeAnomalyView (eager.baseline.advance.snapshot .icmp) 200 0).level = .severe := by
  obtain ⟨hpps, hbps⟩ := Prod.mk.inj ewmas_eager
  obtain ⟨hmean, hstddev, -⟩ := update_new
  have hready : (eager.baseline.advance.snapshot .icmp).isReady = true := by
    have hgates : eager.baseline.advance.gates = (1, 0, 0) := gates_after _ _
    obtain ⟨hsamples, hgates⟩ := Prod.mk.inj hgates
    obtain ⟨hmin, helapsed⟩ := Prod.mk.inj hgates
    rw [EwmaEstimator.isReady_snapshot_iff, hsamples, hmin, helapsed]
    refine ⟨?_, stddev_not_lt_zero _, stddev_not_lt_zero _, Nat.zero_le _⟩
    show 1 ≤ min (eager.baseline.ppsEwma .icmp).samples (eager.baseline.bpsEwma .icmp).samples
    rw [hpps, hbps]
    exact le_refl _
  have hsnapshot : eager.baseline.advance.snapshot .icmp = .ready (eager.baseline.stats .icmp) :=
    EwmaEstimator.snapshot_of_isReady hready
  have hz : (computeProtoZScores (eager.baseline.stats .icmp) 200 0).1 = (200 - 3e-9) / 3e-9 := by
    unfold computeProtoZScores zScore EwmaEstimator.stats
    rw [hpps, hmean, hstddev, if_neg]
    · rfl
    · rw [F64.real_le]
      norm_num [Ewma.epsilon]
  rw [hsnapshot]
  unfold computeAnomalyView
  dsimp only
  rw [hz, if_pos]
  rw [F64.real_le, F64.real_abs]
  apply le_max_of_le_left
  rw [abs_of_nonneg (by norm_num)]
  norm_num

/-- The baseline after the tick has the surge as its mean. -/
theorem normal_after_surge :
    (computeAnomalyView ((step eager surge).1.baseline.snapshot .icmp) 200 0).level = .normal := by
  have hewmas := ewmas_icmpTick (b := 300) prevCounters_eager rfl
  rw [ewmas_eager] at hewmas
  norm_num at hewmas
  obtain ⟨hpps, hbps⟩ := Prod.mk.inj hewmas
  apply level_of_mean
  · refine (congrArg Ewma.mean hpps).trans (mean_update rfl ?_)
    obtain ⟨hmean, -, hmad⟩ := update_new
    have hlimit : 1.4826 * ((Ewma.new (1 : ℝ)).update 100).mad ≤
        ((Ewma.new (1 : ℝ)).update 100).robustStddev := (le_max_left _ _).trans (le_max_left _ _)
    rw [hmad] at hlimit
    show |200 - ((Ewma.new (1 : ℝ)).update 100).mean| ≤ _
    rw [hmean, abs_of_nonneg (by norm_num)]
    linarith
  · have hzero : ((Ewma.new (1 : ℝ)).update 0).mean = 0 := by
      rw [Ewma.mean_update, show (Ewma.new (1 : ℝ)).mean = 0 from F64.real_zero]
      exact Smoothing.approach_self (Ewma.window_pos _).le
    refine (congrArg Ewma.mean hbps).trans ?_
    show (((Ewma.new (1 : ℝ)).update 0).update 0).mean = 0
    rw [Ewma.mean_update, hzero]
    exact Smoothing.approach_self (Ewma.window_pos _).le

/-- The verdict on the surge is not what is published of it. -/
theorem surge_unpublished :
    ¬∀ (r : AnomalyRunner ℝ) (t : RunnerTick), ∀ rate ∈ r.rates t,
      ∃ v, Publishes r t rate.proto v ∧
        v.Agrees (EwmaDetector.examine (r.baseline.advance.snapshot rate.proto) rate) := by
  intro h
  obtain ⟨v, hv, hagrees⟩ := h eager surge _ mem_rates_surge
  have hlevel : v.level = .normal := by
    have hvalue := Option.some.inj (hv.level.symm.trans (publishes_view mem_rates_surge).level)
    rw [AnomalyLevel.value_injective hvalue]
    exact normal_after_surge
  have hverdict := agrees_examine (eager.baseline.advance.snapshot .icmp) ⟨.icmp, 200, 0⟩
  dsimp only at hagrees
  cases hs : EwmaDetector.examine (eager.baseline.advance.snapshot .icmp)
      (⟨.icmp, 200, 0⟩ : ProtoRate ℝ) with
  | none =>
    rw [hs] at hverdict
    exact absurd (severe_before_surge.symm.trans hverdict) (by decide)
  | some s =>
    rw [hs] at hverdict hagrees
    have hnormal := hlevel.symm.trans (hagrees.1.trans hverdict.1.symm)
    exact absurd (hnormal.trans severe_before_surge) (by decide)

end AnomalyRunner

end EbpfXdp
