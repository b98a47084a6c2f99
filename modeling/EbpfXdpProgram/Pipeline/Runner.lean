import EbpfXdpProgram.Alert.ProtoRuns
import EbpfXdpProgram.Anomaly.Detectors
import EbpfXdpProgram.Rate.Compute

/-!
# The anomaly runner

`AnomalyRunner` of `pipeline/runner.rs`: a tick diffs the snapshot with the one before it, runs the
detectors against the baseline as it is, advances the alert FSMs, and then updates the baseline of
the protocols that no hot alert freezes. `step_processed` and `step_skipped` say what a tick does
with two snapshots and without; `step_rule` and `ewmas_step` say it of one slot and of one protocol.
-/

namespace EbpfXdp

variable {F : Type} [F64 F]

structure AnomalyRunner (F : Type) where
  prevCounters : Option TrafficCountersSnapshot
  baseline : EwmaEstimator F
  emergencyDetector : EmergencyDetector F
  alertLifecycleManager : AlertLifecycleManager F
  warmedUp : Bool
  lastRates : List (ProtoRate F)

/-- `run_anomaly_pipeline`; `now` is the time it reads. -/
def runAnomalyPipeline (o : ℕ → IterOrder AlertKey) (rates : List (ProtoRate F))
    (ewma emergency : List (ProtoRate F) → List (AlertSignal F))
    (manager : AlertLifecycleManager F) (now : Instant) :
    AlertLifecycleManager F × TickAlerts (AlertEvent F) (Alert F) :=
  let allSignals := ewma rates ++ emergency rates
  let (manager, transitions, heartbeats) := manager.tick o allSignals now
  (manager, ⟨transitions, heartbeats⟩)

/-- One call of `AnomalyRunner::tick`: the snapshot, the time the pipeline reads, and the iteration
orders of the manager's loops. -/
structure RunnerTick where
  current : Option TrafficCountersSnapshot
  now : Instant
  order : ℕ → IterOrder AlertKey

namespace AnomalyRunner

def new (baseline : EwmaEstimator F) (emergencyDetector : EmergencyDetector F)
    (alertLifecycleManager : AlertLifecycleManager F) : AnomalyRunner F where
  prevCounters := none
  baseline := baseline
  emergencyDetector := emergencyDetector
  alertLifecycleManager := alertLifecycleManager
  warmedUp := false
  lastRates := []

/-- `tick`. -/
def step (r : AnomalyRunner F) (t : RunnerTick) :
    AnomalyRunner F × TickAlerts (AlertEvent F) (Alert F) :=
  let r := { r with baseline := r.baseline.advance }
  match t.current with
  | none => (r, ⟨[], []⟩)
  | some curr =>
    match primeOrDiff r.prevCounters t.current with
    | (prevCounters, none) => ({ r with prevCounters := prevCounters }, ⟨[], []⟩)
    | (prevCounters, some prev) =>
      let rates := computeRates prev curr
      let anyReady := rates.any fun rate => (r.baseline.snapshot rate.proto).isReady
      let (manager, alerts) := runAnomalyPipeline t.order rates
        (EwmaDetector.detect r.baseline.snapshot) r.emergencyDetector.detect
        r.alertLifecycleManager t.now
      let frozen := manager.frozenProtos curr.timestamp
      let unfrozen := rates.filter fun rate => rate.proto ∉ frozen
      let baseline := if unfrozen.isEmpty then r.baseline else r.baseline.update unfrozen
      ({ prevCounters := prevCounters
         baseline := baseline
         emergencyDetector := r.emergencyDetector
         alertLifecycleManager := manager
         warmedUp := r.warmedUp || anyReady
         lastRates := rates }, alerts)

def after (r : AnomalyRunner F) (ticks : List RunnerTick) : AnomalyRunner F := Run.exec step r ticks

theorem after_concat (r : AnomalyRunner F) (past : List RunnerTick) (t : RunnerTick) :
    after r (past ++ [t]) = (step (after r past) t).1 := Run.exec_concat ..

/-- The rates of the tick, none if it has nothing to diff. -/
def rates (r : AnomalyRunner F) (t : RunnerTick) : List (ProtoRate F) :=
  match r.prevCounters, t.current with
  | some prev, some curr => computeRates prev curr
  | _, _ => []

/-- The signals that the detectors give in the tick. -/
def signals (r : AnomalyRunner F) (t : RunnerTick) : List (AlertSignal F) :=
  EwmaDetector.detect r.baseline.advance.snapshot (r.rates t) ++
    r.emergencyDetector.detect (r.rates t)

/-- The tick as the alert manager sees it. -/
def protoTick (r : AnomalyRunner F) (t : RunnerTick) : ProtoTick F where
  signals := r.signals t
  now := t.now
  order := t.order

def slotEvents (out : AnomalyRunner F × TickAlerts (AlertEvent F) (Alert F)) (key : AlertKey) :
    List AlertLifecycle :=
  (out.2.transitions.filter (·.alert.key = key)).map (·.lifecycle)

variable {r : AnomalyRunner F} {t : RunnerTick}

/-- A tick without two snapshots only advances the elapsed-tick gate. -/
theorem step_skipped (h : r.prevCounters = none ∨ t.current = none) :
    (step r t).1.baseline = r.baseline.advance ∧
      (step r t).1.alertLifecycleManager = r.alertLifecycleManager ∧
      (step r t).2 = ⟨[], []⟩ := by
  unfold step primeOrDiff
  cases hcurr : t.current with
  | none => exact ⟨rfl, rfl, rfl⟩
  | some curr =>
    rcases h with h | h
    · rw [h]
      exact ⟨rfl, rfl, rfl⟩
    · rw [hcurr] at h
      exact absurd h (Option.some_ne_none curr)

theorem rates_of_processed {prev curr : TrafficCountersSnapshot}
    (hprev : r.prevCounters = some prev) (hcurr : t.current = some curr) :
    r.rates t = computeRates prev curr := by
  unfold rates
  rw [hprev, hcurr]

/-- A tick with two snapshots: the manager ticks on the signals, and what it does not freeze is
updated. -/
theorem step_processed {prev curr : TrafficCountersSnapshot} (hprev : r.prevCounters = some prev)
    (hcurr : t.current = some curr) :
    let m := r.alertLifecycleManager.step (r.protoTick t)
    (step r t).1.baseline = r.baseline.advance.update
      ((r.rates t).filter fun rate => rate.proto ∉ m.1.frozenProtos curr.timestamp) ∧
    (step r t).1.alertLifecycleManager = m.1 ∧ (step r t).2 = ⟨m.2.1, m.2.2⟩ := by
  intro m
  have hrates := rates_of_processed hprev hcurr
  have hm : m = r.alertLifecycleManager.tick t.order
      (EwmaDetector.detect r.baseline.advance.snapshot (computeRates prev curr) ++
        r.emergencyDetector.detect (computeRates prev curr)) t.now := by
    show r.alertLifecycleManager.tick t.order (r.signals t) t.now = _
    unfold signals
    rw [hrates]
  unfold step primeOrDiff runAnomalyPipeline
  rw [hcurr, hprev, hrates]
  dsimp only
  rw [← hm]
  refine ⟨?_, rfl, rfl⟩
  split_ifs with hempty
  · rw [List.isEmpty_iff.mp hempty]
    rfl
  · rfl

omit [F64 F] in
theorem processed_or_skipped (r : AnomalyRunner F) (t : RunnerTick) :
    (r.prevCounters = none ∨ t.current = none) ∨
      ∃ prev curr, r.prevCounters = some prev ∧ t.current = some curr := by
  cases r.prevCounters with
  | none => exact .inl (.inl rfl)
  | some prev =>
    cases t.current with
    | none => exact .inl (.inr rfl)
    | some curr => exact .inr ⟨prev, curr, rfl, rfl⟩

theorem rates_skipped (h : r.prevCounters = none ∨ t.current = none) : r.rates t = [] := by
  unfold rates
  rcases h with h | h
  · rw [h]
  · rw [h]
    cases r.prevCounters <;> rfl

theorem processed_of_rate {rate : ProtoRate F} (h : rate ∈ r.rates t) :
    ∃ prev curr, r.prevCounters = some prev ∧ t.current = some curr := by
  rcases processed_or_skipped r t with hskip | hprocessed
  · rw [rates_skipped hskip] at h
    exact absurd h List.not_mem_nil
  · exact hprocessed

theorem nodup_rates (r : AnomalyRunner F) (t : RunnerTick) : ((r.rates t).map (·.proto)).Nodup := by
  unfold rates
  rcases r.prevCounters with _ | prev <;> rcases t.current with _ | curr
  · exact List.nodup_nil
  · exact List.nodup_nil
  · exact List.nodup_nil
  · exact nodup_computeRates prev curr

theorem prevCounters_step (r : AnomalyRunner F) (t : RunnerTick) :
    (step r t).1.prevCounters = t.current.or r.prevCounters := by
  unfold step primeOrDiff
  rcases t.current with _ | curr
  · rfl
  · rcases r.prevCounters with _ | prev
    · rfl
    · rfl

@[simp] theorem emergencyDetector_step (r : AnomalyRunner F) (t : RunnerTick) :
    (step r t).1.emergencyDetector = r.emergencyDetector := by
  unfold step primeOrDiff
  rcases t.current with _ | curr
  · rfl
  · rcases r.prevCounters with _ | prev
    · rfl
    · rfl

@[simp] theorem rules_step (r : AnomalyRunner F) (t : RunnerTick) :
    (step r t).1.alertLifecycleManager.rules = r.alertLifecycleManager.rules := by
  rcases processed_or_skipped r t with h | ⟨prev, curr, hprev, hcurr⟩
  · rw [(step_skipped h).2.1]
  · rw [(step_processed hprev hcurr).2.1]
    exact AlertLifecycleManager.rules_step ..

@[simp] theorem rules_after (r : AnomalyRunner F) (ticks : List RunnerTick) :
    (after r ticks).alertLifecycleManager.rules = r.alertLifecycleManager.rules :=
  Run.exec_frame (fun r : AnomalyRunner F => r.alertLifecycleManager.rules) rules_step r ticks

@[simp] theorem gates_step (r : AnomalyRunner F) (t : RunnerTick) :
    (step r t).1.baseline.gates = r.baseline.gates := by
  rcases processed_or_skipped r t with h | ⟨prev, curr, hprev, hcurr⟩
  · rw [(step_skipped h).1, EwmaEstimator.gates_advance]
  · rw [(step_processed hprev hcurr).1, EwmaEstimator.gates_update, EwmaEstimator.gates_advance]

@[simp] theorem elapsedTicks_step (r : AnomalyRunner F) (t : RunnerTick) :
    (step r t).1.baseline.elapsedTicks = r.baseline.elapsedTicks + 1 := by
  rcases processed_or_skipped r t with h | ⟨prev, curr, hprev, hcurr⟩
  · rw [(step_skipped h).1, EwmaEstimator.elapsedTicks_advance]
  · rw [(step_processed hprev hcurr).1, EwmaEstimator.elapsedTicks_update,
      EwmaEstimator.elapsedTicks_advance]

/-! ## One slot -/

/-- What the slot of a rule is and emits after a tick, with two snapshots or without. -/
theorem step_rule {r : AnomalyRunner F} (hd : (r.alertLifecycleManager.rules.map (·.kind)).Nodup)
    {rule : AlertRule F} (hr : rule ∈ r.alertLifecycleManager.rules) (p : ProtoIndex)
    (t : RunnerTick) :
    let s := r.alertLifecycleManager.slotState ⟨p, rule.kind⟩
    let u := AlertState.feed rule.config s (rule.sees p (r.protoTick t))
    let s' := (step r t).1.alertLifecycleManager.slotState ⟨p, rule.kind⟩
    (r.prevCounters = none ∨ t.current = none) ∧ s' = s ∧ slotEvents (step r t) ⟨p, rule.kind⟩ = [] ∨
      s' = u.1 ∧ slotEvents (step r t) ⟨p, rule.kind⟩ = u.2.toList := by
  intro s u s'
  rcases processed_or_skipped r t with hskip | ⟨prev, curr, hprev, hcurr⟩
  · left
    obtain ⟨-, hmanager, hout⟩ := step_skipped hskip
    refine ⟨hskip, by simp only [s', s, hmanager], ?_⟩
    unfold slotEvents
    rw [hout]
    rfl
  · right
    obtain ⟨-, hmanager, hout⟩ := step_processed hprev hcurr
    obtain ⟨hstate, hevents, -⟩ :=
      AlertLifecycleManager.step_distinct hd rfl hr p (r.protoTick t)
    refine ⟨by simp only [s', hmanager]; exact hstate, ?_⟩
    unfold slotEvents
    rw [hout]
    exact hevents

/-! ## One protocol -/

def ratesOf (p : ProtoIndex) (r : AnomalyRunner F) (t : RunnerTick) : List (ProtoRate F) :=
  (r.rates t).filter (·.proto = p)

theorem ratesOf_eq (p : ProtoIndex) (r : AnomalyRunner F) (t : RunnerTick) :
    ratesOf p r t = ((r.prevCounters.map (·.about p)).bind fun prev =>
      (t.current.map (·.about p)).bind fun curr => protoRate p prev curr).toList := by
  unfold ratesOf rates
  rcases r.prevCounters with _ | prev <;> rcases t.current with _ | curr
  · rfl
  · rfl
  · rfl
  · exact filter_computeRates prev curr p

omit [F64 F] in
/-- A frozen protocol has nothing to update, and the others do not matter to one that is not. -/
theorem filter_unfrozen (rates : List (ProtoRate F)) (frozen : Finset ProtoIndex) (p : ProtoIndex) :
    (rates.filter fun rate => rate.proto ∉ frozen).filter (·.proto = p) =
      if p ∈ frozen then [] else rates.filter (·.proto = p) := by
  rw [List.filter_filter]
  split_ifs with hp
  · rw [List.filter_eq_nil_iff]
    intro rate _ hrate
    simp only [Bool.and_eq_true, decide_eq_true_eq] at hrate
    exact hrate.2 (hrate.1 ▸ hp)
  · apply List.filter_congr
    intro rate _
    by_cases hrate : rate.proto = p
    · simp [hrate, hp]
    · simp [hrate]

/-- The rates of the protocol that the tick feeds into the baseline. -/
def fed (p : ProtoIndex) (r : AnomalyRunner F) (t : RunnerTick) : List (ProtoRate F) :=
  match t.current with
  | none => []
  | some curr =>
    if p ∈ (step r t).1.alertLifecycleManager.frozenProtos curr.timestamp then []
    else ratesOf p r t

theorem fed_skipped {p : ProtoIndex} {r : AnomalyRunner F} {t : RunnerTick}
    (h : r.prevCounters = none ∨ t.current = none) : fed p r t = [] := by
  unfold fed ratesOf
  cases t.current with
  | none => rfl
  | some curr =>
    rw [rates_skipped h]
    exact ite_self _

theorem ewmas_step (p : ProtoIndex) (r : AnomalyRunner F) (t : RunnerTick) :
    (step r t).1.baseline.ewmas p =
      (fed p r t).foldl EwmaEstimator.observe (r.baseline.ewmas p) := by
  rcases processed_or_skipped r t with hskip | ⟨prev, curr, hprev, hcurr⟩
  · rw [(step_skipped hskip).1, fed_skipped hskip, EwmaEstimator.ewmas_advance]
    rfl
  · obtain ⟨hbase, hmanager, -⟩ := step_processed hprev hcurr
    rw [hbase, EwmaEstimator.ewmas_update_filter, EwmaEstimator.ewmas_advance, filter_unfrozen]
    unfold fed
    rw [hcurr, hmanager]
    rfl

end AnomalyRunner

end EbpfXdp
