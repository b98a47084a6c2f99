import EbpfXdpProgram.Api
import EbpfXdpProgram.Config
import EbpfXdpProgram.Metrics

/-!
# The main loop

The `select!` loop of `main.rs`: an event is the arm that is taken, with what it reads. An arm reads
its data, ticks its runner, records metrics, pushes alerts and writes the API state; `turn` does all
of it at once. Each runner sees only the events of its own arm (`step_cases`).
-/

namespace EbpfXdp

open F64

variable {F : Type} [F64 F]

inductive LoopStatus
  | running
  /-- A signal has ended the loop. -/
  | stopped
  | panicked
deriving DecidableEq

structure MainLoop (F : Type) where
  currentCounters : Option TrafficCountersSnapshot
  prevMixCounters : Option TrafficCountersSnapshot
  anomalyRunner : AnomalyRunner F
  synfloodRunner : SynFloodRunner F
  portScanRunner : PortScanRunner F
  /-- What `api_ctx.dynamic` holds. -/
  api : ApiState F
  apiTaskDone : Bool
  status : LoopStatus

/-- What the arm of `anomaly_eval_tick` reads: the times of the pipeline, of the dispatch and of the
snapshot, and the iteration orders of the manager's loops, of the metrics and of the snapshot. -/
structure AnomalyEval where
  now : Instant
  order : ℕ → IterOrder AlertKey
  slots : IterOrder AlertKey
  wall : SystemTime
  shownAt : Instant
  shown : IterOrder AlertKey

/-- What the arm of `synflood_eval_tick` reads. The tick has no snapshot if the map read fails. -/
structure SynFloodEval where
  tick : SynTick
  wall : SystemTime
  shown : IterOrder Ipv4Addr

/-- What the arm of `port_scan_eval_tick` reads. The tick has no snapshot if the map read fails. -/
structure PortScanEval where
  tick : PortScanTick
  wall : SystemTime
  shown : IterOrder Ipv4Addr

inductive LoopEvent
  /-- The counters are read at `now`, if they are. -/
  | statsPoll (read : Option TrafficCountersSnapshot) (now : Instant)
  | mixAggregation
  | anomalyEval (eval : AnomalyEval)
  | synfloodEval (eval : SynFloodEval)
  | portScanEval (eval : PortScanEval)
  | apiExit
  | sigint
  | sigterm

/-- What a turn of the loop sends: metric writes, and alerts to the sink. -/
structure Turn (F : Type) where
  metrics : List (MetricOp F)
  pushes : List AlertmanagerAlert

def Turn.silent : Turn F := ⟨[], []⟩

/-- `maybe_spawn`: whether there is a sink, or a panic. `client` says whether the HTTP client can be
built. -/
def maybeSpawn (cfg : ResolvedAlertmanagerConfig) (client : Bool) : Except String Bool :=
  if !cfg.enabled then .ok false
  else
    match cfg.url with
    | none => .error "ResolvedAlertmanagerConfig::enabled implies url is Some"
    | some _ => .ok client

namespace MainLoop

/-- The loop as it is entered; the API state is made at `now`. -/
def new (detectors : ResolvedDetectors F) (now : Instant) : MainLoop F where
  currentCounters := none
  prevMixCounters := none
  anomalyRunner := .new detectors.baseline detectors.emergency (.new detectors.alertRules)
  synfloodRunner := .new detectors.synfloodDetector detectors.synfloodAlertLifecycleManager
  portScanRunner := .new detectors.portScanDetector detectors.portScanAlertLifecycleManager
  api := .new now
  apiTaskDone := false
  status := .running

/-! ## The arms -/

section Arms

def runnerTick (l : MainLoop F) (eval : AnomalyEval) : RunnerTick where
  current := l.currentCounters
  now := eval.now
  order := eval.order

def statsPoll (l : MainLoop F) (read : Option TrafficCountersSnapshot) (now : Instant) :
    MainLoop F × Turn F :=
  match read with
  | none => (l, .silent)
  | some curr =>
    ({ l with currentCounters := some curr, api := { l.api with lastStatsAt := some now } }, .silent)

/-- The index of the IPv6 bucket panics if the counters have no such bucket. -/
def mixAggregation (l : MainLoop F) : MainLoop F × Turn F :=
  match l.currentCounters with
  | none => (l, .silent)
  | some curr =>
    match primeOrDiff l.prevMixCounters l.currentCounters with
    | (prevMixCounters, none) => ({ l with prevMixCounters := prevMixCounters }, .silent)
    | (prevMixCounters, some prev) =>
      let mixDelta := diffStats curr.stats prev.stats
      let mix : List (ProtoIndex × F) := computeMix mixDelta
      let totalBytes := (mixDelta.map (·.bytes)).sum
      ({ l with
          prevMixCounters := prevMixCounters
          status := if 0 < totalBytes ∧ mixDelta[ProtoIndex.ipv6.toUsize]? = none then .panicked
            else l.status },
        ⟨if mix.isEmpty then [] else updateMix mix, []⟩)

variable (fmt : WireFormat F) (amSink : Bool) (amGeneratorUrl : Option String)

def anomalyEval (l : MainLoop F) (eval : AnomalyEval) : MainLoop F × Turn F :=
  let (runner, alerts) := l.anomalyRunner.step (l.runnerTick eval)
  ({ l with
      anomalyRunner := runner
      api := { l.api with
        warmedUp := runner.warmedUp
        runnerSnapshot := some (runner.snapshot eval.shown eval.shownAt) } },
    ⟨l.anomalyRunner.records eval.slots (l.runnerTick eval),
      dispatchTickAlerts amSink eval.wall amGeneratorUrl
        (alerts.transitions.map fun e => (e.alert, e.lifecycle)) alerts.heartbeats
        (alertToWire fmt)⟩)

def synfloodEval (l : MainLoop F) (eval : SynFloodEval) : MainLoop F × Turn F :=
  match eval.tick.current with
  | none => (l, .silent)
  | some _ =>
    let (runner, alerts) := l.synfloodRunner.step eval.tick
    ({ l with
        synfloodRunner := runner
        api := { l.api with synfloodSnapshot := some (runner.snapshot eval.shown) } },
      ⟨l.synfloodRunner.records eval.tick,
        dispatchTickAlerts amSink eval.wall amGeneratorUrl
          (alerts.transitions.map fun e => (e.alert, e.lifecycle)) alerts.heartbeats
          (synfloodAlertToWire fmt)⟩)

def portScanEval (l : MainLoop F) (eval : PortScanEval) : MainLoop F × Turn F :=
  match eval.tick.current with
  | none => (l, .silent)
  | some _ =>
    let (runner, alerts) := l.portScanRunner.step eval.tick
    ({ l with
        portScanRunner := runner
        api := { l.api with portScanSnapshot := some (runner.snapshot eval.shown) } },
      ⟨l.portScanRunner.records eval.tick,
        dispatchTickAlerts amSink eval.wall amGeneratorUrl
          (alerts.transitions.map fun e => (e.alert, e.lifecycle)) alerts.heartbeats
          (portScanAlertToWire fmt)⟩)

/-- The arm of the event. The one of the API task is disabled once the task is done. -/
def turn (l : MainLoop F) : LoopEvent → MainLoop F × Turn F
  | .statsPoll read now => l.statsPoll read now
  | .mixAggregation => l.mixAggregation
  | .anomalyEval eval => l.anomalyEval fmt amSink amGeneratorUrl eval
  | .synfloodEval eval => l.synfloodEval fmt amSink amGeneratorUrl eval
  | .portScanEval eval => l.portScanEval fmt amSink amGeneratorUrl eval
  | .apiExit => (if l.apiTaskDone then l else { l with apiTaskDone := true }, .silent)
  | .sigint | .sigterm => ({ l with status := .stopped }, .silent)

/-- A turn of the loop, while it runs. -/
def step (l : MainLoop F) (e : LoopEvent) : MainLoop F × Turn F :=
  if l.status = .running then l.turn fmt amSink amGeneratorUrl e else (l, .silent)

def after (l : MainLoop F) (events : List LoopEvent) : MainLoop F :=
  Run.exec (step fmt amSink amGeneratorUrl) l events

def turns (l : MainLoop F) (events : List LoopEvent) : List (Turn F) :=
  Run.outs (step fmt amSink amGeneratorUrl) l events

end Arms

/-! ## What a turn does -/

/-- The runners and what the API shows of them stay as they are. -/
structure SameRunners (l l' : MainLoop F) : Prop where
  anomaly : l'.anomalyRunner = l.anomalyRunner
  synflood : l'.synfloodRunner = l.synfloodRunner
  portScan : l'.portScanRunner = l.portScanRunner
  warmedUp : l'.api.warmedUp = l.api.warmedUp
  runnerSnapshot : l'.api.runnerSnapshot = l.api.runnerSnapshot
  synfloodSnapshot : l'.api.synfloodSnapshot = l.api.synfloodSnapshot
  portScanSnapshot : l'.api.portScanSnapshot = l.api.portScanSnapshot

omit [F64 F] in
theorem SameRunners.refl (l : MainLoop F) : SameRunners l l := ⟨rfl, rfl, rfl, rfl, rfl, rfl, rfl⟩

theorem sameRunners_mixAggregation (l : MainLoop F) : SameRunners l l.mixAggregation.1 := by
  unfold mixAggregation primeOrDiff
  rcases l.currentCounters with _ | curr
  · exact .refl l
  · rcases l.prevMixCounters with _ | prev <;> exact ⟨rfl, rfl, rfl, rfl, rfl, rfl, rfl⟩

theorem pushes_mixAggregation (l : MainLoop F) : l.mixAggregation.2.pushes = [] := by
  unfold mixAggregation primeOrDiff
  rcases l.currentCounters with _ | curr
  · rfl
  · rcases l.prevMixCounters with _ | prev <;> rfl

section Cases

variable (fmt : WireFormat F) (amSink : Bool) (amGeneratorUrl : Option String)

/-- A turn of the loop is silent and leaves the runners alone, aggregates the mix, or is a processed
arm of one of the runners. -/
inductive StepCase (l : MainLoop F) : LoopEvent → MainLoop F × Turn F → Prop
  | silent {e : LoopEvent} {l' : MainLoop F} (h : SameRunners l l') : StepCase l e (l', .silent)
  | mix : StepCase l .mixAggregation l.mixAggregation
  | anomaly (eval : AnomalyEval) :
    StepCase l (.anomalyEval eval) (l.anomalyEval fmt amSink amGeneratorUrl eval)
  | synflood (eval : SynFloodEval) {curr : SynCountersSnapshot} (h : eval.tick.current = some curr) :
    StepCase l (.synfloodEval eval) (l.synfloodEval fmt amSink amGeneratorUrl eval)
  | portScan (eval : PortScanEval) {curr : PortScanCountersSnapshot}
    (h : eval.tick.current = some curr) :
    StepCase l (.portScanEval eval) (l.portScanEval fmt amSink amGeneratorUrl eval)

theorem step_cases (l : MainLoop F) (e : LoopEvent) :
    StepCase fmt amSink amGeneratorUrl l e (l.step fmt amSink amGeneratorUrl e) := by
  unfold step
  split_ifs with hrunning
  · unfold turn
    cases e with
    | statsPoll read now => cases read <;> exact .silent ⟨rfl, rfl, rfl, rfl, rfl, rfl, rfl⟩
    | mixAggregation => exact .mix
    | anomalyEval eval => exact .anomaly eval
    | synfloodEval eval =>
      cases h : eval.tick.current with
      | none =>
        dsimp only
        unfold synfloodEval
        rw [h]
        exact .silent (.refl l)
      | some curr => exact .synflood eval h
    | portScanEval eval =>
      cases h : eval.tick.current with
      | none =>
        dsimp only
        unfold portScanEval
        rw [h]
        exact .silent (.refl l)
      | some curr => exact .portScan eval h
    | apiExit =>
      dsimp only
      split_ifs
      · exact .silent (.refl l)
      · exact .silent ⟨rfl, rfl, rfl, rfl, rfl, rfl, rfl⟩
    | sigint => exact .silent ⟨rfl, rfl, rfl, rfl, rfl, rfl, rfl⟩
    | sigterm => exact .silent ⟨rfl, rfl, rfl, rfl, rfl, rfl, rfl⟩
  · exact .silent (.refl l)

variable {fmt amSink amGeneratorUrl}

theorem synfloodRunner_step_none {l : MainLoop F} {e : LoopEvent}
    (h : ∀ eval, e = .synfloodEval eval → eval.tick.current = none) :
    (l.step fmt amSink amGeneratorUrl e).1.synfloodRunner = l.synfloodRunner := by
  have hcase := l.step_cases fmt amSink amGeneratorUrl e
  generalize l.step fmt amSink amGeneratorUrl e = s at hcase ⊢
  cases hcase with
  | silent hsame => exact hsame.synflood
  | mix => exact l.sameRunners_mixAggregation.synflood
  | anomaly eval => rfl
  | synflood eval hcurr => exact absurd ((h eval rfl).symm.trans hcurr) (Option.some_ne_none _).symm
  | portScan eval hcurr =>
    unfold portScanEval
    rw [hcurr]

theorem portScanRunner_step_none {l : MainLoop F} {e : LoopEvent}
    (h : ∀ eval, e = .portScanEval eval → eval.tick.current = none) :
    (l.step fmt amSink amGeneratorUrl e).1.portScanRunner = l.portScanRunner := by
  have hcase := l.step_cases fmt amSink amGeneratorUrl e
  generalize l.step fmt amSink amGeneratorUrl e = s at hcase ⊢
  cases hcase with
  | silent hsame => exact hsame.portScan
  | mix => exact l.sameRunners_mixAggregation.portScan
  | anomaly eval => rfl
  | synflood eval hcurr =>
    unfold synfloodEval
    rw [hcurr]
  | portScan eval hcurr => exact absurd ((h eval rfl).symm.trans hcurr) (Option.some_ne_none _).symm

theorem synfloodRunner_step_some {l : MainLoop F} (hrunning : l.status = .running)
    {eval : SynFloodEval} {curr : SynCountersSnapshot} (hcurr : eval.tick.current = some curr) :
    (l.step fmt amSink amGeneratorUrl (.synfloodEval eval)).1.synfloodRunner =
      (l.synfloodRunner.step eval.tick).1 := by
  unfold step turn
  rw [if_pos hrunning]
  dsimp only
  unfold synfloodEval
  rw [hcurr]

theorem portScanRunner_step_some {l : MainLoop F} (hrunning : l.status = .running)
    {eval : PortScanEval} {curr : PortScanCountersSnapshot} (hcurr : eval.tick.current = some curr) :
    (l.step fmt amSink amGeneratorUrl (.portScanEval eval)).1.portScanRunner =
      (l.portScanRunner.step eval.tick).1 := by
  unfold step turn
  rw [if_pos hrunning]
  dsimp only
  unfold portScanEval
  rw [hcurr]

end Cases

end MainLoop

end EbpfXdp
