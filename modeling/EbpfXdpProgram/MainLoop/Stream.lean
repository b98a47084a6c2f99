import EbpfXdpProgram.Lib.Simulation
import EbpfXdpProgram.MainLoop.Start
import EbpfXdpProgram.Pipeline.Recorded

/-!
# What the main loop pushes

With a sink, the loop refines its three alert managers: a turn that processes data is a tick of one
of them and pushes what is dispatched for it, and every other turn pushes nothing
(`refines_managers`). What is pushed under a label set is therefore a sequence of sessions, and a
session is open exactly while the runner's FSM is firing (`loop_pushes_sessions`).
-/

namespace EbpfXdp

variable {F : Type} [F64 F]

namespace Managers

variable (fmt : WireFormat F) (generatorUrl : Option String)

theorem exec_step (m : Managers F) (ticks : List (ManagerTick F)) :
    Run.exec (step fmt generatorUrl) m ticks = Run.exec (dispatch fmt generatorUrl) m ticks := by
  induction ticks generalizing m with
  | nil => rfl
  | cons t ticks ih =>
    rw [Run.exec_cons, Run.exec_cons, ih, (alert_step fmt generatorUrl m t).1]

theorem filter_slot (m : Managers F) (ticks : List (ManagerTick F)) (x : Subject) :
    (stream fmt generatorUrl m ticks).filter (·.alert.labels = x.labels) =
      (stream fmt generatorUrl m ticks).filter (·.subject = x) := by
  apply List.filter_congr
  intro p hp
  rw [(faithful_stream fmt generatorUrl m ticks p hp).1]
  exact decide_eq_decide.mpr Subject.labels_injective.eq_iff

end Managers

namespace MainLoop

omit [F64 F] in
def managers (l : MainLoop F) : Managers F where
  proto := l.anomalyRunner.alertLifecycleManager
  synFlood := l.synfloodRunner.alertLifecycleManager
  portScan := l.portScanRunner.alertLifecycleManager

/-- The tick of a manager that an arm comes to: none if there is nothing to process. -/
def armTick (l : MainLoop F) : LoopEvent → Option (ManagerTick F)
  | .anomalyEval eval =>
    match l.anomalyRunner.prevCounters, l.currentCounters with
    | some _, some _ => some (.proto (l.anomalyRunner.protoTick (l.runnerTick eval)) eval.wall)
    | _, _ => none
  | .synfloodEval eval =>
    match l.synfloodRunner.prevSnapshot, eval.tick.current with
    | some prev, some curr =>
      some (.synFlood (l.synfloodRunner.detector.managerTick ⟨prev, curr, eval.tick⟩) eval.wall)
    | _, _ => none
  | .portScanEval eval =>
    eval.tick.current.map fun curr =>
      .portScan (l.portScanRunner.detector.managerTick ⟨curr, eval.tick⟩) eval.wall
  | .statsPoll _ _ | .mixAggregation | .apiExit | .sigint | .sigterm => none

def managerTick (l : MainLoop F) (e : LoopEvent) : Option (ManagerTick F) :=
  if l.status = .running then l.armTick e else none

variable (fmt : WireFormat F) (amGeneratorUrl : Option String)

/-- A turn of a loop with a sink, with what it pushes. -/
def pushStep (l : MainLoop F) (e : LoopEvent) : MainLoop F × List AlertmanagerAlert :=
  ((l.step fmt true amGeneratorUrl e).1, (l.step fmt true amGeneratorUrl e).2.pushes)

def managerTicks (l : MainLoop F) (events : List LoopEvent) : List (ManagerTick F) :=
  Run.passedOn (pushStep fmt amGeneratorUrl) managerTick l events

def pushed (l : MainLoop F) (events : List LoopEvent) : List AlertmanagerAlert :=
  (l.turns fmt true amGeneratorUrl events).flatMap (·.pushes)

theorem pushed_eq (l : MainLoop F) (events : List LoopEvent) :
    l.pushed fmt amGeneratorUrl events =
      (Run.outs (pushStep fmt amGeneratorUrl) l events).flatten := by
  unfold pushed turns
  rw [List.flatMap_def, ← Run.outs_map]
  rfl

/-- What an arm comes to for the managers: a tick that is dispatched, or nothing. -/
def Dispatches (l : MainLoop F) (s : MainLoop F × Turn F) (t : Option (ManagerTick F)) : Prop :=
  match t with
  | none => s.1.managers = l.managers ∧ s.2.pushes = []
  | some t => l.managers.dispatch fmt amGeneratorUrl t = (s.1.managers, s.2.pushes)

omit [F64 F] in
theorem SameRunners.managers {l l' : MainLoop F} (h : SameRunners l l') :
    l'.managers = l.managers := by
  unfold MainLoop.managers
  rw [h.anomaly, h.synflood, h.portScan]

theorem dispatches_anomalyEval (l : MainLoop F) (eval : AnomalyEval) :
    Dispatches fmt amGeneratorUrl l (l.anomalyEval fmt true amGeneratorUrl eval)
      (l.armTick (.anomalyEval eval)) := by
  rcases l.anomalyRunner.processed_or_skipped (l.runnerTick eval) with
    hskip | ⟨prev, curr, hprev, hcurr⟩
  · obtain ⟨-, hmanager, hout⟩ := AnomalyRunner.step_skipped hskip
    have hnone : l.armTick (.anomalyEval eval) = none := by
      unfold armTick
      rcases hskip with h | h
      · rw [h]
      · have hcurr : l.currentCounters = none := h
        rw [hcurr]
        cases l.anomalyRunner.prevCounters <;> rfl
    rw [hnone]
    refine ⟨?_, ?_⟩
    · unfold managers anomalyEval
      dsimp only
      rw [hmanager]
    · unfold anomalyEval
      dsimp only
      rw [hout]
      rfl
  · obtain ⟨-, hmanager, hout⟩ := AnomalyRunner.step_processed hprev hcurr
    have hcurr' : l.currentCounters = some curr := hcurr
    unfold Dispatches armTick managers anomalyEval Managers.dispatch
    rw [hprev, hcurr']
    dsimp only
    rw [hmanager, hout]

theorem dispatches_synfloodEval (l : MainLoop F) (eval : SynFloodEval) :
    Dispatches fmt amGeneratorUrl l (l.synfloodEval fmt true amGeneratorUrl eval)
      (l.armTick (.synfloodEval eval)) := by
  unfold armTick synfloodEval
  dsimp only
  cases hcurr : eval.tick.current with
  | none =>
    cases l.synfloodRunner.prevSnapshot <;> exact ⟨rfl, rfl⟩
  | some curr =>
    cases hprev : l.synfloodRunner.prevSnapshot with
    | none =>
      obtain ⟨hmanager, -, hout, -⟩ := SynFloodRunner.skipped (t := eval.tick) (.inl hprev)
      refine ⟨?_, ?_⟩
      · unfold managers
        dsimp only
        rw [hmanager]
      · dsimp only
        rw [hout]
        rfl
    | some prev =>
      obtain ⟨hmanager, -, hout⟩ := SynFloodRunner.processed hprev hcurr
      unfold Dispatches managers Managers.dispatch
      dsimp only
      rw [hmanager, hout]

theorem dispatches_portScanEval (l : MainLoop F) (eval : PortScanEval) :
    Dispatches fmt amGeneratorUrl l (l.portScanEval fmt true amGeneratorUrl eval)
      (l.armTick (.portScanEval eval)) := by
  unfold armTick portScanEval
  dsimp only
  cases hcurr : eval.tick.current with
  | none => exact ⟨rfl, rfl⟩
  | some curr =>
    obtain ⟨hmanager, -, hout⟩ := PortScanRunner.processed (r := l.portScanRunner) hcurr
    unfold Dispatches managers Managers.dispatch
    dsimp only
    rw [Option.map_some, hmanager, hout]

theorem dispatches_step (l : MainLoop F) (e : LoopEvent) :
    Dispatches fmt amGeneratorUrl l (l.step fmt true amGeneratorUrl e) (l.managerTick e) := by
  unfold step managerTick
  split_ifs
  · unfold turn
    cases e with
    | anomalyEval eval => exact l.dispatches_anomalyEval fmt amGeneratorUrl eval
    | synfloodEval eval => exact l.dispatches_synfloodEval fmt amGeneratorUrl eval
    | portScanEval eval => exact l.dispatches_portScanEval fmt amGeneratorUrl eval
    | statsPoll read now => cases read <;> exact ⟨rfl, rfl⟩
    | mixAggregation => exact ⟨l.sameRunners_mixAggregation.managers, l.pushes_mixAggregation⟩
    | apiExit =>
      dsimp only
      split_ifs <;> exact ⟨rfl, rfl⟩
    | sigint => exact ⟨rfl, rfl⟩
    | sigterm => exact ⟨rfl, rfl⟩
  · exact ⟨rfl, rfl⟩

theorem refines_managers :
    Run.Refines (pushStep fmt amGeneratorUrl) (Managers.dispatch fmt amGeneratorUrl) managers
      managerTick where
  step_passed l e t h := by
    have hstep := l.dispatches_step fmt amGeneratorUrl e
    rw [h] at hstep
    exact hstep
  step_skipped l e h := by
    have hstep := l.dispatches_step fmt amGeneratorUrl e
    rw [h] at hstep
    exact hstep

theorem managers_of_ok {debug : String → String} {config : Option (Config F)}
    {detectors : ResolvedDetectors F} {resolved : ResolvedConfig F}
    (h : resolveAll debug config = .ok (detectors, resolved)) (now : Instant) :
    ∃ synFlood portScan,
      (new detectors now).managers = .new detectors.alertRules synFlood portScan := by
  obtain ⟨⟨P, hsyn⟩, ⟨Q, hport⟩, -⟩ := started_of_ok h
  refine ⟨P, Q, ?_⟩
  unfold managers new
  dsimp only [AnomalyRunner.new, SynFloodRunner.new, PortScanRunner.new]
  rw [hsyn, hport]
  rfl

/-- What a run pushes, with what each alert is about. -/
def pushStream (l : MainLoop F) (events : List LoopEvent) : List Push :=
  Managers.stream fmt amGeneratorUrl l.managers (l.managerTicks fmt amGeneratorUrl events)

theorem alert_pushStream (l : MainLoop F) (events : List LoopEvent) :
    (l.pushStream fmt amGeneratorUrl events).map (·.alert) = l.pushed fmt amGeneratorUrl events := by
  unfold pushStream
  rw [Managers.alert_stream, pushed_eq]
  exact Run.outs_passed (refines_managers fmt amGeneratorUrl) l events

theorem faithful_pushStream (l : MainLoop F) (events : List LoopEvent) :
    ∀ p ∈ l.pushStream fmt amGeneratorUrl events,
      p.alert.labels = p.subject.labels ∧ (p.alert.endsAt.isSome = true ↔ p.signal = .closes) :=
  Managers.faithful_stream fmt amGeneratorUrl _ _

theorem follow_pushStream {debug : String → String} {config : Option (Config F)}
    {detectors : ResolvedDetectors F} {resolved : ResolvedConfig F}
    (h : resolveAll debug config = .ok (detectors, resolved)) (now : Instant)
    (events : List LoopEvent) (x : Subject) :
    Session.follow false ((((new detectors now).pushStream fmt amGeneratorUrl events).filter
        (·.alert.labels = x.labels)).map (·.signal)) =
      some (((new detectors now).after fmt true amGeneratorUrl events).managers.isOpen x) := by
  obtain ⟨synFlood, portScan, hnew⟩ := managers_of_ok h now
  let ticks := (new detectors now).managerTicks fmt amGeneratorUrl events
  have hexec : Run.exec (Managers.step fmt amGeneratorUrl) (new detectors now).managers ticks =
      ((new detectors now).after fmt true amGeneratorUrl events).managers :=
    (Managers.exec_step fmt amGeneratorUrl _ ticks).trans
      (Run.exec_passed (refines_managers fmt amGeneratorUrl) _ events)
  have hclosed : (new detectors now).managers.isOpen x = false := by
    rw [hnew, Managers.isOpen_new]
  unfold pushStream
  rw [Managers.filter_slot, ← hexec, ← Managers.follow_stream, hclosed]

/-- A part of what is pushed, in which the pushes of each slot follow on, consists of sessions. -/
theorem sessions_of_follow {part : List Push}
    (hlabels : ∀ p ∈ part, p.alert.labels = p.subject.labels)
    (hfollow : ∀ x : Subject, ∃ isOpen, Session.follow false
      ((part.filter (·.alert.labels = x.labels)).map (·.signal)) = some isOpen)
    (labels : Table String String) :
    (part.filter (·.alert.labels = labels)).map (·.signal) ∈ Session.streams := by
  by_cases hp : ∃ p ∈ part, p.alert.labels = labels
  · obtain ⟨p, hp, rfl⟩ := hp
    obtain ⟨isOpen, hopen⟩ := hfollow p.subject
    rw [hlabels p hp]
    exact Session.mem_streams_of_follow hopen
  · have hnone : part.filter (·.alert.labels = labels) = [] :=
      List.filter_eq_nil_iff.mpr fun p hmem hl => hp ⟨p, hmem, of_decide_eq_true hl⟩
    rw [hnone]
    exact Session.mem_streams_of_follow (Session.follow_nil false)

/-- **What the loop pushes**: from an accepted configuration, with a sink, a run pushes the alerts
of sessions. The pushes of a label set are a stream of sessions, and the one about a slot is open at
the end exactly if the FSM of the slot is firing in the runner. -/
theorem loop_pushes_sessions (debug : String → String) (config : Option (Config F))
    (detectors : ResolvedDetectors F) (resolved : ResolvedConfig F)
    (h : resolveAll debug config = .ok (detectors, resolved)) (now : Instant)
    (events : List LoopEvent) :
    let l := (new detectors now).after fmt true amGeneratorUrl events
    ∃ stream : List Push,
      stream.map (·.alert) = (new detectors now).pushed fmt amGeneratorUrl events ∧
      (∀ p ∈ stream, p.alert.labels = p.subject.labels ∧
        (p.alert.endsAt.isSome = true ↔ p.signal = .closes)) ∧
      (∀ labels, (stream.filter (·.alert.labels = labels)).map (·.signal) ∈ Session.streams) ∧
      ∀ x, Session.follow false ((stream.filter (·.alert.labels = x.labels)).map (·.signal)) =
        some (l.managers.isOpen x) := by
  intro l
  have hfaithful := faithful_pushStream fmt amGeneratorUrl (new detectors now) events
  have hfollow := follow_pushStream fmt amGeneratorUrl h now events
  exact ⟨_, alert_pushStream fmt amGeneratorUrl _ events, hfaithful,
    sessions_of_follow (fun p hp => (hfaithful p hp).1) fun x => ⟨_, hfollow x⟩, hfollow⟩

/-- One source at 200 SYNs a second, with the built-in configuration. -/
theorem loop_pushes_sessions_flood :
    let fmt : WireFormat ℚ := ⟨Nat.repr, fun _ _ => ""⟩
    let events := [floodEval 0 0, floodEval 5 1000, floodEval 10 2000, floodEval 15 3000]
    ∃ detectors resolved, resolveAll String.quote none = .ok (detectors, resolved) ∧
      ∃ stream : List Push,
        stream.map (·.alert) = (new detectors 0).pushed fmt none events ∧
        ∀ labels, (stream.filter (·.alert.labels = labels)).map (·.signal) ∈ Session.streams := by
  intro fmt events
  obtain ⟨stream, hpushed, -, hstreams, -⟩ :=
    loop_pushes_sessions fmt none String.quote none _ _ rfl 0 events
  exact ⟨_, _, rfl, stream, hpushed, hstreams⟩

end MainLoop

end EbpfXdp
