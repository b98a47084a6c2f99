import EbpfXdpProgram.System.Traffic

/-!
# The frames behind an emergency

The FSM of an emergency alert is one on the frames of its protocol alone, from one sample to the
next: neither the baselines nor the other protocols nor the interleaving matter to it, and its
events are those that the process has counted (`emergencies_exact`).
-/

namespace EbpfXdp

open F64 Metric

variable {n : ℕ} {F : Type} [F64 F]

/-! ## The rule of the emergencies -/

namespace AnomalyRunner

variable {rule : AlertRule F} (hkind : rule.kind = .emergency)

include hkind

theorem sees_emergency (r : AnomalyRunner F) (t : RunnerTick) (p : ProtoIndex) :
    rule.sees p (r.protoTick t) =
      ⟨(ratesOf p r t).any fun rate => (r.emergencyDetector.examine rate).any rule.accepts,
        t.now⟩ := by
  have hactive : (rule.sees p (r.protoTick t)).active =
      (ratesOf p r t).any fun rate => (r.emergencyDetector.examine rate).any rule.accepts := by
    rw [Bool.eq_iff_iff]
    unfold AlertRule.sees
    simp only [List.any_eq_true, Bool.and_eq_true, decide_eq_true_eq, Option.any_eq_true]
    constructor
    · rintro ⟨s, hs, hkey, haccepts⟩
      rcases List.mem_append.mp hs with hs | hs
      · obtain ⟨rate, -, hexamine⟩ := List.mem_filterMap.mp hs
        exact absurd ((congrArg AlertKey.kind hkey).trans hkind)
          (EwmaDetector.examine_spec hexamine).2.2
      · obtain ⟨rate, hrate, hexamine⟩ := List.mem_filterMap.mp hs
        have hproto := (EmergencyDetector.proto_of_examine hexamine).symm.trans
          (congrArg AlertKey.proto hkey)
        exact ⟨rate, List.mem_filter.mpr ⟨hrate, decide_eq_true hproto⟩, s, hexamine, haccepts⟩
    · rintro ⟨rate, hrate, s, hexamine, haccepts⟩
      obtain ⟨hrate, hproto⟩ := List.mem_filter.mp hrate
      obtain ⟨hs, -, hs'⟩ := EmergencyDetector.examine_spec hexamine
      refine ⟨s, List.mem_append_right _ (List.mem_filterMap.mpr ⟨rate, hrate, hexamine⟩), ?_,
        haccepts⟩
      unfold AlertSignal.key
      rw [hs, of_decide_eq_true hproto, hs', hkind]
  rw [← hactive]
  rfl

/-- An anomaly tick on two samples steps the FSM of the emergency on the frames in between. -/
theorem step_samples {r : AnomalyRunner F} {t : RunnerTick} {a b : Sample}
    (hprecedes : Sample.Precedes a b) (hprev : r.prevCounters = some a.snapshot)
    (hcurr : t.current = some b.snapshot)
    (hd : (r.alertLifecycleManager.rules.map (·.kind)).Nodup)
    (hrule : rule ∈ r.alertLifecycleManager.rules) (p : ProtoIndex) :
    let u := AlertState.feed rule.config (r.alertLifecycleManager.slotState ⟨p, .emergency⟩)
      ⟨(TrafficLedger.ratesOf (a, b) p).any fun rate =>
        (r.emergencyDetector.examine rate).any rule.accepts, t.now⟩
    (step r t).1.alertLifecycleManager.slotState ⟨p, .emergency⟩ = u.1 ∧
      slotEvents (step r t) ⟨p, .emergency⟩ = u.2.toList := by
  have hrates : ratesOf p r t = (TrafficLedger.ratesOf (a, b) p).toList := by
    rw [ratesOf_eq, hprev, hcurr]
    exact congrArg Option.toList (TrafficLedger.protoRate_snapshots (w := (a, b)) hprecedes p)
  have hany : (ratesOf p r t).any (fun rate => (r.emergencyDetector.examine rate).any rule.accepts) =
      (TrafficLedger.ratesOf (a, b) p).any fun rate =>
        (r.emergencyDetector.examine rate).any rule.accepts := by
    rw [hrates]
    cases (TrafficLedger.ratesOf (a, b) p : Option (ProtoRate F)) <;> simp
  rcases step_rule hd hrule p t with ⟨hskip, -⟩ | hfed
  · rw [hprev, hcurr] at hskip
    simp at hskip
  · rw [sees_emergency hkind, hany, hkind] at hfed
    exact hfed

end AnomalyRunner

/-! ## Readings -/

theorem count_some_singleton {α : Type} [DecidableEq α] (e : Option α) (a : α) :
    [e].count (some a) = e.toList.count a := by
  cases e with
  | none => rfl
  | some b =>
    rw [Option.toList_some, List.count_singleton, List.count_singleton, Option.some_beq_some]

/-- A sample that an anomaly tick has taken, and what else its arm reads. -/
structure Reading where
  sample : Sample
  eval : AnomalyEval

namespace Reading

/-- What the emergency detector says of the protocol from one reading to the next, as the FSM of the
rule sees it. -/
def watch (d : EmergencyDetector F) (rule : AlertRule F) (p : ProtoIndex) (w : Reading × Reading) :
    SlotTick :=
  ⟨(TrafficLedger.ratesOf (w.1.sample, w.2.sample) p).any fun rate =>
    (d.examine rate).any rule.accepts, w.2.eval.now⟩

end Reading

def TrafficLedger.reading (g : TrafficLedger) : Observation F → Option Reading
  | .took (.anomalyEval eval) => g.polled.map (⟨·, eval⟩)
  | _ => none

namespace System

open TrafficLedger

def readings (trace : List (Observation F)) : List Reading :=
  (Run.outs (fun g o => (g.observe o, g.reading o)) TrafficLedger.new trace).reduceOption

section Readings

omit [F64 F]

theorem readings_append (trace out : List (Observation F)) :
    readings (trace ++ out) = readings trace ++
      (Run.outs (fun g o => (g.observe o, g.reading o)) (ledger trace) out).reduceOption := by
  unfold readings
  rw [Run.outs_append, List.reduceOption_append]
  rfl

theorem readings_other {trace out : List (Observation F)}
    (h : ∀ eval, Observation.took (.anomalyEval eval) ∉ out) :
    readings (trace ++ out) = readings trace := by
  induction out using List.reverseRecOn with
  | nil => rw [List.append_nil]
  | append_singleton out o ih =>
    have hpast := ih fun eval hmem => h eval (List.mem_append_left _ hmem)
    rw [← List.append_assoc, readings_append, hpast]
    have ho := fun eval heq => h eval (List.mem_append_right _ (List.mem_singleton.mpr heq))
    rcases o with _ | _ | _ | _ | _ | event | _ | _ | _
    case took =>
      rcases event with _ | _ | eval | _ | _ | _ | _ | _
      case anomalyEval => exact absurd rfl (ho eval)
      all_goals exact List.append_nil _
    all_goals exact List.append_nil _

theorem samples_readings (trace : List (Observation F)) :
    (readings trace).map (·.sample) = (ledger trace).rates := by
  induction trace using List.reverseRecOn with
  | nil => rfl
  | append_singleton trace o ih =>
    rw [readings_append, ledger_append, List.map_append, ih]
    rcases o with _ | _ | _ | _ | ⟨_ | _ | _ | _ | _⟩ | event | _ | _ | _
    case took =>
      rcases event with ⟨_ | curr, now⟩ | _ | eval | _ | _ | _ | _ | _
      case anomalyEval =>
        refine congrArg ((ledger trace).rates ++ ·) ?_
        unfold Run.outs TrafficLedger.reading
        cases (ledger trace).polled <;> rfl
      all_goals exact List.append_nil _
    all_goals exact List.append_nil _

end Readings

/-! ## The system -/

/-- The FSM of the emergency and the counters of its events are those of the readings. -/
structure Emergencies (detectors : ResolvedDetectors F) (rule : AlertRule F) (p : ProtoIndex)
    (trace : List (Observation F)) (s : System n F) : Prop where
  traffic : Traffic trace s
  detector : s.loop.anomalyRunner.emergencyDetector = detectors.emergency
  rules : s.loop.anomalyRunner.alertLifecycleManager.rules = detectors.alertRules
  slot : s.loop.anomalyRunner.alertLifecycleManager.slotState ⟨p, .emergency⟩ =
    .after rule.config
      ((readings trace).consecutivePairs.map (Reading.watch detectors.emergency rule p))
  events : ∀ c, incremented (ops trace) (.alertEvents ⟨p, .emergency⟩ c) =
    (AlertState.events rule.config ((readings trace).consecutivePairs.map
      (Reading.watch detectors.emergency rule p))).count (some c)

variable {detectors : ResolvedDetectors F} {rule : AlertRule F} {p : ProtoIndex}

theorem Emergencies.other {trace out : List (Observation F)} {s s' : System n F}
    (h : Emergencies detectors rule p trace s) (htraffic : Traffic (trace ++ out) s')
    (hout : ∀ eval, Observation.took (.anomalyEval eval) ∉ out)
    (hops : ∀ c, incremented (ops out) (.alertEvents ⟨p, .emergency⟩ c) = 0)
    (hloop : s'.loop.anomalyRunner = s.loop.anomalyRunner) :
    Emergencies detectors rule p (trace ++ out) s' := by
  refine ⟨htraffic, ?_, ?_, ?_, fun c => ?_⟩
  · rw [hloop]
    exact h.detector
  · rw [hloop]
    exact h.rules
  · rw [hloop, readings_other hout]
    exact h.slot
  · rw [ops_append, incremented_append, hops, readings_other hout]
    exact h.events c

section Arm

variable {fmt : WireFormat F} {amSink : Bool} {amGeneratorUrl : Option String}
  {trace : List (Observation F)} {s : System n F} (h : Emergencies detectors rule p trace s)
  (hkinds : (detectors.alertRules.map (·.kind)).Nodup) (hrule : rule ∈ detectors.alertRules)
  (hkind : rule.kind = .emergency)

include h hkinds hrule hkind

theorem Emergencies.eval (eval : AnomalyEval) (out : List (Observation F))
    (hout : ∀ eval, Observation.took (.anomalyEval eval) ∉ out) :
    let r := s.loop.anomalyRunner
    let t := s.loop.runnerTick eval
    let seen (trace : List (Observation F)) :=
      (readings trace).consecutivePairs.map (Reading.watch detectors.emergency rule p)
    let trace' := trace ++ ([.took (.anomalyEval eval)] ++ out)
    (r.step t).1.alertLifecycleManager.slotState ⟨p, .emergency⟩ =
      .after rule.config (seen trace') ∧
    ∀ c, (AlertState.events rule.config (seen trace')).count (some c) =
      (AlertState.events rule.config (seen trace)).count (some c) +
        (AnomalyRunner.slotEvents (r.step t) ⟨p, .emergency⟩).count c := by
  intro r t seen trace'
  have hreadings : readings trace' =
      readings trace ++ ((ledger trace).polled.map (⟨·, eval⟩)).toList := by
    show readings (trace ++ ([.took (.anomalyEval eval)] ++ out)) = _
    rw [← List.append_assoc, readings_other hout, readings_append]
    unfold Run.outs TrafficLedger.reading
    cases (ledger trace).polled <;> rfl
  have hwindows : (readings trace').consecutivePairs = (readings trace).consecutivePairs ++
      ((readings trace).getLast?.bind fun a => ((ledger trace).polled.map (⟨·, eval⟩)).map
        fun b => (a, b)).toList := by
    rw [hreadings, consecutivePairs_append_toList]
  have hprev : r.prevCounters = (readings trace).getLast?.map (·.sample.snapshot) := by
    rw [h.traffic.knows.rates, ← samples_readings, List.getLast?_map, Option.map_map]
    rfl
  have hcurr : t.current = (ledger trace).polled.map Sample.snapshot := h.traffic.knows.current
  by_cases hskip : r.prevCounters = none ∨ t.current = none
  · have hsame : (readings trace').consecutivePairs = (readings trace).consecutivePairs := by
      rw [hwindows]
      rw [hprev, hcurr, Option.map_eq_none_iff, Option.map_eq_none_iff] at hskip
      rcases hskip with hlast | hpolled
      · rw [hlast]
        exact List.append_nil _
      · rw [hpolled]
        cases (readings trace).getLast? <;> exact List.append_nil _
    obtain ⟨-, hmanager, hevents⟩ := AnomalyRunner.step_skipped hskip
    simp only [seen, hsame]
    refine ⟨?_, fun c => ?_⟩
    · rw [hmanager]
      exact h.slot
    · unfold AnomalyRunner.slotEvents
      rw [hevents]
      rfl
  · obtain ⟨hsome, hsome'⟩ := not_or.mp hskip
    rw [hprev, Option.map_eq_none_iff] at hsome
    rw [hcurr, Option.map_eq_none_iff] at hsome'
    obtain ⟨a, hlast⟩ := Option.ne_none_iff_exists'.mp hsome
    obtain ⟨b, hpolled⟩ := Option.ne_none_iff_exists'.mp hsome'
    rw [hlast] at hprev
    rw [hpolled] at hcurr
    have hprecedes : Sample.Precedes a.sample b := by
      have horder := (ordered_ledger trace).rates.order
      rw [← samples_readings, hpolled] at horder
      exact (List.pairwise_append.mp horder).2.2 _
        (List.mem_map_of_mem (List.mem_of_getLast? hlast)) b (List.mem_singleton_self b)
    have hseen : seen trace' = seen trace ++
        [Reading.watch detectors.emergency rule p (a, ⟨b, eval⟩)] := by
      simp only [seen]
      rw [hwindows, hlast, hpolled]
      exact List.map_append
    obtain ⟨hstate, hevents⟩ := AnomalyRunner.step_samples hkind hprecedes hprev hcurr
      (by rw [h.rules]; exact hkinds) (by rw [h.rules]; exact hrule) p
    rw [h.detector, h.slot] at hstate hevents
    rw [hseen, hstate, hevents, AlertState.after_concat, AlertState.events_concat]
    refine ⟨rfl, fun c => ?_⟩
    rw [List.count_append, count_some_singleton]
    rfl

theorem Emergencies.arm (hrunning : s.loop.status = .running) (arm : Arm) :
    let e := arm.event s.passes
    let turn := (s.loop.step fmt amSink amGeneratorUrl e).2
    Emergencies detectors rule p (trace ++ [.took e, .wrote turn.metrics])
      { s with
        passes := .idle
        loop := (s.loop.step fmt amSink amGeneratorUrl e).1
        unsent := some turn.pushes } := by
  intro e turn
  have htraffic : Traffic (trace ++ [.took e, .wrote turn.metrics])
      { s with
        passes := .idle
        loop := (s.loop.step fmt amSink amGeneratorUrl e).1
        unsent := some turn.pushes } := h.traffic.arm hrunning arm
  have hops : ops [.took e, .wrote turn.metrics] = turn.metrics := List.append_nil _
  by_cases heval : ∃ eval, e = .anomalyEval eval
  · obtain ⟨eval, heval⟩ := heval
    have hstep : s.loop.step fmt amSink amGeneratorUrl e =
        s.loop.anomalyEval fmt amSink amGeneratorUrl eval := by
      rw [heval]
      unfold MainLoop.step
      rw [if_pos hrunning]
      rfl
    have hmetrics : turn.metrics =
        s.loop.anomalyRunner.records eval.slots (s.loop.runnerTick eval) :=
      congrArg (·.2.metrics) hstep
    have hrunner : (s.loop.step fmt amSink amGeneratorUrl e).1.anomalyRunner =
        (s.loop.anomalyRunner.step (s.loop.runnerTick eval)).1 :=
      congrArg (·.1.anomalyRunner) hstep
    obtain ⟨hslot, hevents⟩ := h.eval hkinds hrule hkind eval [.wrote turn.metrics] (by simp)
    refine ⟨htraffic, ?_, ?_, ?_, fun c => ?_⟩
    · show (s.loop.step fmt amSink amGeneratorUrl e).1.anomalyRunner.emergencyDetector = _
      rw [hrunner, AnomalyRunner.emergencyDetector_step]
      exact h.detector
    · show (s.loop.step fmt amSink amGeneratorUrl e).1.anomalyRunner.alertLifecycleManager.rules = _
      rw [hrunner, AnomalyRunner.rules_step]
      exact h.rules
    · show (s.loop.step fmt amSink amGeneratorUrl e).1.anomalyRunner.alertLifecycleManager.slotState
        _ = _
      rw [hrunner, hslot, heval]
      rfl
    · have hcount : incremented turn.metrics (.alertEvents ⟨p, .emergency⟩ c) = _ :=
        (congrArg (incremented · _) hmetrics).trans (AnomalyRunner.incremented_records ..)
      rw [ops_append, incremented_append, h.events c, hops, hcount, ← hevents c, heval]
      rfl
  · rcases s.loop.anomaly_step e with ⟨eval, he, -⟩ | ⟨hrunner, hmetrics⟩
    · exact absurd ⟨eval, he⟩ heval
    · refine h.other htraffic (fun eval hmem => heval ⟨eval, ?_⟩) (fun c => ?_) hrunner
      · rcases List.mem_pair.mp hmem with heq | heq
        · exact (Observation.took.inj heq).symm
        · cases heq
      · rw [hops]
        exact (hmetrics (.alertEvents ⟨p, .emergency⟩ c)
          (List.mem_append_right _ (List.mem_singleton_self _))).2

end Arm

variable (fmt : WireFormat F) (amSink : Bool) (amGeneratorUrl : Option String)

end System

end EbpfXdp
