import EbpfXdpProgram.MainLoop.Stream
import EbpfXdpProgram.MainLoop.Registry
import EbpfXdpProgram.System

/-!
# What becomes of the pushed alerts

The process loses an alert only where it counts it: `xdp_alertmanager_dropped_total` is the number
of pushes that a full queue refused, `xdp_alertmanager_push_total` the number of batches, and every
other pushed alert is posted or on its way (`deliveries_accounted`). While nothing is counted as
lost, what Alertmanager acknowledges are the sessions of the loop (`acknowledged_sessions`). A
request that fails is made again with the same batch, so that Alertmanager may have got a batch
before the request that it acknowledges.
-/

namespace EbpfXdp

open Metric

variable {n : ℕ} {F : Type} [F64 F]

/-! ## The registry of the process -/

def DispatchOutput.metrics {A : Type} : DispatchOutput A → List (MetricOp F)
  | accepted _ => []
  | refused _ .full => [recordAlertmanagerDropped]
  | refused _ .closed => []
  | posted _ ok => [recordAlertmanagerPush ok]

def DispatchOutput.isPosted {A : Type} (ok : Bool) : DispatchOutput A → Bool
  | posted _ ok' => ok' == ok
  | accepted _ | refused _ _ => false

def Series.pushTotal (ok : Bool) : Series :=
  ⟨"xdp_alertmanager_push_total", [("result", if ok then "success" else "failure")]⟩

def Observation.metrics (o : Observation F) : List (MetricOp F) :=
  o.ops ++ o.output.toList.flatMap DispatchOutput.metrics

namespace System

def registry (trace : List (Observation F)) : MetricRegistry F :=
  Registry.empty.record (trace.flatMap Observation.metrics)

/-- The batches that a successful POST has acknowledged. -/
def acknowledged (trace : List (Observation F)) : List (List AlertmanagerAlert) :=
  ((outputs trace).filter (DispatchOutput.isPosted true)).filterMap DispatchOutput.batch

variable (trace : List (Observation F)) (k : Series)

omit [F64 F] in
theorem written_metrics (outs : List (DispatchOutput AlertmanagerAlert)) :
    written (outs.flatMap (DispatchOutput.metrics (F := F))) k = none := by
  refine written_eq_none fun op hop => ?_
  obtain ⟨o, -, hop⟩ := List.mem_flatMap.mp hop
  unfold DispatchOutput.metrics at hop
  rcases o with _ | ⟨_, _ | _⟩ | ⟨_, ok⟩ <;> simp only [List.mem_singleton, List.not_mem_nil] at hop
  · rw [hop]; rfl
  · rw [hop]; rfl

omit [F64 F] in
theorem gauge_registry : (registry trace).gauges.lookup k = written (ops trace) k := by
  unfold registry
  rw [Registry.gauge_record, Registry.gauge_empty, Option.or_none]
  induction trace with
  | nil => rfl
  | cons o trace ih =>
    unfold ops at ih ⊢
    rw [List.flatMap_cons, List.flatMap_cons, written_append, written_append, ih]
    unfold Observation.metrics
    rw [written_append, written_metrics, Option.none_or]

omit [F64 F] in
theorem count_registry :
    (registry trace).count k = incremented (ops trace) k +
      incremented ((outputs trace).flatMap (DispatchOutput.metrics (F := F))) k := by
  unfold registry
  rw [Registry.count_record, Registry.count_empty, Nat.zero_add]
  induction trace with
  | nil => rfl
  | cons o trace ih =>
    have houtputs : outputs (o :: trace) = o.output.toList ++ outputs trace := by
      unfold outputs
      cases ho : o.output with
      | none => rw [List.filterMap_cons_none ho]; rfl
      | some d => rw [List.filterMap_cons_some ho]; rfl
    unfold ops at ih ⊢
    rw [houtputs, List.flatMap_cons, List.flatMap_cons, List.flatMap_append]
    simp only [incremented_append, ih, Observation.metrics]
    omega

omit [F64 F] in
theorem length_offered {outs : List (DispatchOutput AlertmanagerAlert)}
    (hfull : ∀ a e, .refused a e ∈ outs → e = .full) :
    (outs.filterMap DispatchOutput.offered).length = (outs.filterMap DispatchOutput.alert).length +
      incremented (outs.flatMap (DispatchOutput.metrics (F := F)))
        (.bare "xdp_alertmanager_dropped_total") := by
  induction outs with
  | nil => rfl
  | cons o outs ih =>
    have hrest := ih fun a e hmem => hfull a e (List.mem_cons_of_mem o hmem)
    rw [List.flatMap_cons, incremented_append]
    rcases o with a | ⟨a, e⟩ | ⟨batch, ok⟩
    · simp only [List.filterMap_cons, DispatchOutput.offered, DispatchOutput.alert,
        DispatchOutput.metrics, List.length_cons, incremented_nil]
      omega
    · obtain rfl := hfull a e List.mem_cons_self
      have hone : incremented [(recordAlertmanagerDropped : MetricOp F)]
          (.bare "xdp_alertmanager_dropped_total") = 1 := by
        simp [recordAlertmanagerDropped, Op.increments]
      simp only [List.filterMap_cons, DispatchOutput.offered, DispatchOutput.alert,
        DispatchOutput.metrics, List.length_cons, hone]
      omega
    · have hzero : incremented [(recordAlertmanagerPush ok : MetricOp F)]
          (.bare "xdp_alertmanager_dropped_total") = 0 := by
        simp [recordAlertmanagerPush, Op.increments, Series.bare]
      simp only [List.filterMap_cons, DispatchOutput.offered, DispatchOutput.alert,
        DispatchOutput.metrics, hzero]
      omega

omit [F64 F] in
theorem incremented_posted (outs : List (DispatchOutput AlertmanagerAlert)) (ok : Bool) :
    incremented (outs.flatMap (DispatchOutput.metrics (F := F))) (.pushTotal ok) =
      outs.countP (DispatchOutput.isPosted ok) := by
  induction outs with
  | nil => rfl
  | cons o outs ih =>
    rw [List.flatMap_cons, incremented_append, List.countP_cons, ih, Nat.add_comm]
    congr 1
    unfold DispatchOutput.metrics DispatchOutput.isPosted
    rcases o with a | ⟨a, _ | _⟩ | ⟨batch, ok'⟩
    · rfl
    · simp [recordAlertmanagerDropped, Op.increments, Series.pushTotal, Series.bare]
    · rfl
    · cases ok <;> cases ok' <;>
        simp [recordAlertmanagerPush, Op.increments, Series.pushTotal]

section Agrees

variable {fmt : WireFormat F} {amSink : Bool} {amGeneratorUrl : Option String} {l : MainLoop F}
  {trace : List (Observation F)} {s : System n F}
  (h : Agrees fmt amSink amGeneratorUrl l trace s)

include h

theorem Agrees.writesOnly : WritesOnly MainLoop.loopNames (System.ops trace) := by
  rw [h.ops]
  refine .flatMap fun turn hturn => ?_
  obtain ⟨pre, e, post, -, rfl⟩ := Run.exists_of_mem_outs _ _ hturn
  exact (Run.exec (MainLoop.step fmt amSink amGeneratorUrl) l pre).writesOnly_step e

theorem Agrees.gauge (k : Series) : (registry trace).gauges.lookup k =
    (l.registry fmt amSink amGeneratorUrl (events trace)).gauges.lookup k := by
  rw [gauge_registry, MainLoop.registry_eq, Registry.gauge_record, Registry.gauge_empty,
    Option.or_none, h.ops]

theorem Agrees.dropped : (offered trace).length =
    (accepted trace).length + (registry trace).count (.bare "xdp_alertmanager_dropped_total") := by
  have hname : (Series.bare "xdp_alertmanager_dropped_total").name ∉ MainLoop.loopNames := by decide
  rw [count_registry, (h.writesOnly.untouched hname).2, Nat.zero_add]
  exact length_offered h.full

theorem Agrees.batches (ok : Bool) : (registry trace).count (.pushTotal ok) =
    (outputs trace).countP (DispatchOutput.isPosted ok) := by
  have hname : (Series.pushTotal ok).name ∉ MainLoop.loopNames := by
    show "xdp_alertmanager_push_total" ∉ MainLoop.loopNames
    decide
  rw [count_registry, (h.writesOnly.untouched hname).2, Nat.zero_add]
  exact incremented_posted _ ok

end Agrees

omit [F64 F] in
theorem accepted_sublist : (accepted trace).Sublist (offered trace) := by
  unfold accepted offered
  induction outputs trace with
  | nil => exact .slnil
  | cons o outs ih =>
    rcases o with a | ⟨a, e⟩ | ⟨batch, ok⟩
    · exact ih.cons_cons a
    · exact ih.cons a
    · exact ih

omit [F64 F] in
/-- A batch that the task is done with was acknowledged or has failed. -/
theorem length_posted :
    (acknowledged trace).length = (outputs trace).countP (DispatchOutput.isPosted true) ∧
    (posted trace).length = (outputs trace).countP (DispatchOutput.isPosted true) +
      (outputs trace).countP (DispatchOutput.isPosted false) := by
  unfold acknowledged posted
  induction outputs trace with
  | nil => exact ⟨rfl, rfl⟩
  | cons o outs ih =>
    obtain ⟨hacknowledged, hposted⟩ := ih
    rcases o with a | ⟨a, e⟩ | ⟨batch, _ | _⟩
    · exact ⟨hacknowledged, hposted⟩
    · exact ⟨hacknowledged, hposted⟩
    · refine ⟨hacknowledged, ?_⟩
      simp only [List.filterMap_cons, DispatchOutput.batch, List.length_cons, hposted,
        List.countP_cons, DispatchOutput.isPosted]
      simp [Nat.add_assoc]
    · have hdone : DispatchOutput.isPosted true (.posted batch true :
          DispatchOutput AlertmanagerAlert) = true := rfl
      refine ⟨?_, ?_⟩
      · rw [List.filter_cons_of_pos hdone, List.countP_cons_of_pos hdone, ← hacknowledged]
        rfl
      · rw [List.countP_cons_of_pos hdone, List.countP_cons_of_neg Bool.false_ne_true]
        simp only [List.filterMap_cons, DispatchOutput.batch, List.length_cons, hposted]
        omega

omit [F64 F] in
theorem acknowledged_sublist : (acknowledged trace).Sublist (posted trace) :=
  (List.filter_sublist).filterMap _

variable (fmt : WireFormat F) (amSink : Bool) (amGeneratorUrl : Option String)

/-- **Every pushed alert is accounted for**: after every interleaving, the alerts that the turns
push are those pushed so far and those that the turn in progress has still to push; what was pushed
is accepted in its order, except for as many alerts as are counted as dropped; what was accepted is
posted in its order, except for at most 320 alerts that are on their way; and the batches are
counted as acknowledged or failed. -/
theorem deliveries_accounted (l : MainLoop F) (steps : List (SystemStep n)) :
    let trace := (new l).trace fmt amSink amGeneratorUrl steps
    let s := (new l).after fmt amSink amGeneratorUrl steps
    let count := (registry trace).count
    offered trace ++ s.unsent.getD [] =
      (l.turns fmt amSink amGeneratorUrl (events trace)).flatMap (·.pushes) ∧
    (accepted trace).Sublist (offered trace) ∧
    (offered trace).length =
      (accepted trace).length + count (.bare "xdp_alertmanager_dropped_total") ∧
    (∃ waiting, (posted trace).flatten ++ waiting = accepted trace ∧ waiting.length ≤ 320) ∧
    (acknowledged trace).Sublist (posted trace) ∧
    (acknowledged trace).length = count (.pushTotal true) ∧
    (posted trace).length = count (.pushTotal true) + count (.pushTotal false) := by
  intro trace s count
  have h : Agrees fmt amSink amGeneratorUrl l trace s :=
    agrees_after fmt amSink amGeneratorUrl l steps
  obtain ⟨hacknowledged, hposted⟩ := length_posted trace
  obtain ⟨waiting, horder, hlength, -⟩ := h.faithful.waiting
  refine ⟨h.pushes, accepted_sublist trace, h.dropped,
    ⟨waiting, horder, hlength⟩, acknowledged_sublist trace, ?_, ?_⟩
  · exact hacknowledged.trans (h.batches true).symm
  · rw [hposted]
    exact congrArg₂ (· + ·) (h.batches true).symm (h.batches false).symm

/-- While nothing is counted as lost, what is acknowledged is the beginning of what is pushed. -/
theorem acknowledged_prefix (l : MainLoop F) (steps : List (SystemStep n)) :
    let trace := (new l).trace fmt amSink amGeneratorUrl steps
    (registry trace).count (.bare "xdp_alertmanager_dropped_total") = 0 →
      (registry trace).count (.pushTotal false) = 0 →
      (acknowledged trace).flatten <+:
        (l.turns fmt amSink amGeneratorUrl (events trace)).flatMap (·.pushes) := by
  intro trace hdropped hfailed
  have h := agrees_after fmt amSink amGeneratorUrl l steps
  have haccepted : accepted trace = offered trace := by
    apply (accepted_sublist trace).eq_of_length
    have hlength := h.dropped
    rw [hdropped, Nat.add_zero] at hlength
    exact hlength.symm
  have hacknowledged : acknowledged trace = posted trace := by
    apply (acknowledged_sublist trace).eq_of_length
    obtain ⟨hcount, hposted⟩ := length_posted trace
    have hfailures := h.batches false
    rw [hfailed] at hfailures
    rw [hcount, hposted, ← hfailures, Nat.add_zero]
  rw [hacknowledged]
  refine List.IsPrefix.trans ?_ (h.pushes ▸ List.prefix_append _ _)
  obtain ⟨waiting, horder, -⟩ := h.faithful.waiting
  rw [← haccepted, ← horder]
  exact List.prefix_append _ _

/-- **Alertmanager acknowledges sessions**: from an accepted configuration, while the counters say
that nothing was dropped and no batch has failed, the alerts of the acknowledged batches are, under
each label set, a stream of sessions, closed by those with an end. -/
theorem acknowledged_sessions (debug : String → String) (config : Option (Config F))
    (detectors : ResolvedDetectors F) (resolved : ResolvedConfig F)
    (h : resolveAll debug config = .ok (detectors, resolved)) (now : Instant)
    (steps : List (SystemStep n)) :
    let trace := (new (.new detectors now)).trace fmt true amGeneratorUrl steps
    (registry trace).count (.bare "xdp_alertmanager_dropped_total") = 0 →
      (registry trace).count (.pushTotal false) = 0 →
      ∃ stream : List Push, stream.map (·.alert) = (acknowledged trace).flatten ∧
        (∀ p ∈ stream, p.alert.labels = p.subject.labels ∧
          (p.alert.endsAt.isSome = true ↔ p.signal = .closes)) ∧
        ∀ labels, (stream.filter (·.alert.labels = labels)).map (·.signal) ∈ Session.streams := by
  intro trace hdropped hfailed
  have hprefix := acknowledged_prefix fmt true amGeneratorUrl _ steps hdropped hfailed
  let all := (MainLoop.new detectors now).pushStream fmt amGeneratorUrl (events trace)
  have hall : all.map (·.alert) = ((MainLoop.new detectors now).turns fmt true amGeneratorUrl
      (events trace)).flatMap (·.pushes) := MainLoop.alert_pushStream ..
  have hfaithful := MainLoop.faithful_pushStream fmt amGeneratorUrl (.new detectors now)
    (events trace)
  let stream := all.take (acknowledged trace).flatten.length
  have hmem : ∀ p ∈ stream, p ∈ all := fun p hp => List.mem_of_mem_take hp
  refine ⟨stream, ?_, fun p hp => hfaithful p (hmem p hp),
    MainLoop.sessions_of_follow (fun p hp => (hfaithful p (hmem p hp)).1) fun x => ?_⟩
  · rw [List.map_take, hall]
    exact (List.prefix_iff_eq_take.mp hprefix).symm
  · -- the pushes up to here follow on because all of them do
    have hfollow := MainLoop.follow_pushStream fmt amGeneratorUrl h now (events trace) x
    rw [← List.take_append_drop (acknowledged trace).flatten.length
        ((MainLoop.new detectors now).pushStream fmt amGeneratorUrl (events trace)),
      List.filter_append, List.map_append, Session.follow_append] at hfollow
    obtain ⟨isOpen, hopen, -⟩ := Option.bind_eq_some_iff.mp hfollow
    exact ⟨isOpen, hopen⟩

/-- A poll, an arm of the loop, and the end of both turns. -/
def pollAndTake (timestamp : Instant) (arm : Arm) : List (SystemStep n) :=
  List.replicate 5 (.read .bucket) ++
    [.arm (.statsPoll true timestamp timestamp), .publish, .arm arm, .publish]

/-- An ICMP frame of 60 bytes. -/
def icmpFrame : Frame :=
  List.replicate 12 0 ++ [0x08, 0x00, 0x45, 0, 0, 46] ++ List.replicate 5 0 ++ [1] ++
    List.replicate 36 0

/-- Four ICMP frames in a second are an emergency in the built-in configuration, and none in the
next second resolve it. The first request is lost. -/
theorem acknowledged_sessions_icmp :
    let fmt : WireFormat ℚ := ⟨Nat.repr, fun _ _ => ""⟩
    let eval (secs : ℕ) : Arm := .anomalyEval ⟨secs * 1000000000, fun _ => AlertKey.order,
      AlertKey.order, secs, secs * 1000000000, AlertKey.order⟩
    let collect : List (SystemStep 1) := [.push, .publish, .task .recv, .task .tryRecv]
    let steps := pollAndTake 1000000000 (eval 1) ++
      List.replicate 4 (.cpu (.count 0 icmpFrame)) ++ pollAndTake 2000000000 (eval 2) ++
      collect ++ [.task (.post .transportError), .task (.post .success)] ++
      pollAndTake 3000000000 (eval 3) ++ collect ++ [.task (.post .success)]
    ∃ detectors resolved, resolveAll String.quote none = .ok (detectors, resolved) ∧
      let trace := (new (.new detectors 0)).trace fmt true none steps
      (acknowledged trace).map (·.map (·.endsAt)) = [[none], [some "3"]] ∧
      ∃ stream : List Push, stream.map (·.alert) = (acknowledged trace).flatten ∧
        ∀ labels, (stream.filter (·.alert.labels = labels)).map (·.signal) ∈ Session.streams := by
  intro fmt eval collect steps
  obtain ⟨stream, hacknowledged, -, hstreams⟩ :=
    acknowledged_sessions fmt none String.quote none _ _ rfl 0 steps (by decide +kernel)
      (by decide +kernel)
  exact ⟨_, _, rfl, by decide +kernel, stream, hacknowledged, hstreams⟩

/-! ## Bounded registration -/

omit [F64 F] in
theorem registers_metrics {o : DispatchOutput AlertmanagerAlert} {op : MetricOp F}
    (hop : op ∈ o.metrics) : Registers op := by
  unfold DispatchOutput.metrics at hop
  rcases o with _ | ⟨_, _ | _⟩ | ⟨_, ok⟩ <;> simp only [List.mem_singleton, List.not_mem_nil] at hop
  · subst hop
    exact List.mem_toFinset.mpr (by decide)
  · subst hop
    have hmem : ∀ ok, Series.pushTotal ok ∈ counterSeries := by decide
    exact List.mem_toFinset.mpr (hmem ok)

/-- **The registry stays small**: whatever frames the CPUs see and whatever the steps, the process
registers no series but the 136 that the protocols, the kinds and the lifecycles give. -/
theorem registry_within (l : MainLoop F) (steps : List (SystemStep n)) :
    let reg := registry ((new l).trace fmt amSink amGeneratorUrl steps)
    reg.Within gaugeSeries.toFinset counterSeries.toFinset ∧
      reg.gauges.keys.card ≤ 99 ∧ reg.counters.keys.card ≤ 37 := by
  intro reg
  have h := agrees_after fmt amSink amGeneratorUrl l steps
  have hwithin : reg.Within gaugeSeries.toFinset counterSeries.toFinset := by
    refine Registry.within_record (Registry.within_empty _ _) fun op hop => ?_
    obtain ⟨o, ho, hop⟩ := List.mem_flatMap.mp hop
    rcases List.mem_append.mp hop with hop | hop
    · exact (h.writesOnly op (List.mem_flatMap.mpr ⟨o, ho, hop⟩)).2
    · obtain ⟨d, -, hop⟩ := List.mem_flatMap.mp hop
      exact registers_metrics hop
  exact ⟨hwithin, (Finset.card_le_card hwithin.gauges).trans card_gaugeSeries,
    (Finset.card_le_card hwithin.counters).trans card_counterSeries⟩

end System

end EbpfXdp
