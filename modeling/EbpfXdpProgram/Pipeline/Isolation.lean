import EbpfXdpProgram.Alert.ProtoView
import EbpfXdpProgram.Pipeline.Runner

/-!
# Protocols do not interfere

Two runs whose snapshots say the same about one protocol cannot be told apart by what they keep and
emit for it. `AlikeFor` is what the two runners share; a tick keeps it (`AlikeFor.step`), since each
of its stages reads of the others' data only what concerns the protocol.
-/

namespace EbpfXdp

variable {F : Type} [F64 F]

/-- The ticks say the same about the protocol: both have a snapshot or none, with the same times and
the same counters for it. -/
structure RunnerTick.AgreeOn (p : ProtoIndex) (t t' : RunnerTick) : Prop where
  current : t.current.map (·.about p) = t'.current.map (·.about p)
  now : t.now = t'.now

namespace AlertLifecycleManager

omit [F64 F] in
theorem mem_frozenProtos_iff {m : AlertLifecycleManager F} {time : Instant} {p : ProtoIndex} :
    p ∈ m.frozenProtos time ↔ ∃ kind, freezes m time ⟨p, kind⟩ = true := by
  unfold frozenProtos
  simp only [Finset.mem_image, Finset.mem_filter, Table.mem_keys]
  constructor
  · rintro ⟨⟨proto, kind⟩, ⟨-, hfreezes⟩, rfl⟩
    exact ⟨kind, hfreezes⟩
  · rintro ⟨kind, hfreezes⟩
    refine ⟨⟨p, kind⟩, ⟨?_, hfreezes⟩, rfl⟩
    unfold freezes at hfreezes
    cases hs : m.states.lookup ⟨p, kind⟩ with
    | none =>
      rw [hs] at hfreezes
      exact absurd hfreezes Bool.false_ne_true
    | some state => rfl

omit [F64 F] in
theorem frozen_congr {m m' : AlertLifecycleManager F} {p : ProtoIndex} (hrules : m.rules = m'.rules)
    (hslots : m.protoSlots p = m'.protoSlots p) (time : Instant) :
    p ∈ m.frozenProtos time ↔ p ∈ m'.frozenProtos time := by
  rw [mem_frozenProtos_iff, mem_frozenProtos_iff]
  refine exists_congr fun kind => ?_
  have hlookup : m.states.lookup ⟨p, kind⟩ = m'.states.lookup ⟨p, kind⟩ := congrFun hslots kind
  unfold freezes
  rw [hlookup, hrules]

theorem view_congr {m m' : AlertLifecycleManager F} {p : ProtoIndex} {t t' : ProtoTick F}
    (hrules : m.rules = m'.rules) (hslots : m.protoSlots p = m'.protoSlots p)
    (hsignals : t.signals.filter (·.proto = p) = t'.signals.filter (·.proto = p))
    (hnow : t.now = t'.now) : protoView (step m t) p = protoView (step m' t') p := by
  have hactive : ∀ kind, (m.collectActive t.signals).lookup ⟨p, kind⟩ =
      (m'.collectActive t'.signals).lookup ⟨p, kind⟩ := by
    intro kind
    rw [lookup_collectActive_proto m, lookup_collectActive_proto m', hsignals, collectActive_eq,
      collectActive_eq, hrules]
  unfold step
  rw [tick_proto, tick_proto, hrules, hslots, hnow, funext hactive]

end AlertLifecycleManager

namespace AnomalyRunner

/-- What two runners share for a protocol. -/
structure AlikeFor (p : ProtoIndex) (a b : AnomalyRunner F) : Prop where
  prev : a.prevCounters.map (·.about p) = b.prevCounters.map (·.about p)
  ewmas : a.baseline.ewmas p = b.baseline.ewmas p
  gates : a.baseline.gates = b.baseline.gates
  elapsed : a.baseline.elapsedTicks = b.baseline.elapsedTicks
  detector : a.emergencyDetector = b.emergencyDetector
  rules : a.alertLifecycleManager.rules = b.alertLifecycleManager.rules
  slots : a.alertLifecycleManager.protoSlots p = b.alertLifecycleManager.protoSlots p

omit [F64 F] in
theorem AlikeFor.refl (p : ProtoIndex) (r : AnomalyRunner F) : AlikeFor p r r :=
  ⟨rfl, rfl, rfl, rfl, rfl, rfl, rfl⟩

namespace AlikeFor

variable {p : ProtoIndex} {a b : AnomalyRunner F} {t t' : RunnerTick}

theorem ratesOf (h : AlikeFor p a b) (ht : t.AgreeOn p t') : ratesOf p a t = ratesOf p b t' := by
  rw [ratesOf_eq, ratesOf_eq, h.prev, ht.current]

theorem snapshot (h : AlikeFor p a b) :
    a.baseline.advance.snapshot p = b.baseline.advance.snapshot p :=
  EwmaEstimator.snapshot_congr h.ewmas h.gates (congrArg (· + 1) h.elapsed)

theorem signals (h : AlikeFor p a b) (ht : t.AgreeOn p t') :
    (a.signals t).filter (·.proto = p) = (b.signals t').filter (·.proto = p) := by
  have hrates : (a.rates t).filter (·.proto = p) = (b.rates t').filter (·.proto = p) :=
    h.ratesOf ht
  unfold AnomalyRunner.signals
  rw [List.filter_append, List.filter_append, EwmaDetector.filter_detect,
    EwmaDetector.filter_detect, EmergencyDetector.filter_detect, EmergencyDetector.filter_detect,
    hrates, h.snapshot, h.detector]

theorem view (h : AlikeFor p a b) (ht : t.AgreeOn p t') :
    AlertLifecycleManager.protoView (a.alertLifecycleManager.step (a.protoTick t)) p =
      AlertLifecycleManager.protoView (b.alertLifecycleManager.step (b.protoTick t')) p :=
  AlertLifecycleManager.view_congr h.rules h.slots (h.signals ht) ht.now

end AlikeFor

def emittedFor (p : ProtoIndex) (out : AnomalyRunner F × TickAlerts (AlertEvent F) (Alert F)) :
    List (AlertEvent F) × List (Alert F) :=
  (out.2.transitions.filter (·.alert.proto = p), out.2.heartbeats.filter (·.proto = p))

section Step

variable {p : ProtoIndex} {a b : AnomalyRunner F} {t t' : RunnerTick}

omit [F64 F] in
theorem skipped_iff (h : AlikeFor p a b) (ht : t.AgreeOn p t') :
    (a.prevCounters = none ∨ t.current = none) ↔ (b.prevCounters = none ∨ t'.current = none) := by
  rw [← Option.map_eq_none_iff (f := (·.about p)), h.prev, Option.map_eq_none_iff,
    ← Option.map_eq_none_iff (x := t.current) (f := (·.about p)), ht.current,
    Option.map_eq_none_iff]

theorem AlikeFor.step_of (h : AlikeFor p a b) (ht : t.AgreeOn p t')
    (hewmas : (AnomalyRunner.step a t).1.baseline.ewmas p =
      (AnomalyRunner.step b t').1.baseline.ewmas p)
    (hslots : (AnomalyRunner.step a t).1.alertLifecycleManager.protoSlots p =
      (AnomalyRunner.step b t').1.alertLifecycleManager.protoSlots p) :
    AlikeFor p (AnomalyRunner.step a t).1 (AnomalyRunner.step b t').1 where
  prev := by
    rw [prevCounters_step, prevCounters_step, Option.map_or, Option.map_or, h.prev, ht.current]
  ewmas := hewmas
  gates := by rw [gates_step, gates_step, h.gates]
  elapsed := by rw [elapsedTicks_step, elapsedTicks_step, h.elapsed]
  detector := by rw [emergencyDetector_step, emergencyDetector_step, h.detector]
  rules := by rw [rules_step, rules_step, h.rules]
  slots := hslots

/-- **One tick**: the runners stay alike for the protocol, and emit the same for it. -/
theorem AlikeFor.step (h : AlikeFor p a b) (ht : t.AgreeOn p t') :
    AlikeFor p (AnomalyRunner.step a t).1 (AnomalyRunner.step b t').1 ∧
      emittedFor p (AnomalyRunner.step a t) = emittedFor p (AnomalyRunner.step b t') := by
  rcases processed_or_skipped a t with hskip | ⟨prev, curr, hp, hc⟩
  · obtain ⟨hbase, hmanager, hout⟩ := step_skipped hskip
    obtain ⟨hbase', hmanager', hout'⟩ := step_skipped ((skipped_iff h ht).mp hskip)
    refine ⟨h.step_of ht ?_ ?_, ?_⟩
    · rw [hbase, hbase', EwmaEstimator.ewmas_advance, EwmaEstimator.ewmas_advance, h.ewmas]
    · rw [hmanager, hmanager', h.slots]
    · unfold emittedFor
      rw [hout, hout']
  · rcases processed_or_skipped b t' with hskip' | ⟨prev', curr', hp', hc'⟩
    · have hskip := (skipped_iff h ht).mpr hskip'
      rw [hp, hc] at hskip
      simp at hskip
    obtain ⟨hbase, hmanager, hout⟩ := step_processed hp hc
    obtain ⟨hbase', hmanager', hout'⟩ := step_processed hp' hc'
    have hview := h.view ht
    have hslots := congrArg ProtoView.slots hview
    have htime : curr.timestamp = curr'.timestamp := by
      have hcurrent := ht.current
      rw [hc, hc'] at hcurrent
      exact congrArg Prod.fst (Option.some.inj hcurrent)
    refine ⟨h.step_of ht ?_ ?_, ?_⟩
    · have hfrozen := AlertLifecycleManager.frozen_congr
        (((AlertLifecycleManager.rules_step ..).trans h.rules).trans
          (AlertLifecycleManager.rules_step ..).symm) hslots curr.timestamp
      have hrates : (a.rates t).filter (·.proto = p) = (b.rates t').filter (·.proto = p) :=
        h.ratesOf ht
      rw [hbase, hbase', EwmaEstimator.ewmas_update_filter, EwmaEstimator.ewmas_update_filter,
        EwmaEstimator.ewmas_advance, EwmaEstimator.ewmas_advance, h.ewmas, filter_unfrozen,
        filter_unfrozen, hrates, ← htime, if_congr hfrozen rfl rfl]
    · rw [hmanager, hmanager']
      exact hslots
    · unfold emittedFor
      rw [hout, hout']
      exact Prod.ext (congrArg ProtoView.events hview) (congrArg ProtoView.heartbeats hview)

end Step

/-- **Protocols do not interfere**: of two runs whose ticks agree on a protocol, each tick has the
same rate for it and judges it against the same baseline, and leaves the same EWMAs, readiness,
frozen status and FSMs, and emits the same for it. -/
theorem protocols_isolated (r : AnomalyRunner F) (p : ProtoIndex) {past past' : List RunnerTick}
    {t t' : RunnerTick} (hpast : List.Forall₂ (RunnerTick.AgreeOn p) past past')
    (ht : t.AgreeOn p t') :
    let a := after r past
    let b := after r past'
    let a' := (step a t).1
    let b' := (step b t').1
    ratesOf p a t = ratesOf p b t' ∧
    a.baseline.advance.snapshot p = b.baseline.advance.snapshot p ∧
    a'.baseline.ewmas p = b'.baseline.ewmas p ∧
    a'.baseline.snapshot p = b'.baseline.snapshot p ∧
    (∀ time, p ∈ a'.alertLifecycleManager.frozenProtos time ↔
      p ∈ b'.alertLifecycleManager.frozenProtos time) ∧
    (∀ kind, a'.alertLifecycleManager.states.lookup ⟨p, kind⟩ =
      b'.alertLifecycleManager.states.lookup ⟨p, kind⟩) ∧
    emittedFor p (step a t) = emittedFor p (step b t') := by
  intro a b a' b'
  have halike : AlikeFor p a b :=
    Run.exec_rel (fun _ _ _ _ h ht => (h.step ht).1) (AlikeFor.refl p r) hpast
  obtain ⟨hnext, hout⟩ := halike.step ht
  exact ⟨halike.ratesOf ht, halike.snapshot, hnext.ewmas,
    EwmaEstimator.snapshot_congr hnext.ewmas hnext.gates hnext.elapsed,
    AlertLifecycleManager.frozen_congr hnext.rules hnext.slots, congrFun hnext.slots, hout⟩

/-- An ICMP emergency is the same whatever TCP does. -/
theorem protocols_isolated_emergency :
    let counters : ℕ → ℕ → List TrafficCounters := fun icmp tcp =>
      [⟨icmp, 0⟩, ⟨tcp, 0⟩, ⟨0, 0⟩, ⟨0, 0⟩, ⟨0, 0⟩]
    let tick : ℕ → ℕ → ℕ → RunnerTick := fun now icmp tcp =>
      ⟨some ⟨now, counters icmp tcp⟩, now, fun _ => AlertKey.order⟩
    let r : AnomalyRunner ℚ := new (.new 0.4 5 0.001 4) ⟨[⟨.icmp, some 3, none⟩]⟩
      (.new defaultAlertRules)
    emittedFor .icmp (step (after r [tick 0 0 0]) (tick 30000000000 1000 0)) =
        emittedFor .icmp (step (after r [tick 0 0 7]) (tick 30000000000 1000 90000)) ∧
      emittedFor .icmp (step (after r [tick 0 0 0]) (tick 30000000000 1000 0)) ≠ ([], []) := by
  intro counters tick r
  have hpast : List.Forall₂ (RunnerTick.AgreeOn .icmp) [tick 0 0 0] [tick 0 0 7] :=
    .cons ⟨rfl, rfl⟩ .nil
  have ht : (tick 30000000000 1000 0).AgreeOn .icmp (tick 30000000000 1000 90000) := ⟨rfl, rfl⟩
  have h := protocols_isolated r .icmp hpast ht
  exact ⟨h.2.2.2.2.2.2, by decide +kernel⟩

end AnomalyRunner

end EbpfXdp
