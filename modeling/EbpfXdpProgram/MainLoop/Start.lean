import EbpfXdpProgram.Config.Reload
import EbpfXdpProgram.MainLoop
import EbpfXdpProgram.Rate.Read

/-!
# No panic

A configuration that is accepted starts the process with managers that track nothing and, if
Alertmanager is enabled, with a URL to push to. With that, neither `maybe_spawn` nor a turn of the
loop panics, as long as the polls return what `read_current_stats` reads (`never_panics`).
-/

namespace EbpfXdp

variable {F : Type} [F64 F]

theorem url_of_enabled {cfg : Option AlertmanagerConfig} {resolved : ResolvedAlertmanagerConfig}
    (h : buildAlertmanager cfg = .ok resolved) (henabled : resolved.enabled = true) :
    ∃ url, resolved.url = some url ∧ url ≠ "" := by
  unfold buildAlertmanager at h
  dsimp only at h
  split_ifs at h with hurl
  · cases h
  · obtain rfl := Except.ok.inj h
    have hcheck : ¬(cfg.bind (·.url)).all (· = "") = true := fun hall =>
      hurl (Bool.and_eq_true_iff.mpr ⟨henabled, hall⟩)
    dsimp only
    cases hu : cfg.bind (·.url) with
    | none =>
      rw [hu] at hcheck
      exact absurd rfl hcheck
    | some url =>
      rw [hu] at hcheck
      exact ⟨url, rfl, by simpa using hcheck⟩

/-- What is accepted has new managers, and an Alertmanager section that was built. -/
theorem started_of_ok {debug : String → String} {config : Option (Config F)}
    {detectors : ResolvedDetectors F} {resolved : ResolvedConfig F}
    (h : resolveAll debug config = .ok (detectors, resolved)) :
    (∃ P : FsmConfig, detectors.synfloodAlertLifecycleManager = .after P []) ∧
    (∃ P : FsmConfig, detectors.portScanAlertLifecycleManager = .after P []) ∧
    ∃ cfg, buildAlertmanager cfg = .ok resolved.alertmanager := by
  cases config with
  | none =>
    obtain ⟨rfl, rfl⟩ := Prod.mk.inj (Except.ok.inj h)
    exact ⟨⟨⟨_, _, _⟩, rfl⟩, ⟨⟨_, _, _⟩, rfl⟩, none, rfl⟩
  | some cfg =>
    have hload : loadConfig debug cfg = .ok (detectors, resolved) := h
    rw [loadConfig_eq] at hload
    obtain ⟨thresholds, -, hload⟩ := bind_ok hload
    obtain ⟨rules, -, hload⟩ := bind_ok hload
    obtain ⟨alertmanager, ham, hload⟩ := bind_ok hload
    obtain ⟨rfl, rfl⟩ := Prod.mk.inj (Except.ok.inj hload)
    exact ⟨⟨⟨_, _, _⟩, rfl⟩, ⟨⟨_, _, _⟩, rfl⟩, cfg.alertmanager, ham⟩

namespace MainLoop

/-- The counters are what `read_current_stats` reads from some map. -/
def FromKernel (curr : TrafficCountersSnapshot) : Prop :=
  ∃ (n : ℕ) (protoStats : PerCpuArray n ProtoIndex.count ProtoStats),
    readCurrentStats protoStats = some curr.stats

theorem length_of_fromKernel {curr : TrafficCountersSnapshot} (h : FromKernel curr) :
    curr.stats.length = ProtoIndex.count := by
  obtain ⟨n, protoStats, hread⟩ := h
  rw [readCurrentStats_eq] at hread
  rw [← Option.some.inj hread]
  rfl

variable (fmt : WireFormat F) (amSink : Bool) (amGeneratorUrl : Option String)

/-- The counters that the loop holds have an entry for every bucket, and it has not panicked. -/
structure Sound (l : MainLoop F) : Prop where
  current : ∀ curr, l.currentCounters = some curr → curr.stats.length = ProtoIndex.count
  prev : ∀ prev, l.prevMixCounters = some prev → prev.stats.length = ProtoIndex.count
  status : l.status ≠ .panicked

theorem Sound.mixAggregation {l : MainLoop F} (h : Sound l) : Sound l.mixAggregation.1 := by
  unfold MainLoop.mixAggregation primeOrDiff
  cases hcurr : l.currentCounters with
  | none => exact h
  | some curr =>
    have hkept : ∀ p, some curr = some p → p.stats.length = ProtoIndex.count := fun p hp =>
      h.current p (hcurr.trans hp)
    cases hprev : l.prevMixCounters with
    | none => exact ⟨hkept, hkept, h.status⟩
    | some prev =>
      refine ⟨hkept, hkept, ?_⟩
      dsimp only
      rw [if_neg]
      · exact h.status
      · rintro ⟨-, hindex⟩
        have hlen := length_diffStats (h.current curr hcurr) (h.prev prev hprev)
        rw [List.getElem?_eq_none_iff, hlen] at hindex
        exact absurd hindex (by decide)

theorem Sound.step {l : MainLoop F} (h : Sound l) {e : LoopEvent}
    (he : ∀ curr now, e = .statsPoll (some curr) now → FromKernel curr) :
    Sound (l.step fmt amSink amGeneratorUrl e).1 := by
  unfold MainLoop.step
  split_ifs
  · unfold turn
    cases e with
    | statsPoll read now =>
      cases read with
      | none => exact h
      | some curr =>
        refine ⟨fun p hp => ?_, h.prev, h.status⟩
        obtain rfl := Option.some.inj hp
        exact length_of_fromKernel (he curr now rfl)
    | mixAggregation => exact h.mixAggregation
    | anomalyEval eval => exact ⟨h.current, h.prev, h.status⟩
    | synfloodEval eval =>
      dsimp only
      unfold synfloodEval
      cases eval.tick.current with
      | none => exact h
      | some curr => exact ⟨h.current, h.prev, h.status⟩
    | portScanEval eval =>
      dsimp only
      unfold portScanEval
      cases eval.tick.current with
      | none => exact h
      | some curr => exact ⟨h.current, h.prev, h.status⟩
    | apiExit =>
      dsimp only
      split_ifs
      · exact h
      · exact ⟨h.current, h.prev, h.status⟩
    | sigint => exact ⟨h.current, h.prev, fun hp => by cases hp⟩
    | sigterm => exact ⟨h.current, h.prev, fun hp => by cases hp⟩
  · exact h

theorem sound_after (detectors : ResolvedDetectors F) (now : Instant) (events : List LoopEvent)
    (hreads : ∀ curr t, .statsPoll (some curr) t ∈ events → FromKernel curr) :
    Sound ((new detectors now).after fmt amSink amGeneratorUrl events) := by
  refine Run.exec_history (P := fun events => ∀ curr t, .statsPoll (some curr) t ∈ events →
    FromKernel curr) (R := fun _ l => Sound l) (fun past e h curr t hmem => ?_) ?_
    (fun past e h hl => ?_) events hreads
  · exact h curr t (List.mem_append_left _ hmem)
  · refine ⟨fun p hp => ?_, fun p hp => ?_, fun hp => ?_⟩ <;> cases hp
  · exact hl.step _ _ _ fun curr t he =>
      h curr t (List.mem_append_right _ (List.mem_singleton.mpr he.symm))

/-- **The process does not panic**: an accepted configuration gives `maybe_spawn` its URL, and no
run of the loop on counters from the kernel indexes a bucket that is not there. -/
theorem never_panics (debug : String → String) (config : Option (Config F))
    (detectors : ResolvedDetectors F) (resolved : ResolvedConfig F)
    (h : resolveAll debug config = .ok (detectors, resolved)) (client : Bool) (now : Instant)
    (events : List LoopEvent)
    (hreads : ∀ curr t, .statsPoll (some curr) t ∈ events → FromKernel curr) :
    ∃ sink, maybeSpawn resolved.alertmanager client = .ok sink ∧
      ((new detectors now).after fmt sink resolved.alertmanager.generatorUrl events).status ≠
        .panicked := by
  obtain ⟨-, -, cfg, ham⟩ := started_of_ok h
  have hspawn : ∃ sink, maybeSpawn resolved.alertmanager client = .ok sink := by
    unfold maybeSpawn
    cases henabled : resolved.alertmanager.enabled with
    | false => exact ⟨false, rfl⟩
    | true =>
      obtain ⟨url, hurl, -⟩ := url_of_enabled ham henabled
      rw [hurl]
      exact ⟨client, rfl⟩
  obtain ⟨sink, hsink⟩ := hspawn
  exact ⟨sink, hsink, (sound_after fmt sink _ detectors now events hreads).status⟩

/-- A poll of one CPU that has counted the same in every bucket. -/
def evenPoll (packets : ℕ) (timestamp : Instant) : TrafficCountersSnapshot :=
  ⟨timestamp, List.replicate 5 ⟨packets, 60 * packets⟩⟩

/-- A read of the SYN counters in which one source has sent `packets` SYNs. -/
def floodEval (secs packets : ℕ) : LoopEvent := .synfloodEval
  { tick :=
      { current := some ⟨secs * 1000000000, (∅ : Table UInt32 SynCounter).insert 1 ⟨packets, 0⟩⟩
        now := secs * 1000000000
        counterOrder := .byRank UInt32.toNat fun _ _ => UInt32.toNat.inj
        order := Ipv4Addr.order }
    wall := secs * 1000000000
    shown := Ipv4Addr.order }

/-- Two mix windows with the built-in configuration. -/
theorem never_panics_even :
    let fmt : WireFormat ℚ := ⟨Nat.repr, fun _ _ => ""⟩
    let resolved : ResolvedConfig ℚ := defaultResolvedConfig
    ∃ detectors, resolveAll String.quote none = .ok (detectors, resolved) ∧
      ∃ sink, maybeSpawn resolved.alertmanager true = .ok sink ∧
        ((new detectors 0).after fmt sink resolved.alertmanager.generatorUrl
          [.statsPoll (some (evenPoll 0 1)) 1, .mixAggregation,
            .statsPoll (some (evenPoll 7 2)) 2, .mixAggregation]).status ≠ .panicked := by
  intro fmt resolved
  refine ⟨_, rfl, never_panics fmt String.quote none _ resolved rfl true 0 _ ?_⟩
  intro curr t hpoll
  have hread : ∀ packets, readCurrentStats (n := 1) (fun _ _ => ⟨packets, 60 * packets⟩) =
      some (List.replicate 5 ⟨packets, 60 * packets⟩) := fun packets => by
    rw [readCurrentStats_eq]
    simp [totalStats]
  simp only [List.mem_cons, List.not_mem_nil, or_false, LoopEvent.statsPoll.injEq,
    Option.some.injEq, reduceCtorEq, false_or] at hpoll
  rcases hpoll with ⟨rfl, -⟩ | ⟨rfl, -⟩
  · exact ⟨1, fun _ _ => ⟨0, 0⟩, hread 0⟩
  · exact ⟨1, fun _ _ => ⟨7, 420⟩, hread 7⟩

end MainLoop

end EbpfXdp
