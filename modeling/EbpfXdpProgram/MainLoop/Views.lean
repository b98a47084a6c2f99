import EbpfXdpProgram.Alert.IpBound
import EbpfXdpProgram.MainLoop.Stream
import EbpfXdpProgram.Rate.PortScan

/-!
# What the API shows of the sources

The loop writes the API state after each tick, so that `/synflood` and `/portscan` always answer
about the runners as they are. The manager has ticked on the same sources that are shown, and so a
row is pending or firing wherever its value is above the limit (`offenders_shown`).
-/

namespace EbpfXdp

open F64 Ranking

variable {F : Type} [F64 F]

/-! ## The rows after a tick -/

namespace IpAlertLifecycleManager

variable {S A : Type} [IpKeyed S] [FromIpSignal S A] [AlertIp A] [LawfulFromIpSignal S A]

/-- A tick leaves a source with a signal pending or firing, and one without is not pending. -/
theorem phase_step (m : IpAlertLifecycleManager S A) (t : IpTick S) (ip : Ipv4Addr) :
    ((t.sees ip).active = true → ((step m t).1.slotState ip).phase ≠ .inactive) ∧
      ((t.sees ip).active = false → ((step m t).1.slotState ip).phase ≠ .pending) := by
  obtain ⟨hlookup, -⟩ := tick_slot t.order m t.signals t.now ip
  have hslot : (step m t).1.slotState ip = _ :=
    congrArg (fun state => Option.getD state AlertState.new) hlookup
  rw [hslot]
  refine ⟨fun ha => ?_, fun ha => ?_⟩
  · have hsignal : (signalFor t.signals ip).isSome = true := ha
    rw [if_pos (.inl hsignal), hsignal]
    apply AlertState.phase_advance_active
  · have hsignal : (signalFor t.signals ip).isSome = false := ha
    rw [hsignal]
    simp only [Bool.false_eq_true, false_or]
    split_ifs
    · apply AlertState.phase_advance_quiet
    · decide

end IpAlertLifecycleManager

/-- The rows have distinct sources; one above the limit is pending or firing, and a pending one is
above the limit. -/
structure RowsShown {S A T : Type} (srcIp : T → Ipv4Addr) (above : T → Prop) (top : List T)
    (m : IpAlertLifecycleManager S A) : Prop where
  distinct : (top.map srcIp).Nodup
  tracked : ∀ r ∈ top, above r → (m.slotState (srcIp r)).phase ≠ .inactive
  pending : ∀ r ∈ top, (m.slotState (srcIp r)).phase = .pending → above r

section Rows

variable {S A T : Type} {srcIp : T → Ipv4Addr} {above : T → Prop}

theorem rowsShown_nil (m : IpAlertLifecycleManager S A) : RowsShown srcIp above [] m :=
  ⟨List.nodup_nil, fun _ h => absurd h List.not_mem_nil, fun _ h => absurd h List.not_mem_nil⟩

theorem rowsShown_step [IpKeyed S] [FromIpSignal S A] [AlertIp A] [LawfulFromIpSignal S A]
    {top : List T} (m : IpAlertLifecycleManager S A) (t : IpTick S)
    (hdistinct : (top.map srcIp).Nodup)
    (hsources : ∀ ip, (∃ s ∈ t.signals, IpKeyed.srcIp s = ip) ↔ ∃ r ∈ top, above r ∧ srcIp r = ip) :
    RowsShown srcIp above top (IpAlertLifecycleManager.step m t).1 := by
  have hactive : ∀ r ∈ top, (t.sees (srcIp r)).active = true ↔ above r := fun r hr => by
    refine (IpAlertLifecycleManager.signalFor_isSome.trans (hsources (srcIp r))).trans
      ⟨?_, fun habove => ⟨r, hr, habove, rfl⟩⟩
    rintro ⟨r', hr', habove, hip⟩
    rwa [← List.inj_on_of_nodup_map hdistinct hr' hr hip]
  refine ⟨hdistinct, fun r hr habove => ?_, fun r hr hpending => ?_⟩
  · exact (m.phase_step t (srcIp r)).1 ((hactive r hr).mpr habove)
  · by_contra hbelow
    have hquiet := Bool.eq_false_iff.mpr (mt (hactive r hr).mp hbelow)
    exact (m.phase_step t (srcIp r)).2 hquiet hpending

end Rows

/-! ## The runners -/

theorem nodup_computeSynRatesTopN (o : IterOrder UInt32) (prev curr : SynCountersSnapshot) (n : ℕ) :
    ((computeSynRatesTopN o prev curr n : List (SynIpRate F)).map (·.srcIp)).Nodup := by
  unfold computeSynRatesTopN
  cases (dtSecs prev.timestamp curr.timestamp : Option F) with
  | none => exact List.nodup_nil
  | some dt =>
    apply nodup_map_best
    refine List.Nodup.sublist (List.filter_sublist.map _) ?_
    rw [List.map_filterMap]
    refine (o.nodup _).filterMap fun k k' ip hk hk' => ?_
    simp only [Option.mem_def, Option.map_map, Option.map_eq_some_iff, Function.comp_apply] at hk hk'
    obtain ⟨-, -, hk⟩ := hk
    obtain ⟨-, -, hk'⟩ := hk'
    exact congrArg Ipv4Addr.bits (hk.trans hk'.symm)

/-- The rows of the runner are those of its manager, and no more than are reported. -/
structure SynFloodRunner.Shown (r : SynFloodRunner F) : Prop where
  rows : RowsShown SynIpRate.srcIp (fun s => lt r.detector.maxSynPps s.pps = true) r.lastTopN
    r.alertLifecycleManager
  length_le : r.lastTopN.length ≤ r.detector.topN

theorem SynFloodRunner.detector_step (r : SynFloodRunner F) (t : SynTick) :
    (r.step t).1.detector = r.detector := by
  unfold step primeOrDiff
  rcases t.current with _ | curr
  · rfl
  · rcases r.prevSnapshot with _ | prev <;> rfl

theorem SynFloodRunner.Shown.step {r : SynFloodRunner F} (h : r.Shown) (t : SynTick) :
    (r.step t).1.Shown := by
  rcases r.processed_or_skipped t with hskip | ⟨prev, curr, hprev, hcurr⟩
  · obtain ⟨hmanager, htop, -⟩ := skipped hskip
    refine ⟨?_, ?_⟩
    · rw [hmanager, htop, detector_step]
      exact h.rows
    · rw [htop, detector_step]
      exact h.length_le
  · obtain ⟨hmanager, htop, -⟩ := processed hprev hcurr
    refine ⟨?_, ?_⟩
    · rw [hmanager, htop, detector_step]
      refine rowsShown_step _ _ (nodup_computeSynRatesTopN ..) fun ip => ?_
      unfold SynFloodDetector.managerTick SynFloodDetector.detect
      simp only [List.mem_map, List.mem_filter]
      constructor
      · rintro ⟨-, ⟨s, ⟨hs, habove⟩, rfl⟩, rfl⟩
        exact ⟨s, hs, habove, rfl⟩
      · rintro ⟨s, hs, habove, rfl⟩
        exact ⟨_, ⟨s, ⟨hs, habove⟩, rfl⟩, rfl⟩
    · rw [htop, detector_step]
      unfold computeSynRatesTopN
      cases (dtSecs prev.timestamp curr.timestamp : Option F) with
      | none => exact Nat.zero_le _
      | some dt => exact List.length_take_le ..

/-- The rows of the runner are those of its manager, and no more than are reported. -/
structure PortScanRunner.Shown (r : PortScanRunner F) : Prop where
  rows : RowsShown PortScanIpBreadth.srcIp (fun b => r.detector.maxDistinctPorts < b.distinctPorts)
    r.lastTopN r.alertLifecycleManager
  length_le : r.lastTopN.length ≤ r.detector.topN

theorem PortScanRunner.detector_step (r : PortScanRunner F) (t : PortScanTick) :
    (r.step t).1.detector = r.detector := by
  unfold step
  rcases t.current with _ | curr <;> rfl

theorem PortScanRunner.Shown.step {r : PortScanRunner F} (h : r.Shown) (t : PortScanTick) :
    (r.step t).1.Shown := by
  cases hcurr : t.current with
  | none =>
    rw [(skipped hcurr).1]
    exact h
  | some curr =>
    obtain ⟨hmanager, htop, -⟩ := processed (r := r) hcurr
    have hwidest : Widest (distinctPorts curr r.detector.windowNs)
        (freshSources curr r.detector.windowNs) r.detector.topN _ :=
      widest_computePortScanBreadth t.touchOrder t.groupOrder
    refine ⟨?_, ?_⟩
    · rw [hmanager, htop, detector_step]
      refine rowsShown_step _ _ hwidest.distinct fun ip => ?_
      unfold PortScanDetector.managerTick PortScanDetector.detect
      simp only [List.mem_map, List.mem_filter, decide_eq_true_eq]
      constructor
      · rintro ⟨-, ⟨b, ⟨hb, habove⟩, rfl⟩, rfl⟩
        exact ⟨b, hb, habove, rfl⟩
      · rintro ⟨b, hb, habove, rfl⟩
        exact ⟨_, ⟨b, ⟨hb, habove⟩, rfl⟩, rfl⟩
    · rw [htop, detector_step]
      exact hwidest.length_eq.trans_le (Nat.min_le_left ..)

/-! ## The responses -/

/-- A response with at most `n` rows of distinct sources, and the number of tracked ones: a row
above the limit is pending or firing, a pending one is above the limit, and the firing ones are
those whose FSM is. -/
structure Api.Truthful {V : Type} (above : V → Prop) (n tracked : ℕ) (isFiring : Ipv4Addr → Bool)
    (response : Api.OffendersResponse V) : Prop where
  length_le : response.top.length ≤ n
  distinct : (response.top.map (·.srcIp)).Nodup
  alerted : ∀ row ∈ response.top, above row.value →
    row.alertPhase = some "pending" ∨ row.alertPhase = some "firing"
  pending : ∀ row ∈ response.top, row.alertPhase = some "pending" → above row.value
  firing : ∀ row ∈ response.top, ∀ ip : Ipv4Addr, row.srcIp = ip.display →
    (row.alertPhase = some "firing" ↔ isFiring ip = true)
  count : response.activeAlertCount = tracked

/-- The label of a phase tells the phase of a tracked source. -/
theorem IpAlertLifecycleManager.label_iff {S A : Type} (m : IpAlertLifecycleManager S A)
    (ip : Ipv4Addr) :
    ((m.states.lookup ip).map (·.phaseLabel) = some "pending" ↔
      (m.slotState ip).phase = .pending) ∧
    ((m.states.lookup ip).map (·.phaseLabel) = some "firing" ↔
      (m.slotState ip).phase = .firing) := by
  unfold slotState AlertState.phaseLabel
  cases m.states.lookup ip with
  | none => exact ⟨by simp [AlertState.new], by simp [AlertState.new]⟩
  | some s => cases h : s.phase <;> simp [h]

theorem RowsShown.truthful {S A T V : Type} {srcIp : T → Ipv4Addr} {value : T → V}
    {above : V → Prop} {top : List T} {m : IpAlertLifecycleManager S A}
    (h : RowsShown srcIp (fun r => above (value r)) top m) {n : ℕ} (hlength : top.length ≤ n) :
    Api.Truthful above n m.activeCount (fun ip => (m.slotState ip).isFiring)
      (Api.offenders srcIp value top m) := by
  refine ⟨?_, ?_, fun row hrow habove => ?_, fun row hrow hpending => ?_, fun row hrow ip hip => ?_,
    rfl⟩
  · unfold Api.offenders
    rwa [List.length_map]
  · have hnodup := h.distinct.map Ipv4Addr.display_injective
    unfold Api.offenders
    rw [List.map_map] at hnodup ⊢
    exact hnodup
  · obtain ⟨r, hr, rfl⟩ := List.mem_map.mp hrow
    obtain ⟨hpending, hfiring⟩ := m.label_iff (srcIp r)
    have htracked := h.tracked r hr habove
    cases hp : (m.slotState (srcIp r)).phase with
    | inactive => exact absurd hp htracked
    | pending => exact .inl (hpending.mpr hp)
    | firing => exact .inr (hfiring.mpr hp)
  · obtain ⟨r, hr, rfl⟩ := List.mem_map.mp hrow
    exact h.pending r hr ((m.label_iff (srcIp r)).1.mp hpending)
  · obtain ⟨r, hr, rfl⟩ := List.mem_map.mp hrow
    obtain rfl := Ipv4Addr.display_injective hip
    exact (m.label_iff (srcIp r)).2.trans (AlertState.isFiring_iff _).symm

namespace MainLoop

/-- What the API answers about the sources is about the runners as they are. -/
structure OffendersCurrent (detectors : ResolvedDetectors F) (l : MainLoop F) : Prop where
  synflood : Api.synflood l.api = Api.offenders SynIpRate.srcIp SynIpRate.pps
    l.synfloodRunner.lastTopN l.synfloodRunner.alertLifecycleManager
  portScan : Api.portScan l.api = Api.offenders PortScanIpBreadth.srcIp
    PortScanIpBreadth.distinctPorts l.portScanRunner.lastTopN l.portScanRunner.alertLifecycleManager
  synfloodShown : l.synfloodRunner.Shown
  portScanShown : l.portScanRunner.Shown
  synfloodDetector : l.synfloodRunner.detector = detectors.synfloodDetector
  portScanDetector : l.portScanRunner.detector = detectors.portScanDetector

section Current

variable {fmt : WireFormat F} {amSink : Bool} {amGeneratorUrl : Option String}
  {detectors : ResolvedDetectors F} {l : MainLoop F}

theorem SameRunners.current {l' : MainLoop F} (h : SameRunners l l')
    (hl : OffendersCurrent detectors l) : OffendersCurrent detectors l' := by
  have hsyn : Api.synflood l'.api = Api.synflood l.api := by
    unfold Api.synflood
    rw [h.synfloodSnapshot]
  have hport : Api.portScan l'.api = Api.portScan l.api := by
    unfold Api.portScan
    rw [h.portScanSnapshot]
  refine ⟨?_, ?_, ?_, ?_, ?_, ?_⟩
  · rw [hsyn, h.synflood]; exact hl.synflood
  · rw [hport, h.portScan]; exact hl.portScan
  · rw [h.synflood]; exact hl.synfloodShown
  · rw [h.portScan]; exact hl.portScanShown
  · rw [h.synflood]; exact hl.synfloodDetector
  · rw [h.portScan]; exact hl.portScanDetector

theorem OffendersCurrent.step (hl : OffendersCurrent detectors l) (e : LoopEvent) :
    OffendersCurrent detectors (l.step fmt amSink amGeneratorUrl e).1 := by
  have hcase := l.step_cases fmt amSink amGeneratorUrl e
  generalize l.step fmt amSink amGeneratorUrl e = s at hcase ⊢
  cases hcase with
  | silent h => exact h.current hl
  | mix => exact l.sameRunners_mixAggregation.current hl
  | anomaly eval => exact ⟨hl.1, hl.2, hl.3, hl.4, hl.5, hl.6⟩
  | synflood eval hcurr =>
    unfold synfloodEval
    rw [hcurr]
    exact ⟨Api.toView_snapshot .., hl.portScan, hl.synfloodShown.step eval.tick, hl.portScanShown,
      (SynFloodRunner.detector_step ..).trans hl.synfloodDetector, hl.portScanDetector⟩
  | portScan eval hcurr =>
    unfold portScanEval
    rw [hcurr]
    exact ⟨hl.synflood, Api.toView_snapshot .., hl.synfloodShown, hl.portScanShown.step eval.tick,
      hl.synfloodDetector, (PortScanRunner.detector_step ..).trans hl.portScanDetector⟩

/-- **The rows of the API are true**: after every run of the loop from an accepted configuration,
`/synflood` and `/portscan` show at most the configured number of distinct sources. A source above
its limit has an alert that is pending or firing, and one is firing exactly where the FSM of the
source is. -/
theorem offenders_shown (debug : String → String) (config : Option (Config F))
    (resolved : ResolvedConfig F) (h : resolveAll debug config = .ok (detectors, resolved))
    (now : Instant) (events : List LoopEvent) :
    let l := (new detectors now).after fmt amSink amGeneratorUrl events
    let synflood := l.synfloodRunner.alertLifecycleManager
    let portScan := l.portScanRunner.alertLifecycleManager
    Api.Truthful (fun pps => lt detectors.synfloodDetector.maxSynPps pps = true)
      detectors.synfloodDetector.topN synflood.activeCount (fun ip => l.managers.isOpen (.synFlood ip))
      (Api.synflood l.api) ∧
    Api.Truthful (fun ports => detectors.portScanDetector.maxDistinctPorts < ports)
      detectors.portScanDetector.topN portScan.activeCount
      (fun ip => l.managers.isOpen (.portScan ip)) (Api.portScan l.api) := by
  obtain ⟨⟨P, hsyn⟩, ⟨Q, hport⟩, -⟩ := started_of_ok h
  intro l synflood portScan
  have hstart : OffendersCurrent detectors (new detectors now) := by
    refine ⟨?_, ?_, ⟨rowsShown_nil _, Nat.zero_le _⟩, ⟨rowsShown_nil _, Nat.zero_le _⟩, rfl, rfl⟩
    · show _ = Api.offenders _ _ [] detectors.synfloodAlertLifecycleManager
      rw [hsyn]
      rfl
    · show _ = Api.offenders _ _ [] detectors.portScanAlertLifecycleManager
      rw [hport]
      rfl
  have hl : OffendersCurrent detectors l :=
    Run.exec_invariant (I := OffendersCurrent detectors) (fun _ e hl => hl.step e) hstart events
  refine ⟨?_, ?_⟩
  · have htruthful : Api.Truthful (fun pps => lt l.synfloodRunner.detector.maxSynPps pps = true) _ _ _
        (Api.offenders _ SynIpRate.pps _ _) :=
      hl.synfloodShown.rows.truthful hl.synfloodShown.length_le
    rw [← hl.synflood, hl.synfloodDetector] at htruthful
    exact htruthful
  · have htruthful : Api.Truthful (fun ports => l.portScanRunner.detector.maxDistinctPorts < ports)
        _ _ _ (Api.offenders _ PortScanIpBreadth.distinctPorts _ _) :=
      hl.portScanShown.rows.truthful hl.portScanShown.length_le
    rw [← hl.portScan, hl.portScanDetector] at htruthful
    exact htruthful

end Current

/-- One source at 200 SYNs a second, with the built-in configuration. -/
theorem offenders_shown_flood :
    let fmt : WireFormat ℚ := ⟨Nat.repr, fun _ _ => ""⟩
    let events := [floodEval 0 0, floodEval 5 1000, floodEval 10 2000, floodEval 15 3000]
    ∃ detectors resolved, resolveAll String.quote none = .ok (detectors, resolved) ∧
      ∀ row ∈ (Api.synflood ((new detectors 0).after fmt false none events).api).top,
        lt detectors.synfloodDetector.maxSynPps row.value = true →
          row.alertPhase = some "pending" ∨ row.alertPhase = some "firing" := by
  intro fmt events
  exact ⟨_, _, rfl, (@offenders_shown ℚ _ fmt false none _ String.quote none _ rfl 0 events).1.alerted⟩

end MainLoop

end EbpfXdp
