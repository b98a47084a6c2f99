import EbpfXdpProgram.Pipeline.Freeze

/-!
# A sustained spike

A spike that lasts is judged against one baseline throughout: its first signal makes the FSM
pending, a pending FSM freezes the baseline, and so the next rate is a spike against that baseline
again, until the FSM fires. `Armed` is what holds after each of the ticks before.
-/

namespace EbpfXdp

variable {F : Type} [F64 F]

namespace AnomalyRunner

/-- The tick has a rate for the protocol that, classified against the baseline `B`, gives a signal
that meets the rule. -/
def SpikesAgainst (rule : AlertRule F) (B : ProtoBaseline F) (p : ProtoIndex)
    (r : AnomalyRunner F) (t : RunnerTick) : Prop :=
  ∃ rate ∈ r.rates t, rate.proto = p ∧
    ∃ s, EwmaDetector.examine (.ready B) rate = some s ∧ rule.accepts s = true

/-- The protocol is ready with baseline `B`, and the next signal brings the FSM of the rule, which
last fired at `last`, to a count of `n + 1`. -/
structure Armed (rule : AlertRule F) (B : ProtoBaseline F) (p : ProtoIndex)
    (last : Option Instant) (n : ℕ) (r : AnomalyRunner F) : Prop where
  ready : r.baseline.snapshot p = .ready B
  isFiring : (r.alertLifecycleManager.slotState ⟨p, rule.kind⟩).isFiring = false
  bump : (r.alertLifecycleManager.slotState ⟨p, rule.kind⟩).bump.toNat = n + 1
  lastFired : (r.alertLifecycleManager.slotState ⟨p, rule.kind⟩).lastFired = last

section Spike

variable {r : AnomalyRunner F} {t : RunnerTick} {rule : AlertRule F} {B : ProtoBaseline F}
  {p : ProtoIndex}

theorem armed_of_inactive (hready : r.baseline.snapshot p = .ready B)
    (hp : (r.alertLifecycleManager.slotState ⟨p, rule.kind⟩).phase = .inactive) :
    Armed rule B p (r.alertLifecycleManager.slotState ⟨p, rule.kind⟩).lastFired 0 r := by
  refine ⟨hready, (AlertState.not_isFiring_iff _).mpr (by rw [hp]; decide), ?_, rfl⟩
  unfold AlertState.bump
  rw [if_pos hp]
  rfl

theorem snapshot_advance (hready : r.baseline.snapshot p = .ready B) :
    r.baseline.advance.snapshot p = .ready B :=
  EwmaEstimator.snapshot_ready_of_ewmas hready (EwmaEstimator.ewmas_advance ..)
    (EwmaEstimator.gates_advance ..) (Nat.le_succ _)

theorem exists_signal (hready : r.baseline.snapshot p = .ready B)
    (hspike : SpikesAgainst rule B p r t) :
    ∃ s ∈ r.signals t, s.proto = p ∧ rule.accepts s = true := by
  obtain ⟨rate, hrate, hp, s, hs, hacc⟩ := hspike
  refine ⟨s, List.mem_append_left _ (List.mem_filterMap.mpr ⟨rate, hrate, ?_⟩), ?_, hacc⟩
  · rw [hp, snapshot_advance hready]
    exact hs
  · rw [EwmaDetector.proto_of_examine hs, hp]

variable (hd : (r.alertLifecycleManager.rules.map (·.kind)).Nodup)
  (hr : rule ∈ r.alertLifecycleManager.rules) (hfreeze : rule.freezesBaseline = true)

include hd hr in
theorem step_of_spike (hready : r.baseline.snapshot p = .ready B)
    (hspike : SpikesAgainst rule B p r t) :
    let s := r.alertLifecycleManager.slotState ⟨p, rule.kind⟩
    let s' := s.advance true t.now rule.cooldown rule.consecutiveThreshold
      rule.resolveConsecutiveThreshold
    (step r t).1.alertLifecycleManager.slotState ⟨p, rule.kind⟩ = s'.1 ∧
      slotEvents (step r t) ⟨p, rule.kind⟩ = s'.2.toList := by
  intro s s'
  obtain ⟨sig, hsig, rfl, hacc⟩ := exists_signal hready hspike
  rcases step_rule hd hr sig.proto t with ⟨hskip, -⟩ | hfed
  · obtain ⟨rate, hrate, -⟩ := hspike
    rw [rates_skipped hskip] at hrate
    exact absurd hrate List.not_mem_nil
  · unfold AlertState.feed at hfed
    rwa [AlertRule.active_sees (t := r.protoTick t) hsig hacc] at hfed

include hd hr hfreeze in
theorem ready_of_spike (hready : r.baseline.snapshot p = .ready B)
    (hspike : SpikesAgainst rule B p r t) : (step r t).1.baseline.snapshot p = .ready B := by
  obtain ⟨sig, hsig, rfl, hacc⟩ := exists_signal hready hspike
  refine EwmaEstimator.snapshot_ready_of_ewmas hready
    (ewmas_step_of_signal hd hr hfreeze hsig hacc) (gates_step r t) ?_
  rw [elapsedTicks_step]
  omega

variable {last : Option Instant} {n : ℕ} (h : Armed rule B p last n r)
  (hspike : SpikesAgainst rule B p r t)

include hd hr hfreeze h hspike

theorem Armed.step (hn : n + 1 < rule.consecutiveThreshold.toNat) :
    Armed rule B p last (n + 1) (step r t).1 ∧ slotEvents (step r t) ⟨p, rule.kind⟩ = [] := by
  obtain ⟨hstate, hevents⟩ := step_of_spike hd hr h.ready hspike
  have hbelow : ¬(rule.consecutiveThreshold ≤
      (r.alertLifecycleManager.slotState ⟨p, rule.kind⟩).bump ∧
      (r.alertLifecycleManager.slotState ⟨p, rule.kind⟩).cooldownPassed t.now rule.cooldown = true) :=
    fun hf => by
      have hle := UInt32.le_iff_toNat_le.mp hf.1
      rw [h.bump] at hle
      omega
  rw [AlertState.advance_active_of_not_firing _ _ _ _ h.isFiring, if_neg hbelow] at hstate hevents
  refine ⟨⟨ready_of_spike hd hr hfreeze h.ready hspike, ?_, ?_, ?_⟩, hevents⟩
  · rw [hstate]; rfl
  · have hlt := rule.consecutiveThreshold.toNat_lt
    rw [hstate]
    exact AlertState.toNat_add_one h.bump (by omega)
  · rw [hstate]
    exact h.lastFired

theorem Armed.fires (hn : rule.consecutiveThreshold.toNat ≤ n + 1)
    (hcool : ∀ t₀, last = some t₀ → rule.cooldown ≤ durationSince t.now t₀) :
    (AnomalyRunner.step r t).1.baseline.snapshot p = .ready B ∧
      slotEvents (AnomalyRunner.step r t) ⟨p, rule.kind⟩ = [.fired] := by
  obtain ⟨-, hevents⟩ := step_of_spike hd hr h.ready hspike
  refine ⟨ready_of_spike hd hr hfreeze h.ready hspike, ?_⟩
  rw [AlertState.advance_active_of_not_firing _ _ _ _ h.isFiring, if_pos] at hevents
  · exact hevents
  · refine ⟨UInt32.le_iff_toNat_le.mpr (by rw [h.bump]; exact hn), ?_⟩
    rw [AlertState.cooldownPassed_iff, h.lastFired]
    exact hcool

end Spike

section Sustained

variable {r : AnomalyRunner F} (hd : (r.alertLifecycleManager.rules.map (·.kind)).Nodup)
  {rule : AlertRule F} (hr : rule ∈ r.alertLifecycleManager.rules)
  (hfreeze : rule.freezesBaseline = true) {p : ProtoIndex} {B : ProtoBaseline F}
  {ticks : List RunnerTick} (hlen : ticks.length = max 1 rule.consecutiveThreshold.toNat)
  (hspikes : ∀ past t rest, ticks = past ++ t :: rest →
    SpikesAgainst rule B p (after r past) t)

include hd hr hfreeze hlen hspikes in
/-- Before the last of the ticks the FSM has counted all of them and not fired. -/
theorem armed_after {last : Option Instant} (h : Armed rule B p last 0 r)
    {past rest : List RunnerTick} (hsplit : ticks = past ++ rest) (hne : rest ≠ []) :
    Armed rule B p last past.length (after r past) := by
  induction past using List.reverseRecOn generalizing rest with
  | nil => exact h
  | append_singleton past u ih =>
    rw [List.append_assoc] at hsplit
    have hpast := ih hsplit (List.cons_ne_nil u rest)
    have hrules := rules_after r past
    have hbelow : past.length + 1 < rule.consecutiveThreshold.toNat := by
      have hpos := List.length_pos_iff.mpr hne
      rw [hsplit, List.length_append, List.length_append, List.length_singleton] at hlen
      omega
    rw [after_concat, List.length_append, List.length_singleton]
    exact (hpast.step (by rwa [hrules]) (by rwa [hrules]) hfreeze (hspikes past u rest hsplit)
      hbelow).1

/-- **A sustained spike cannot train the detector**: while each rate spikes against the ready
baseline, the baseline stays, and the alert fires at the last of `max(1, consecutive_threshold)`
ticks and not before. -/
theorem sustained_spike_fires (r : AnomalyRunner F)
    (hd : (r.alertLifecycleManager.rules.map (·.kind)).Nodup) {rule : AlertRule F}
    (hr : rule ∈ r.alertLifecycleManager.rules) (hkind : rule.kind = .spike)
    (hfreeze : rule.freezesBaseline = true) {p : ProtoIndex} {B : ProtoBaseline F}
    (hready : r.baseline.snapshot p = .ready B)
    (hinactive : (r.alertLifecycleManager.slotState ⟨p, .spike⟩).phase = .inactive)
    (ticks : List RunnerTick) (hlen : ticks.length = max 1 rule.consecutiveThreshold.toNat)
    (hspikes : ∀ past t rest, ticks = past ++ t :: rest →
      SpikesAgainst rule B p (after r past) t)
    (hcool : ∀ t ∈ ticks.getLast?, ∀ t₀,
      (r.alertLifecycleManager.slotState ⟨p, .spike⟩).lastFired = some t₀ →
        rule.cooldown ≤ durationSince t.now t₀) :
    ∀ past t rest, ticks = past ++ t :: rest →
      (after r past).baseline.advance.snapshot p = .ready B ∧
      (after r (past ++ [t])).baseline.snapshot p = .ready B ∧
      slotEvents (step (after r past) t) ⟨p, .spike⟩ = if rest = [] then [.fired] else [] := by
  intro past t rest hsplit
  rw [← hkind] at hinactive hcool ⊢
  have harmed := armed_after hd hr hfreeze hlen hspikes (armed_of_inactive hready hinactive) hsplit
    (List.cons_ne_nil t rest)
  have hrules := rules_after r past
  have hd' : ((after r past).alertLifecycleManager.rules.map (·.kind)).Nodup := by rwa [hrules]
  have hr' : rule ∈ (after r past).alertLifecycleManager.rules := by rwa [hrules]
  have hspike := hspikes past t rest hsplit
  have hlength : past.length + 1 + rest.length = max 1 rule.consecutiveThreshold.toNat := by
    rw [← hlen, hsplit, List.length_append, List.length_cons]
    omega
  rw [after_concat]
  refine ⟨snapshot_advance harmed.ready, ?_⟩
  cases rest with
  | nil =>
    rw [if_pos rfl]
    rw [List.length_nil] at hlength
    exact harmed.fires hd' hr' hfreeze hspike (by omega) (hcool t (by rw [hsplit]; simp))
  | cons u rest =>
    rw [if_neg (List.cons_ne_nil u rest)]
    rw [List.length_cons] at hlength
    obtain ⟨hnext, hevents⟩ := harmed.step hd' hr' hfreeze hspike (by omega)
    exact ⟨hnext.ready, hevents⟩

end Sustained

/-- Two ticks of 200 packets a second against a baseline of 100 with deviation 10. -/
theorem sustained_spike_fires_second :
    let rule : AlertRule ℚ := ⟨.spike, .suspicious, 0.6, 120000000000, 2, 3, true⟩
    let learned : Ewma ℚ := ⟨0.4, 100, 100, 5, 10⟩
    let tick : ℕ → RunnerTick := fun n =>
      ⟨some ⟨n * 1000000000, List.replicate 5 ⟨n * 200, n * 200⟩⟩, n * 1000000000,
        fun _ => AlertKey.order⟩
    let r := after (new ⟨fun _ => learned, fun _ => learned, 3, 0.001, 0, 0⟩ ⟨[]⟩ (.new [rule]))
      [tick 0]
    (after r [tick 1, tick 2]).baseline.snapshot .tcp = .ready ⟨⟨100, 10⟩, ⟨100, 10⟩⟩ ∧
      slotEvents (step (after r [tick 1]) (tick 2)) ⟨.tcp, .spike⟩ = [.fired] := by
  intro rule learned tick r
  have hspike : ∀ past t rest, [tick 1, tick 2] = past ++ t :: rest →
      SpikesAgainst rule ⟨⟨100, 10⟩, ⟨100, 10⟩⟩ .tcp (after r past) t := by
    intro past t rest h
    rcases past with _ | ⟨u, _ | ⟨v, past⟩⟩
    · obtain ⟨rfl, -⟩ := List.cons.inj h
      exact ⟨⟨.tcp, 200, 200⟩, by decide +kernel, rfl, ⟨.tcp, .severe, .spike, 1⟩,
        by decide +kernel, by decide +kernel⟩
    · obtain ⟨rfl, htail⟩ := List.cons.inj h
      obtain ⟨rfl, -⟩ := List.cons.inj htail
      exact ⟨⟨.tcp, 200, 200⟩, by decide +kernel, rfl, ⟨.tcp, .severe, .spike, 1⟩,
        by decide +kernel, by decide +kernel⟩
    · exact absurd (congrArg List.length h) (by simp)
  have hnever : (r.alertLifecycleManager.slotState ⟨.tcp, .spike⟩).lastFired = none := by
    decide +kernel
  exact (sustained_spike_fires r (by decide +kernel) (List.mem_singleton_self rule) rfl rfl
    (by decide +kernel) (by decide +kernel) [tick 1, tick 2] rfl hspike
    (fun _ _ t₀ h => absurd (h.symm.trans hnever) (Option.some_ne_none t₀))
    [tick 1] (tick 2) [] rfl).2

end AnomalyRunner

end EbpfXdp
