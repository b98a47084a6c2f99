import EbpfXdpProgram.Pipeline.Runner

/-!
# Frozen baselines

A baseline is frozen while an alert for its protocol is hot. The decision is taken after the FSMs
have advanced in the same tick, so that a signal freezes the very rate it was raised for
(`attack_samples_frozen`).
-/

namespace EbpfXdp

variable {F : Type} [F64 F]

/-- The FSM is pending or firing, or it last fired less than the cooldown before `time`. -/
def AlertState.Hot (s : AlertState) (time : Instant) (cooldown : Duration) : Prop :=
  s.phase = .pending ∨ s.phase = .firing ∨
    s.phase = .inactive ∧ ∃ t, s.lastFired = some t ∧ durationSince time t < cooldown

theorem AlertState.isHot_iff {s : AlertState} {time : Instant} {cooldown : Duration} :
    s.isHot time cooldown = true ↔ s.Hot time cooldown := by
  unfold Hot
  constructor
  · intro h
    cases hp : s.phase with
    | inactive => exact .inr (.inr ⟨rfl, exists_lastFired_of_isHot time cooldown hp h⟩)
    | pending => exact .inl rfl
    | firing => exact .inr (.inl rfl)
  · rintro (hp | hp | ⟨hp, t, ht, hlt⟩)
    · exact isHot_of_not_inactive time cooldown (by rw [hp]; decide)
    · exact isHot_of_not_inactive time cooldown (by rw [hp]; decide)
    · unfold isHot
      rw [hp, ht]
      exact decide_eq_true hlt

/-- The rule keeps the baseline of the protocol frozen at the snapshot time. -/
def AlertRule.Freezes (rule : AlertRule F) (m : AlertLifecycleManager F) (proto : ProtoIndex)
    (time : Instant) : Prop :=
  rule.freezesBaseline = true ∧ (m.slotState ⟨proto, rule.kind⟩).Hot time rule.cooldown

namespace AlertLifecycleManager

omit [F64 F] in
theorem lookup_of_hot {m : AlertLifecycleManager F} {key : AlertKey} {time : Instant}
    {cooldown : Duration} (h : (m.slotState key).Hot time cooldown) :
    m.states.lookup key = some (m.slotState key) := by
  unfold slotState at h ⊢
  cases hs : m.states.lookup key with
  | none =>
    rw [hs] at h
    have hnew : AlertState.new.isHot time cooldown = true := AlertState.isHot_iff.mpr h
    exact Bool.noConfusion hnew
  | some state => rfl

omit [F64 F] in
/-- With rules of distinct kinds, the frozen protocols are those that some rule freezes. -/
theorem mem_frozenProtos {m : AlertLifecycleManager F} (hd : (m.rules.map (·.kind)).Nodup)
    {time : Instant} {proto : ProtoIndex} :
    proto ∈ m.frozenProtos time ↔ ∃ rule ∈ m.rules, rule.Freezes m proto time := by
  unfold frozenProtos
  rw [Finset.mem_image]
  constructor
  · rintro ⟨key, hkey, rfl⟩
    have hfreezes := (Finset.mem_filter.mp hkey).2
    unfold freezes at hfreezes
    rcases hs : m.states.lookup key with _ | state
    · rw [hs] at hfreezes
      exact Bool.noConfusion hfreezes
    rcases hrule : m.rules.find? (fun r => r.kind = key.kind) with _ | rule
    · rw [hs, hrule] at hfreezes
      exact Bool.noConfusion hfreezes
    rw [hs, hrule] at hfreezes
    obtain ⟨hfreeze, hhot⟩ := Bool.and_eq_true_iff.mp hfreezes
    have hkind : rule.kind = key.kind := by simpa using List.find?_some hrule
    refine ⟨rule, List.mem_of_find?_eq_some hrule, hfreeze, ?_⟩
    unfold slotState
    rw [hkind, hs]
    exact AlertState.isHot_iff.mp hhot
  · rintro ⟨rule, hr, hfreeze, hhot⟩
    have hlookup := lookup_of_hot hhot
    have hfind : m.rules.find? (fun r => r.kind = rule.kind) = some rule := by
      rw [← List.head?_filter, filter_kind_of_distinct hd hr]
      rfl
    refine ⟨⟨proto, rule.kind⟩, Finset.mem_filter.mpr ⟨?_, ?_⟩, rfl⟩
    · rw [Table.mem_keys, hlookup]
      rfl
    · unfold freezes
      rw [hlookup, hfind]
      exact Bool.and_eq_true_iff.mpr ⟨hfreeze, AlertState.isHot_iff.mpr hhot⟩

/-- A rule's FSM is hot at all times after a tick with a signal that meets the rule. -/
theorem hot_of_signal {m : AlertLifecycleManager F} (hd : (m.rules.map (·.kind)).Nodup)
    {rule : AlertRule F} (hr : rule ∈ m.rules) {t : ProtoTick F} {s : AlertSignal F}
    (hs : s ∈ t.signals) (hacc : rule.accepts s = true) (time : Instant) :
    ((step m t).1.slotState ⟨s.proto, rule.kind⟩).Hot time rule.cooldown := by
  have hstate := (step_distinct hd rfl hr s.proto t).1
  unfold AlertState.feed at hstate
  rw [AlertRule.active_sees hs hacc] at hstate
  rw [← AlertState.isHot_iff, hstate]
  exact AlertState.isHot_of_not_inactive _ _ (AlertState.phase_advance_active _ _ _ _ _)

end AlertLifecycleManager

namespace AnomalyRunner

/-- A tick that ends with the protocol frozen, or has no rate for it, leaves its EWMAs alone. -/
theorem ewmas_step_of_frozen {r : AnomalyRunner F} {t : RunnerTick} {p : ProtoIndex}
    (h : ∀ curr, t.current = some curr → (∃ rate ∈ r.rates t, rate.proto = p) →
      p ∈ (step r t).1.alertLifecycleManager.frozenProtos curr.timestamp) :
    (step r t).1.baseline.ewmas p = r.baseline.ewmas p := by
  have hfed : fed p r t = [] := by
    unfold fed ratesOf
    cases hcurr : t.current with
    | none => rfl
    | some curr =>
      rw [ite_eq_left_iff, List.filter_eq_nil_iff]
      exact fun hfrozen rate hrate hp => hfrozen (h curr hcurr ⟨rate, hrate, of_decide_eq_true hp⟩)
  rw [ewmas_step, hfed]
  rfl

section Distinct

variable {r : AnomalyRunner F} (hd : (r.alertLifecycleManager.rules.map (·.kind)).Nodup)

include hd in
theorem mem_frozen_step {t : RunnerTick} {time : Instant} {p : ProtoIndex} :
    p ∈ (step r t).1.alertLifecycleManager.frozenProtos time ↔
      ∃ rule ∈ r.alertLifecycleManager.rules,
        rule.Freezes (step r t).1.alertLifecycleManager p time := by
  have hrules : (step r t).1.alertLifecycleManager.rules = r.alertLifecycleManager.rules :=
    rules_step r t
  rw [AlertLifecycleManager.mem_frozenProtos (by rwa [hrules]), hrules]

include hd in
theorem ewmas_step_of_unfrozen {t : RunnerTick} {curr : TrafficCountersSnapshot}
    (hcurr : t.current = some curr) {rate : ProtoRate F} (hrate : rate ∈ r.rates t)
    (h : ∀ rule ∈ r.alertLifecycleManager.rules,
      ¬rule.Freezes (step r t).1.alertLifecycleManager rate.proto curr.timestamp) :
    (step r t).1.baseline.ewmas rate.proto =
      EwmaEstimator.observe (r.baseline.ewmas rate.proto) rate := by
  have hunfrozen : rate.proto ∉ (step r t).1.alertLifecycleManager.frozenProtos curr.timestamp :=
    fun hin => by
      obtain ⟨rule, hr, hfreezes⟩ := (mem_frozen_step hd).mp hin
      exact h rule hr hfreezes
  have hfed : fed rate.proto r t = [rate] := by
    unfold fed ratesOf
    rw [hcurr, filter_key_of_nodup (nodup_rates r t) hrate]
    exact if_neg hunfrozen
  rw [ewmas_step, hfed]
  rfl

include hd in
theorem ewmas_step_of_hot {t : RunnerTick} {rule : AlertRule F}
    (hr : rule ∈ r.alertLifecycleManager.rules) (hfreeze : rule.freezesBaseline = true)
    {p : ProtoIndex} (hhot : ∀ curr, t.current = some curr →
      ((step r t).1.alertLifecycleManager.slotState ⟨p, rule.kind⟩).Hot curr.timestamp
        rule.cooldown) :
    (step r t).1.baseline.ewmas p = r.baseline.ewmas p :=
  ewmas_step_of_frozen fun curr hcurr _ =>
    (mem_frozen_step hd).mpr ⟨rule, hr, hfreeze, hhot curr hcurr⟩

include hd in
theorem ewmas_step_of_signal {t : RunnerTick} {rule : AlertRule F}
    (hr : rule ∈ r.alertLifecycleManager.rules) (hfreeze : rule.freezesBaseline = true)
    {s : AlertSignal F} (hs : s ∈ r.signals t) (hacc : rule.accepts s = true) :
    (step r t).1.baseline.ewmas s.proto = r.baseline.ewmas s.proto := by
  rcases processed_or_skipped r t with hskip | ⟨prev, curr, hprev, hcurr⟩
  · rw [(step_skipped hskip).1, EwmaEstimator.ewmas_advance]
  · refine ewmas_step_of_hot hd hr hfreeze fun curr' _ => ?_
    rw [(step_processed hprev hcurr).2.1]
    exact AlertLifecycleManager.hot_of_signal hd hr (t := r.protoTick t) hs hacc curr'.timestamp

end Distinct

/-- **No attack sample reaches a frozen baseline**: the rate of a signal that meets a freezing rule
is not learned, nor is any later one while the rule's FSM stays hot; every other protocol is updated
once with its rate. -/
theorem attack_samples_frozen (r : AnomalyRunner F)
    (hd : (r.alertLifecycleManager.rules.map (·.kind)).Nodup) :
    (∀ t, ∀ rule ∈ r.alertLifecycleManager.rules, rule.freezesBaseline = true →
      ∀ s ∈ r.signals t, rule.accepts s = true → ∀ later,
        (∀ past u rest, later = past ++ u :: rest → ∀ curr, u.current = some curr →
          ((after r (t :: past ++ [u])).alertLifecycleManager.slotState ⟨s.proto, rule.kind⟩).Hot
            curr.timestamp rule.cooldown) →
        (after r (t :: later)).baseline.ewmas s.proto = r.baseline.ewmas s.proto) ∧
    ∀ t prev curr, r.prevCounters = some prev → t.current = some curr → r.rates t ≠ [] →
      (∀ rate ∈ r.rates t,
        (∀ rule ∈ r.alertLifecycleManager.rules,
          ¬rule.Freezes (step r t).1.alertLifecycleManager rate.proto curr.timestamp) →
        (step r t).1.baseline.ewmas rate.proto =
          EwmaEstimator.observe (r.baseline.ewmas rate.proto) rate) ∧
      (ProtoIndex.count ≤ prev.stats.length → ProtoIndex.count ≤ curr.stats.length →
        ∀ p, ∃ rate ∈ r.rates t, rate.proto = p) := by
  refine ⟨fun t rule hr hfreeze s hs hacc later hhot => ?_,
    fun t prev curr hprev hcurr hne => ⟨fun rate hrate h => ?_, fun hp hc p => ?_⟩⟩
  · -- the frozen EWMAs are those of the state before the signal, by induction on the later ticks
    induction later using List.reverseRecOn with
    | nil => exact ewmas_step_of_signal hd hr hfreeze hs hacc
    | append_singleton past u ih =>
      have hpast := ih fun past' v rest h curr hcurr =>
        hhot past' v (rest ++ [u]) (by rw [h, List.append_assoc, List.cons_append]) curr hcurr
      have hu := hhot past u [] rfl
      rw [← List.cons_append, after_concat, ← hpast]
      rw [after_concat] at hu
      have hrules := rules_after r (t :: past)
      exact ewmas_step_of_hot (by rwa [hrules]) (by rwa [hrules]) hfreeze hu
  · exact ewmas_step_of_unfrozen hd hcurr hrate h
  · rw [rates_of_processed hprev hcurr] at hne ⊢
    exact exists_rate hp hc hne p

/-- An emergency rule that freezes: the ICMP flood it fires on is not learned, nor is what follows
while it fires and, once it has resolved, until the cooldown has passed. -/
theorem attack_samples_frozen_emergency :
    let rule : AlertRule ℚ := ⟨.emergency, .severe, 0, 60000000000, 1, 1, true⟩
    let tick : ℕ → ℕ → RunnerTick := fun packets now =>
      ⟨some ⟨now, List.replicate 5 ⟨packets, packets⟩⟩, now, fun _ => AlertKey.order⟩
    let r := after (new (.new 0.4 3 0.001 0) ⟨[⟨.icmp, some 3, none⟩]⟩ (.new [rule])) [tick 0 0]
    let ticks := [tick 100 1000000000, tick 200 2000000000, tick 201 3000000000]
    slotEvents (step (after r (ticks.take 2)) (tick 201 3000000000)) ⟨.icmp, .emergency⟩ =
        [.resolved] ∧
      (after r ticks).baseline.ewmas .icmp = r.baseline.ewmas .icmp := by
  intro rule tick r ticks
  refine ⟨by decide +kernel, ?_⟩
  have h := (attack_samples_frozen r (by decide +kernel)).1 (tick 100 1000000000) rule
    (List.mem_singleton_self rule) rfl ⟨.icmp, .severe, .emergency, 1⟩ (by decide +kernel)
    (by decide +kernel) [tick 200 2000000000, tick 201 3000000000]
  refine h fun past u rest hsplit curr hcurr => ?_
  rcases past with _ | ⟨first, _ | ⟨second, past⟩⟩
  · obtain ⟨rfl, -⟩ := List.cons.inj hsplit
    obtain rfl := Option.some.inj hcurr
    exact AlertState.isHot_iff.mp (by decide +kernel)
  · obtain ⟨hfirst, hrest⟩ := List.cons.inj hsplit
    obtain ⟨rfl, -⟩ := List.cons.inj hrest
    obtain rfl := Option.some.inj hcurr
    rw [← hfirst]
    exact AlertState.isHot_iff.mp (by decide +kernel)
  · simp at hsplit

end AnomalyRunner

end EbpfXdp
