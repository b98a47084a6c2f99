import EbpfXdpProgram.Pipeline.Runner

/-!
# Warm-up

The baseline of a protocol is the fold of the rates that were fed into it (`ewmas_after`), and is
judged at a call of `tick` by their number, the standard deviations and the number of calls
(`Gate`). An alert that is not an emergency needs a ready baseline in each tick that counts towards
its threshold, and the calls in between change no EWMA, so that the gate holds at each of the last
calls (`fires_after_warm_up`).
-/

namespace EbpfXdp

variable {F : Type} [F64 F]

namespace AnomalyRunner

/-! ## The rates fed into the baseline -/

/-- The rates of the protocol that the ticks fed into the baseline. -/
def fedRates (p : ProtoIndex) (r : AnomalyRunner F) (ticks : List RunnerTick) :
    List (ProtoRate F) :=
  (Run.outs (fun r t => ((step r t).1, fed p r t)) r ticks).flatten

theorem fedRates_concat (p : ProtoIndex) (r : AnomalyRunner F) (past : List RunnerTick)
    (t : RunnerTick) : fedRates p r (past ++ [t]) = fedRates p r past ++ fed p (after r past) t := by
  unfold fedRates
  rw [Run.outs_concat, List.flatten_append, List.flatten_singleton]
  rfl

theorem length_fed_le (p : ProtoIndex) (r : AnomalyRunner F) (t : RunnerTick) :
    (fed p r t).length ≤ 1 := by
  have hrates : (ratesOf p r t).length ≤ 1 := by
    rw [ratesOf_eq, Option.length_toList]
    split_ifs <;> omega
  unfold fed
  cases t.current with
  | none => exact Nat.zero_le 1
  | some curr =>
    dsimp only
    split_ifs
    · exact Nat.zero_le 1
    · exact hrates

theorem length_fedRates_le (p : ProtoIndex) (r : AnomalyRunner F) (ticks : List RunnerTick) :
    (fedRates p r ticks).length ≤ ticks.length := by
  induction ticks using List.reverseRecOn with
  | nil => exact Nat.le_refl 0
  | append_singleton past t ih =>
    have hfed := length_fed_le p (after r past) t
    rw [fedRates_concat, List.length_append, List.length_append, List.length_singleton]
    omega

theorem ewmas_after (p : ProtoIndex) (r : AnomalyRunner F) (ticks : List RunnerTick) :
    (after r ticks).baseline.ewmas p =
      (fedRates p r ticks).foldl EwmaEstimator.observe (r.baseline.ewmas p) := by
  induction ticks using List.reverseRecOn with
  | nil => rfl
  | append_singleton past t ih =>
    rw [after_concat, fedRates_concat, List.foldl_append, ← ih, ewmas_step]

theorem elapsedTicks_after (r : AnomalyRunner F) (ticks : List RunnerTick) :
    (after r ticks).baseline.elapsedTicks = r.baseline.elapsedTicks + ticks.length := by
  induction ticks using List.reverseRecOn with
  | nil => rfl
  | append_singleton past t ih =>
    rw [after_concat, elapsedTicks_step, ih, List.length_append, List.length_singleton,
      Nat.add_assoc]

@[simp] theorem gates_after (r : AnomalyRunner F) (ticks : List RunnerTick) :
    (after r ticks).baseline.gates = r.baseline.gates :=
  Run.exec_frame (fun r : AnomalyRunner F => r.baseline.gates) gates_step r ticks

/-! ## The gate -/

/-- The rates fed for the protocol so far suffice: their number, and the standard deviations. -/
structure Learned (r : AnomalyRunner F) (p : ProtoIndex) (past : List RunnerTick) : Prop where
  samples : r.baseline.minSamples ≤ (fedRates p r past).length
  pps : F64.lt ((after r past).baseline.stats p).pps.stddev r.baseline.minStddev = false
  bps : F64.lt ((after r past).baseline.stats p).bps.stddev r.baseline.minStddev = false

/-- The rates would suffice for the gates of the estimator, were its EWMAs fed with them. -/
structure Suffices (e : EwmaEstimator F) (p : ProtoIndex) (rates : List (ProtoRate F)) : Prop where
  samples : e.minSamples ≤ rates.length
  pps : F64.lt (rates.foldl EwmaEstimator.observe (e.ewmas p)).1.stddev e.minStddev = false
  bps : F64.lt (rates.foldl EwmaEstimator.observe (e.ewmas p)).2.stddev e.minStddev = false

theorem learned_iff_suffices (r : AnomalyRunner F) (p : ProtoIndex) (past : List RunnerTick) :
    Learned r p past ↔ Suffices r.baseline p (fedRates p r past) := by
  have hpps : ((after r past).baseline.stats p).pps.stddev = _ :=
    congrArg (·.1.stddev) (ewmas_after p r past)
  have hbps : ((after r past).baseline.stats p).bps.stddev = _ :=
    congrArg (·.2.stddev) (ewmas_after p r past)
  constructor
  · rintro ⟨hs, hp, hb⟩
    rw [hpps] at hp
    rw [hbps] at hb
    exact ⟨hs, hp, hb⟩
  · rintro ⟨hs, hp, hb⟩
    rw [← hpps] at hp
    rw [← hbps] at hb
    exact ⟨hs, hp, hb⟩

theorem not_suffices {r : AnomalyRunner F} (p : ProtoIndex) {ticks : List RunnerTick}
    (h : ticks.length < r.baseline.minSamples) : ¬Suffices r.baseline p (fedRates p r ticks) := by
  intro hsuffices
  have hfew := length_fedRates_le p r ticks
  have henough := hsuffices.samples
  omega

/-- What the gate asks for at the call of `tick` with `t`, before it updates the baseline: what was
learned in the calls before, and the number of calls. -/
def Gate (r : AnomalyRunner F) (p : ProtoIndex) (past : List RunnerTick) (t : RunnerTick) : Prop :=
  Learned r p past ∧ r.baseline.minElapsedTicks ≤ (past ++ [t]).length

/-- The runner has not been called yet. -/
structure Fresh (r : AnomalyRunner F) : Prop where
  samples : ∀ p, (r.baseline.ppsEwma p).samples = 0 ∧ (r.baseline.bpsEwma p).samples = 0
  elapsed : r.baseline.elapsedTicks = 0
  states : r.alertLifecycleManager.states = ∅
  warmedUp : r.warmedUp = false

section Gate

variable {r : AnomalyRunner F} (hfresh : Fresh r) (p : ProtoIndex) (past : List RunnerTick)
  (t : RunnerTick)

include hfresh in
theorem samples_after :
    ((after r past).baseline.ppsEwma p).samples = (fedRates p r past).length ∧
      ((after r past).baseline.bpsEwma p).samples = (fedRates p r past).length := by
  obtain ⟨hpps, hbps⟩ := Prod.mk.inj (ewmas_after p r past)
  obtain ⟨hp, hb⟩ := hfresh.samples p
  have hfold := EwmaEstimator.samples_foldl_observe (fedRates p r past) (r.baseline.ewmas p)
  rw [hpps, hbps, hfold.1, hfold.2]
  exact ⟨by rw [show (r.baseline.ewmas p).1.samples = 0 from hp, Nat.zero_add],
    by rw [show (r.baseline.ewmas p).2.samples = 0 from hb, Nat.zero_add]⟩

include hfresh in
/-- A baseline is ready after so many calls of `advance` exactly if enough is learned and the calls
are enough. -/
theorem isReady_iff_learned {e : EwmaEstimator F}
    (hstats : e.stats p = (after r past).baseline.stats p)
    (hewmas : e.ewmas p = (after r past).baseline.ewmas p) (hgates : e.gates = r.baseline.gates) :
    (e.snapshot p).isReady = true ↔
      Learned r p past ∧ r.baseline.minElapsedTicks ≤ e.elapsedTicks := by
  obtain ⟨hpps, hbps⟩ := samples_after hfresh p past
  obtain ⟨hpps', hbps'⟩ := Prod.mk.inj hewmas
  obtain ⟨hsamples, hgates⟩ := Prod.mk.inj hgates
  obtain ⟨hstddev, hmin⟩ := Prod.mk.inj hgates
  rw [EwmaEstimator.isReady_snapshot_iff, hstats, hpps', hbps', hpps, hbps, hsamples, hstddev, hmin,
    Nat.min_self]
  exact ⟨fun ⟨hs, hp, hb, he⟩ => ⟨⟨hs, hp, hb⟩, he⟩, fun ⟨⟨hs, hp, hb⟩, he⟩ => ⟨hs, hp, hb, he⟩⟩

include hfresh in
theorem isReady_iff_gate :
    ((after r past).baseline.advance.snapshot p).isReady = true ↔ Gate r p past t := by
  rw [isReady_iff_learned (e := (after r past).baseline.advance) hfresh p past rfl rfl
    (gates_after r past), EwmaEstimator.elapsedTicks_advance, elapsedTicks_after, hfresh.elapsed,
    Nat.zero_add]
  unfold Gate
  rw [List.length_append, List.length_singleton]

include hfresh in
theorem isReady_after_iff :
    ((after r past).baseline.snapshot p).isReady = true ↔
      Learned r p past ∧ r.baseline.minElapsedTicks ≤ past.length := by
  rw [isReady_iff_learned hfresh p past rfl rfl (gates_after r past), elapsedTicks_after,
    hfresh.elapsed, Nat.zero_add]

/-- A call without two snapshots teaches nothing, and forgets nothing. -/
theorem learned_skipped {past : List RunnerTick} {t : RunnerTick}
    (h : (after r past).prevCounters = none ∨ t.current = none) :
    Learned r p (past ++ [t]) ↔ Learned r p past := by
  have hstats : (after r (past ++ [t])).baseline.stats p = (after r past).baseline.stats p := by
    have hbase : (after r (past ++ [t])).baseline = (after r past).baseline.advance := by
      rw [after_concat]
      exact (step_skipped h).1
    rw [hbase]
    rfl
  have hfed : fedRates p r (past ++ [t]) = fedRates p r past := by
    rw [fedRates_concat, fed_skipped h, List.append_nil]
  constructor
  · rintro ⟨hs, hp, hb⟩
    rw [hfed] at hs
    rw [hstats] at hp hb
    exact ⟨hs, hp, hb⟩
  · rintro ⟨hs, hp, hb⟩
    exact ⟨by rwa [hfed], by rwa [hstats], by rwa [hstats]⟩

end Gate

/-! ## Alerts that are not emergencies -/

theorem ready_of_signal {r : AnomalyRunner F} {t : RunnerTick} {s : AlertSignal F}
    (hs : s ∈ r.signals t) (hk : s.kind ≠ .emergency) :
    (∃ rate ∈ r.rates t, rate.proto = s.proto) ∧
      (r.baseline.advance.snapshot s.proto).isReady = true := by
  rcases List.mem_append.mp hs with hs | hs
  · obtain ⟨rate, hrate, hexamine⟩ := List.mem_filterMap.mp hs
    have hproto := EwmaDetector.proto_of_examine hexamine
    refine ⟨⟨rate, hrate, hproto.symm⟩, ?_⟩
    rw [hproto]
    exact EwmaDetector.isReady_of_examine hexamine
  · obtain ⟨rate, -, hexamine⟩ := List.mem_filterMap.mp hs
    exact absurd (EmergencyDetector.kind_of_examine hexamine) hk

theorem ready_of_active {r : AnomalyRunner F} {t : RunnerTick} {rule : AlertRule F}
    {p : ProtoIndex} (hk : rule.kind ≠ .emergency)
    (h : (rule.sees p (r.protoTick t)).active = true) :
    (∃ rate ∈ r.rates t, rate.proto = p) ∧
      (r.baseline.advance.snapshot p).isReady = true := by
  obtain ⟨s, hs, hmeets⟩ := List.any_eq_true.mp h
  obtain ⟨hkey, -⟩ := Bool.and_eq_true_iff.mp hmeets
  obtain rfl : s.proto = p := congrArg AlertKey.proto (of_decide_eq_true hkey)
  exact ready_of_signal hs fun hs =>
    hk ((congrArg AlertKey.kind (of_decide_eq_true hkey)).symm.trans hs)

section Fires

variable {r : AnomalyRunner F} (hfresh : Fresh r)
  (hd : (r.alertLifecycleManager.rules.map (·.kind)).Nodup) {rule : AlertRule F}
  (hr : rule ∈ r.alertLifecycleManager.rules) (hk : rule.kind ≠ .emergency) (p : ProtoIndex)

/-- While the FSM of the rule is pending with a count of `n`, the gate was passed at each of the
last `n` calls, if the EWMAs still pass it. -/
def PendingGated (r : AnomalyRunner F) (rule : AlertRule F) (p : ProtoIndex)
    (past : List RunnerTick) : Prop :=
  let s := (after r past).alertLifecycleManager.slotState ⟨p, rule.kind⟩
  s.phase = .pending → r.baseline.minElapsedTicks ≤ past.length ∧
    (Learned r p past → LastedAt (Gate r p) s.consecutiveCount.toNat past)

variable {p} {past : List RunnerTick} {t : RunnerTick}

theorem lasted_bump (h : PendingGated r rule p past) (hgate : Gate r p past t)
    (hs : ((after r past).alertLifecycleManager.slotState ⟨p, rule.kind⟩).isFiring = false) :
    LastedAt (Gate r p)
      (max 1 ((after r past).alertLifecycleManager.slotState ⟨p, rule.kind⟩).bump.toNat)
      (past ++ [t]) := by
  unfold PendingGated at h
  generalize (after r past).alertLifecycleManager.slotState ⟨p, rule.kind⟩ = s at h hs ⊢
  cases hp : s.phase with
  | inactive =>
    have hbump : s.bump = 1 := if_pos hp
    rw [hbump]
    exact (LastedAt.zero past).concat hgate
  | pending =>
    have hbump : s.bump = s.consecutiveCount + 1 := if_neg (by rw [hp]; decide)
    have hle : s.bump.toNat ≤ s.consecutiveCount.toNat + 1 := by
      rw [hbump]
      exact (UInt32.toNat_add ..).trans_le (Nat.mod_le _ _)
    exact (((h hp).2 hgate.1).concat hgate).mono (by omega)
  | firing => exact absurd hp ((AlertState.not_isFiring_iff s).mp hs)

include hfresh hd hr hk in
theorem pendingGated_step (h : PendingGated r rule p past) : PendingGated r rule p (past ++ [t]) := by
  have hrules := rules_after r past
  intro hpending
  rcases step_rule (r := after r past) (by rwa [hrules]) (by rwa [hrules]) p t with
    ⟨hskip, hstate, -⟩ | ⟨hstate, -⟩
  · -- a call without two snapshots leaves the FSM and the EWMAs alone
    rw [← after_concat] at hstate
    rw [hstate] at hpending ⊢
    obtain ⟨helapsed, hlasted⟩ := h hpending
    have hlen : (past ++ [t]).length = past.length + 1 := List.length_append
    refine ⟨by omega, fun hlearned => ?_⟩
    have hlearned := (learned_skipped p hskip).mp hlearned
    exact ((hlasted hlearned).concat ⟨hlearned, by omega⟩).mono (Nat.le_succ _)
  · rw [← after_concat] at hstate
    unfold AlertState.feed at hstate
    rw [hstate] at hpending ⊢
    cases ha : (rule.sees p ((after r past).protoTick t)).active with
    | false =>
      rw [ha] at hpending
      exact absurd hpending (AlertState.phase_advance_quiet _ _ _ _ _)
    | true =>
      have hgate : Gate r p past t :=
        (isReady_iff_gate hfresh p past t).mp (ready_of_active hk ha).2
      rw [ha] at hpending
      cases hs : ((after r past).alertLifecycleManager.slotState ⟨p, rule.kind⟩).isFiring with
      | true =>
        rw [AlertState.advance_active_of_firing _ _ _ _ hs] at hpending
        exact absurd (((AlertState.isFiring_iff _).mp hs).symm.trans hpending) (by decide)
      | false =>
        rw [AlertState.advance_active_of_not_firing _ _ _ _ hs] at hpending ⊢
        split_ifs at hpending ⊢
        exact ⟨hgate.2, fun _ => (lasted_bump h hgate hs).mono (le_max_right ..)⟩

include hfresh hd hr hk in
theorem pendingGated_after (past : List RunnerTick) : PendingGated r rule p past := by
  induction past using List.reverseRecOn with
  | nil =>
    intro hpending
    have hnew : (after r []).alertLifecycleManager.slotState ⟨p, rule.kind⟩ = .new := by
      show (r.alertLifecycleManager.states.lookup _).getD .new = .new
      rw [hfresh.states]
      rfl
    rw [hnew] at hpending
    exact absurd hpending (by decide)
  | append_singleton past t ih => exact pendingGated_step hfresh hd hr hk ih

include hfresh hd hr hk in
/-- An alert fires after calls at which the gate was passed, and on a rate of a ready protocol. -/
theorem gated_of_fired (h : .fired ∈ slotEvents (step (after r past) t) ⟨p, rule.kind⟩) :
    LastedAt (Gate r p) (max 1 rule.consecutiveThreshold.toNat) (past ++ [t]) ∧
      (∃ rate ∈ (after r past).rates t, rate.proto = p) ∧
      ((after r past).baseline.advance.snapshot p).isReady = true := by
  have hrules := rules_after r past
  rcases step_rule (r := after r past) (by rwa [hrules]) (by rwa [hrules]) p t with
    ⟨-, -, hevents⟩ | ⟨-, hevents⟩
  · rw [hevents] at h
    exact absurd h List.not_mem_nil
  · rw [hevents] at h
    obtain ⟨hs, ha, hK, -⟩ := (AlertState.fired_iff ..).mp (Option.mem_toList.mp h)
    obtain ⟨hrate, hready⟩ := ready_of_active hk ha
    have hgate := (isReady_iff_gate hfresh p past t).mp hready
    have hlasted := lasted_bump (pendingGated_after hfresh hd hr hk past) hgate hs
    have hle : rule.consecutiveThreshold.toNat ≤ _ := UInt32.le_iff_toNat_le.mp hK
    exact ⟨hlasted.mono (max_le_max_left 1 hle), hrate, hready⟩

end Fires

/-! ## The flag -/

theorem warmedUp_step (r : AnomalyRunner F) (t : RunnerTick) :
    (step r t).1.warmedUp =
      (r.warmedUp || (r.rates t).any fun rate => (r.baseline.advance.snapshot rate.proto).isReady) := by
  unfold step primeOrDiff rates runAnomalyPipeline
  rcases t.current with _ | curr
  · cases r.prevCounters <;> exact (Bool.or_false _).symm
  · rcases r.prevCounters with _ | prev
    · exact (Bool.or_false _).symm
    · rfl

theorem warmedUp_append {r : AnomalyRunner F} {past : List RunnerTick}
    (h : (after r past).warmedUp = true) (rest : List RunnerTick) :
    (after r (past ++ rest)).warmedUp = true := by
  induction rest using List.reverseRecOn with
  | nil => rwa [List.append_nil]
  | append_singleton rest t ih =>
    rw [← List.append_assoc, after_concat, warmedUp_step, ih, Bool.true_or]

theorem ready_of_warmedUp {r : AnomalyRunner F} (hfresh : Fresh r) {ticks : List RunnerTick}
    (h : (after r ticks).warmedUp = true) :
    ∃ past t rest, ticks = past ++ t :: rest ∧
      ∃ p, ((after r past).baseline.advance.snapshot p).isReady = true := by
  induction ticks using List.reverseRecOn with
  | nil =>
    rw [show (after r []).warmedUp = false from hfresh.warmedUp] at h
    exact absurd h Bool.false_ne_true
  | append_singleton past t ih =>
    rw [after_concat, warmedUp_step, Bool.or_eq_true] at h
    rcases h with h | h
    · obtain ⟨pre, u, rest, rfl, hready⟩ := ih h
      exact ⟨pre, u, rest ++ [t], by simp, hready⟩
    · obtain ⟨rate, -, hready⟩ := List.any_eq_true.mp h
      exact ⟨past, t, [], rfl, rate.proto, hready⟩

theorem fresh_new (alpha : F) (minSamples : ℕ) (minStddev : F) (minElapsedTicks : ℕ)
    (d : EmergencyDetector F) (rules : List (AlertRule F)) :
    Fresh (new (.new alpha minSamples minStddev minElapsedTicks) d (.new rules)) :=
  ⟨fun _ => ⟨rfl, rfl⟩, rfl, rfl, rfl⟩

/-- **Warm-up suppresses baseline alerts**: a spike or drop fires only after calls of `tick`, as
many as its threshold and at least one, at each of which the gate of its protocol was passed; the
runner is warmed up from then on, and never before some baseline was ready. -/
theorem fires_after_warm_up (alpha : F) (minSamples : ℕ) (minStddev : F) (minElapsedTicks : ℕ)
    (d : EmergencyDetector F) (rules : List (AlertRule F)) (hd : (rules.map (·.kind)).Nodup) :
    let r := new (.new alpha minSamples minStddev minElapsedTicks) d (.new rules)
    (∀ past t, ∀ rule ∈ rules, ∀ p, rule.kind ≠ .emergency →
      .fired ∈ slotEvents (step (after r past) t) ⟨p, rule.kind⟩ →
      LastedAt (Gate r p) (max 1 rule.consecutiveThreshold.toNat) (past ++ [t]) ∧
      ∀ rest, (after r (past ++ t :: rest)).warmedUp = true) ∧
    ∀ ticks, (after r ticks).warmedUp = true →
      ∃ past t rest, ticks = past ++ t :: rest ∧
        ∃ p, ((after r past).baseline.advance.snapshot p).isReady = true := by
  intro r
  have hfresh : Fresh r := fresh_new ..
  refine ⟨fun past t rule hr p hk hfired => ?_, fun ticks h => ready_of_warmedUp hfresh h⟩
  obtain ⟨hlasted, ⟨rate, hrate, rfl⟩, hready⟩ := gated_of_fired hfresh hd hr hk hfired
  refine ⟨hlasted, fun rest => ?_⟩
  have hwarm : (after r (past ++ [t])).warmedUp = true := by
    rw [after_concat, warmedUp_step, Bool.or_eq_true]
    exact .inr (List.any_eq_true.mpr ⟨rate, hrate, hready⟩)
  have happend := warmedUp_append hwarm rest
  rwa [List.append_assoc] at happend

/-- A spike that fires in the third call, which is the first one with a ready baseline. -/
theorem fires_after_warm_up_third :
    let tick : ℕ → ℕ → RunnerTick := fun now icmp =>
      ⟨some ⟨now, [⟨icmp, 0⟩, ⟨0, 0⟩, ⟨0, 0⟩, ⟨0, 0⟩, ⟨0, 0⟩]⟩, now, fun _ => AlertKey.order⟩
    let past : List RunnerTick := [tick 0 0, tick 30000000000 1000]
    let r : AnomalyRunner ℚ := new (.new 1 1 0 3) ⟨[]⟩
      (.new [⟨.spike, .suspicious, 0, 0, 1, 1, true⟩])
    LastedAt (Gate r .icmp) 1 (past ++ [tick 60000000000 2000]) ∧ (after r past).warmedUp = false ∧
      (after r (past ++ [tick 60000000000 2000])).warmedUp = true := by
  intro tick past r
  have h := (fires_after_warm_up (1 : ℚ) 1 0 3 ⟨[]⟩ [⟨.spike, .suspicious, 0, 0, 1, 1, true⟩]
    (by decide)).1 past (tick 60000000000 2000) _ (List.mem_singleton_self _) .icmp (by decide)
    (by decide +kernel)
  exact ⟨h.1, by decide +kernel, h.2 []⟩

end AnomalyRunner

end EbpfXdp
