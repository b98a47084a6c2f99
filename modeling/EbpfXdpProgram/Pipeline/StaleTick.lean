import EbpfXdpProgram.Pipeline.Runner

/-!
# Ticks on a stale snapshot

A tick whose snapshot is no later than the one before has no rates, and so no signals: to the alert
manager it is a quiet tick. It leaves the FSMs alone exactly if none of them is pending or firing
(`stale_tick_alone_iff`), where a tick without a snapshot always does.
-/

namespace EbpfXdp

variable {F : Type} [F64 F]

namespace Slot

theorem events_foldl (key : AlertKey) (signal : Option (AlertSignal F)) (now : Instant)
    (rules : List (AlertRule F)) (v : Slot F) :
    ∃ events, (rules.foldl (advance key signal now) v).events = v.events ++ events := by
  induction rules generalizing v with
  | nil => exact ⟨[], (List.append_nil _).symm⟩
  | cons rule rules ih =>
    obtain ⟨events, h⟩ := ih (v.advance key signal now rule)
    exact ⟨_, h.trans (List.append_assoc ..)⟩

theorem foldl_inactive (key : AlertKey) (now : Instant) (rules : List (AlertRule F)) {v : Slot F}
    (h : v.state.phase = .inactive) : rules.foldl (advance key none now) v = v := by
  induction rules with
  | nil => rfl
  | cons rule rules ih => rw [List.foldl_cons, advance_inactive key now v rule h, ih]

theorem advance_quiet_firing (key : AlertKey) (now : Instant) {v : Slot F} (rule : AlertRule F)
    (hs : v.state.isFiring = true) (hev : (v.advance key none now rule).events = []) :
    (v.advance key none now rule).state.isFiring = true ∧
      ((v.advance key none now rule).state.resolveConsecutiveCount + 1).toNat =
        (v.state.resolveConsecutiveCount + 1).toNat + 1 := by
  have hstep : step (none : Option (AlertSignal F)) now v.state rule = _ :=
    AlertState.advance_quiet_of_firing now rule.cooldown rule.consecutiveThreshold
      rule.resolveConsecutiveThreshold hs
  unfold advance at hev ⊢
  rw [hstep] at hev ⊢
  split_ifs at hev ⊢ with hr
  · exact absurd (List.append_eq_nil_iff.mp hev).2 (List.cons_ne_nil _ _)
  · rw [UInt32.le_iff_toNat_le, not_le] at hr
    have hlt := rule.resolveConsecutiveThreshold.toNat_lt
    exact ⟨hs, AlertState.toNat_add_one rfl (by omega)⟩

theorem foldl_quiet_firing (key : AlertKey) (now : Instant) (rules : List (AlertRule F))
    {v : Slot F} (hs : v.state.isFiring = true)
    (hev : (rules.foldl (advance key none now) v).events = []) :
    ((rules.foldl (advance key none now) v).state.resolveConsecutiveCount + 1).toNat =
      (v.state.resolveConsecutiveCount + 1).toNat + rules.length := by
  induction rules generalizing v with
  | nil => rfl
  | cons rule rules ih =>
    rw [List.foldl_cons] at hev ⊢
    obtain ⟨events, hevents⟩ := events_foldl key none now rules (v.advance key none now rule)
    rw [hevents] at hev
    obtain ⟨hs', hcount⟩ :=
      advance_quiet_firing key now rule hs (List.append_eq_nil_iff.mp hev).1
    rw [ih hs' (hevents.trans hev), hcount, List.length_cons]
    omega

/-- Quiet rules emit something for a pending or firing slot, or change it. -/
theorem foldl_quiet_ne (key : AlertKey) (now : Instant) {rules : List (AlertRule F)}
    (hne : rules ≠ []) {v : Slot F} (hp : v.state.phase ≠ .inactive)
    (hev : (rules.foldl (advance key none now) v).events = []) :
    (rules.foldl (advance key none now) v).state ≠ v.state := by
  cases hs : v.state.isFiring with
  | false =>
    -- the first rule resets a pending slot, and the others leave it so
    obtain ⟨rule, rules, rfl⟩ := List.exists_cons_of_ne_nil hne
    have hreset : (v.advance key none now rule).state = v.state.reset := by
      have hquiet := AlertState.advance_quiet_of_not_firing now rule.cooldown
        rule.consecutiveThreshold rule.resolveConsecutiveThreshold hs
      rw [if_neg hp] at hquiet
      exact congrArg Prod.fst hquiet
    rw [List.foldl_cons, foldl_inactive key now rules (by rw [hreset]; rfl), hreset]
    exact fun h => hp (congrArg AlertState.phase h).symm
  | true =>
    intro h
    have hcount := foldl_quiet_firing key now rules hs hev
    have hpos := List.length_pos_iff.mpr hne
    rw [h] at hcount
    omega

end Slot

namespace AlertLifecycleManager

omit [F64 F] in
theorem slotRules_eq_nil {m : AlertLifecycleManager F} {key : AlertKey} :
    m.slotRules key = [] ↔ key.kind ∉ m.rules.map (·.kind) := by
  unfold slotRules
  rw [List.filter_eq_nil_iff, List.mem_map]
  constructor
  · rintro h ⟨rule, hr, hk⟩
    exact h rule hr (decide_eq_true hk)
  · exact fun h rule hr hk => h ⟨rule, hr, of_decide_eq_true hk⟩

/-- Every tracked FSM whose kind has a rule is inactive. -/
def Idle (m : AlertLifecycleManager F) : Prop :=
  ∀ key : AlertKey, key.kind ∈ m.rules.map (·.kind) → (m.slotState key).phase = .inactive

/-- A tick without signals changes nothing and emits nothing exactly if the manager is idle. -/
theorem step_quiet_iff (m : AlertLifecycleManager F) {t : ProtoTick F} (ht : t.signals = []) :
    (step m t).2.1 = [] ∧ (step m t).1 = m ↔ m.Idle := by
  have hslot := tick_slot t.order m t.signals t.now
  have hnone : ∀ key, (m.collectActive t.signals).lookup key = none := fun key => by
    rw [← Option.not_isSome_iff_eq_none, collectActive_isSome, ht]
    rintro ⟨rule, -, s, hs, -⟩
    exact List.not_mem_nil hs
  simp only [hnone] at hslot
  constructor
  · rintro ⟨hevents, hstate⟩ key hkind
    by_contra hp
    have hne : m.slotRules key ≠ [] := fun hnil => slotRules_eq_nil.mp hnil hkind
    obtain ⟨-, hs, hev, -⟩ := hslot key
    unfold slotTick at hs hev
    have hnil : (step m t).2.1.filter (·.alert.key = key) = [] := by rw [hevents]; rfl
    refine Slot.foldl_quiet_ne key t.now hne (v := ⟨_, m.slotState key, [], []⟩) hp
      (hev.symm.trans hnil) (hs.symm.trans ?_)
    exact congrArg (slotState · key) hstate
  · intro hidle
    have hsame : ∀ key, m.slotTick key none t.now =
        ⟨(m.states.lookup key).isSome, m.slotState key, [], []⟩ := fun key => by
      unfold slotTick
      by_cases hkind : key.kind ∈ m.rules.map (·.kind)
      · exact Slot.foldl_inactive key t.now _ (hidle key hkind)
      · rw [slotRules_eq_nil.mpr hkind]
        rfl
    simp only [hsame] at hslot
    refine ⟨List.eq_nil_iff_forall_not_mem.mpr fun e he => ?_,
      ext_slots (rules_step m t) (fun key => (hslot key).1) fun key => (hslot key).2.1⟩
    have hin : e ∈ (step m t).2.1.filter (·.alert.key = e.alert.key) :=
      List.mem_filter.mpr ⟨he, decide_eq_true rfl⟩
    have hnil : (step m t).2.1.filter (·.alert.key = e.alert.key) = [] := (hslot e.alert.key).2.2.1
    rw [hnil] at hin
    exact List.not_mem_nil hin

end AlertLifecycleManager

namespace AnomalyRunner

/-- The tick has a snapshot, and it is not later than the one processed before. -/
def Stale (r : AnomalyRunner F) (t : RunnerTick) : Prop :=
  ∃ prev curr, r.prevCounters = some prev ∧ t.current = some curr ∧
    curr.timestamp ≤ prev.timestamp

/-- The tick emits no transition and leaves every FSM and every EWMA unchanged. -/
def LeavesAlone (r : AnomalyRunner F) (t : RunnerTick) : Prop :=
  (step r t).2.transitions = [] ∧ (step r t).1.alertLifecycleManager = r.alertLifecycleManager ∧
    ∀ p, (step r t).1.baseline.ewmas p = r.baseline.ewmas p

theorem leavesAlone_of_none (r : AnomalyRunner F) {t : RunnerTick} (h : t.current = none) :
    LeavesAlone r t := by
  obtain ⟨hbaseline, hmanager, hout⟩ := step_skipped (r := r) (.inr h)
  unfold LeavesAlone
  rw [hbaseline, hmanager, hout]
  exact ⟨rfl, rfl, fun p => rfl⟩

variable [LawfulF64 F]

/-- **A stale tick** leaves alerting alone, as the tick without the snapshot does, exactly if no
alert is pending or firing. -/
theorem stale_tick_alone_iff (r : AnomalyRunner F) (t : RunnerTick) (h : Stale r t) :
    (LeavesAlone r t ↔ r.alertLifecycleManager.Idle) ∧
      LeavesAlone r { t with current := none } := by
  refine ⟨?_, leavesAlone_of_none r rfl⟩
  obtain ⟨prev, curr, hprev, hcurr, hle⟩ := h
  obtain ⟨hbaseline, hmanager, hout⟩ := step_processed hprev hcurr
  have hrates : r.rates t = [] := by
    rw [rates_of_processed hprev hcurr]
    exact computeRates_eq_nil hle
  have hsignals : (r.protoTick t).signals = [] := by
    show r.signals t = []
    unfold signals
    rw [hrates]
    rfl
  rw [hrates] at hbaseline
  rw [← AlertLifecycleManager.step_quiet_iff _ hsignals]
  unfold LeavesAlone
  rw [hbaseline, hmanager, hout]
  constructor
  · exact fun ⟨hevents, hstate, _⟩ => ⟨hevents, hstate⟩
  · exact fun ⟨hevents, hstate⟩ => ⟨hevents, hstate, fun p => rfl⟩

/-- After an emergency that has fired and resolved, a stale tick leaves alerting alone. -/
theorem stale_tick_alone_iff_resolved :
    let tick : ℕ → ℕ → ℕ → RunnerTick := fun packets stamp now =>
      ⟨some ⟨stamp, List.replicate 5 ⟨packets, packets⟩⟩, now, fun _ => AlertKey.order⟩
    let r : AnomalyRunner ℚ := after (new (.new 0.4 5 0.001 4) ⟨[⟨.icmp, some 3, none⟩]⟩
      (.new defaultAlertRules)) [tick 0 0 0, tick 1000 30000000000 30000000000,
        tick 1000 60000000000 60000000000]
    ⟨.icmp, .emergency⟩ ∈ r.alertLifecycleManager.states ∧
      LeavesAlone r (tick 1000 60000000000 90000000000) := by
  intro tick r
  have hidle : r.alertLifecycleManager.Idle := by
    have hphases : ∀ p ∈ ProtoIndex.every, ∀ kind ∈ r.alertLifecycleManager.rules.map (·.kind),
        (r.alertLifecycleManager.slotState ⟨p, kind⟩).phase = .inactive := by decide +kernel
    exact fun key hkind => hphases key.proto (ProtoIndex.mem_every _) key.kind hkind
  exact ⟨by decide +kernel, (stale_tick_alone_iff r (tick 1000 60000000000 90000000000)
    ⟨_, _, rfl, rfl, le_refl _⟩).1.mpr hidle⟩

/-- Under the default rules, a stale tick resolves the emergency of an ongoing flood. -/
theorem stale_tick_resolves :
    let tick : ℕ → ℕ → ℕ → RunnerTick := fun packets stamp now =>
      ⟨some ⟨stamp, List.replicate 5 ⟨packets, packets⟩⟩, now, fun _ => AlertKey.order⟩
    let r : AnomalyRunner ℚ := after (new (.new 0.4 5 0.001 4) ⟨[⟨.icmp, some 3, none⟩]⟩
      (.new defaultAlertRules)) [tick 0 0 0, tick 1000 30000000000 30000000000]
    let t := tick 1000 30000000000 60000000000
    Stale r t ∧ slotEvents (step r t) ⟨.icmp, .emergency⟩ = [.resolved] ∧ ¬LeavesAlone r t := by
  intro tick r t
  have hresolved : slotEvents (step r t) ⟨.icmp, .emergency⟩ = [.resolved] := by decide +kernel
  refine ⟨⟨_, _, rfl, rfl, le_refl _⟩, hresolved, fun halone => ?_⟩
  unfold slotEvents at hresolved
  rw [halone.1] at hresolved
  exact List.cons_ne_nil _ _ hresolved.symm

end AnomalyRunner

end EbpfXdp
