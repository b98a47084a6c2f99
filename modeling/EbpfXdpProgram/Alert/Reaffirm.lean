import EbpfXdpProgram.Alert.IpRuns
import EbpfXdpProgram.Alert.RuleInteraction

/-!
# When a firing alert is re-affirmed

A tick re-affirms a firing slot only on a signal: while an alert waits for its resolve threshold
without one, nothing is emitted for it. `firing_reaffirmed` says so for both managers: a firing slot
has a message in a tick exactly if it has a signal in it, and its last message is at most as many
ticks old as the resolve threshold allows.
-/

namespace EbpfXdp

/-! ## The resolve counter -/

namespace AlertState

variable {s : AlertState} (now : Instant) (C : Duration) (K R : UInt32)

/-- The resolve counter never reaches the largest threshold, and so does not wrap. -/
theorem resolve_advance_lt (h : s.resolveConsecutiveCount.toNat + 1 < 2 ^ 32) (a : Bool) :
    (s.advance a now C K R).1.resolveConsecutiveCount.toNat + 1 < 2 ^ 32 := by
  rcases hs : s.isFiring with _ | _ <;> rcases a with _ | _
  · rw [advance_quiet_of_not_firing now C K R hs]
    split_ifs
    · exact h
    · exact Nat.one_lt_two_pow (by decide)
  · rw [advance_active_of_not_firing now C K R hs]
    split_ifs
    · exact h
    · exact h
  · rw [advance_quiet_of_firing now C K R hs]
    split_ifs with hR
    · exact Nat.one_lt_two_pow (by decide)
    · rw [UInt32.le_iff_toNat_le] at hR
      have := R.toNat_lt
      show (s.resolveConsecutiveCount + 1).toNat + 1 < 2 ^ 32
      omega
  · rw [advance_active_of_firing now C K R hs]
    exact Nat.one_lt_two_pow (by decide)

theorem firing_of_quiet (hw : s.resolveConsecutiveCount.toNat + 1 < 2 ^ 32)
    (h : (s.advance false now C K R).1.isFiring = true) :
    s.isFiring = true ∧ (s.advance false now C K R).1.resolveConsecutiveCount.toNat =
      s.resolveConsecutiveCount.toNat + 1 ∧ s.resolveConsecutiveCount.toNat + 1 < R.toNat := by
  rcases hs : s.isFiring with _ | _
  · rw [advance_quiet_of_not_firing now C K R hs] at h
    split_ifs at h
    · exact absurd (hs.symm.trans h) (by decide)
    · exact Bool.noConfusion h
  · have hcount : (s.resolveConsecutiveCount + 1).toNat = s.resolveConsecutiveCount.toNat + 1 :=
      toNat_add_one rfl hw
    rw [advance_quiet_of_firing now C K R hs] at h ⊢
    split_ifs at h ⊢ with hR
    · exact Bool.noConfusion h
    · rw [UInt32.le_iff_toNat_le, hcount] at hR
      exact ⟨rfl, hcount, by omega⟩

end AlertState

/-! ## Per protocol -/

section Proto

variable {F : Type} [F64 F]

omit [F64 F] in
theorem firing_of_exec_quiet {now : Instant} {s : AlertState} (rules : List (AlertRule F))
    (hw : s.resolveConsecutiveCount.toNat + 1 < 2 ^ 32)
    (h : (Run.exec (AlertRule.advance false now) s rules).isFiring = true) :
    s.isFiring = true ∧
      (Run.exec (AlertRule.advance false now) s rules).resolveConsecutiveCount.toNat =
        s.resolveConsecutiveCount.toNat + rules.length ∧
      ∀ rule ∈ rules,
        s.resolveConsecutiveCount.toNat + 1 < rule.resolveConsecutiveThreshold.toNat := by
  induction rules generalizing s with
  | nil => exact ⟨h, rfl, fun rule hr => absurd hr List.not_mem_nil⟩
  | cons rule rules ih =>
    rw [Run.exec_cons] at h ⊢
    have hw' : (rule.advance false now s).1.resolveConsecutiveCount.toNat + 1 < 2 ^ 32 :=
      AlertState.resolve_advance_lt _ _ _ _ hw false
    obtain ⟨hfiring, hcount, hrules⟩ := ih hw' h
    obtain ⟨hs, hone, hR⟩ := AlertState.firing_of_quiet _ _ _ _ hw hfiring
    change (rule.advance false now s).1.resolveConsecutiveCount.toNat = _ at hone
    refine ⟨hs, by rw [hcount, hone, List.length_cons]; omega, fun r hr => ?_⟩
    rcases List.mem_cons.mp hr with rfl | hr
    · exact hR
    · have := hrules r hr
      omega

omit [F64 F] in
theorem firing_or_fired {a : Bool} {now : Instant} {s : AlertState} (rules : List (AlertRule F))
    (h : (Run.exec (AlertRule.advance a now) s rules).isFiring = true) :
    s.isFiring = true ∨ some .fired ∈ Run.outs (AlertRule.advance a now) s rules := by
  induction rules generalizing s with
  | nil => exact .inl h
  | cons rule rules ih =>
    rw [Run.exec_cons] at h
    rw [Run.outs]
    rcases ih h with hfiring | hfired
    · rcases (AlertState.isFiring_advance ..).mp hfiring with hev | ⟨hs, -⟩
      · exact .inr (List.mem_cons.mpr (.inl hev.symm))
      · exact .inl hs
    · exact .inr (List.mem_cons_of_mem _ hfired)

theorem heartbeats_foldl_ne_nil (key : AlertKey) (signal : Option (AlertSignal F)) (now : Instant)
    (rules : List (AlertRule F)) {v : Slot F} (h : v.heartbeats ≠ []) :
    (rules.foldl (Slot.advance key signal now) v).heartbeats ≠ [] := by
  induction rules generalizing v with
  | nil => exact h
  | cons rule rules ih => exact ih (List.append_ne_nil_of_left_ne_nil h _)

theorem heartbeats_foldl_none (key : AlertKey) (now : Instant) (rules : List (AlertRule F))
    (v : Slot F) : (rules.foldl (Slot.advance key none now) v).heartbeats = v.heartbeats := by
  induction rules generalizing v with
  | nil => rfl
  | cons rule rules ih =>
    rw [List.foldl_cons, ih]
    show v.heartbeats ++ Slot.reaffirmed none _ = v.heartbeats
    unfold Slot.reaffirmed
    rw [Option.toList_none, List.map_nil, ite_self, List.append_nil]

theorem heartbeats_of_firing (key : AlertKey) {signal : Option (AlertSignal F)} (now : Instant)
    {rules : List (AlertRule F)} (hr : rules ≠ []) {v : Slot F} (hv : v.state.isFiring = true)
    (hsig : signal.isSome = true) :
    (rules.foldl (Slot.advance key signal now) v).heartbeats ≠ [] := by
  obtain ⟨rule, rest, rfl⟩ := List.exists_cons_of_ne_nil hr
  obtain ⟨s, rfl⟩ := Option.isSome_iff_exists.mp hsig
  have hstep : Slot.step (some s) now v.state rule =
      ({ v.state with resolveConsecutiveCount := 0 }, none) :=
    AlertState.advance_active_of_firing _ _ _ _ hv
  have hfirst : (v.advance key (some s) now rule).heartbeats ≠ [] := by
    show v.heartbeats ++ Slot.reaffirmed (some s) (Slot.step (some s) now v.state rule) ≠ []
    rw [hstep]
    unfold Slot.reaffirmed
    rw [if_pos ⟨rfl, hv⟩]
    exact List.append_ne_nil_of_right_ne_nil _ (List.cons_ne_nil _ _)
  exact heartbeats_foldl_ne_nil key (some s) now rest hfirst

namespace AlertLifecycleManager

variable (rules : List (AlertRule F)) (key : AlertKey)

/-- The tick emits `Fired` or a heartbeat for the slot. -/
def Reaffirms (past : List (ProtoTick F)) (t : ProtoTick F) : Prop :=
  .fired ∈ slotEvents (step (after rules past) t) key ∨
    slotHeartbeats (step (after rules past) t) key ≠ []

variable {rules key} {past : List (ProtoTick F)} {t : ProtoTick F}

theorem resolve_after_lt (past : List (ProtoTick F)) :
    ((after rules past).slotState key).resolveConsecutiveCount.toNat + 1 < 2 ^ 32 := by
  induction past using List.reverseRecOn with
  | nil => exact Nat.one_lt_two_pow (by decide)
  | append_singleton past t ih =>
    rw [(step_slot rules past t key).1]
    exact Run.exec_invariant (I := fun s : AlertState => s.resolveConsecutiveCount.toNat + 1 < 2 ^ 32)
      (fun s rule h => AlertState.resolve_advance_lt _ _ _ _ h _) ih _

theorem reaffirms_of_active
    (h : ((after rules (past ++ [t])).slotState key).isFiring = true)
    (ha : activeAt rules key t = true) : Reaffirms rules key past t := by
  obtain ⟨hstate, hevents⟩ := step_slot rules past t key
  have hrules : (after rules past).slotRules key = rules.filter (·.kind = key.kind) := by
    unfold slotRules
    rw [rules_after]
  rw [hstate] at h
  rcases firing_or_fired _ h with hs | hfired
  · right
    have hactive := (isSome_collectActive_after rules past t key).trans ha
    obtain ⟨rule, hrule, -⟩ := activeAt_iff.mp ha
    have hbeats := (tick_slot t.order (after rules past) t.signals t.now key).2.2.2
    unfold slotHeartbeats step
    rw [hbeats]
    exact heartbeats_of_firing key t.now
      (by rw [hrules]; exact List.ne_nil_of_mem hrule) hs hactive
  · left
    rw [hevents]
    exact List.reduceOption_mem_iff.mpr hfired

theorem active_of_reaffirms (h : Reaffirms rules key past t) : activeAt rules key t = true := by
  rcases h with hfired | hbeats
  · rw [(step_slot rules past t key).2, List.reduceOption_mem_iff] at hfired
    obtain ⟨pre, rule, -, -, hfired⟩ := Run.exists_of_mem_outs _ _ hfired
    exact ((AlertState.fired_iff ..).mp hfired.symm).2.1
  · by_contra hquiet
    have hnone : ((after rules past).collectActive t.signals).lookup key = none := by
      rw [← Option.not_isSome_iff_eq_none, isSome_collectActive_after]
      exact hquiet
    have hslot := (tick_slot t.order (after rules past) t.signals t.now key).2.2.2
    rw [hnone] at hslot
    exact hbeats (hslot.trans (heartbeats_foldl_none ..))

/-- One tick of a firing slot. -/
theorem reaffirms_or_counts {rule : AlertRule F} (hr : rule ∈ rules) (hk : rule.kind = key.kind)
    (h : ((after rules (past ++ [t])).slotState key).isFiring = true) :
    Reaffirms rules key past t ∨ ((after rules past).slotState key).isFiring = true ∧
      ((after rules past).slotState key).resolveConsecutiveCount.toNat <
        ((after rules (past ++ [t])).slotState key).resolveConsecutiveCount.toNat ∧
      ((after rules past).slotState key).resolveConsecutiveCount.toNat + 1 <
        rule.resolveConsecutiveThreshold.toNat := by
  cases ha : activeAt rules key t with
  | true => exact .inl (reaffirms_of_active h ha)
  | false =>
    right
    have hrule : rule ∈ rules.filter (·.kind = key.kind) :=
      List.mem_filter.mpr ⟨hr, decide_eq_true hk⟩
    obtain ⟨hstate, -⟩ := step_slot rules past t key
    rw [ha] at hstate
    rw [hstate] at h ⊢
    obtain ⟨hs, hcount, hrules⟩ := firing_of_exec_quiet _ (resolve_after_lt past) h
    have hpos := List.length_pos_of_mem hrule
    exact ⟨hs, by omega, hrules rule hrule⟩

end AlertLifecycleManager

end Proto

/-! ## Per source -/

section Source

variable {S A : Type} [IpKeyed S] [FromIpSignal S A] [AlertIp A]

namespace IpAlertLifecycleManager

/-- The tick emits `Fired` or a heartbeat for the source. -/
def Reaffirms (A : Type) [FromIpSignal S A] [AlertIp A] (P : FsmConfig) (ip : Ipv4Addr)
    (past : List (IpTick S)) (t : IpTick S) : Prop :=
  (∃ e ∈ slotEvents (step (after P past : IpAlertLifecycleManager S A) t) ip,
    e.lifecycle = .fired) ∨
  slotHeartbeats (step (after P past : IpAlertLifecycleManager S A) t) ip ≠ []

variable [LawfulFromIpSignal S A] {P : FsmConfig} {ip : Ipv4Addr} {past : List (IpTick S)}
  {t : IpTick S}

theorem resolve_after_lt (past : List (IpTick S)) :
    ((after P past : IpAlertLifecycleManager S A).slotState ip).resolveConsecutiveCount.toNat + 1 <
      2 ^ 32 := by
  induction past using List.reverseRecOn with
  | nil => exact Nat.one_lt_two_pow (by decide)
  | append_singleton past t ih =>
    rw [slotState_concat]
    split_ifs
    · exact AlertState.resolve_advance_lt _ _ _ _ ih _
    · exact Nat.one_lt_two_pow (by decide)

theorem slotState_of_firing
    (h : ((after P (past ++ [t]) : IpAlertLifecycleManager S A).slotState ip).isFiring = true) :
    (after P (past ++ [t]) : IpAlertLifecycleManager S A).slotState ip =
      (AlertState.feed P ((after P past : IpAlertLifecycleManager S A).slotState ip)
        (t.sees ip)).1 := by
  rw [slotState_concat] at h ⊢
  split_ifs at h ⊢
  · rfl
  · exact Bool.noConfusion h

theorem reaffirms_of_active
    (h : ((after P (past ++ [t]) : IpAlertLifecycleManager S A).slotState ip).isFiring = true)
    (ha : (t.sees ip).active = true) : Reaffirms A P ip past t := by
  obtain ⟨-, hevents, hbeats⟩ := step_slot (A := A) P past t ip
  rw [slotState_of_firing h] at h
  rcases (AlertState.isFiring_advance ..).mp h with hfired | ⟨hs, -⟩
  · left
    rw [hevents]
    exact ⟨_, List.mem_map.mpr ⟨.fired, Option.mem_toList.mpr hfired, rfl⟩, rfl⟩
  · right
    have hnone : (AlertState.feed P ((after P past : IpAlertLifecycleManager S A).slotState ip)
        (t.sees ip)).2 = none := by
      unfold AlertState.feed
      rw [ha, AlertState.advance_active_of_firing _ _ _ _ hs]
    rw [hbeats]
    unfold reaffirmed
    rw [if_pos ⟨hnone, h, ha⟩]
    exact List.cons_ne_nil _ _

theorem active_of_reaffirms (h : Reaffirms A P ip past t) : (t.sees ip).active = true := by
  obtain ⟨-, hevents, hbeats⟩ := step_slot (A := A) P past t ip
  rcases h with ⟨e, he, hfired⟩ | hbeat
  · rw [hevents] at he
    obtain ⟨lifecycle, hmem, rfl⟩ := List.mem_map.mp he
    obtain rfl : lifecycle = .fired := hfired
    exact ((AlertState.fired_iff ..).mp (Option.mem_toList.mp hmem)).2.1
  · rw [hbeats] at hbeat
    unfold reaffirmed at hbeat
    by_contra hquiet
    exact hbeat (if_neg fun hsent => hquiet hsent.2.2)

theorem reaffirms_or_counts
    (h : ((after P (past ++ [t]) : IpAlertLifecycleManager S A).slotState ip).isFiring = true) :
    Reaffirms A P ip past t ∨
      ((after P past : IpAlertLifecycleManager S A).slotState ip).isFiring = true ∧
      ((after P past : IpAlertLifecycleManager S A).slotState ip).resolveConsecutiveCount.toNat <
        ((after P (past ++ [t]) : IpAlertLifecycleManager S A).slotState
          ip).resolveConsecutiveCount.toNat ∧
      ((after P past : IpAlertLifecycleManager S A).slotState ip).resolveConsecutiveCount.toNat + 1 <
        P.resolveConsecutiveThreshold.toNat := by
  cases ha : (t.sees ip).active with
  | true => exact .inl (reaffirms_of_active h ha)
  | false =>
    right
    have hstate := slotState_of_firing h
    unfold AlertState.feed at hstate
    rw [ha] at hstate
    rw [hstate] at h ⊢
    obtain ⟨hs, hcount, hR⟩ := AlertState.firing_of_quiet _ _ _ _ (resolve_after_lt past) h
    exact ⟨hs, by omega, hR⟩

end IpAlertLifecycleManager

variable {F : Type} [F64 F] [LawfulFromIpSignal S A]

/-- **When a firing alert is re-affirmed**: in both managers, a slot that is firing after a tick has
a `Fired` or a heartbeat in that tick exactly if it has a signal in it, and the last one of a firing
slot is among the last ticks, as many as the resolve threshold says and at least one. -/
theorem firing_reaffirmed (rules : List (AlertRule F)) (P : FsmConfig) :
    (∀ (past : List (ProtoTick F)) (t : ProtoTick F) (key : AlertKey),
      ((AlertLifecycleManager.after rules (past ++ [t])).slotState key).isFiring = true →
      (AlertLifecycleManager.Reaffirms rules key past t ↔ activeAt rules key t = true) ∧
      ∀ rule ∈ rules, rule.kind = key.kind → Within (AlertLifecycleManager.Reaffirms rules key)
        (max 1 rule.resolveConsecutiveThreshold.toNat) (past ++ [t])) ∧
    ∀ (past : List (IpTick S)) (t : IpTick S) (ip : Ipv4Addr),
      ((IpAlertLifecycleManager.after P (past ++ [t]) :
        IpAlertLifecycleManager S A).slotState ip).isFiring = true →
      (IpAlertLifecycleManager.Reaffirms A P ip past t ↔ (t.sees ip).active = true) ∧
      Within (IpAlertLifecycleManager.Reaffirms A P ip)
        (max 1 P.resolveConsecutiveThreshold.toNat) (past ++ [t]) := by
  refine ⟨fun past t key h => ⟨⟨AlertLifecycleManager.active_of_reaffirms,
      AlertLifecycleManager.reaffirms_of_active h⟩, fun rule hr hk => ?_⟩,
    fun past t ip h => ⟨⟨IpAlertLifecycleManager.active_of_reaffirms,
      IpAlertLifecycleManager.reaffirms_of_active h⟩, ?_⟩⟩
  · let s : List (ProtoTick F) → AlertState :=
      fun past => (AlertLifecycleManager.after rules past).slotState key
    exact within_of_counter (fun past => (s past).isFiring = true)
      (fun past => (s past).resolveConsecutiveCount.toNat) Bool.false_ne_true
      (fun past t => AlertLifecycleManager.reaffirms_or_counts hr hk) _ h
  · let s : List (IpTick S) → AlertState :=
      fun past => (IpAlertLifecycleManager.after P past : IpAlertLifecycleManager S A).slotState ip
    exact within_of_counter (fun past => (s past).isFiring = true)
      (fun past => (s past).resolveConsecutiveCount.toNat) Bool.false_ne_true
      (fun past t => IpAlertLifecycleManager.reaffirms_or_counts) _ h

/-- An emergency that goes on is re-affirmed in its second tick, and a SYN flood likewise. -/
theorem firing_reaffirmed_default :
    let t : ProtoTick ℚ := ⟨[⟨.tcp, .severe, .emergency, 1⟩], 0, fun _ => AlertKey.order⟩
    let u : IpTick (SynFloodSignal ℚ) := ⟨[⟨⟨1⟩, 200, 1⟩], 0, Ipv4Addr.order⟩
    AlertLifecycleManager.Reaffirms defaultAlertRules ⟨.tcp, .emergency⟩ [t] t ∧
      IpAlertLifecycleManager.Reaffirms (SynFloodAlert ℚ) ⟨0, 1, 1⟩ ⟨1⟩ [u] u := by
  intro t u
  have h := firing_reaffirmed (A := SynFloodAlert ℚ) (S := SynFloodSignal ℚ)
    (defaultAlertRules (F := ℚ)) ⟨0, 1, 1⟩
  exact ⟨(h.1 [t] t ⟨.tcp, .emergency⟩ (by decide +kernel)).1.mpr (by decide +kernel),
    (h.2 [u] u ⟨1⟩ (by decide +kernel)).1.mpr (by decide +kernel)⟩

/-- A rule that fires at once and resolves after three quiet ticks. -/
def slowResolveRules : List (AlertRule ℚ) := [⟨.spike, .suspicious, 0, 0, 1, 3, false⟩]

/-- A firing slot whose signal is gone for a tick is not re-affirmed in it. -/
theorem slowResolveRules_silent :
    ¬∀ (past : List (ProtoTick ℚ)) (t : ProtoTick ℚ) (key : AlertKey),
      ((AlertLifecycleManager.after slowResolveRules (past ++ [t])).slotState key).isFiring = true →
      AlertLifecycleManager.Reaffirms slowResolveRules key past t := by
  intro h
  have hloud := h [⟨[⟨.tcp, .severe, .spike, 1⟩], 0, fun _ => AlertKey.order⟩]
    ⟨[], 30, fun _ => AlertKey.order⟩ ⟨.tcp, .spike⟩ (by decide +kernel)
  rcases hloud with hfired | hbeat
  · exact absurd hfired (by decide +kernel)
  · exact absurd hbeat (by decide +kernel)

end Source

end EbpfXdp
