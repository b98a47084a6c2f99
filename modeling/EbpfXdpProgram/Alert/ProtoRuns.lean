import EbpfXdpProgram.Alert.History
import EbpfXdpProgram.Alert.ProtoManager

/-!
# Runs of the per-protocol manager

A manager whose rules have distinct kinds is a family of independent FSMs: slot `(proto, kind)` is
the FSM of the rule of that kind, fed with whether a signal for the slot meets that rule
(`slot_is_independent_fsm`). Lazy creation, the other slots and the orders of signals and loops
cannot be observed.
-/

namespace EbpfXdp

variable {F : Type} [F64 F]

/-! ## What a slot depends on -/

namespace Slot

/-- The two views of a slot agree but for the payloads of its events and heartbeats. -/
structure Alike (v w : Slot F) : Prop where
  tracked : v.tracked = w.tracked
  state : v.state = w.state
  events : v.events.map (·.lifecycle) = w.events.map (·.lifecycle)
  heartbeats : v.heartbeats.length = w.heartbeats.length

omit [F64 F] in
theorem Alike.refl (v : Slot F) : v.Alike v := ⟨rfl, rfl, rfl, rfl⟩

theorem lifecycle_emitted {key : AlertKey} {signal : Option (AlertSignal F)} {rule : AlertRule F}
    {event : Option AlertLifecycle} (h : event = some .fired → signal.isSome = true) :
    (emitted key signal rule event).map (·.lifecycle) = event.toList := by
  rcases event with _ | _ | _
  · rfl
  · obtain ⟨s, rfl⟩ := Option.isSome_iff_exists.mp (h rfl)
    rfl
  · rfl

omit [F64 F] in
theorem length_reaffirmed (signal : Option (AlertSignal F))
    (r : AlertState × Option AlertLifecycle) :
    (reaffirmed signal r).length =
      if r.2 = none ∧ r.1.isFiring = true ∧ signal.isSome = true then 1 else 0 := by
  unfold reaffirmed
  cases signal with
  | none => simp
  | some s =>
    simp only [Option.toList_some, List.map_cons, List.map_nil, Option.isSome_some, and_true]
    split_ifs <;> rfl

omit [F64 F] in
/-- An FSM fires only on a signal. -/
theorem signal_of_fired {signal : Option (AlertSignal F)} {now : Instant} {s : AlertState}
    {rule : AlertRule F} (h : (step signal now s rule).2 = some .fired) : signal.isSome = true :=
  ((AlertState.fired_iff ..).mp h).2.1

/-- Only whether there is a signal matters to the FSM. -/
theorem Alike.advance {v w : Slot F} (h : v.Alike w) {signal signal' : Option (AlertSignal F)}
    (hsig : signal.isSome = signal'.isSome) (key : AlertKey) (now : Instant)
    (rule : AlertRule F) :
    (v.advance key signal now rule).Alike (w.advance key signal' now rule) := by
  have hstep : step signal now v.state rule = step signal' now w.state rule := by
    unfold step; rw [hsig, h.state]
  refine ⟨?_, ?_, ?_, ?_⟩
  · show (v.tracked || signal.isSome) = (w.tracked || signal'.isSome)
    rw [h.tracked, hsig]
  · exact congrArg Prod.fst hstep
  · show (v.events ++ _).map _ = (w.events ++ _).map _
    rw [List.map_append, List.map_append, h.events, lifecycle_emitted signal_of_fired,
      lifecycle_emitted signal_of_fired, hstep]
  · show (v.heartbeats ++ _).length = (w.heartbeats ++ _).length
    rw [List.length_append, List.length_append, h.heartbeats, length_reaffirmed,
      length_reaffirmed, hstep, hsig]

theorem Alike.foldl_advance {signal signal' : Option (AlertSignal F)}
    (hsig : signal.isSome = signal'.isSome) (key : AlertKey) (now : Instant)
    (rules : List (AlertRule F)) {v w : Slot F} (h : v.Alike w) :
    (rules.foldl (Slot.advance key signal now) v).Alike
      (rules.foldl (Slot.advance key signal' now) w) := by
  induction rules generalizing v w with
  | nil => exact h
  | cons rule rules ih => exact ih (h.advance hsig key now rule)

end Slot

/-! ## Runs -/

/-- One call of `AlertLifecycleManager::tick`, with the iteration orders of its loops. -/
structure ProtoTick (F : Type) where
  signals : List (AlertSignal F)
  now : Instant
  order : ℕ → IterOrder AlertKey

/-- The calls differ in the order of their signals and of their loops only. -/
structure ProtoTick.SameUpToOrder (t t' : ProtoTick F) : Prop where
  signals : t.signals.Perm t'.signals
  now : t.now = t'.now

namespace AlertLifecycleManager

def step (m : AlertLifecycleManager F) (t : ProtoTick F) :
    AlertLifecycleManager F × List (AlertEvent F) × List (Alert F) :=
  tick t.order m t.signals t.now

def after (rules : List (AlertRule F)) (ticks : List (ProtoTick F)) : AlertLifecycleManager F :=
  Run.exec step (new rules) ticks

def slotEvents (out : AlertLifecycleManager F × List (AlertEvent F) × List (Alert F))
    (key : AlertKey) : List AlertLifecycle :=
  (out.2.1.filter (·.alert.key = key)).map (·.lifecycle)

def slotHeartbeats (out : AlertLifecycleManager F × List (AlertEvent F) × List (Alert F))
    (key : AlertKey) : List (Alert F) :=
  out.2.2.filter (·.key = key)

theorem after_concat (rules : List (AlertRule F)) (past : List (ProtoTick F)) (t : ProtoTick F) :
    after rules (past ++ [t]) = (step (after rules past) t).1 := Run.exec_concat ..

theorem rules_step (m : AlertLifecycleManager F) (t : ProtoTick F) :
    (step m t).1.rules = m.rules := rules_tick t.order m t.signals t.now

@[simp] theorem rules_after (rules : List (AlertRule F)) (ticks : List (ProtoTick F)) :
    (after rules ticks).rules = rules :=
  Run.exec_frame AlertLifecycleManager.rules rules_step (new rules) ticks

omit [F64 F] in
theorem ext_slots {m m' : AlertLifecycleManager F} (hrules : m.rules = m'.rules)
    (htracked : ∀ key, (m.states.lookup key).isSome = (m'.states.lookup key).isSome)
    (hstate : ∀ key, m.slotState key = m'.slotState key) : m = m' := by
  obtain ⟨rules, states⟩ := m
  obtain ⟨rules', states'⟩ := m'
  obtain rfl : rules = rules' := hrules
  congr 1
  apply Finmap.ext_lookup
  intro key
  have ht := htracked key
  have hs := hstate key
  unfold slotState at hs
  rcases hl : states.lookup key with _ | s <;> rcases hl' : states'.lookup key with _ | s' <;>
    simp only [hl, hl', Option.isSome_none, Option.isSome_some, Option.getD_some] at ht hs
  · rfl
  · exact absurd ht (by decide)
  · exact absurd ht (by decide)
  · rw [hs]

theorem step_order_irrelevant (m : AlertLifecycleManager F) {t t' : ProtoTick F}
    (h : t.SameUpToOrder t') :
    (step m t).1 = (step m t').1 ∧ ∀ key, slotEvents (step m t) key = slotEvents (step m t') key ∧
      (slotHeartbeats (step m t) key).length = (slotHeartbeats (step m t') key).length := by
  obtain ⟨signals, now, o⟩ := t
  obtain ⟨signals', now', o'⟩ := t'
  obtain rfl : now = now' := h.now
  have hsig : ∀ key, ((m.collectActive signals).lookup key).isSome =
      ((m.collectActive signals').lookup key).isSome := fun key => by
    rw [Bool.eq_iff_iff, collectActive_isSome, collectActive_isSome]
    simp only [h.signals.mem_iff]
  have halike := fun key => Slot.Alike.foldl_advance (hsig key) key now (m.slotRules key)
    (Slot.Alike.refl ⟨(m.states.lookup key).isSome, m.slotState key, [], []⟩)
  have hslot := tick_slot o m signals now
  have hslot' := tick_slot o' m signals' now
  refine ⟨ext_slots ?_ (fun key => ?_) (fun key => ?_), fun key => ⟨?_, ?_⟩⟩
  · exact (rules_tick ..).trans (rules_tick ..).symm
  · exact (hslot key).1.trans ((halike key).tracked.trans (hslot' key).1.symm)
  · exact (hslot key).2.1.trans ((halike key).state.trans (hslot' key).2.1.symm)
  · unfold slotEvents step
    rw [(hslot key).2.2.1, (hslot' key).2.2.1]
    exact (halike key).events
  · unfold slotHeartbeats step
    rw [(hslot key).2.2.2, (hslot' key).2.2.2]
    exact (halike key).heartbeats

theorem after_order_irrelevant (rules : List (AlertRule F)) {ticks ticks' : List (ProtoTick F)}
    (h : List.Forall₂ ProtoTick.SameUpToOrder ticks ticks') :
    after rules ticks = after rules ticks' := by
  refine List.rel_foldl (P := Eq) (R := ProtoTick.SameUpToOrder) ?_ rfl h
  rintro m _ rfl t t' ht
  exact (step_order_irrelevant m ht).1

/-! ## Slots without a rule -/

theorem slot_without_rule {rules : List (AlertRule F)} {key : AlertKey}
    (h : key.kind ∉ rules.map (·.kind)) (past : List (ProtoTick F)) (t : ProtoTick F) :
    (after rules past).states.lookup key = none ∧
      slotEvents (step (after rules past) t) key = [] ∧
      slotHeartbeats (step (after rules past) t) key = [] := by
  have hrules : ∀ past : List (ProtoTick F), (after rules past).slotRules key = [] := fun past => by
    unfold slotRules
    rw [rules_after, List.filter_eq_nil_iff]
    exact fun r hr hk => h (List.mem_map.mpr ⟨r, hr, of_decide_eq_true hk⟩)
  have hslot := fun past (t : ProtoTick F) =>
    tick_slot t.order (after rules past) t.signals t.now key
  simp only [slotTick, hrules, List.foldl_nil] at hslot
  refine ⟨?_, ?_, (hslot past t).2.2.2⟩
  · induction past using List.reverseRecOn with
    | nil => exact Finmap.lookup_empty key
    | append_singleton past t ih =>
      rw [after_concat, ← Option.not_isSome_iff_eq_none]
      unfold step
      rw [(hslot past t).1, ih]
      decide
  · unfold slotEvents step
    rw [(hslot past t).2.2.1, List.map_nil]

end AlertLifecycleManager

/-! ## Rules of distinct kinds -/

/-- The parameters that the rule passes to `advance`. -/
def AlertRule.config (rule : AlertRule F) : FsmConfig where
  cooldown := rule.cooldown
  consecutiveThreshold := rule.consecutiveThreshold
  resolveConsecutiveThreshold := rule.resolveConsecutiveThreshold

/-- The tick as the rule's slot for `proto` sees it: some signal for the slot meets the rule. -/
def AlertRule.sees (rule : AlertRule F) (proto : ProtoIndex) (t : ProtoTick F) : SlotTick where
  active := t.signals.any fun s => decide (s.key = ⟨proto, rule.kind⟩) && rule.accepts s
  now := t.now

theorem AlertRule.active_sees {rule : AlertRule F} {t : ProtoTick F} {s : AlertSignal F}
    (hs : s ∈ t.signals) (hacc : rule.accepts s = true) : (rule.sees s.proto t).active = true := by
  apply List.any_eq_true.mpr
  refine ⟨s, hs, Bool.and_eq_true_iff.mpr ⟨decide_eq_true ?_, hacc⟩⟩
  rw [← AlertRule.kind_of_accepts hacc]
  rfl

namespace AlertLifecycleManager

section Distinct

variable {rules : List (AlertRule F)} (hd : (rules.map (·.kind)).Nodup)

omit [F64 F] in
include hd in
theorem filter_kind_of_distinct {rule : AlertRule F} (hr : rule ∈ rules) :
    rules.filter (·.kind = rule.kind) = [rule] := filter_key_of_nodup hd hr

include hd in
/-- The pooled signal of a slot is there exactly when the slot's own rule sees one. -/
theorem collectActive_sees {m : AlertLifecycleManager F} (hm : m.rules = rules)
    {rule : AlertRule F} (hr : rule ∈ rules) (proto : ProtoIndex) (t : ProtoTick F) :
    ((m.collectActive t.signals).lookup ⟨proto, rule.kind⟩).isSome =
      (rule.sees proto t).active := by
  rw [Bool.eq_iff_iff, collectActive_isSome, hm]
  unfold AlertRule.sees
  simp only [List.any_eq_true, Bool.and_eq_true, decide_eq_true_eq]
  constructor
  · rintro ⟨r, hr', s, hs, hkey, hacc⟩
    have hkind : r.kind = rule.kind := by
      rw [← AlertRule.kind_of_accepts hacc]
      exact congrArg AlertKey.kind hkey
    obtain rfl := List.inj_on_of_nodup_map hd hr' hr hkind
    exact ⟨s, hs, hkey, hacc⟩
  · rintro ⟨s, hs, hkey, hacc⟩
    exact ⟨rule, hr, s, hs, hkey, hacc⟩

include hd in
theorem step_distinct {m : AlertLifecycleManager F} (hm : m.rules = rules) {rule : AlertRule F}
    (hr : rule ∈ rules) (proto : ProtoIndex) (t : ProtoTick F) :
    let key : AlertKey := ⟨proto, rule.kind⟩
    let r := AlertState.feed rule.config (m.slotState key) (rule.sees proto t)
    (step m t).1.slotState key = r.1 ∧ slotEvents (step m t) key = r.2.toList ∧
      (slotHeartbeats (step m t) key).length =
        if (m.slotState key).isFiring = true ∧ ((step m t).1.slotState key).isFiring = true ∧
          (rule.sees proto t).active = true then 1 else 0 := by
  intro key r
  have hslot := tick_slot t.order m t.signals t.now key
  have hrules : m.slotRules key = [rule] := by
    unfold slotRules
    rw [hm]
    exact filter_kind_of_distinct hd hr
  have hstep : Slot.step ((m.collectActive t.signals).lookup key) t.now (m.slotState key) rule =
      r := by
    unfold Slot.step
    rw [collectActive_sees hd hm hr]
    rfl
  simp only [slotTick, hrules, List.foldl_cons, List.foldl_nil, Slot.advance, List.nil_append,
    hstep] at hslot
  obtain ⟨-, hstate, hev, hhb⟩ := hslot
  refine ⟨hstate, ?_, ?_⟩
  · unfold slotEvents step
    rw [hev, Slot.lifecycle_emitted]
    rw [← hstep]
    exact Slot.signal_of_fired
  · unfold slotHeartbeats step
    rw [hhb, Slot.length_reaffirmed, hstate, collectActive_sees hd hm hr]
    exact if_congr (AlertState.heartbeat_iff ..) rfl rfl

include hd in
/-- The slot of a rule is the FSM fed with what the rule sees, from the first tick on. -/
theorem slotState_after {rule : AlertRule F} (hr : rule ∈ rules) (proto : ProtoIndex)
    (ticks : List (ProtoTick F)) :
    (after rules ticks).slotState ⟨proto, rule.kind⟩ =
      AlertState.after rule.config (ticks.map (rule.sees proto)) := by
  induction ticks using List.reverseRecOn with
  | nil => rfl
  | append_singleton past t ih =>
    rw [after_concat, List.map_append, List.map_singleton, AlertState.after_concat, ← ih]
    exact (step_distinct hd (rules_after rules past) hr proto t).1

end Distinct

/-- **A slot is an independent FSM**: with rules of distinct kinds, a slot emits what a single FSM
with its rule's parameters emits; a slot without a rule never appears; no tick panics; and the
orders of the signals and of the loops are unobservable. -/
theorem slot_is_independent_fsm (rules : List (AlertRule F)) (hd : (rules.map (·.kind)).Nodup)
    (past : List (ProtoTick F)) (t : ProtoTick F) :
    let m := after rules past
    (∀ rule ∈ rules, ∀ proto,
      let key : AlertKey := ⟨proto, rule.kind⟩
      let seen := past.map (rule.sees proto)
      m.slotState key = AlertState.after rule.config seen ∧
      slotEvents (step m t) key =
        (AlertState.eventAt rule.config seen (rule.sees proto t)).toList ∧
      (slotHeartbeats (step m t) key).length =
        if (m.slotState key).isFiring = true ∧ ((step m t).1.slotState key).isFiring = true ∧
          (rule.sees proto t).active = true then 1 else 0) ∧
    (∀ key : AlertKey, key.kind ∉ rules.map (·.kind) → m.states.lookup key = none ∧
      slotEvents (step m t) key = [] ∧ slotHeartbeats (step m t) key = []) ∧
    tryTick t.order m t.signals t.now = .ok (step m t) ∧
    (∀ past' t', List.Forall₂ ProtoTick.SameUpToOrder past past' → t.SameUpToOrder t' →
      after rules past' = m ∧ (step (after rules past') t').1 = (step m t).1 ∧
      ∀ key, slotEvents (step (after rules past') t') key = slotEvents (step m t) key ∧
        (slotHeartbeats (step (after rules past') t') key).length =
          (slotHeartbeats (step m t) key).length) := by
  intro m
  refine ⟨fun rule hr proto => ?_, fun key hk => slot_without_rule hk past t,
    tryTick_eq_ok t.order m t.signals t.now, fun past' t' hpast ht => ?_⟩
  · obtain ⟨-, hev, hhb⟩ := step_distinct hd (rules_after rules past) hr proto t
    refine ⟨slotState_after hd hr proto past, ?_, hhb⟩
    rw [hev, slotState_after hd hr proto past]
    rfl
  · have hm : after rules past' = m := (after_order_irrelevant rules hpast).symm
    obtain ⟨hstep, hslot⟩ := step_order_irrelevant m ht
    rw [hm]
    exact ⟨rfl, hstep.symm, fun key => ⟨(hslot key).1.symm, (hslot key).2.symm⟩⟩

/-- Under the default rules, an emergency fires at once and is then re-affirmed, whatever the other
slots see; the spike of its protocol does not fire yet. -/
theorem slot_is_independent_fsm_default :
    let t : ProtoTick ℚ := ⟨[⟨.icmp, .severe, .emergency, 1⟩, ⟨.tcp, .severe, .spike, 1⟩,
      ⟨.tcp, .severe, .emergency, 1⟩], 0, fun _ => AlertKey.order⟩
    let u : ProtoTick ℚ := ⟨[⟨.tcp, .severe, .emergency, 1⟩, ⟨.udp, .severe, .drop, 1⟩,
      ⟨.tcp, .severe, .spike, 1⟩], 30000000000, fun _ => AlertKey.order⟩
    slotEvents (step (after defaultAlertRules []) t) ⟨.tcp, .emergency⟩ = [.fired] ∧
      slotEvents (step (after defaultAlertRules []) t) ⟨.tcp, .spike⟩ = [] ∧
      slotEvents (step (after defaultAlertRules [t]) u) ⟨.icmp, .emergency⟩ = [.resolved] ∧
      (slotHeartbeats (step (after defaultAlertRules [t]) u) ⟨.tcp, .emergency⟩).length = 1 := by
  intro t u
  have hspike : (defaultAlertRules : List (AlertRule ℚ))[0] ∈ defaultAlertRules := List.getElem_mem _
  have hmem : (defaultAlertRules : List (AlertRule ℚ))[1] ∈ defaultAlertRules := List.getElem_mem _
  have h₀ := (slot_is_independent_fsm defaultAlertRules kinds_defaultAlertRules [] t).1
  have h₁ := (slot_is_independent_fsm defaultAlertRules kinds_defaultAlertRules [t] u).1 _ hmem
  exact ⟨(h₀ _ hmem .tcp).2.1.trans (by decide +kernel),
    (h₀ _ hspike .tcp).2.1.trans (by decide +kernel), (h₁ .icmp).2.1.trans (by decide +kernel),
    (h₁ .tcp).2.2.trans (by decide +kernel)⟩

end AlertLifecycleManager

end EbpfXdp
