import EbpfXdpProgram.Alert.ProtoRuns

/-!
# Several rules for one kind

Every rule of a kind advances the one FSM of a slot, and every rule sees the signals that any rule
accepts. `RuleFold` is what one tick does to a slot in these terms: a run of the FSM over the rules.
The thresholds then count ticks only for some rule lists, which `CountsTicks` describes.
-/

namespace EbpfXdp

open F64

variable {F : Type} [F64 F]

/-! ## A tick is a run over the rules -/

def AlertRule.advance (active : Bool) (now : Instant) (s : AlertState) (rule : AlertRule F) :
    AlertState × Option AlertLifecycle :=
  s.advance active now rule.cooldown rule.consecutiveThreshold rule.resolveConsecutiveThreshold

/-- Some rule accepts a signal of the tick for the slot. -/
def activeAt (rules : List (AlertRule F)) (key : AlertKey) (t : ProtoTick F) : Bool :=
  (((AlertLifecycleManager.new rules).collectActive t.signals).lookup key).isSome

theorem activeAt_iff {rules : List (AlertRule F)} {key : AlertKey} {t : ProtoTick F} :
    activeAt rules key t = true ↔
      ∃ rule ∈ rules.filter (·.kind = key.kind), ∃ s ∈ t.signals, s.key = key ∧
        rule.accepts s = true := by
  unfold activeAt
  rw [AlertLifecycleManager.collectActive_isSome]
  constructor
  · rintro ⟨rule, hr, s, hs, hkey, hacc⟩
    have hkind : rule.kind = key.kind :=
      (AlertRule.kind_of_accepts hacc).symm.trans (congrArg AlertKey.kind hkey)
    exact ⟨rule, List.mem_filter.mpr ⟨hr, decide_eq_true hkind⟩, s, hs, hkey, hacc⟩
  · rintro ⟨rule, hr, s, hs, hkey, hacc⟩
    exact ⟨rule, (List.mem_filter.mp hr).1, s, hs, hkey, hacc⟩

theorem foldl_slot_advance (key : AlertKey) (signal : Option (AlertSignal F)) (now : Instant)
    (rules : List (AlertRule F)) (v : Slot F) :
    let w := rules.foldl (Slot.advance key signal now) v
    w.state = Run.exec (AlertRule.advance signal.isSome now) v.state rules ∧
      w.events.map (·.lifecycle) = v.events.map (·.lifecycle) ++
        (Run.outs (AlertRule.advance signal.isSome now) v.state rules).reduceOption := by
  induction rules generalizing v with
  | nil => exact ⟨rfl, (List.append_nil _).symm⟩
  | cons rule rules ih =>
    obtain ⟨hstate, hev⟩ := ih (v.advance key signal now rule)
    refine ⟨hstate, hev.trans ?_⟩
    show (v.events ++ _).map _ ++ _ = _ ++ List.reduceOption (_ :: _)
    rw [List.map_append, Slot.lifecycle_emitted Slot.signal_of_fired, reduceOption_cons,
      List.append_assoc]
    rfl

namespace AlertLifecycleManager

variable (rules : List (AlertRule F)) (past : List (ProtoTick F)) (t : ProtoTick F)
  (key : AlertKey)

theorem isSome_collectActive_after :
    (((after rules past).collectActive t.signals).lookup key).isSome = activeAt rules key t := by
  unfold activeAt
  rw [collectActive_eq, collectActive_eq, rules_after]
  rfl

/-- **A tick of a slot is a run of its FSM over the rules of its kind**, all of them with one
activity flag. -/
theorem step_slot :
    let act := AlertRule.advance (activeAt rules key t) t.now
    let s := (after rules past).slotState key
    (after rules (past ++ [t])).slotState key = Run.exec act s (rules.filter (·.kind = key.kind)) ∧
      slotEvents (step (after rules past) t) key =
        (Run.outs act s (rules.filter (·.kind = key.kind))).reduceOption := by
  have hrules : (after rules past).rules = rules := rules_after rules past
  have hactive := isSome_collectActive_after rules past t key
  obtain ⟨-, hstate, hev, -⟩ := tick_slot t.order (after rules past) t.signals t.now key
  have hfold := foldl_slot_advance key (((after rules past).collectActive t.signals).lookup key)
    t.now ((after rules past).slotRules key)
    ⟨((after rules past).states.lookup key).isSome, (after rules past).slotState key, [], []⟩
  rw [hactive] at hfold
  unfold slotRules at hfold
  rw [hrules] at hfold
  intro act s
  refine ⟨?_, ?_⟩
  · rw [after_concat]
    exact hstate.trans (by unfold slotTick slotRules; rw [hrules]; exact hfold.1)
  · unfold slotEvents step
    rw [hev]
    unfold slotTick slotRules
    rw [hrules]
    exact hfold.2

theorem settled_after : ((after rules past).slotState key).Settled := by
  induction past using List.reverseRecOn with
  | nil => exact AlertState.settled_new
  | append_singleton past t ih =>
    rw [(step_slot rules past t key).1]
    exact Run.exec_invariant (fun s rule h => h.advance ..) ih _

end AlertLifecycleManager

/-! ## One tick with several rules -/

section Tick

variable {now : Instant} {s : AlertState}

omit [F64 F] in
theorem outs_active_of_firing (rules : List (AlertRule F)) (hs : s.isFiring = true) :
    ∀ e ∈ Run.outs (AlertRule.advance true now) s rules, e = none := by
  induction rules generalizing s with
  | nil => exact fun e he => absurd he List.not_mem_nil
  | cons rule rules ih =>
    intro e he
    have hstep : rule.advance true now s = ({ s with resolveConsecutiveCount := 0 }, none) :=
      AlertState.advance_active_of_firing _ _ _ _ hs
    rw [Run.outs, hstep] at he
    rcases List.mem_cons.mp he with rfl | he
    · rfl
    · exact ih (s := { s with resolveConsecutiveCount := 0 }) hs e he

omit [F64 F] in
/-- While a slot is not firing, the rules of a tick count up from its count, one each. -/
theorem outs_active_of_counts (rules : List (AlertRule F)) (hs : s.isFiring = false)
    (hset : s.Settled) (hk : ∀ i (h : i < rules.length),
      s.consecutiveCount.toNat + i + 1 < rules[i].consecutiveThreshold.toNat) :
    ∀ e ∈ Run.outs (AlertRule.advance true now) s rules, e = none := by
  induction rules generalizing s with
  | nil => exact fun e he => absurd he List.not_mem_nil
  | cons rule rules ih =>
    intro e he
    have hhead : s.consecutiveCount.toNat + 1 < rule.consecutiveThreshold.toNat := hk 0 (by simp)
    have hbump : s.bump.toNat = s.consecutiveCount.toNat + 1 := by
      have := rule.consecutiveThreshold.toNat_lt
      rw [hset.bump_eq]
      exact AlertState.toNat_add_one rfl (by omega)
    have hstep : rule.advance true now s =
        (⟨.pending, s.bump, s.resolveConsecutiveCount, s.lastFired⟩, none) := by
      unfold AlertRule.advance
      rw [AlertState.advance_active_of_not_firing _ _ _ _ hs, if_neg]
      rintro ⟨hle, -⟩
      rw [UInt32.le_iff_toNat_le, hbump] at hle
      omega
    rw [Run.outs, hstep] at he
    rcases List.mem_cons.mp he with rfl | he
    · rfl
    · refine ih (s := ⟨.pending, s.bump, s.resolveConsecutiveCount, s.lastFired⟩) rfl
        ⟨fun hp => AlertPhase.noConfusion hp, fun _ => hset.resolve hs⟩ (fun i hi => ?_) e he
      have := hk (i + 1) (by simpa using hi)
      rw [List.getElem_cons_succ] at this
      show s.bump.toNat + i + 1 < _
      omega

omit [F64 F] in
/-- Conversely, a slot without a cooldown that does not fire has counted below every threshold. -/
theorem counts_of_outs_active (rules : List (AlertRule F)) (hs : s.isFiring = false)
    (hset : s.Settled) (hlast : s.lastFired = none)
    (hc : s.consecutiveCount.toNat + 1 < 2 ^ 32)
    (ho : ∀ e ∈ Run.outs (AlertRule.advance true now) s rules, e ≠ some .fired) :
    (∀ i (h : i < rules.length),
      s.consecutiveCount.toNat + i + 1 < rules[i].consecutiveThreshold.toNat) ∧
    (Run.exec (AlertRule.advance true now) s rules).isFiring = false ∧
    (Run.exec (AlertRule.advance true now) s rules).lastFired = none ∧
    (Run.exec (AlertRule.advance true now) s rules).consecutiveCount.toNat =
      s.consecutiveCount.toNat + rules.length ∧
    s.consecutiveCount.toNat + rules.length + 1 < 2 ^ 32 := by
  induction rules generalizing s with
  | nil => exact ⟨fun i h => absurd h (by simp), hs, hlast, rfl, hc⟩
  | cons rule rules ih =>
    have hbump : s.bump.toNat = s.consecutiveCount.toNat + 1 := by
      rw [hset.bump_eq]
      exact AlertState.toNat_add_one rfl hc
    have hpassed : s.cooldownPassed now rule.cooldown = true := by
      unfold AlertState.cooldownPassed; rw [hlast]
    by_cases hfire : rule.consecutiveThreshold ≤ s.bump
    · refine absurd ?_ (ho (rule.advance true now s).2 List.mem_cons_self)
      exact (AlertState.fired_iff ..).mpr ⟨hs, rfl, hfire, hpassed⟩
    · have hstep : rule.advance true now s =
          (⟨.pending, s.bump, s.resolveConsecutiveCount, s.lastFired⟩, none) := by
        unfold AlertRule.advance
        rw [AlertState.advance_active_of_not_firing _ _ _ _ hs, if_neg fun h => hfire h.1]
      rw [Run.outs, hstep] at ho
      rw [UInt32.le_iff_toNat_le, hbump] at hfire
      have hlt := rule.consecutiveThreshold.toNat_lt
      obtain ⟨hk, hf, hl, hcount, hmax⟩ :=
        ih (s := ⟨.pending, s.bump, s.resolveConsecutiveCount, s.lastFired⟩) rfl
          ⟨fun hp => AlertPhase.noConfusion hp, fun _ => hset.resolve hs⟩ hlast
          (by show s.bump.toNat + 1 < _; omega)
          (fun e he => ho e (List.mem_cons_of_mem _ he))
      dsimp only at hk hcount hmax
      have hlen : (rule :: rules).length = rules.length + 1 := rfl
      rw [Run.exec_cons, hstep]
      refine ⟨fun i hi => ?_, hf, hl, hcount.trans (by omega), by omega⟩
      cases i with
      | zero => rw [List.getElem_cons_zero]; omega
      | succ i =>
        rw [List.getElem_cons_succ]
        have := hk i (by simpa using hi)
        omega

omit [F64 F] in
theorem exec_quiet_not_pending {rules : List (AlertRule F)} (hr : rules ≠ [])
    (s : AlertState) : (Run.exec (AlertRule.advance false now) s rules).phase ≠ .pending := by
  have hstep : ∀ s (rule : AlertRule F), (rule.advance false now s).1.phase ≠ .pending :=
    fun s rule => AlertState.phase_advance_quiet s now rule.cooldown rule.consecutiveThreshold
      rule.resolveConsecutiveThreshold
  obtain ⟨rule, rest, rfl⟩ := List.exists_cons_of_ne_nil hr
  exact Run.exec_invariant (I := fun s => s.phase ≠ .pending) (fun s rule _ => hstep s rule)
    (hstep s rule) rest

end Tick

/-! ## When the thresholds count ticks -/

/-- The signal has the level and the confidence of the rule. A rule with a NaN confidence has
none such, though it accepts signals. -/
def AlertRule.Meets (rule : AlertRule F) (s : AlertSignal F) : Prop :=
  rule.minLevel ≤ s.level ∧ le rule.minConfidence s.confidence = true

def AlertRule.Met (rule : AlertRule F) (key : AlertKey) (t : ProtoTick F) : Prop :=
  ∃ s ∈ t.signals, s.key = key ∧ rule.Meets s

/-- Whenever an alert fires, some rule of its kind has been met for as many ticks as its threshold
says; for runs without NaN signals and with non-decreasing times. -/
def FiresOnLastingSignals (rules : List (AlertRule F)) : Prop :=
  ∀ (past : List (ProtoTick F)) (t : ProtoTick F),
    (∀ u ∈ past ++ [t], ∀ s ∈ u.signals, IsNum s.confidence) →
    (past ++ [t]).Pairwise (·.now ≤ ·.now) →
    ∀ key, .fired ∈ AlertLifecycleManager.slotEvents
        (AlertLifecycleManager.step (AlertLifecycleManager.after rules past) t) key →
      ∃ rule ∈ rules, rule.kind = key.kind ∧
        Lasted (rule.Met key) (max 1 rule.consecutiveThreshold.toNat) (past ++ [t])

/-- The thresholds of the rules of one kind count ticks: there is one rule at most, and its
confidence is a number; or what some rule accepts meets one with threshold at most 1; or the first
rule has threshold 2 and is met by whatever some rule accepts, and the others have thresholds above
their position. -/
def CountsTicks (rules : List (AlertRule F)) : Prop :=
  (rules.length ≤ 1 ∧ ∀ rule ∈ rules, IsNum rule.minConfidence) ∨
  (∀ s : AlertSignal F, IsNum s.confidence → (∃ rule ∈ rules, rule.accepts s = true) →
    ∃ rule ∈ rules, rule.Meets s ∧ rule.consecutiveThreshold.toNat ≤ 1) ∨
  ∃ first rest, rules = first :: rest ∧ first.consecutiveThreshold.toNat = 2 ∧
    (∀ s : AlertSignal F, IsNum s.confidence → (∃ rule ∈ rules, rule.accepts s = true) →
      first.Meets s) ∧
    ∀ i (h : i < rest.length), i + 3 ≤ rest[i].consecutiveThreshold.toNat

section Sufficient

variable [LawfulF64 F] {rules : List (AlertRule F)} {past : List (ProtoTick F)} {t : ProtoTick F}
  {key : AlertKey}

theorem AlertRule.meets_of_accepts {rule : AlertRule F} {s : AlertSignal F}
    (hrule : IsNum rule.minConfidence) (hs : IsNum s.confidence) (h : rule.accepts s = true) :
    rule.Meets s := by
  unfold AlertRule.accepts at h
  simp only [Bool.and_eq_true, decide_eq_true_eq, Bool.not_eq_true'] at h
  exact ⟨h.1.2, le_of_not_lt hs hrule h.2⟩

omit [F64 F] [LawfulF64 F] in
theorem mem_kind_rules {rule : AlertRule F} (h : rule ∈ rules.filter (·.kind = key.kind)) :
    rule ∈ rules ∧ rule.kind = key.kind := by
  obtain ⟨hr, hk⟩ := List.mem_filter.mp h
  exact ⟨hr, of_decide_eq_true hk⟩

omit [LawfulF64 F] in
theorem lasted_met {rule : AlertRule F} {ticks : List (ProtoTick F)}
    (hn : ∀ u ∈ ticks, ∀ s ∈ u.signals, IsNum s.confidence)
    (hp : ∀ s : AlertSignal F, IsNum s.confidence →
      (∃ r ∈ rules.filter (·.kind = key.kind), r.accepts s = true) → rule.Meets s)
    {n : ℕ} (h : n ≤ streak (activeAt rules key) ticks) : Lasted (rule.Met key) n ticks := by
  apply (lasted_iff.mpr h).mono
  intro u hu hact
  obtain ⟨r, hr, s, hs, hkey, hacc⟩ := activeAt_iff.mp hact
  exact ⟨s, hs, hkey, hp s (hn u hu s hs) ⟨r, hr, hacc⟩⟩

omit [LawfulF64 F] in
/-- Under one rule, the count of a slot that is not firing is at most the active streak; it is
less once the counter has wrapped. -/
theorem count_le_streak {rule : AlertRule F} (h1 : rules.filter (·.kind = key.kind) = [rule])
    (past : List (ProtoTick F)) :
    ((AlertLifecycleManager.after rules past).slotState key).isFiring = false →
      ((AlertLifecycleManager.after rules past).slotState key).consecutiveCount.toNat ≤
        streak (activeAt rules key) past := by
  induction past using List.reverseRecOn with
  | nil => exact fun _ => Nat.le_refl 0
  | append_singleton past t ih =>
    have hset := AlertLifecycleManager.settled_after rules past key
    obtain ⟨hstate, -⟩ := AlertLifecycleManager.step_slot rules past t key
    rw [h1, Run.exec_cons, Run.exec_nil] at hstate
    rw [hstate]
    generalize (AlertLifecycleManager.after rules past).slotState key = s at *
    unfold AlertRule.advance
    rcases ha : activeAt rules key t with _ | _ <;> rcases hs : s.isFiring with _ | _
    · rw [hset.advance_quiet _ _ _ _ hs]
      exact fun _ => Nat.zero_le _
    · rw [AlertState.advance_quiet_of_firing _ _ _ _ hs]
      split_ifs
      · exact fun _ => Nat.zero_le _
      · exact fun hs' => absurd (hs.symm.trans hs') (by decide)
    · rw [AlertState.advance_active_of_not_firing _ _ _ _ hs, streak_concat_pos ha, hset.bump_eq]
      have hle : (s.consecutiveCount + 1).toNat ≤ streak (activeAt rules key) past + 1 := by
        rw [UInt32.toNat_add]
        exact (Nat.mod_le _ _).trans (Nat.add_le_add_right (ih hs) 1)
      split_ifs
      · exact fun _ => hle
      · exact fun _ => hle
    · rw [AlertState.advance_active_of_firing _ _ _ _ hs]
      exact fun hs' => absurd (hs.symm.trans hs') (by decide)

omit [LawfulF64 F] in
theorem not_pending_of_quiet (hr : rules.filter (·.kind = key.kind) ≠ [])
    (past : List (ProtoTick F)) (h : streak (activeAt rules key) past = 0) :
    ((AlertLifecycleManager.after rules past).slotState key).phase ≠ .pending := by
  induction past using List.reverseRecOn with
  | nil => exact nofun
  | append_singleton past t _ =>
    cases ha : activeAt rules key t with
    | false =>
      rw [(AlertLifecycleManager.step_slot rules past t key).1, ha]
      exact exec_quiet_not_pending hr _
    | true =>
      rw [streak_concat_pos ha] at h
      omega

omit [LawfulF64 F] in
theorem fired_by {past : List (ProtoTick F)} {t : ProtoTick F}
    (h : .fired ∈ AlertLifecycleManager.slotEvents
      (AlertLifecycleManager.step (AlertLifecycleManager.after rules past) t) key) :
    activeAt rules key t = true ∧
      some .fired ∈ Run.outs (AlertRule.advance true t.now)
        ((AlertLifecycleManager.after rules past).slotState key)
        (rules.filter (·.kind = key.kind)) := by
  rw [(AlertLifecycleManager.step_slot rules past t key).2, List.reduceOption_mem_iff] at h
  obtain ⟨pre, rule, post, -, hfire⟩ := Run.exists_of_mem_outs _ _ h
  have ha : activeAt rules key t = true := ((AlertState.fired_iff ..).mp hfire.symm).2.1
  rw [ha] at h
  exact ⟨ha, h⟩

omit [LawfulF64 F] in
/-- Under one rule, an alert fires when the streak has reached the threshold. -/
theorem threshold_le_streak {rule : AlertRule F} {now : Instant}
    (h1 : rules.filter (·.kind = key.kind) = [rule]) (past : List (ProtoTick F))
    (h : some .fired ∈ Run.outs (AlertRule.advance true now)
      ((AlertLifecycleManager.after rules past).slotState key)
      (rules.filter (·.kind = key.kind))) :
    max 1 rule.consecutiveThreshold.toNat ≤ streak (activeAt rules key) past + 1 := by
  rw [h1, Run.outs, Run.outs, List.mem_singleton] at h
  obtain ⟨hs, -, hbump, -⟩ := (AlertState.fired_iff ..).mp h.symm
  have hcount := count_le_streak h1 past hs
  have hset := AlertLifecycleManager.settled_after rules past key
  rw [UInt32.le_iff_toNat_le, hset.bump_eq, UInt32.toNat_add] at hbump
  have hmod := Nat.mod_le (((AlertLifecycleManager.after rules past).slotState
    key).consecutiveCount.toNat + (1 : UInt32).toNat) (2 ^ 32)
  have hone : (1 : UInt32).toNat = 1 := rfl
  omega

omit [LawfulF64 F] in
/-- Where the first threshold is two and the others are above their position, no rule fires on the
first active tick. -/
theorem not_fired_of_quiet {first : AlertRule F} {rest : List (AlertRule F)} {now : Instant}
    (heq : rules.filter (·.kind = key.kind) = first :: rest)
    (hfirst : first.consecutiveThreshold.toNat = 2)
    (hk : ∀ i (h : i < rest.length), i + 3 ≤ rest[i].consecutiveThreshold.toNat)
    (past : List (ProtoTick F)) (hquiet : streak (activeAt rules key) past = 0) :
    some .fired ∉ Run.outs (AlertRule.advance true now)
      ((AlertLifecycleManager.after rules past).slotState key)
      (rules.filter (·.kind = key.kind)) := by
  intro hmem
  have hset := AlertLifecycleManager.settled_after rules past key
  have hpend := not_pending_of_quiet (heq ▸ List.cons_ne_nil first rest) past hquiet
  cases hs : ((AlertLifecycleManager.after rules past).slotState key).isFiring with
  | false =>
    have hinactive : ((AlertLifecycleManager.after rules past).slotState key).phase =
        .inactive := by
      have hf := (AlertState.not_isFiring_iff _).mp hs
      cases hp : ((AlertLifecycleManager.after rules past).slotState key).phase with
      | inactive => rfl
      | pending => exact absurd hp hpend
      | firing => exact absurd hp hf
    have hzero := hset.count hinactive
    refine absurd (outs_active_of_counts _ hs hset (fun i hi => ?_) _ hmem) (by decide)
    rw [hzero]
    show 0 + i + 1 < _
    simp only [heq] at hi ⊢
    cases i with
    | zero => rw [List.getElem_cons_zero]; omega
    | succ i =>
      rw [List.getElem_cons_succ]
      have := hk i (by simpa using hi)
      omega
  | true => exact absurd (outs_active_of_firing _ hs _ hmem) (by decide)

theorem fires_of_countsTicks (hc : ∀ kind, CountsTicks (rules.filter (·.kind = kind))) :
    FiresOnLastingSignals rules := by
  intro past t hn _ key hfired
  obtain ⟨ha, hmem⟩ := fired_by hfired
  rcases hc key.kind with ⟨hone, hnum⟩ | htwo | ⟨first, rest, heq, hfirst, hmeets, hk⟩
  · -- one rule: its count is at most the streak
    obtain ⟨rule, hr, -⟩ := activeAt_iff.mp ha
    obtain ⟨r, h1⟩ := List.length_eq_one_iff.mp (hone.antisymm (List.length_pos_of_mem hr))
    have hr1 : r ∈ rules.filter (·.kind = key.kind) := by rw [h1]; exact List.mem_singleton_self r
    obtain ⟨hrule, hkind⟩ := mem_kind_rules hr1
    have hmeets : ∀ s : AlertSignal F, IsNum s.confidence →
        (∃ r' ∈ rules.filter (·.kind = key.kind), r'.accepts s = true) → r.Meets s := by
      rintro s hs ⟨r', hr', hacc⟩
      rw [h1] at hr'
      obtain rfl := List.mem_singleton.mp hr'
      exact AlertRule.meets_of_accepts (hnum r' hr1) hs hacc
    refine ⟨r, hrule, hkind, lasted_met hn hmeets ?_⟩
    rw [streak_concat_pos ha]
    exact threshold_le_streak h1 past hmem
  · -- one tick is enough for the rule that this tick's signal meets
    obtain ⟨rule, hr, s, hs, hkey, hacc⟩ := activeAt_iff.mp ha
    obtain ⟨r, hr1, hmeets, hle⟩ := htwo s (hn t (by simp) s hs) ⟨rule, hr, hacc⟩
    obtain ⟨hrule, hkind⟩ := mem_kind_rules hr1
    refine ⟨r, hrule, hkind, by simp; omega, fun u hu => ?_⟩
    rw [max_eq_left hle, List.rtake_concat_succ, List.rtake_zero, List.nil_append,
      List.mem_singleton] at hu
    subst hu
    exact ⟨s, hs, hkey, hmeets⟩
  · -- no rule fires on the first active tick, and the first rule is met in every active tick
    have hfirst1 : first ∈ rules.filter (·.kind = key.kind) := by
      rw [heq]; exact List.mem_cons_self
    obtain ⟨hrule, hkind⟩ := mem_kind_rules hfirst1
    have hpos : streak (activeAt rules key) past ≠ 0 := fun hquiet =>
      not_fired_of_quiet heq hfirst hk past hquiet hmem
    refine ⟨first, hrule, hkind, lasted_met hn hmeets ?_⟩
    rw [streak_concat_pos ha, hfirst]
    omega

end Sufficient

/-! ## The converse: a steady signal

Where the thresholds do not count ticks, a signal that is repeated forever fires too early. -/

section Necessary

variable {rules : List (AlertRule F)}

def steady (σ : AlertSignal F) : ProtoTick F := ⟨[σ], 0, fun _ => AlertKey.order⟩

theorem meets_of_met {rule : AlertRule F} {σ : AlertSignal F} (h : rule.Met σ.key (steady σ)) :
    rule.Meets σ := by
  obtain ⟨s, hs, -, hmeets⟩ := h
  obtain rfl := List.mem_singleton.mp hs
  exact hmeets

variable (hp : FiresOnLastingSignals rules) {σ : AlertSignal F} (hσ : IsNum σ.confidence)

section Steady

variable {κ : ℕ} (hκ : ∀ rule ∈ rules.filter (·.kind = σ.kind), rule.Meets σ →
    κ ≤ rule.consecutiveThreshold.toNat)

include hp hσ hκ in
/-- Before tick `κ`, the least threshold of the rules that `σ` meets, nothing fires. -/
theorem steady_not_fired {j : ℕ} (hj : j + 1 < κ) :
    .fired ∉ AlertLifecycleManager.slotEvents (AlertLifecycleManager.step
      (AlertLifecycleManager.after rules (List.replicate j (steady σ))) (steady σ)) σ.key := by
  intro hfired
  have hall : ∀ u ∈ List.replicate j (steady σ) ++ [steady σ], u = steady σ := fun u hu => by
    rcases List.mem_append.mp hu with hu | hu
    · exact List.eq_of_mem_replicate hu
    · exact List.mem_singleton.mp hu
  obtain ⟨rule, hrule, hkind, hlen, hmet⟩ := hp (List.replicate j (steady σ)) (steady σ)
    (fun u hu s hs => by
      rw [hall u hu] at hs
      rwa [List.mem_singleton.mp hs])
    (List.pairwise_of_forall_mem_list fun u hu v hv => by rw [hall u hu, hall v hv])
    σ.key hfired
  rw [List.length_append, List.length_replicate, List.length_singleton] at hlen
  have hlast : rule.Met σ.key (steady σ) := by
    obtain ⟨n, hn⟩ : ∃ n, max 1 rule.consecutiveThreshold.toNat = n + 1 :=
      ⟨max 1 rule.consecutiveThreshold.toNat - 1, by omega⟩
    rw [hn] at hmet
    exact hmet _ (mem_rtake_concat n _ _)
  have := hκ rule (List.mem_filter.mpr ⟨hrule, decide_eq_true hkind⟩) (meets_of_met hlast)
  omega

include hp hσ hκ in
theorem steady_counts (hacc : ∃ rule ∈ rules.filter (·.kind = σ.kind), rule.accepts σ = true) :
    let n := (rules.filter (·.kind = σ.kind)).length
    let s := fun j => (AlertLifecycleManager.after rules
      (List.replicate j (steady σ))).slotState σ.key
    ∀ j, j < κ → (s j).isFiring = false ∧ (s j).lastFired = none ∧
      (s j).consecutiveCount.toNat = j * n ∧ j * n + 1 < 2 ^ 32 ∧
      (j + 1 < κ → ∀ i (h : i < n),
        j * n + i + 1 < (rules.filter (·.kind = σ.kind))[i].consecutiveThreshold.toNat) := by
  intro n s j
  have hactive : activeAt rules σ.key (steady σ) = true := by
    obtain ⟨rule, hr, hacc⟩ := hacc
    exact activeAt_iff.mpr ⟨rule, hr, σ, List.mem_singleton_self σ, rfl, hacc⟩
  have hquiet : ∀ j, j + 1 < κ → ∀ e ∈ Run.outs (AlertRule.advance true (steady σ).now) (s j)
      (rules.filter (·.kind = σ.kind)), e ≠ some .fired := by
    rintro j hj e he rfl
    refine steady_not_fired hp hσ hκ hj ?_
    rw [(AlertLifecycleManager.step_slot ..).2, List.reduceOption_mem_iff, hactive]
    exact he
  have hset : ∀ j, (s j).Settled := fun j => AlertLifecycleManager.settled_after ..
  have hbelow : ∀ j, (s j).isFiring = false → (s j).lastFired = none →
      (s j).consecutiveCount.toNat = j * n → j * n + 1 < 2 ^ 32 → (j + 1 < κ → ∀ i (h : i < n),
        j * n + i + 1 < (rules.filter (·.kind = σ.kind))[i].consecutiveThreshold.toNat) := by
    intro j hf hl hcount hmax hj i hi
    have h := (counts_of_outs_active _ hf (hset j) hl (by omega) (hquiet j hj)).1 i hi
    rwa [hcount] at h
  induction j with
  | zero =>
    intro _
    refine ⟨rfl, rfl, (Nat.zero_mul n).symm, by omega, hbelow 0 rfl rfl (Nat.zero_mul n).symm ?_⟩
    omega
  | succ j ih =>
    intro hj
    obtain ⟨hf, hl, hcount, hmax, -⟩ := ih (by omega)
    have hnext : s (j + 1) = Run.exec (AlertRule.advance true (steady σ).now) (s j)
        (rules.filter (·.kind = σ.kind)) := by
      have := (AlertLifecycleManager.step_slot rules (List.replicate j (steady σ)) (steady σ)
        σ.key).1
      rw [hactive, ← List.replicate_succ'] at this
      exact this
    obtain ⟨-, hf', hl', hcount', hmax'⟩ :=
      counts_of_outs_active _ hf (hset j) hl (by omega) (hquiet j hj)
    rw [← hnext] at hf' hl' hcount'
    have hsucc : (j + 1) * n = j * n + n := Nat.succ_mul j n
    have hcount'' : (s (j + 1)).consecutiveCount.toNat = (j + 1) * n := by
      rw [hcount', hcount, hsucc]
    have hmax'' : (j + 1) * n + 1 < 2 ^ 32 := by
      rw [hcount] at hmax'
      rw [hsucc]
      exact hmax'
    exact ⟨hf', hl', hcount'', hmax'', hbelow _ hf' hl' hcount'' hmax''⟩

end Steady

variable {kind : AlertKind} (hacc : ∃ rule ∈ rules.filter (·.kind = kind), rule.accepts σ = true)

include hp hσ hacc in
/-- A signal that some rule accepts meets one: it fires in the end. -/
theorem meets_of_steady : ∃ rule ∈ rules.filter (·.kind = kind), rule.Meets σ := by
  obtain ⟨rule, hr, hraccepts⟩ := hacc
  obtain rfl : σ.kind = kind := by
    rw [AlertRule.kind_of_accepts hraccepts]
    exact of_decide_eq_true (List.mem_filter.mp hr).2
  by_contra hnone
  simp only [not_exists, not_and] at hnone
  have hmax := (steady_counts hp hσ (κ := 2 ^ 32 + 1) (fun r hr h => absurd h (hnone r hr))
    ⟨rule, hr, hraccepts⟩ (2 ^ 32) (by omega)).2.2.2.1
  have := Nat.mul_le_mul_left (2 ^ 32) (List.length_pos_of_mem hr)
  omega

include hp hσ hacc in
/-- If several rules share a kind and `σ` meets none of threshold at most 1, it meets the first
rule, which has threshold 2, and the others have thresholds above their position. -/
theorem first_rule_of_steady (hn : 2 ≤ (rules.filter (·.kind = kind)).length)
    (hno : ∀ rule ∈ rules.filter (·.kind = kind), rule.Meets σ →
      1 < rule.consecutiveThreshold.toNat) :
    ∃ first rest, rules.filter (·.kind = kind) = first :: rest ∧
      first.consecutiveThreshold.toNat = 2 ∧ first.Meets σ ∧
      ∀ i (h : i < rest.length), i + 3 ≤ rest[i].consecutiveThreshold.toNat := by
  classical
  have hex : ∃ k, ∃ rule ∈ rules.filter (·.kind = kind), rule.Meets σ ∧
      rule.consecutiveThreshold.toNat = k := by
    obtain ⟨rule, hr, hmeets⟩ := meets_of_steady hp hσ hacc
    exact ⟨_, rule, hr, hmeets, rfl⟩
  obtain rfl : σ.kind = kind := by
    obtain ⟨rule, hr, hacc⟩ := hacc
    rw [AlertRule.kind_of_accepts hacc]
    exact of_decide_eq_true (List.mem_filter.mp hr).2
  obtain ⟨first, hfirst, hfmeets, hfk⟩ := Nat.find_spec hex
  have hmin : ∀ rule ∈ rules.filter (·.kind = σ.kind), rule.Meets σ →
      Nat.find hex ≤ rule.consecutiveThreshold.toNat :=
    fun rule hr hmeets => Nat.find_min' hex ⟨rule, hr, hmeets, rfl⟩
  have hbelow := steady_counts hp hσ hmin hacc (Nat.find hex - 2)
  have hlow := hno first hfirst hfmeets
  generalize Nat.find hex = κ at *
  have hk := (hbelow (by omega)).2.2.2.2 (by omega)
  -- the least threshold that is met counts to its own position in the last tick before it
  obtain ⟨i₀, hi₀, rfl⟩ := List.getElem_of_mem hfirst
  have h₀ := hk i₀ hi₀
  have hmul := Nat.mul_le_mul_left (κ - 2) hn
  obtain rfl : κ = 2 := by omega
  obtain rfl : i₀ = 0 := by omega
  cases hrules : rules.filter (·.kind = σ.kind) with
  | nil => rw [hrules] at hn; exact absurd hn (by simp)
  | cons first rest =>
    simp only [hrules] at hk hfk hfmeets
    refine ⟨first, rest, rfl, hfk, hfmeets, fun i hi => ?_⟩
    have := hk (i + 1) (by simpa using hi)
    rw [List.getElem_cons_succ] at this
    omega

end Necessary

/-- **The thresholds count ticks exactly for these rule lists**: an alert fires only after some rule
of its kind has been met for as many ticks as its threshold says, in every run, if and only if the
rules of each kind are as `CountsTicks` says. -/
theorem fires_iff_countsTicks [LawfulF64 F] (rules : List (AlertRule F)) :
    FiresOnLastingSignals rules ↔ ∀ kind, CountsTicks (rules.filter (·.kind = kind)) := by
  refine ⟨fun hp kind => ?_, fires_of_countsTicks⟩
  by_cases htwo : ∀ s : AlertSignal F, IsNum s.confidence →
      (∃ rule ∈ rules.filter (·.kind = kind), rule.accepts s = true) →
      ∃ rule ∈ rules.filter (·.kind = kind), rule.Meets s ∧
        rule.consecutiveThreshold.toNat ≤ 1
  · exact .inr (.inl htwo)
  simp only [not_forall, not_exists, not_and, not_le] at htwo
  obtain ⟨σ, hσ, hacc, hno⟩ := htwo
  by_cases hone : (rules.filter (·.kind = kind)).length ≤ 1
  · refine .inl ⟨hone, fun rule hr => ?_⟩
    obtain ⟨r, hr', -, hle⟩ := meets_of_steady hp hσ hacc
    obtain rfl : rule = r := by
      obtain ⟨x, hx⟩ := List.length_eq_one_iff.mp (hone.antisymm (List.length_pos_of_mem hr))
      rw [hx] at hr hr'
      rw [List.mem_singleton.mp hr, List.mem_singleton.mp hr']
    exact (LawfulF64.le_real _ _ hle).1
  obtain ⟨first, rest, heq, hfirst, -, hk⟩ := first_rule_of_steady hp hσ hacc (by omega) hno
  refine .inr (.inr ⟨first, rest, heq, hfirst, fun s hs hsacc => ?_, hk⟩)
  -- every threshold is above 1, and so every accepted signal is one to repeat
  have hall : ∀ rule ∈ rules.filter (·.kind = kind), 1 < rule.consecutiveThreshold.toNat := by
    intro rule hr
    rw [heq] at hr
    rcases List.mem_cons.mp hr with rfl | hr
    · omega
    · obtain ⟨i, hi, rfl⟩ := List.getElem_of_mem hr
      have := hk i hi
      omega
  obtain ⟨first', rest', heq', -, hmeets, -⟩ :=
    first_rule_of_steady hp hs hsacc (by omega) fun rule hr _ => hall rule hr
  obtain ⟨rfl, -⟩ := List.cons.inj (heq.symm.trans heq')
  exact hmeets

/-- The default rules have distinct kinds, and so their thresholds count ticks. -/
theorem fires_iff_countsTicks_default :
    FiresOnLastingSignals (defaultAlertRules : List (AlertRule ℚ)) := by
  refine (fires_iff_countsTicks defaultAlertRules).mpr fun kind => .inl ⟨?_, fun _ _ => ?_⟩
  · cases kind with
    | spike => exact Nat.le_refl 1
    | drop => exact Nat.zero_le 1
    | emergency => exact Nat.le_refl 1
  · exact decide_eq_true (le_refl _)

/-- Two spike rules: a suspicious signal fires on its first tick, where one rule asks for 5 ticks
and the other for 2 severe ones. -/
def twoTierRules : List (AlertRule ℚ) :=
  [{ kind := .spike, minLevel := .suspicious, minConfidence := 0.6, cooldown := 0
     consecutiveThreshold := 5, resolveConsecutiveThreshold := 3, freezesBaseline := true },
   { kind := .spike, minLevel := .severe, minConfidence := 0.6, cooldown := 0
     consecutiveThreshold := 2, resolveConsecutiveThreshold := 3, freezesBaseline := true }]

theorem twoTierRules_fire_early : ¬FiresOnLastingSignals twoTierRules := by
  intro h
  obtain ⟨rule, hr, -, ⟨hlen, -⟩⟩ := h [] ⟨[⟨.tcp, .suspicious, .spike, 1⟩], 0,
    fun _ => AlertKey.order⟩ (fun _ _ _ _ => decide_eq_true (le_refl _))
    (List.pairwise_singleton ..) ⟨.tcp, .spike⟩ (by decide +kernel)
  have hk : 2 ≤ rule.consecutiveThreshold.toNat := by
    rcases List.mem_cons.mp hr with rfl | hr
    · decide
    · rw [List.mem_singleton.mp hr]; decide
  have : rule.consecutiveThreshold.toNat ≤ 1 := (le_max_right ..).trans hlen
  omega

end EbpfXdp
