import EbpfXdpProgram.Alert.IpRuns

/-!
# What the active count counts

`active_count` is the size of the table of FSMs. A tick keeps an FSM that is inactive while the
cooldown of its last fire runs, and such an entry is counted like a pending or firing one.
`activeCount_describes` says exactly in which runs the count is the number of sources that are
pending or firing.
-/

namespace EbpfXdp

/-! ## Inactive and hot -/

/-- A quiet tick within the cooldown that finds the FSM not firing, or resolves it. -/
def AlertState.CoolsDown (s : AlertState) (now : Instant) (C : Duration) (R : UInt32) : Prop :=
  (∃ t₀, s.lastFired = some t₀ ∧ durationSince now t₀ < C) ∧
    (s.isFiring = true → R ≤ s.resolveConsecutiveCount + 1)

/-- A tick leaves an FSM inactive and hot exactly if it has no signal and the FSM cools down. -/
theorem AlertState.inactive_hot_iff (s : AlertState) (a : Bool) (now : Instant) (C : Duration)
    (K R : UInt32) :
    (s.advance a now C K R).1.phase = .inactive ∧ (s.advance a now C K R).1.isHot now C = true ↔
      a = false ∧ s.CoolsDown now C R := by
  cases a with
  | true => simp [phase_advance_active s now C K R]
  | false =>
    have hlast : (s.advance false now C K R).1.lastFired = s.lastFired := by
      rw [lastFired_advance, if_neg]
      intro hfired
      exact Bool.false_ne_true ((fired_iff ..).mp hfired).2.1
    have hphase : (s.advance false now C K R).1.phase = .inactive ↔
        (s.isFiring = true → R ≤ s.resolveConsecutiveCount + 1) := by
      cases hs : s.isFiring with
      | false =>
        rw [advance_quiet_of_not_firing now C K R hs]
        split_ifs with hp
        · simp [hp]
        · simp
      | true =>
        rw [advance_quiet_of_firing now C K R hs]
        split_ifs with hR
        · simp [hR]
        · simp [hR, (isFiring_iff s).mp hs]
    unfold CoolsDown
    rw [hphase, ← hlast, ← hphase, and_comm]
    simp only [true_and]
    refine and_congr_left fun hp => ⟨exists_lastFired_of_isHot now C hp, ?_⟩
    rintro ⟨t₀, ht₀, hlt⟩
    unfold isHot
    rw [hp, ht₀]
    exact decide_eq_true hlt

/-! ## The count -/

variable {S A : Type}

namespace IpAlertLifecycleManager

def openSources (m : IpAlertLifecycleManager S A) : Finset Ipv4Addr :=
  m.states.keys.filter fun ip =>
    (m.slotState ip).phase = .pending ∨ (m.slotState ip).phase = .firing

theorem mem_openSources {m : IpAlertLifecycleManager S A} {ip : Ipv4Addr} :
    ip ∈ m.openSources ↔ (m.slotState ip).phase = .pending ∨ (m.slotState ip).phase = .firing := by
  unfold openSources
  rw [Finset.mem_filter, and_iff_right_iff_imp, Table.mem_keys]
  intro hopen
  have hlookup := lookup_of_not_inactive (m := m) ip
    (by rcases hopen with h | h <;> rw [h] <;> decide)
  rw [hlookup]
  rfl

/-- The count is the number of open sources exactly if no tracked source is inactive. -/
theorem activeCount_eq_iff {m : IpAlertLifecycleManager S A} :
    m.activeCount = m.openSources.card ↔
      ∀ ip, (m.states.lookup ip).isSome = true → (m.slotState ip).phase ≠ .inactive := by
  unfold activeCount openSources
  rw [eq_comm, Finset.card_filter_eq_iff]
  refine forall_congr' fun ip => ?_
  rw [Table.mem_keys]
  refine imp_congr_right fun _ => ?_
  cases (m.slotState ip).phase <;> simp

theorem length_snapshot (o : IterOrder Ipv4Addr) (m : IpAlertLifecycleManager S A) :
    (m.snapshot o).length = m.activeCount := by
  unfold snapshot activeCount
  rw [List.filterMap_length_eq_length.mpr]
  · have hcount := o.countP_enum m.states.keys fun _ => True
    simpa using hcount
  · intro ip hip
    rw [o.mem_enum, Table.mem_keys] at hip
    rw [Option.isSome_map]
    exact hip

variable [IpKeyed S] [FromIpSignal S A]

/-- No source without a signal in the tick cools down in it. -/
def NoneCoolsDown (m : IpAlertLifecycleManager S A) (t : IpTick S) : Prop :=
  ∀ ip, (t.sees ip).active = false →
    ¬(m.slotState ip).CoolsDown t.now m.cooldown m.resolveConsecutiveThreshold

variable [AlertIp A] [LawfulFromIpSignal S A]

/-- One tick: the entries that it keeps and that are not open are those that cool down. -/
theorem activeCount_step (P : FsmConfig) (past : List (IpTick S)) (t : IpTick S) :
    let m : IpAlertLifecycleManager S A := after P (past ++ [t])
    m.activeCount = m.openSources.card ↔
      NoneCoolsDown (after P past : IpAlertLifecycleManager S A) t := by
  intro m
  obtain ⟨hC, hR⟩ : (after P past : IpAlertLifecycleManager S A).cooldown = P.cooldown ∧
      (after P past : IpAlertLifecycleManager S A).resolveConsecutiveThreshold =
        P.resolveConsecutiveThreshold := by
    have hconfig := config_after (A := A) P past
    exact ⟨congrArg FsmConfig.cooldown hconfig,
      congrArg FsmConfig.resolveConsecutiveThreshold hconfig⟩
  unfold NoneCoolsDown
  rw [activeCount_eq_iff, hC, hR]
  refine forall_congr' fun ip => ?_
  let s := (after P past : IpAlertLifecycleManager S A).slotState ip
  let r := AlertState.feed P s (t.sees ip)
  have hkept : (m.states.lookup ip).isSome = true ∧ (m.slotState ip).phase = .inactive ↔
      r.1.phase = .inactive ∧ r.1.isHot t.now P.cooldown = true := by
    have hactive : (t.sees ip).active = true → r.1.phase ≠ .inactive := by
      intro ha
      show (s.advance (t.sees ip).active _ _ _ _).1.phase ≠ .inactive
      rw [ha]
      exact AlertState.phase_advance_active s t.now P.cooldown P.consecutiveThreshold
        P.resolveConsecutiveThreshold
    rw [slotState_concat, (step_slot (A := A) P past t ip).1]
    split_ifs with hkept
    · rw [Option.isSome_some, eq_self_iff_true, true_and]
      exact ⟨fun hp => ⟨hp, hkept.resolve_left fun ha => hactive ha hp⟩, And.left⟩
    · simp only [Option.isSome_none, Bool.false_eq_true, false_and, false_iff]
      exact fun h => hkept (.inr h.2)
  have hcold := AlertState.inactive_hot_iff s (t.sees ip).active t.now P.cooldown
    P.consecutiveThreshold P.resolveConsecutiveThreshold
  rw [← not_and]
  exact (not_congr (hkept.trans hcold)).trans not_and

/-- **What the active count counts**: after a tick of a run it is the number of sources that are
pending or firing exactly if no source cools down in that tick; it is always the number of the
snapshot's entries. -/
theorem activeCount_describes (P : FsmConfig) (ticks : List (IpTick S)) :
    (∀ past t rest, ticks = past ++ t :: rest →
      let m : IpAlertLifecycleManager S A := after P (past ++ [t])
      m.activeCount = m.openSources.card ↔
        NoneCoolsDown (after P past : IpAlertLifecycleManager S A) t) ∧
    ∀ o, ((after P ticks : IpAlertLifecycleManager S A).snapshot o).length =
      (after P ticks : IpAlertLifecycleManager S A).activeCount :=
  ⟨fun past t _ _ => activeCount_step P past t, fun o => length_snapshot o _⟩

/-- A source that fired is counted while it fires, and then until its cooldown is over. -/
theorem activeCount_describes_loud :
    let loud : IpTick (SynFloodSignal ℚ) := ⟨[⟨⟨1⟩, 200, 1⟩], 0, Ipv4Addr.order⟩
    let quiet : ℕ → IpTick (SynFloodSignal ℚ) := fun now => ⟨[], now, Ipv4Addr.order⟩
    let m : List (IpTick (SynFloodSignal ℚ)) →
      IpAlertLifecycleManager (SynFloodSignal ℚ) (SynFloodAlert ℚ) := after ⟨5, 1, 2⟩
    NoneCoolsDown (m [loud]) (quiet 1) ∧ ¬NoneCoolsDown (m [loud, quiet 1]) (quiet 2) ∧
      ((m [loud, quiet 1]).snapshot Ipv4Addr.order).length = 1 := by
  intro loud quiet m
  have h := activeCount_describes (A := SynFloodAlert ℚ) ⟨5, 1, 2⟩ [loud, quiet 1, quiet 2]
  have h₂ := activeCount_describes (A := SynFloodAlert ℚ) ⟨5, 1, 2⟩ [loud, quiet 1]
  refine ⟨(h.1 [loud] (quiet 1) [quiet 2] rfl).mp (by decide +kernel), fun hnone => ?_,
    (h₂.2 Ipv4Addr.order).trans (by decide +kernel)⟩
  exact absurd ((h.1 [loud, quiet 1] (quiet 2) [] rfl).mpr hnone) (by decide +kernel)

theorem activeCount_of_resolved :
    ¬∀ (P : FsmConfig) (past : List (IpTick (SynFloodSignal ℚ))) (t : IpTick (SynFloodSignal ℚ)),
      (past ++ [t]).Pairwise (·.now ≤ ·.now) →
      (after P (past ++ [t]) :
        IpAlertLifecycleManager (SynFloodSignal ℚ) (SynFloodAlert ℚ)).activeCount =
      (after P (past ++ [t]) :
        IpAlertLifecycleManager (SynFloodSignal ℚ) (SynFloodAlert ℚ)).openSources.card := by
  intro h
  have hcount := h ⟨5, 1, 1⟩ [⟨[⟨⟨1⟩, 200, 1⟩], 0, Ipv4Addr.order⟩] ⟨[], 1, Ipv4Addr.order⟩
    (by decide)
  exact absurd hcount (by decide +kernel)

end IpAlertLifecycleManager

end EbpfXdp
