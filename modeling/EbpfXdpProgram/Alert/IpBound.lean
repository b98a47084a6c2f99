import EbpfXdpProgram.Alert.IpRuns

/-!
# The memory bound of the per-source manager

Every entry that survives a tick goes back to a recent signal for its source: it was signalled in
this tick, it is firing and was signalled in one of the last `resolve_consecutive_threshold` ticks,
or it fired within the cooldown. `RecentlySignalled` carries this over a run.
-/

namespace EbpfXdp

variable {S A : Type} [IpKeyed S]

def IpTick.sources (t : IpTick S) : Finset Ipv4Addr := (t.signals.map IpKeyed.srcIp).toFinset

theorem IpTick.active_iff {t : IpTick S} {ip : Ipv4Addr} :
    (t.sees ip).active = true ↔ ip ∈ t.sources := by
  unfold IpTick.sees IpTick.sources
  rw [IpAlertLifecycleManager.signalFor_isSome, List.mem_toFinset, List.mem_map]

namespace IpAlertLifecycleManager

/-- What the FSM of a source says about the past signals for it. -/
structure RecentlySignalled (P : FsmConfig) (ip : Ipv4Addr) (past : List (IpTick S))
    (s : AlertState) : Prop where
  settled : s.Settled
  firing : s.isFiring = true →
    ∃ u ∈ past.rtake (s.resolveConsecutiveCount.toNat + 1), ip ∈ u.sources
  resolve : s.isFiring = true → s.resolveConsecutiveCount.toNat = 0 ∨
    s.resolveConsecutiveCount.toNat < P.resolveConsecutiveThreshold.toNat
  lastFired : ∀ t₀, s.lastFired = some t₀ → ∃ u ∈ past, ip ∈ u.sources ∧ u.now = t₀

namespace RecentlySignalled

variable {P : FsmConfig} {ip : Ipv4Addr} {past : List (IpTick S)} {s : AlertState}

theorem new (P : FsmConfig) (ip : Ipv4Addr) (past : List (IpTick S)) :
    RecentlySignalled P ip past .new :=
  ⟨AlertState.settled_new, fun h => Bool.noConfusion h, fun h => Bool.noConfusion h, nofun⟩

variable (h : RecentlySignalled P ip past s) (t : IpTick S)

include h in
theorem lastFired_feed : ∀ t₀, (AlertState.feed P s (t.sees ip)).1.lastFired = some t₀ →
    ∃ u ∈ past ++ [t], ip ∈ u.sources ∧ u.now = t₀ := by
  intro t₀ ht₀
  unfold AlertState.feed at ht₀
  rw [AlertState.lastFired_advance] at ht₀
  split_ifs at ht₀ with hfired
  · obtain rfl := Option.some.inj ht₀
    have hactive := ((AlertState.fired_iff ..).mp hfired).2.1
    exact ⟨t, by simp, IpTick.active_iff.mp hactive, rfl⟩
  · obtain ⟨u, hu, hsource⟩ := h.lastFired t₀ ht₀
    exact ⟨u, List.mem_append_left _ hu, hsource⟩

include h in
theorem feed : RecentlySignalled P ip (past ++ [t]) (AlertState.feed P s (t.sees ip)).1 := by
  refine ⟨h.settled.advance .., ?_, ?_, h.lastFired_feed t⟩
  all_goals
    unfold AlertState.feed
    rcases ha : (t.sees ip).active with _ | _ <;> rcases hs : s.isFiring with _ | _
  · rw [h.settled.advance_quiet _ _ _ _ hs]
    exact fun hf => Bool.noConfusion hf
  · rw [AlertState.advance_quiet_of_firing _ _ _ _ hs]
    split_ifs with hr
    · exact fun hf => Bool.noConfusion hf
    · intro _
      obtain ⟨u, hu, hsource⟩ := h.firing hs
      rw [UInt32.le_iff_toNat_le, not_le] at hr
      have hlt := P.resolveConsecutiveThreshold.toNat_lt
      have hcount : (s.resolveConsecutiveCount + 1).toNat = s.resolveConsecutiveCount.toNat + 1 :=
        AlertState.toNat_add_one rfl (by rcases h.resolve hs with h | h <;> omega)
      refine ⟨u, ?_, hsource⟩
      show u ∈ (past ++ [t]).rtake ((s.resolveConsecutiveCount + 1).toNat + 1)
      rw [hcount, List.rtake_concat_succ]
      exact List.mem_append_left _ hu
  · rw [AlertState.advance_active_of_not_firing _ _ _ _ hs]
    exact fun _ => ⟨t, mem_rtake_concat _ past t, IpTick.active_iff.mp ha⟩
  · rw [AlertState.advance_active_of_firing _ _ _ _ hs]
    exact fun _ => ⟨t, mem_rtake_concat _ past t, IpTick.active_iff.mp ha⟩
  · rw [h.settled.advance_quiet _ _ _ _ hs]
    exact fun hf => Bool.noConfusion hf
  · rw [AlertState.advance_quiet_of_firing _ _ _ _ hs]
    split_ifs with hr
    · exact fun hf => Bool.noConfusion hf
    · rw [UInt32.le_iff_toNat_le, not_le] at hr
      exact fun _ => .inr hr
  · rw [AlertState.advance_active_of_not_firing _ _ _ _ hs]
    split_ifs
    · exact fun _ => .inl (congrArg UInt32.toNat (h.settled.resolve hs))
    · exact fun hf => Bool.noConfusion hf
  · rw [AlertState.advance_active_of_firing _ _ _ _ hs]
    exact fun _ => .inl rfl

end RecentlySignalled

variable [FromIpSignal S A] [AlertIp A] [LawfulFromIpSignal S A]

theorem recentlySignalled_after (P : FsmConfig) (ticks : List (IpTick S)) (ip : Ipv4Addr) :
    RecentlySignalled P ip ticks ((after P ticks : IpAlertLifecycleManager S A).slotState ip) := by
  induction ticks using List.reverseRecOn with
  | nil => exact .new P ip []
  | append_singleton past t ih =>
    rw [slotState_concat]
    split_ifs
    · exact ih.feed t
    · exact .new P ip _

/-- A source that is tracked after a tick was signalled in one of the last ticks, as many as it
takes to resolve, or less than a cooldown ago. -/
theorem tracked_recently (P : FsmConfig) (past : List (IpTick S)) (t : IpTick S) (ip : Ipv4Addr)
    (h : ((after P (past ++ [t]) : IpAlertLifecycleManager S A).states.lookup ip).isSome = true) :
    (∃ u ∈ (past ++ [t]).rtake (max 1 P.resolveConsecutiveThreshold.toNat), ip ∈ u.sources) ∨
    ∃ u ∈ past ++ [t], ip ∈ u.sources ∧ durationSince t.now u.now < P.cooldown := by
  rw [(step_slot (A := A) P past t ip).1] at h
  have hrecent := recentlySignalled_after (A := A) P past ip
  generalize (after P past : IpAlertLifecycleManager S A).slotState ip = s at *
  have hnext := hrecent.feed t
  have hkept : (t.sees ip).active = true ∨
      (AlertState.feed P s (t.sees ip)).1.isHot t.now P.cooldown = true := by
    by_contra hdropped
    rw [if_neg hdropped] at h
    exact Bool.noConfusion h
  have hlast : (t.sees ip).active = true →
      ∃ u ∈ (past ++ [t]).rtake (max 1 P.resolveConsecutiveThreshold.toNat), ip ∈ u.sources :=
    fun ha => ⟨t, mem_rtake_mono (le_max_left 1 _) (mem_rtake_concat 0 past t),
      IpTick.active_iff.mp ha⟩
  rcases hkept with ha | hhot
  · exact .inl (hlast ha)
  cases hp : (AlertState.feed P s (t.sees ip)).1.phase with
  | inactive =>
    -- cooling down
    obtain ⟨t₀, ht₀, hlt⟩ := AlertState.exists_lastFired_of_isHot _ _ hp hhot
    obtain ⟨u, hu, hsource, hnow⟩ := hnext.lastFired t₀ ht₀
    exact .inr ⟨u, hu, hsource, by rw [hnow]; exact hlt⟩
  | pending =>
    -- pending, and so signalled in this tick
    refine .inl (hlast ?_)
    by_contra ha
    refine AlertState.phase_advance_quiet s t.now P.cooldown P.consecutiveThreshold
      P.resolveConsecutiveThreshold ?_
    rw [← Bool.eq_false_of_not_eq_true ha]
    exact hp
  | firing =>
    -- firing, and not yet resolved
    have hf := (AlertState.isFiring_iff _).mpr hp
    obtain ⟨u, hu, hsource⟩ := hnext.firing hf
    refine .inl ⟨u, mem_rtake_mono ?_ hu, hsource⟩
    have := hnext.resolve hf
    omega

/-- **The memory bound**: if each tick names at most `N` sources and ticks are at least `D` apart,
then every tracked source was signalled recently, and the tracked sources are at most `N` times the
number of ticks that it takes to resolve or to cool down. -/
theorem activeCount_bounded (P : FsmConfig) (N D : ℕ) (hD : 0 < D) (past : List (IpTick S))
    (t : IpTick S) (hN : ∀ u ∈ past ++ [t], u.sources.card ≤ N)
    (hgap : (past ++ [t]).IsChain fun a b => a.now + D ≤ b.now) :
    let m : IpAlertLifecycleManager S A := after P (past ++ [t])
    (∀ ip, (m.states.lookup ip).isSome = true →
      (∃ u ∈ (past ++ [t]).rtake (max 1 P.resolveConsecutiveThreshold.toNat), ip ∈ u.sources) ∨
      ∃ u ∈ past ++ [t], ip ∈ u.sources ∧ durationSince t.now u.now < P.cooldown) ∧
    m.activeCount ≤
      N * max (max 1 P.resolveConsecutiveThreshold.toNat) (divUp P.cooldown D) := by
  intro m
  refine ⟨fun ip h => tracked_recently P past t ip h, card_le_of_rtake hN fun ip hip => ?_⟩
  rcases tracked_recently P past t ip (Table.mem_keys.mp hip) with ⟨u, hu, hs⟩ | ⟨u, hu, hs, hlt⟩
  · exact ⟨u, mem_rtake_mono (le_max_left ..) hu, hs⟩
  · obtain ⟨i, hmem, hle⟩ := exists_mem_rtake_of_spaced hgap hu
    refine ⟨u, mem_rtake_mono (le_trans ?_ (le_max_right ..)) hmem, hs⟩
    exact lt_divUp hD (lt_of_durationSince_lt hlt hle)

/-- Sources that rotate: one a tick, three of them within the cooldown. -/
theorem activeCount_bounded_rotating :
    let tick : UInt32 → IpTick (SynFloodSignal ℚ) := fun i =>
      ⟨[⟨⟨i⟩, 200, 1⟩], 10 * i.toNat, Ipv4Addr.order⟩
    (after ⟨25, 1, 1⟩ ([tick 0, tick 1, tick 2, tick 3] ++ [tick 4]) :
      IpAlertLifecycleManager (SynFloodSignal ℚ) (SynFloodAlert ℚ)).activeCount ≤ 3 := by
  intro tick
  have h := (activeCount_bounded (A := SynFloodAlert ℚ) ⟨25, 1, 1⟩ 1 10 (by decide)
    [tick 0, tick 1, tick 2, tick 3] (tick 4) (by decide) (by decide)).2
  exact h

end IpAlertLifecycleManager

end EbpfXdp
