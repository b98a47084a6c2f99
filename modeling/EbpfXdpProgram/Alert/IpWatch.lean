import EbpfXdpProgram.Alert.Reaffirm

/-!
# When the alert of a source begins and ends

A fire follows as many signals in a row as it takes, and an alert that is open has closed after as
many quiet ticks in a row as it takes to resolve: no alert outlives its signals.
-/

namespace EbpfXdp

theorem AlertState.Settled.count_advance_le {s : AlertState} (h : s.Settled) (a : Bool)
    (now : Instant) (C : Duration) (K R : UInt32)
    (hfiring : (s.advance a now C K R).1.isFiring = false) :
    (s.advance a now C K R).1.consecutiveCount.toNat ≤
      if a = true then s.consecutiveCount.toNat + 1 else 0 := by
  rcases hs : s.isFiring with _ | _ <;> rcases a with _ | _
  · rw [h.advance_quiet now C K R hs]
    exact Nat.zero_le _
  · have hbump : s.bump.toNat ≤ s.consecutiveCount.toNat + 1 := by
      rw [h.bump_eq, UInt32.toNat_add]
      exact Nat.mod_le _ _
    rw [advance_active_of_not_firing now C K R hs, if_pos (rfl : true = true)]
    split_ifs
    · exact hbump
    · exact hbump
  · rw [advance_quiet_of_firing now C K R hs] at hfiring ⊢
    by_cases hR : R ≤ s.resolveConsecutiveCount + 1
    · rw [if_pos hR]
      exact Nat.zero_le _
    · rw [if_neg hR] at hfiring
      exact absurd (hs.symm.trans hfiring) (by decide)
  · rw [advance_active_of_firing now C K R hs] at hfiring
    exact absurd (hs.symm.trans hfiring) (by decide)

theorem AlertState.not_firing_of_advance {s : AlertState} {now : Instant} {C : Duration}
    {K R : UInt32} (hfiring : (s.advance true now C K R).1.isFiring = false) :
    s.isFiring = false := by
  by_contra hs
  rw [Bool.not_eq_false] at hs
  rw [advance_active_of_firing now C K R hs] at hfiring
  exact absurd (hs.symm.trans hfiring) (by decide)

/-- With a signal, a state that is not firing after a tick counts one more than before it. The
threshold or the cooldown has kept it from firing. -/
theorem AlertState.Settled.counts_of_not_firing {s : AlertState} (h : s.Settled) {now : Instant}
    {C : Duration} {K R : UInt32} (hfiring : (s.advance true now C K R).1.isFiring = false) :
    (s.advance true now C K R).1.consecutiveCount = s.consecutiveCount + 1 ∧
      (s.advance true now C K R).1.lastFired = s.lastFired ∧
      ¬(K ≤ s.consecutiveCount + 1 ∧ s.cooldownPassed now C = true) := by
  have hs := not_firing_of_advance hfiring
  rw [advance_active_of_not_firing now C K R hs, h.bump_eq] at hfiring ⊢
  split_ifs at hfiring ⊢ with hfire
  · exact Bool.noConfusion hfiring
  · exact ⟨rfl, rfl, hfire⟩

variable {S A : Type} [IpKeyed S] [FromIpSignal S A] [AlertIp A] [LawfulFromIpSignal S A]

namespace IpAlertLifecycleManager

variable {P : FsmConfig} {ip : Ipv4Addr}

theorem count_le_streak (past : List (IpTick S)) :
    ((after P past : IpAlertLifecycleManager S A).slotState ip).isFiring = false →
      ((after P past : IpAlertLifecycleManager S A).slotState ip).consecutiveCount.toNat ≤
        streak (fun t => (t.sees ip).active) past := by
  induction past using List.reverseRecOn with
  | nil => exact fun _ => Nat.zero_le _
  | append_singleton past t ih =>
    have hset := settled_after (A := A) P past ip
    rw [slotState_concat]
    split_ifs
    · intro hfiring
      refine (hset.count_advance_le _ _ _ _ _ hfiring).trans ?_
      split_ifs with ha
      · rw [streak_concat_pos (p := fun t : IpTick S => (t.sees ip).active) ha]
        unfold AlertState.feed at hfiring
        rw [ha] at hfiring
        exact Nat.succ_le_succ (ih (AlertState.not_firing_of_advance hfiring))
      · exact Nat.zero_le _
    · exact fun _ => Nat.zero_le _

/-- In a run that does not overflow the count, it is the number of the latest signals. -/
theorem count_eq_streak (past : List (IpTick S)) (hlen : past.length < 2 ^ 32) :
    ((after P past : IpAlertLifecycleManager S A).slotState ip).isFiring = false →
      ((after P past : IpAlertLifecycleManager S A).slotState ip).consecutiveCount.toNat =
        streak (fun t => (t.sees ip).active) past := by
  induction past using List.reverseRecOn with
  | nil => exact fun _ => rfl
  | append_singleton past t ih =>
    intro hfiring
    have hpast : past.length + 1 < 2 ^ 32 := by
      rw [List.length_append, List.length_singleton] at hlen
      exact hlen
    cases hactive : (t.sees ip).active with
    | false =>
      have hle := count_le_streak (past ++ [t]) hfiring
      rw [streak_concat_neg (p := fun t : IpTick S => (t.sees ip).active) hactive] at hle ⊢
      exact Nat.le_zero.mp hle
    | true =>
      rw [slotState_concat, if_pos (.inl hactive)] at hfiring ⊢
      unfold AlertState.feed at hfiring ⊢
      rw [hactive] at hfiring ⊢
      have hcount := ih (Nat.lt_of_succ_lt hpast) (AlertState.not_firing_of_advance hfiring)
      have hle := streak_le_length (fun t : IpTick S => (t.sees ip).active) past
      rw [((settled_after P past ip).counts_of_not_firing hfiring).1,
        streak_concat_pos (p := fun t : IpTick S => (t.sees ip).active) hactive]
      exact AlertState.toNat_add_one hcount (by omega)

/-- After as many signals in a row as it takes, and at least one, a source is firing, or it has
fired less than the cooldown ago. -/
theorem firing_of_streak {ticks : List (IpTick S)} (hlen : ticks.length < 2 ^ 32)
    (h : max 1 P.consecutiveThreshold.toNat ≤ streak (fun t => (t.sees ip).active) ticks) :
    let s := (after P ticks : IpAlertLifecycleManager S A).slotState ip
    s.isFiring = true ∨ ∃ t ∈ ticks.getLast?, ∃ fired, s.lastFired = some fired ∧
      durationSince t.now fired < P.cooldown := by
  intro s
  rcases List.eq_nil_or_concat' ticks with rfl | ⟨past, t, rfl⟩
  · exact absurd ((le_max_left 1 _).trans h) (Nat.not_succ_le_zero 0)
  · by_contra hnot
    obtain ⟨hfiring, hcool⟩ := not_or.mp hnot
    rw [Bool.not_eq_true] at hfiring
    have hcount : s.consecutiveCount.toNat = _ := count_eq_streak (past ++ [t]) hlen hfiring
    have hactive : (t.sees ip).active = true := by
      by_contra hquiet
      rw [streak_concat_neg (p := fun t : IpTick S => (t.sees ip).active) (by simpa using hquiet)]
        at h
      omega
    have hstate : s = _ := (slotState_concat P past t ip).trans (if_pos (.inl hactive))
    unfold AlertState.feed at hstate
    rw [hactive] at hstate
    rw [hstate] at hfiring hcount hcool
    obtain ⟨hbump, hlast, hkept⟩ := (settled_after P past ip).counts_of_not_firing hfiring
    refine hkept ⟨?_, ?_⟩
    · rw [← hbump, UInt32.le_iff_toNat_le, hcount]
      omega
    · rw [AlertState.cooldownPassed_iff]
      intro fired hfired
      by_contra hlt
      exact hcool ⟨t, List.getLast?_concat, fired, hlast.trans hfired, not_le.mp hlt⟩

theorem active_of_fired {past : List (IpTick S)} {t : IpTick S} {e : IpAlertEvent A}
    (he : e ∈ slotEvents (step (after P past : IpAlertLifecycleManager S A) t) ip)
    (hfired : e.lifecycle = .fired) :
    max 1 P.consecutiveThreshold.toNat ≤ streak (fun t => (t.sees ip).active) (past ++ [t]) := by
  rw [(step_slot P past t ip).2.1] at he
  obtain ⟨lifecycle, hevent, rfl⟩ := List.mem_map.mp he
  obtain rfl : lifecycle = .fired := hfired
  obtain ⟨hs, hactive, hcount, -⟩ := (AlertState.fired_iff ..).mp (Option.mem_toList.mp hevent)
  have hstreak := count_le_streak (A := A) past hs
  rw [(settled_after P past ip).bump_eq] at hcount
  have hle := (UInt32.le_iff_toNat_le.mp hcount).trans
    ((UInt32.toNat_add ..).trans_le (Nat.mod_le _ _))
  rw [UInt32.toNat_one] at hle
  rw [streak_concat_pos (p := fun t : IpTick S => (t.sees ip).active) hactive]
  omega

theorem alert_of_fired {past : List (IpTick S)} {t : IpTick S} {e : IpAlertEvent A}
    (he : e ∈ slotEvents (step (after P past : IpAlertLifecycleManager S A) t) ip)
    (hfired : e.lifecycle = .fired) :
    ∃ s, signalFor t.signals ip = some s ∧ e.alert = FromIpSignal.fromSignal ip (some s) := by
  rw [(step_slot P past t ip).2.1] at he
  obtain ⟨lifecycle, hevent, rfl⟩ := List.mem_map.mp he
  obtain rfl : lifecycle = .fired := hfired
  obtain ⟨-, hactive, -⟩ := (AlertState.fired_iff ..).mp (Option.mem_toList.mp hevent)
  obtain ⟨s, hs⟩ := Option.isSome_iff_exists.mp hactive
  exact ⟨s, hs, congrArg (FromIpSignal.fromSignal ip) hs⟩

/-- In a run in time order, the events of a source are those of an FSM on what is seen of the
source. The FSM's heartbeats show the value that `f` reads off the signal. -/
theorem slot_watched {past : List (IpTick S)} {t : IpTick S}
    (hmono : (past ++ [t]).Pairwise (·.now ≤ ·.now)) {β : Type} {f : A → β} {value : β}
    (hvalue : ∀ s, signalFor t.signals ip = some s →
      f (FromIpSignal.fromSignal ip (some s)) = value) :
    let out := step (after P past : IpAlertLifecycleManager S A) t
    let seen := past.map (IpTick.sees ip)
    let u := t.sees ip
    (slotEvents out ip).map (·.lifecycle) = (AlertState.eventAt P seen u).toList ∧
    (slotHeartbeats out ip).map f =
      if AlertState.eventAt P seen u = none ∧
          (AlertState.after P (seen ++ [u])).isFiring = true ∧ u.active = true then
        [value] else [] := by
  intro out seen u
  obtain ⟨hevents, hbeats⟩ := step_eq_uncollected (A := A) P ip hmono
  refine ⟨?_, ?_⟩
  · rw [hevents]
    unfold emitted
    rw [List.map_map]
    exact List.map_id _
  · rw [hbeats, AlertState.after_concat]
    unfold reaffirmed
    change List.map f (if AlertState.eventAt P seen u = none ∧
      (AlertState.feed P (AlertState.after P seen) u).1.isFiring = true ∧ u.active = true
        then _ else _) = _
    split_ifs with hbeat
    · obtain ⟨s, hs⟩ := Option.isSome_iff_exists.mp hbeat.2.2
      rw [List.map_singleton, hs, hvalue s hs]
    · rfl

theorem streak_of_firing (past : List (IpTick S)) :
    ((after P past : IpAlertLifecycleManager S A).slotState ip).isFiring = true →
      streak (fun t => !(t.sees ip).active) past ≤
        ((after P past : IpAlertLifecycleManager S A).slotState ip).resolveConsecutiveCount.toNat ∧
      (streak (fun t => !(t.sees ip).active) past = 0 ∨
        ((after P past : IpAlertLifecycleManager S A).slotState ip).resolveConsecutiveCount.toNat <
          P.resolveConsecutiveThreshold.toNat) := by
  induction past using List.reverseRecOn with
  | nil => exact fun h => Bool.noConfusion h
  | append_singleton past t ih =>
    intro hfiring
    cases ha : (t.sees ip).active with
    | true =>
      rw [streak_concat_neg (by rw [ha]; rfl)]
      exact ⟨Nat.zero_le _, .inl rfl⟩
    | false =>
      have hstate := slotState_of_firing hfiring
      unfold AlertState.feed at hstate
      rw [ha] at hstate
      rw [hstate] at hfiring ⊢
      obtain ⟨hs, hcount, hR⟩ := AlertState.firing_of_quiet _ _ _ _ (resolve_after_lt past) hfiring
      obtain ⟨hle, -⟩ := ih hs
      rw [streak_concat_pos (by rw [ha]; rfl)]
      exact ⟨by omega, .inr (by omega)⟩

theorem not_firing_of_quiet {past : List (IpTick S)}
    (h : max 1 P.resolveConsecutiveThreshold.toNat ≤
      streak (fun t => !(t.sees ip).active) past) :
    ((after P past : IpAlertLifecycleManager S A).slotState ip).isFiring = false := by
  by_contra hfiring
  rw [Bool.not_eq_false] at hfiring
  obtain ⟨hle, hR⟩ := streak_of_firing past hfiring
  omega

theorem resolved_of_closes {past : List (IpTick S)} {t : IpTick S}
    (hopen : ((after P past : IpAlertLifecycleManager S A).slotState ip).isFiring = true)
    (hclosed :
      ((after P (past ++ [t]) : IpAlertLifecycleManager S A).slotState ip).isFiring = false) :
    ∃ e ∈ slotEvents (step (after P past : IpAlertLifecycleManager S A) t) ip,
      e.lifecycle = .resolved := by
  have hresolved : (AlertState.feed P ((after P past : IpAlertLifecycleManager S A).slotState ip)
      (t.sees ip)).2 = some .resolved := by
    by_contra hne
    have hfiring := (AlertState.isFiring_advance ..).mpr (.inr ⟨hopen, hne⟩)
    have hhot := AlertState.isHot_of_not_inactive t.now P.cooldown fun hp =>
      absurd (((AlertState.isFiring_iff _).mp hfiring).symm.trans hp) (by decide)
    rw [slotState_concat, if_pos (.inr hhot)] at hclosed
    exact absurd (hfiring.symm.trans hclosed) (by decide)
  rw [(step_slot P past t ip).2.1]
  exact ⟨_, List.mem_map.mpr ⟨.resolved, Option.mem_toList.mpr hresolved, rfl⟩, rfl⟩

theorem phase_of_quiet {past : List (IpTick S)} {t : IpTick S}
    (hquiet : (t.sees ip).active = false) :
    ((after P (past ++ [t]) : IpAlertLifecycleManager S A).slotState ip).phase ≠ .pending := by
  rw [slotState_concat]
  split_ifs
  · unfold AlertState.feed
    rw [hquiet]
    apply AlertState.phase_advance_quiet
  · decide

theorem inactive_of_quiet {past : List (IpTick S)}
    (h : max 1 P.resolveConsecutiveThreshold.toNat ≤
      streak (fun t => !(t.sees ip).active) past) :
    ((after P past : IpAlertLifecycleManager S A).slotState ip).phase = .inactive := by
  have hfiring := (AlertState.not_isFiring_iff _).mp (not_firing_of_quiet (A := A) h)
  have hpending : ((after P past : IpAlertLifecycleManager S A).slotState ip).phase ≠ .pending := by
    rcases List.eq_nil_or_concat past with rfl | ⟨past, t, rfl⟩
    · exact fun hp => absurd (show AlertPhase.inactive = .pending from hp) (by decide)
    · rw [List.concat_eq_append] at h ⊢
      apply phase_of_quiet
      by_contra hactive
      rw [streak_concat_neg (by simpa using hactive)] at h
      omega
  cases hp : ((after P past : IpAlertLifecycleManager S A).slotState ip).phase with
  | inactive => rfl
  | pending => exact absurd hp hpending
  | firing => exact absurd hp hfiring

end IpAlertLifecycleManager

end EbpfXdp
