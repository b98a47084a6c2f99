import EbpfXdpProgram.Alert.IpManager

/-!
# Runs of the per-source manager

The manager drops entries that are neither signalled nor hot, and creates them again from scratch.
`Masks` relates the FSM of a source to the one that is never dropped: they agree but for a last fire
whose cooldown has passed. As time does not go back, the two emit the same
(`collection_unobservable`).
-/

namespace EbpfXdp

/-! ## Forgetting a passed cooldown -/

namespace AlertState

/-- `s` is `u`, up to having forgotten a last fire whose cooldown has passed by `now`. -/
structure Masks (C : Duration) (now : Instant) (s u : AlertState) : Prop where
  phase : s.phase = u.phase
  count : s.consecutiveCount = u.consecutiveCount
  resolve : s.resolveConsecutiveCount = u.resolveConsecutiveCount
  lastFired : s.lastFired = u.lastFired ∨ s.lastFired = none ∧ u.cooldownPassed now C = true

namespace Masks

variable {C : Duration} {now : Instant} {s u : AlertState}

theorem refl (C : Duration) (now : Instant) (s : AlertState) : Masks C now s s :=
  ⟨rfl, rfl, rfl, .inl rfl⟩

theorem mono (h : Masks C now s u) {now' : Instant} (hle : now ≤ now') : Masks C now' s u := by
  refine ⟨h.phase, h.count, h.resolve, h.lastFired.imp_right fun ⟨hs, hu⟩ => ⟨hs, ?_⟩⟩
  rw [cooldownPassed_iff] at hu ⊢
  exact fun t ht => (hu t ht).trans (durationSince_mono hle t)

theorem isFiring (h : Masks C now s u) : s.isFiring = u.isFiring := by
  unfold AlertState.isFiring; rw [h.phase]

theorem bump (h : Masks C now s u) : s.bump = u.bump := by
  unfold AlertState.bump; rw [h.phase, h.count]

theorem cooldownPassed (h : Masks C now s u) : s.cooldownPassed now C = u.cooldownPassed now C := by
  rcases h.lastFired with hl | ⟨hs, hu⟩
  · unfold AlertState.cooldownPassed; rw [hl]
  · rw [hu]
    unfold AlertState.cooldownPassed
    rw [hs]

theorem advance (h : Masks C now s u) (a : Bool) (K R : UInt32) :
    (s.advance a now C K R).2 = (u.advance a now C K R).2 ∧
      Masks C now (s.advance a now C K R).1 (u.advance a now C K R).1 := by
  rcases hs : s.isFiring with _ | _ <;> rcases a with _ | _
  · have hu : u.isFiring = false := h.isFiring.symm.trans hs
    rw [advance_quiet_of_not_firing now C K R hs, advance_quiet_of_not_firing now C K R hu, h.phase]
    refine ⟨rfl, ?_⟩
    split_ifs
    · exact h
    · exact ⟨rfl, rfl, rfl, h.lastFired⟩
  · have hu : u.isFiring = false := h.isFiring.symm.trans hs
    rw [advance_active_of_not_firing now C K R hs, advance_active_of_not_firing now C K R hu,
      h.bump, h.cooldownPassed]
    split_ifs
    · exact ⟨rfl, rfl, rfl, h.resolve, .inl rfl⟩
    · exact ⟨rfl, rfl, rfl, h.resolve, h.lastFired⟩
  · have hu : u.isFiring = true := h.isFiring.symm.trans hs
    rw [advance_quiet_of_firing now C K R hs, advance_quiet_of_firing now C K R hu, h.resolve]
    split_ifs
    · exact ⟨rfl, rfl, rfl, rfl, h.lastFired⟩
    · exact ⟨rfl, h.phase, h.count, rfl, h.lastFired⟩
  · have hu : u.isFiring = true := h.isFiring.symm.trans hs
    rw [advance_active_of_firing now C K R hs, advance_active_of_firing now C K R hu]
    exact ⟨rfl, h.phase, h.count, rfl, h.lastFired⟩

/-- A settled state that is not hot can be replaced by a new one. -/
theorem collect (h : Masks C now s u) (hset : s.Settled) (hcold : s.isHot now C = false) :
    Masks C now new u := by
  have hp : s.phase = .inactive := by
    by_contra hp
    rw [isHot_of_not_inactive now C hp] at hcold
    exact absurd hcold (by decide)
  have hpassed : u.cooldownPassed now C = true := by
    rw [isHot_of_inactive now C hp, Bool.not_eq_false'] at hcold
    rw [← h.cooldownPassed, hcold]
  exact ⟨hp.symm.trans h.phase, (hset.count hp).symm.trans h.count,
    (hset.resolve ((not_isFiring_iff s).mpr (by rw [hp]; decide))).symm.trans h.resolve,
    .inr ⟨rfl, hpassed⟩⟩

end Masks

end AlertState

/-! ## Runs -/

variable {S A : Type}

/-- One call of `IpAlertLifecycleManager::tick`, with the iteration order of its loop. -/
structure IpTick (S : Type) where
  signals : List S
  now : Instant
  order : IterOrder Ipv4Addr

variable [IpKeyed S]

/-- What the tick says about a source: its signal and the time. -/
def IpTick.about (ip : Ipv4Addr) (t : IpTick S) : Option S × Instant :=
  (IpAlertLifecycleManager.signalFor t.signals ip, t.now)

/-- The tick as the FSM of a source sees it: whether the source is among the signals. -/
def IpTick.sees (ip : Ipv4Addr) (t : IpTick S) : SlotTick where
  active := (IpAlertLifecycleManager.signalFor t.signals ip).isSome
  now := t.now

namespace IpAlertLifecycleManager

variable [FromIpSignal S A]

def step (m : IpAlertLifecycleManager S A) (t : IpTick S) :
    IpAlertLifecycleManager S A × List (IpAlertEvent A) × List A :=
  tick t.order m t.signals t.now

/-- The manager after `ticks`, from `IpAlertLifecycleManager::new` with the parameters `P`. -/
def after (P : FsmConfig) (ticks : List (IpTick S)) : IpAlertLifecycleManager S A :=
  Run.exec step (new P.cooldown P.consecutiveThreshold P.resolveConsecutiveThreshold) ticks

theorem after_concat (P : FsmConfig) (past : List (IpTick S)) (t : IpTick S) :
    (after P (past ++ [t]) : IpAlertLifecycleManager S A) = (step (after P past) t).1 :=
  Run.exec_concat ..

@[simp] theorem config_after (P : FsmConfig) (ticks : List (IpTick S)) :
    (after P ticks : IpAlertLifecycleManager S A).config = P :=
  Run.exec_frame config (fun _ _ => rfl)
    (new P.cooldown P.consecutiveThreshold P.resolveConsecutiveThreshold) ticks

variable [AlertIp A] [LawfulFromIpSignal S A]

def slotEvents (out : IpAlertLifecycleManager S A × List (IpAlertEvent A) × List A)
    (ip : Ipv4Addr) : List (IpAlertEvent A) :=
  out.2.1.filter (AlertIp.alertIp ·.alert = ip)

def slotHeartbeats (out : IpAlertLifecycleManager S A × List (IpAlertEvent A) × List A)
    (ip : Ipv4Addr) : List A :=
  out.2.2.filter (AlertIp.alertIp · = ip)

section Run

variable (P : FsmConfig) (past : List (IpTick S)) (t : IpTick S) (ip : Ipv4Addr)

theorem step_slot :
    let m : IpAlertLifecycleManager S A := after P past
    let r := AlertState.feed P (m.slotState ip) (t.sees ip)
    (after P (past ++ [t]) : IpAlertLifecycleManager S A).states.lookup ip =
      (if (t.sees ip).active = true ∨ r.1.isHot t.now P.cooldown = true then some r.1 else none) ∧
    slotEvents (step m t) ip = emitted ip (signalFor t.signals ip) r.2 ∧
    slotHeartbeats (step m t) ip = reaffirmed ip (signalFor t.signals ip) r := by
  intro m r
  have h := tick_slot t.order m t.signals t.now ip
  have hconfig : m.config = P := config_after P past
  have hcooldown : m.cooldown = P.cooldown := congrArg FsmConfig.cooldown hconfig
  rw [hconfig, hcooldown] at h
  rw [after_concat]
  exact h

theorem slotState_concat :
    let r := AlertState.feed P ((after P past : IpAlertLifecycleManager S A).slotState ip)
      (t.sees ip)
    (after P (past ++ [t]) : IpAlertLifecycleManager S A).slotState ip =
      if (t.sees ip).active = true ∨ r.1.isHot t.now P.cooldown = true then r.1 else .new := by
  intro r
  have h := (step_slot (A := A) P past t ip).1
  unfold slotState
  rw [h]
  split_ifs <;> rfl

theorem settled_after : ((after P past : IpAlertLifecycleManager S A).slotState ip).Settled := by
  induction past using List.reverseRecOn with
  | nil => exact AlertState.settled_new
  | append_singleton past t ih =>
    rw [slotState_concat]
    split_ifs
    · exact ih.advance ..
    · exact AlertState.settled_new

theorem resolve_le_streak :
    ((after P past : IpAlertLifecycleManager S A).slotState ip).resolveConsecutiveCount.toNat ≤
      streak (fun t => !(t.sees ip).active) past := by
  induction past using List.reverseRecOn with
  | nil => exact Nat.zero_le _
  | append_singleton past t ih =>
    rw [slotState_concat]
    split_ifs
    · apply ((settled_after P past ip).resolve_advance_le ..).trans
      cases ha : (t.sees ip).active with
      | false =>
        rw [streak_concat_pos (by rw [ha]; rfl), if_neg Bool.false_ne_true]
        exact Nat.succ_le_succ ih
      | true =>
        rw [if_pos rfl]
        exact Nat.zero_le _
    · exact Nat.zero_le _

/-- A resolve follows quiet ticks of its source, as many as it takes and at least one. -/
theorem quiet_of_resolved {e : IpAlertEvent A}
    (he : e ∈ slotEvents (step (after P past : IpAlertLifecycleManager S A) t) ip)
    (hresolved : e.lifecycle = .resolved) :
    max 1 P.resolveConsecutiveThreshold.toNat ≤
      streak (fun t => !(t.sees ip).active) (past ++ [t]) := by
  rw [(step_slot P past t ip).2.1] at he
  obtain ⟨lifecycle, hevent, rfl⟩ := List.mem_map.mp he
  obtain rfl : lifecycle = .resolved := hresolved
  obtain ⟨-, hquiet, hcount⟩ := (AlertState.resolved_iff ..).mp (Option.mem_toList.mp hevent)
  have hstreak := resolve_le_streak (A := A) P past ip
  have hle := (UInt32.le_iff_toNat_le.mp hcount).trans
    ((UInt32.toNat_add ..).trans_le (Nat.mod_le _ _))
  rw [UInt32.toNat_one] at hle
  rw [streak_concat_pos (by rw [hquiet]; rfl)]
  omega

variable {past t}

/-- After a run with non-decreasing times, the FSM of a source is the one that is never dropped, up
to a passed cooldown. -/
theorem masks_after (hmono : past.Pairwise (·.now ≤ ·.now)) (now : Instant)
    (hnow : ∀ u ∈ past, u.now ≤ now) :
    ((after P past : IpAlertLifecycleManager S A).slotState ip).Masks P.cooldown now
      (AlertState.after P (past.map (IpTick.sees ip))) := by
  induction past using List.reverseRecOn generalizing now with
  | nil => exact AlertState.Masks.refl ..
  | append_singleton past t ih =>
    rw [List.pairwise_append] at hmono
    have hs := ih hmono.1 t.now fun u hu => hmono.2.2 u hu t (List.mem_singleton_self t)
    have hnext := (hs.advance (t.sees ip).active P.consecutiveThreshold
      P.resolveConsecutiveThreshold).2
    have hle : t.now ≤ now := hnow t (by simp)
    rw [slotState_concat, List.map_append, List.map_singleton, AlertState.after_concat]
    split_ifs with hkept
    · exact hnext.mono hle
    · obtain ⟨-, hcold⟩ := not_or.mp hkept
      exact (hnext.collect ((settled_after P past ip).advance ..)
        (Bool.eq_false_of_not_eq_true hcold)).mono hle

omit [IpKeyed S] [FromIpSignal S A] [AlertIp A] [LawfulFromIpSignal S A] in
theorem lookup_of_not_inactive {m : IpAlertLifecycleManager S A}
    (h : (m.slotState ip).phase ≠ .inactive) : m.states.lookup ip = some (m.slotState ip) := by
  unfold slotState at *
  cases hl : m.states.lookup ip with
  | none => rw [hl] at h; exact absurd rfl h
  | some s => rfl

theorem step_eq_uncollected (hmono : (past ++ [t]).Pairwise (·.now ≤ ·.now)) :
    let m : IpAlertLifecycleManager S A := after P past
    let seen := past.map (IpTick.sees ip)
    slotEvents (step m t) ip =
      emitted ip (signalFor t.signals ip) (AlertState.eventAt P seen (t.sees ip)) ∧
    slotHeartbeats (step m t) ip =
      reaffirmed ip (signalFor t.signals ip)
        (AlertState.feed P (AlertState.after P seen) (t.sees ip)) := by
  intro m seen
  rw [List.pairwise_append] at hmono
  have hs : (m.slotState ip).Masks P.cooldown t.now (AlertState.after P seen) :=
    masks_after P ip hmono.1 t.now fun u hu => hmono.2.2 u hu t (List.mem_singleton_self t)
  obtain ⟨hev, hnext⟩ := hs.advance (t.sees ip).active P.consecutiveThreshold
    P.resolveConsecutiveThreshold
  obtain ⟨-, hevents, hbeats⟩ := step_slot (A := A) P past t ip
  exact ⟨hevents.trans (congrArg _ hev), hbeats.trans (reaffirmed_congr hev hnext.isFiring ip _)⟩

end Run

/-- **Collection is unobservable**: what is emitted for a source is what an FSM that is never
dropped emits; no pending or firing state is dropped, a cooldown blocks the next fire, and the other
sources do not matter. -/
theorem collection_unobservable (P : FsmConfig) (past : List (IpTick S)) (t : IpTick S)
    (hmono : (past ++ [t]).Pairwise (·.now ≤ ·.now)) (ip : Ipv4Addr) :
    let m : IpAlertLifecycleManager S A := after P past
    let seen := past.map (IpTick.sees ip)
    let u := AlertState.after P seen
    slotEvents (step m t) ip =
      emitted ip (signalFor t.signals ip) (AlertState.eventAt P seen (t.sees ip)) ∧
    slotHeartbeats (step m t) ip =
      reaffirmed ip (signalFor t.signals ip) (AlertState.feed P u (t.sees ip)) ∧
    (u.phase ≠ .inactive → ∃ s, m.states.lookup ip = some s ∧ s.phase = u.phase ∧
      s.consecutiveCount = u.consecutiveCount ∧
      s.resolveConsecutiveCount = u.resolveConsecutiveCount) ∧
    (∀ e ∈ slotEvents (step m t) ip, e.lifecycle = .fired →
      ∀ t₀ ∈ firedTimes seen (AlertState.events P seen), P.cooldown ≤ durationSince t.now t₀) ∧
    ∀ past' t', (past' ++ [t']).Pairwise (·.now ≤ ·.now) →
      past'.map (IpTick.about ip) = past.map (IpTick.about ip) → t'.about ip = t.about ip →
      slotEvents (step (after P past' : IpAlertLifecycleManager S A) t') ip =
        slotEvents (step m t) ip ∧
      slotHeartbeats (step (after P past' : IpAlertLifecycleManager S A) t') ip =
        slotHeartbeats (step m t) ip := by
  intro m seen u
  obtain ⟨hev, hhb⟩ := step_eq_uncollected (A := A) P ip hmono
  refine ⟨hev, hhb, fun hu => ?_, fun e he hfired t₀ ht₀ => ?_, fun past' t' hmono' hpast ht => ?_⟩
  · rw [List.pairwise_append] at hmono
    have hs : (m.slotState ip).Masks P.cooldown t.now u :=
      masks_after P ip hmono.1 t.now fun u hu => hmono.2.2 u hu t (List.mem_singleton_self t)
    have hlookup := lookup_of_not_inactive ip (by rw [hs.phase]; exact hu)
    exact ⟨_, hlookup, hs.phase, hs.count, hs.resolve⟩
  · rw [hev] at he
    obtain ⟨lifecycle, hmem, rfl⟩ := List.mem_map.mp he
    obtain rfl : lifecycle = .fired := hfired
    have hevent : AlertState.eventAt P seen (t.sees ip) = some .fired := Option.mem_toList.mp hmem
    have hspaced := AlertState.pairwise_firedTimes P (seen ++ [t.sees ip])
    rw [AlertState.events_concat, firedTimes_concat (AlertState.length_events P seen), hevent,
      if_pos rfl, List.pairwise_append] at hspaced
    exact hspaced.2.2 t₀ ht₀ _ (List.mem_singleton_self _)
  · obtain ⟨hev', hhb'⟩ := step_eq_uncollected (A := A) P ip hmono'
    have hsees : ∀ t : IpTick S, t.sees ip = ⟨(t.about ip).1.isSome, (t.about ip).2⟩ :=
      fun _ => rfl
    have hseen : past'.map (IpTick.sees ip) = seen := by
      have h := congrArg (List.map fun a : Option S × Instant => SlotTick.mk a.1.isSome a.2) hpast
      rwa [List.map_map, List.map_map] at h
    have hsignal : signalFor t'.signals ip = signalFor t.signals ip := congrArg Prod.fst ht
    rw [hev', hhb', hseen, hsignal, hsees t', ht]
    exact ⟨hev.symm, hhb.symm⟩

/-- A source that fires, resolves and is dropped: re-created, it fires again. -/
theorem collection_unobservable_refire :
    let quiet : ℕ → IpTick (SynFloodSignal ℚ) := fun now => ⟨[], now, Ipv4Addr.order⟩
    let loud : ℕ → IpTick (SynFloodSignal ℚ) := fun now =>
      ⟨[⟨⟨1⟩, 200, 1⟩], now, Ipv4Addr.order⟩
    let P : FsmConfig := ⟨5, 1, 1⟩
    slotEvents (step (after P [loud 0, quiet 1, quiet 9] :
      IpAlertLifecycleManager (SynFloodSignal ℚ) (SynFloodAlert ℚ)) (loud 10)) ⟨1⟩ =
      [⟨⟨⟨1⟩, 200, 1⟩, .fired⟩] := by
  intro quiet loud P
  have h := (collection_unobservable (A := SynFloodAlert ℚ) P [loud 0, quiet 1, quiet 9] (loud 10)
    (by decide) ⟨1⟩).1
  refine h.trans ?_
  decide +kernel

end IpAlertLifecycleManager

end EbpfXdp
