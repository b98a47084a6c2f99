import EbpfXdpProgram.Alert.IpWatch
import EbpfXdpProgram.Pipeline.PortScanRunner
import EbpfXdpProgram.Rate.PortTrace

/-!
# Port-scan alerts, from counts to events

Where no more sources exceed the limit than are reported, the alert of a source is an FSM on the
source's own count, whatever the others do (`scan_alerts`). A source that stops scanning loses its
alert once its touches have left the window (`scan_alert_ends`).
-/

namespace EbpfXdp

open IpAlertLifecycleManager

namespace PortScanDetector

variable (d : PortScanDetector) (ip : UInt32) (r : PortScanRead)

def exceeds : Bool := decide (d.maxDistinctPorts.toNat < distinctPorts r.curr d.windowNs ip)

/-- No more sources are above the limit than are reported. -/
def Fits : Prop := {ip | d.exceeds ip r = true}.ncard ≤ d.topN

/-- The snapshot, as an FSM on the count of the source sees it. -/
def watch : SlotTick := ⟨d.exceeds ip r, r.tick.now⟩

variable {d ip r} {F : Type} [F64 F]

theorem signals_managerTick (d : PortScanDetector) (r : PortScanRead) :
    Signals (F := F) (distinctPorts r.curr d.windowNs) d.maxDistinctPorts.toNat d.topN
      (d.managerTick r).signals :=
  signals_detect r.tick.touchOrder r.tick.groupOrder d

theorem exceeds_of_active
    (h : ((d.managerTick r : IpTick (PortScanSignal F)).sees (Ipv4Addr.ofU32 ip)).active = true) :
    d.exceeds ip r = true := by
  obtain ⟨s, hs, hip⟩ := signalFor_isSome.mp h
  obtain ⟨k, hk, hlimit⟩ := (signals_managerTick d r).exceeds s hs
  obtain rfl : k = ip := congrArg Ipv4Addr.bits (hk.symm.trans hip)
  exact decide_eq_true hlimit

/-- Where the sources above the limit are all reported, these are the sources with a signal. -/
theorem sees_managerTick (h : d.Fits r) :
    (d.managerTick r : IpTick (PortScanSignal F)).sees (Ipv4Addr.ofU32 ip) = d.watch ip r := by
  have hactive : ((d.managerTick r : IpTick (PortScanSignal F)).sees (Ipv4Addr.ofU32 ip)).active =
      d.exceeds ip r := by
    rw [Bool.eq_iff_iff]
    refine ⟨exceeds_of_active, fun hexceeds => signalFor_isSome.mpr ?_⟩
    unfold Fits exceeds at h
    simp only [decide_eq_true_eq] at h
    have hall := (signals_managerTick (F := F) d r).all h ip (of_decide_eq_true hexceeds)
    obtain ⟨s, hs, hip⟩ := List.mem_map.mp hall
    exact ⟨s, hs, hip⟩
  unfold watch
  rw [← hactive]
  rfl

theorem fits_of_length (o : IterOrder UInt32)
    (h : (breadthEntries o r.curr d.windowNs).length ≤ d.topN) : d.Fits r := by
  unfold Fits exceeds
  simp only [decide_eq_true_eq]
  rw [← countP_breadthEntries o]
  exact List.countP_le_length.trans h

theorem count_of_signalFor {s : PortScanSignal F}
    (h : signalFor (d.managerTick r).signals (Ipv4Addr.ofU32 ip) = some s) :
    s.distinctPorts.toNat = distinctPorts r.curr d.windowNs ip := by
  obtain ⟨hs, hip⟩ := Table.lookup_collect_some h
  obtain ⟨b, hb, rfl⟩ := List.mem_map.mp hs
  obtain ⟨k, -, hk, hcount⟩ :=
    (widest_computePortScanBreadth r.tick.touchOrder r.tick.groupOrder).count_eq b
      (List.mem_of_mem_filter hb)
  obtain rfl : k = ip := congrArg Ipv4Addr.bits (hk.symm.trans hip)
  exact hcount

end PortScanDetector

namespace PortScanRunner

open PortScanDetector

variable {F : Type} [F64 F] (d : PortScanDetector) (P : FsmConfig) (ip : UInt32)

def lifecycles (alerts : TickAlerts (IpAlertEvent (PortScanAlert F)) (PortScanAlert F))
    (ip : UInt32) : List AlertLifecycle :=
  (alerts.transitions.filter (·.alert.srcIp = Ipv4Addr.ofU32 ip)).map (·.lifecycle)

def reaffirmedCounts (alerts : TickAlerts (IpAlertEvent (PortScanAlert F)) (PortScanAlert F))
    (ip : UInt32) : List ℕ :=
  (alerts.heartbeats.filter (·.srcIp = Ipv4Addr.ofU32 ip)).map (·.distinctPorts.toNat)

/-- **The alert of a source follows its count**: a fire has the count of its source, which has been
above the limit for as many snapshots as it takes; and where the sources above the limit were always
reported, the events of a source are those of an FSM on its count, and the FSM's heartbeats have the
count. -/
theorem scan_alerts (past : List PortScanTick) (t : PortScanTick) (curr : PortScanCountersSnapshot)
    (hcurr : t.current = some curr)
    (hmono : (reads (past ++ [t])).Pairwise fun a b => a.tick.now ≤ b.tick.now) :
    let alerts := (step (after d P past : PortScanRunner F) t).2
    let seen := (reads past).map (d.watch ip)
    let u := d.watch ip ⟨curr, t⟩
    (∀ e ∈ alerts.transitions, e.alert.srcIp = Ipv4Addr.ofU32 ip → e.lifecycle = .fired →
      Lasted (fun r => d.exceeds ip r = true) (max 1 P.consecutiveThreshold.toNat)
        (reads (past ++ [t])) ∧
      e.alert.distinctPorts.toNat = distinctPorts curr d.windowNs ip) ∧
    ((∀ r ∈ reads (past ++ [t]), d.Fits r) →
      lifecycles alerts ip = (AlertState.eventAt P seen u).toList ∧
      reaffirmedCounts alerts ip =
        if AlertState.eventAt P seen u = none ∧
            (AlertState.after P (seen ++ [u])).isFiring = true ∧ u.active = true then
          [distinctPorts curr d.windowNs ip] else []) := by
  intro alerts seen u
  obtain ⟨htransitions, hheartbeats⟩ := step_some (F := F) d P past hcurr
  rw [reads_concat_some hcurr] at hmono ⊢
  have hmono' : (((reads past).map d.managerTick ++ [d.managerTick ⟨curr, t⟩] :
      List (IpTick (PortScanSignal F)))).Pairwise (·.now ≤ ·.now) := by
    rw [← List.map_singleton, ← List.map_append, List.pairwise_map]
    exact hmono
  have hcount : ∀ s, signalFor (d.managerTick ⟨curr, t⟩ : IpTick (PortScanSignal F)).signals
      (Ipv4Addr.ofU32 ip) = some s → s.distinctPorts.toNat = distinctPorts curr d.windowNs ip :=
    fun s hs => count_of_signalFor (r := ⟨curr, t⟩) hs
  refine ⟨fun e he hip hfired => ?_, fun hfits => ?_⟩
  · rw [htransitions] at he
    have hslot : e ∈ slotEvents (IpAlertLifecycleManager.step (IpAlertLifecycleManager.after P _)
        (d.managerTick ⟨curr, t⟩)) (Ipv4Addr.ofU32 ip) :=
      List.mem_filter.mpr ⟨he, decide_eq_true hip⟩
    have hstreak := active_of_fired hslot hfired
    rw [← List.map_singleton, ← List.map_append, streak_map] at hstreak
    obtain ⟨s, hs, halert⟩ := alert_of_fired hslot hfired
    refine ⟨(lasted_iff.mpr hstreak).mono fun r _ hr => exceeds_of_active hr, ?_⟩
    rw [halert]
    exact hcount s hs
  · have hseen : ((reads past).map d.managerTick).map
        (IpTick.sees (S := PortScanSignal F) (Ipv4Addr.ofU32 ip)) = seen := by
      rw [List.map_map]
      exact List.map_congr_left fun r hr => sees_managerTick (hfits r (List.mem_append_left _ hr))
    have hu : (d.managerTick ⟨curr, t⟩ : IpTick (PortScanSignal F)).sees (Ipv4Addr.ofU32 ip) = u :=
      sees_managerTick (hfits _ (List.mem_append_right _ (List.mem_singleton_self _)))
    have hwatched := slot_watched (P := P) (A := PortScanAlert F)
      (f := fun a => a.distinctPorts.toNat) hmono' hcount
    rw [hseen, hu] at hwatched
    unfold lifecycles reaffirmedCounts
    rw [htransitions, hheartbeats]
    exact hwatched

section Example

def tickAfter (events : List PortEvent) (now : ℕ) : PortScanTick where
  current := some (snapshotAfter 1 touchOrder events now)
  now := now
  touchOrder := touchOrder
  groupOrder := .byRank UInt32.toNat fun _ _ => UInt32.toNat.inj
  order := Ipv4Addr.order

/-- A source that touches two ports, with a limit of one. -/
theorem scan_alerts_two_ports :
    lifecycles (step (after ⟨1, 10, 100⟩ ⟨0, 1, 1⟩ [] : PortScanRunner ℚ)
      (tickAfter [.touch 7 80 1, .touch 7 443 5] 10)).2 7 = [.fired] := by
  have hfits : ∀ r ∈ reads ([] ++ [tickAfter [.touch 7 80 1, .touch 7 443 5] 10]),
      (⟨1, 10, 100⟩ : PortScanDetector).Fits r := by
    intro r hr
    obtain rfl := List.mem_singleton.mp hr
    exact fits_of_length (.byRank UInt32.toNat fun _ _ => UInt32.toNat.inj) (by decide +kernel)
  refine ((scan_alerts (F := ℚ) ⟨1, 10, 100⟩ ⟨0, 1, 1⟩ 7 []
    (tickAfter [.touch 7 80 1, .touch 7 443 5] 10) _ rfl (by decide)).2 hfits).1.trans ?_
  decide +kernel

end Example

/-! ## Scans that end -/

/-- The snapshot was read after a trace in which the source touched no port in the window. -/
def Idle (r : PortScanRead) : Prop :=
  ∃ n o events, PortEvent.Clocked r.curr.nowNs events ∧
    r.curr = snapshotAfter n o events r.curr.nowNs ∧
    PortEvent.windowPorts events r.curr.nowNs d.windowNs ip = ∅

variable {d ip} in
theorem Idle.freshPorts_eq_empty {r : PortScanRead} (h : Idle d ip r) :
    freshPorts r.curr d.windowNs ip = ∅ := by
  obtain ⟨n, o, events, hclocked, hcurr, hports⟩ := h
  rw [hcurr, ← Finset.subset_empty, ← hports]
  exact freshPorts_subset hclocked o ip

variable {d ip} in
theorem Idle.quiet {r : PortScanRead} (h : Idle d ip r) :
    ((d.managerTick r : IpTick (PortScanSignal F)).sees (Ipv4Addr.ofU32 ip)).active = false := by
  by_contra hactive
  have hexceeds := exceeds_of_active (Bool.eq_true_of_not_eq_false hactive)
  unfold exceeds distinctPorts at hexceeds
  rw [h.freshPorts_eq_empty, Finset.card_empty] at hexceeds
  exact absurd (of_decide_eq_true hexceeds) (Nat.not_lt_zero _)

variable {d ip} in
theorem Idle.not_reported {r : PortScanRead} (h : Idle d ip r) :
    Ipv4Addr.ofU32 ip ∉ (d.breadths r).map (·.srcIp) := by
  intro hmem
  obtain ⟨b, hb, hip⟩ := List.mem_map.mp hmem
  obtain ⟨k, hk, hsrc, -⟩ :=
    (widest_computePortScanBreadth r.tick.touchOrder r.tick.groupOrder).count_eq b hb
  obtain rfl : k = ip := congrArg Ipv4Addr.bits (hsrc.symm.trans hip)
  obtain ⟨key, hkey, hsource⟩ := Finset.mem_image.mp hk
  have hport : key.dstPort ∈ freshPorts r.curr d.windowNs k :=
    Finset.mem_image_of_mem _ (Finset.mem_filter.mpr ⟨hkey, hsource⟩)
  rw [h.freshPorts_eq_empty] at hport
  exact absurd hport (Finset.notMem_empty _)

def slotOf (r : PortScanRunner F) (ip : UInt32) : AlertState :=
  r.alertLifecycleManager.slotState (Ipv4Addr.ofU32 ip)

theorem slotOf_after (ticks : List PortScanTick) :
    slotOf (after d P ticks : PortScanRunner F) ip =
      (IpAlertLifecycleManager.after P ((reads ticks).map d.managerTick) :
        IpAlertLifecycleManager (PortScanSignal F) (PortScanAlert F)).slotState
          (Ipv4Addr.ofU32 ip) := by
  unfold slotOf
  rw [(after_refines d P ticks).2.1]

theorem resolved_mem_lifecycles {past : List PortScanTick} {t : PortScanTick}
    (hopen : (slotOf (after d P past : PortScanRunner F) ip).isFiring = true)
    (hclosed : (slotOf (step (after d P past : PortScanRunner F) t).1 ip).isFiring = false) :
    .resolved ∈ lifecycles (step (after d P past : PortScanRunner F) t).2 ip := by
  cases hcurr : t.current with
  | none =>
    have hsame : (step (after d P past : PortScanRunner F) t).1 = after d P past := by
      unfold step
      rw [hcurr]
    rw [hsame] at hclosed
    exact absurd (hopen.symm.trans hclosed) (by decide)
  | some curr =>
    rw [← after_concat, slotOf_after, reads_concat_some hcurr, List.map_append,
      List.map_singleton] at hclosed
    rw [slotOf_after] at hopen
    obtain ⟨e, he, hresolved⟩ := resolved_of_closes hopen hclosed
    unfold lifecycles
    rw [(step_some d P past hcurr).1]
    exact List.mem_map.mpr ⟨e, he, hresolved⟩

/-- **No port-scan alert outlives its scan**: after as many processed snapshots as it takes to
resolve, each without a touch by the source in its window, the source is inactive and not reported;
an alert that was open has been resolved on the way, and none has fired. -/
theorem scan_alert_ends (past rest : List PortScanTick) (hidle : ∀ r ∈ reads rest, Idle d ip r)
    (hlong : max 1 P.resolveConsecutiveThreshold.toNat ≤ (reads rest).length) :
    let r : PortScanRunner F := after d P (past ++ rest)
    (slotOf r ip).phase = .inactive ∧ Ipv4Addr.ofU32 ip ∉ r.lastTopN.map (·.srcIp) ∧
    ((slotOf (after d P past : PortScanRunner F) ip).isFiring = true →
      ∃ pre t post, rest = pre ++ t :: post ∧
        .resolved ∈ lifecycles (step (after d P (past ++ pre) : PortScanRunner F) t).2 ip) ∧
    ∀ pre t post, rest = pre ++ t :: post →
      .fired ∉ lifecycles (step (after d P (past ++ pre) : PortScanRunner F) t).2 ip := by
  intro r
  have hreported : Ipv4Addr.ofU32 ip ∉ r.lastTopN.map (·.srcIp) := by
    unfold r
    obtain ⟨last, hlast⟩ : ∃ last, (reads rest).getLast? = some last :=
      Option.ne_none_iff_exists'.mp fun hnone => by
        rw [List.getLast?_eq_none_iff.mp hnone, List.length_nil] at hlong
        omega
    rw [(after_refines d P _).2.2, reads_append, List.getLast?_append, hlast]
    exact (hidle last (List.mem_of_getLast? hlast)).not_reported
  have hinactive : (slotOf r ip).phase = .inactive := by
    unfold r
    rw [slotOf_after, reads_append, List.map_append]
    apply inactive_of_quiet
    refine hlong.trans (lasted_iff.mp ⟨?_, fun u hu => ?_⟩)
    · rw [List.length_append, List.length_map, List.length_map]
      exact Nat.le_add_left ..
    · unfold List.rtake at hu
      rw [List.length_append, List.length_map, List.length_map, Nat.add_sub_cancel,
        List.drop_left' (List.length_map _)] at hu
      obtain ⟨read, hread, rfl⟩ := List.mem_map.mp hu
      rw [(hidle read hread).quiet]
      rfl
  refine ⟨hinactive, hreported, fun hopen => ?_, fun pre t post hsplit hfired => ?_⟩
  · have hlost : ¬(slotOf r ip).isFiring = true := by
      rw [AlertState.isFiring_iff, hinactive]
      decide
    unfold r at hlost
    rw [after_append] at hlost
    obtain ⟨pre, t, post, rfl, hpre, hclosed⟩ :=
      Run.exists_step_of_lost (I := fun r : PortScanRunner F => (slotOf r ip).isFiring = true)
        hopen hlost
    rw [← after_append] at hpre hclosed
    exact ⟨pre, t, post, rfl,
      resolved_mem_lifecycles d P ip hpre (Bool.eq_false_of_not_eq_true hclosed)⟩
  · cases hcurr : t.current with
    | none =>
      unfold step at hfired
      rw [hcurr] at hfired
      exact absurd hfired List.not_mem_nil
    | some curr =>
      have hread : (⟨curr, t⟩ : PortScanRead) ∈ reads rest := by
        rw [hsplit]
        exact List.mem_filterMap.mpr ⟨t, by simp, by rw [hcurr]; rfl⟩
      unfold lifecycles at hfired
      rw [(step_some d P _ hcurr).1] at hfired
      obtain ⟨e, he, hlifecycle⟩ := List.mem_map.mp hfired
      have hslot : e ∈ slotEvents (IpAlertLifecycleManager.step (IpAlertLifecycleManager.after P _)
        (d.managerTick ⟨curr, t⟩)) (Ipv4Addr.ofU32 ip) := he
      have hstreak := active_of_fired hslot hlifecycle
      rw [streak_concat_neg (p := fun u : IpTick (PortScanSignal F) =>
        (u.sees (Ipv4Addr.ofU32 ip)).active) (hidle _ hread).quiet] at hstreak
      omega

/-- The two ports leave the window. -/
theorem scan_alert_ends_two_ports :
    let d : PortScanDetector := ⟨1, 10, 100⟩
    let events : List PortEvent := [.touch 7 80 1, .touch 7 443 5]
    (slotOf (after d ⟨0, 1, 1⟩ ([tickAfter events 10] ++ [tickAfter events 200]) :
      PortScanRunner ℚ) 7).phase = .inactive := by
  intro d events
  refine (scan_alert_ends (F := ℚ) d ⟨0, 1, 1⟩ 7 [tickAfter events 10] [tickAfter events 200]
    (fun r hr => ?_) (by decide)).1
  obtain rfl := List.mem_singleton.mp hr
  exact ⟨1, touchOrder, events, ⟨by decide, by decide⟩, rfl, by decide⟩

end PortScanRunner

end EbpfXdp
