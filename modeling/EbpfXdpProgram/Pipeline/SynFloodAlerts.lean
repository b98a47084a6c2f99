import EbpfXdpProgram.Alert.IpWatch
import EbpfXdpProgram.Pipeline.SynFloodRunner

/-!
# SYN-flood alerts, from rates to events

Where no more sources are above the maximum than are reported, the alert of a source is an FSM on
the source's own rate, whatever the others send (`flood_alerts`).
-/

namespace EbpfXdp

open F64 IpAlertLifecycleManager

variable {F : Type} [F64 F]

namespace SynFloodDetector

variable (d : SynFloodDetector F) (key : UInt32) (i : SynInterval)

def exceeds : Bool := lt d.maxSynPps (synRate i.prev i.curr key)

def loud : Finset UInt32 := i.curr.counters.keys.filter fun k => d.exceeds k i = true

/-- The interval, as an FSM on the rate of the source sees it. -/
def watch : SlotTick := ⟨d.exceeds key i, i.tick.now⟩

variable {d key i} [LawfulF64 F]

theorem rate_of_signalFor (hlt : i.prev.timestamp < i.curr.timestamp) {s : SynFloodSignal F}
    (h : signalFor (d.managerTick i).signals (Ipv4Addr.ofU32 key) = some s) :
    s.pps = synRate i.prev i.curr key ∧ d.exceeds key i = true := by
  obtain ⟨hs, hip⟩ := Table.lookup_collect_some h
  obtain ⟨r, hr, rfl⟩ := List.mem_map.mp hs
  obtain ⟨hr, habove⟩ := List.mem_filter.mp hr
  obtain ⟨k, -, rfl, -⟩ := of_mem_computeSynRatesTopN hlt hr
  obtain rfl : k = key := congrArg Ipv4Addr.bits hip
  exact ⟨rfl, habove⟩

theorem exceeds_of_active (hlt : i.prev.timestamp < i.curr.timestamp)
    (h : ((d.managerTick i).sees (Ipv4Addr.ofU32 key)).active = true) : d.exceeds key i = true := by
  obtain ⟨s, hs⟩ := Option.isSome_iff_exists.mp h
  exact (rate_of_signalFor hlt hs).2

theorem exceeds_of_rival (hlt : i.prev.timestamp < i.curr.timestamp) {k : UInt32}
    (habove : d.exceeds key i = true)
    (hrival : lt (synRate i.prev i.curr k : F) (synRate i.prev i.curr key) = false) :
    d.exceeds k i = true := by
  have hle := le_of_not_lt (isNum_synRate hlt k) (isNum_synRate hlt key) hrival
  obtain ⟨hmax, hnot⟩ := (LawfulF64.lt_iff ..).mp habove
  refine (LawfulF64.lt_iff ..).mpr ⟨LawfulF64.le_trans _ _ _ hmax hle, ?_⟩
  by_contra hk
  rw [Bool.not_eq_false] at hk
  rw [LawfulF64.le_trans _ _ _ hle hk] at hnot
  exact Bool.noConfusion hnot

theorem visible_of_fits (hlt : i.prev.timestamp < i.curr.timestamp)
    (hmax : le (0.0 : F) d.maxSynPps = true) (hfits : (d.loud i).card ≤ d.topN) :
    SynFloodRunner.Visible d key i := by
  intro habove
  obtain ⟨hle, hnot⟩ := (LawfulF64.lt_iff ..).mp habove
  have hpos : lt (0.0 : F) (synRate i.prev i.curr key) = true := by
    refine (LawfulF64.lt_iff ..).mpr ⟨LawfulF64.le_trans _ _ _ hmax hle, ?_⟩
    by_contra hzero
    rw [Bool.not_eq_false] at hzero
    rw [LawfulF64.le_trans _ _ _ hzero hmax] at hnot
    exact Bool.noConfusion hnot
  have hmem : key ∈ d.loud i :=
    Finset.mem_filter.mpr ⟨mem_keys_of_synRate_pos hlt hpos, habove⟩
  have hsub : rivals F i.prev i.curr key ⊆ (d.loud i).erase key := by
    intro k hk
    obtain ⟨hk, hrival⟩ := Finset.mem_filter.mp hk
    obtain ⟨hne, hkey⟩ := Finset.mem_erase.mp hk
    exact Finset.mem_erase.mpr
      ⟨hne, Finset.mem_filter.mpr ⟨hkey, exceeds_of_rival hlt habove hrival⟩⟩
  have hcard := (Finset.card_le_card hsub).trans_lt (Finset.card_erase_lt_of_mem hmem)
  exact ⟨hpos, hcard.trans_le hfits⟩

/-- Where the sources above the maximum are all reported, these are the sources with a signal. -/
theorem sees_managerTick (hlt : i.prev.timestamp < i.curr.timestamp)
    (hmax : le (0.0 : F) d.maxSynPps = true) (hfits : (d.loud i).card ≤ d.topN) :
    (d.managerTick i).sees (Ipv4Addr.ofU32 key) = d.watch key i := by
  have hactive : ((d.managerTick i).sees (Ipv4Addr.ofU32 key)).active = d.exceeds key i := by
    rw [Bool.eq_iff_iff]
    exact ⟨exceeds_of_active hlt,
      SynFloodRunner.active_of_above hlt (visible_of_fits hlt hmax hfits)⟩
  unfold watch
  rw [← hactive]
  rfl

end SynFloodDetector

namespace SynFloodRunner

open SynFloodDetector

variable (d : SynFloodDetector F) (P : FsmConfig) (key : UInt32)

/-- The interval that a tick processes is the last one, and what it emits is what the manager emits
on it. -/
theorem step_interval {past : List SynTick} {t : SynTick} {p : SynCountersSnapshot × SynTick}
    {curr : SynCountersSnapshot} (hprev : (present past).getLast? = some p)
    (hcurr : t.current = some curr) :
    intervals (past ++ [t]) = intervals past ++ [⟨p.1, curr, t⟩] ∧
    let out := IpAlertLifecycleManager.step
      (IpAlertLifecycleManager.after P ((intervals past).map d.managerTick) :
        IpAlertLifecycleManager (SynFloodSignal F) (SynFloodAlert F)) (d.managerTick ⟨p.1, curr, t⟩)
    (step (after d P past) t).2.transitions = out.2.1 ∧
      (step (after d P past) t).2.heartbeats = out.2.2 := by
  obtain ⟨hprevious, hdetector, hmanager⟩ := after_refines d P past
  rw [hprev, Option.map_some] at hprevious
  refine ⟨?_, ?_⟩
  · rw [intervals_concat_some hcurr, hprev]
    rfl
  · unfold step primeOrDiff
    rw [hcurr, hprevious]
    dsimp only
    rw [hdetector, hmanager]
    exact ⟨rfl, rfl⟩

def lifecycles (alerts : TickAlerts (IpAlertEvent (SynFloodAlert F)) (SynFloodAlert F))
    (key : UInt32) : List AlertLifecycle :=
  (alerts.transitions.filter (·.alert.srcIp = Ipv4Addr.ofU32 key)).map (·.lifecycle)

def reaffirmedRates (alerts : TickAlerts (IpAlertEvent (SynFloodAlert F)) (SynFloodAlert F))
    (key : UInt32) : List F :=
  (alerts.heartbeats.filter (·.srcIp = Ipv4Addr.ofU32 key)).map (·.pps)

variable [LawfulF64 F]

/-- **The alert of a source follows its rate**: a fire has the rate of its source, which has been
above the maximum for as many intervals as it takes; and where the sources above the maximum were
always reported, the events of a source are those of an FSM on its rate, and the FSM's heartbeats
have the rate. -/
theorem flood_alerts (past : List SynTick) (t : SynTick) (p : SynCountersSnapshot × SynTick)
    (curr : SynCountersSnapshot) (hprev : (present past).getLast? = some p)
    (hcurr : t.current = some curr)
    (hchain : (present (past ++ [t])).IsChain fun a b => a.1.timestamp < b.1.timestamp)
    (hmono : (intervals (past ++ [t])).Pairwise fun a b => a.tick.now ≤ b.tick.now) :
    let alerts := (step (after d P past) t).2
    let seen := (intervals past).map (d.watch key)
    let u := d.watch key ⟨p.1, curr, t⟩
    (∀ e ∈ alerts.transitions, e.alert.srcIp = Ipv4Addr.ofU32 key → e.lifecycle = .fired →
      Lasted (fun i => d.exceeds key i = true) (max 1 P.consecutiveThreshold.toNat)
        (intervals (past ++ [t])) ∧
      e.alert.pps = synRate p.1 curr key) ∧
    (le (0.0 : F) d.maxSynPps = true →
      (∀ i ∈ intervals (past ++ [t]), (d.loud i).card ≤ d.topN) →
      lifecycles alerts key = (AlertState.eventAt P seen u).toList ∧
      reaffirmedRates alerts key =
        if AlertState.eventAt P seen u = none ∧
            (AlertState.after P (seen ++ [u])).isFiring = true ∧ u.active = true then
          [synRate p.1 curr key] else []) := by
  intro alerts seen u
  obtain ⟨hintervals, htransitions, hheartbeats⟩ := step_interval d P hprev hcurr
  have hlt : ∀ i ∈ intervals (past ++ [t]), i.prev.timestamp < i.curr.timestamp := fun i hi => by
    obtain ⟨q, hq, rfl⟩ := List.mem_map.mp hi
    exact rel_of_mem_consecutivePairs hchain hq
  rw [hintervals] at hmono hlt ⊢
  have hlast := hlt _ (List.mem_append_right _ (List.mem_singleton_self _))
  have hmono' : (((intervals past).map d.managerTick ++ [d.managerTick ⟨p.1, curr, t⟩] :
      List (IpTick (SynFloodSignal F)))).Pairwise (·.now ≤ ·.now) := by
    rw [← List.map_singleton, ← List.map_append, List.pairwise_map]
    exact hmono
  have hrate : ∀ s, signalFor (d.managerTick ⟨p.1, curr, t⟩).signals (Ipv4Addr.ofU32 key) = some s →
      s.pps = synRate p.1 curr key :=
    fun s hs => (rate_of_signalFor (i := ⟨p.1, curr, t⟩) hlast hs).1
  refine ⟨fun e he hip hfired => ?_, fun hmax hfits => ?_⟩
  · rw [htransitions] at he
    have hslot : e ∈ slotEvents (IpAlertLifecycleManager.step (IpAlertLifecycleManager.after P _)
        (d.managerTick ⟨p.1, curr, t⟩)) (Ipv4Addr.ofU32 key) :=
      List.mem_filter.mpr ⟨he, decide_eq_true hip⟩
    have hstreak := active_of_fired hslot hfired
    rw [← List.map_singleton, ← List.map_append, streak_map] at hstreak
    obtain ⟨s, hs, halert⟩ := alert_of_fired hslot hfired
    refine ⟨(lasted_iff.mpr hstreak).mono fun i hi => exceeds_of_active (hlt i hi), ?_⟩
    rw [halert]
    exact hrate s hs
  · have hsees : ∀ i ∈ intervals past ++ [⟨p.1, curr, t⟩],
        (d.managerTick i).sees (Ipv4Addr.ofU32 key) = d.watch key i := fun i hi =>
      sees_managerTick (hlt i hi) hmax (hfits i hi)
    have hseen : ((intervals past).map d.managerTick).map
        (IpTick.sees (S := SynFloodSignal F) (Ipv4Addr.ofU32 key)) = seen := by
      rw [List.map_map]
      exact List.map_congr_left fun i hi => hsees i (List.mem_append_left _ hi)
    have hu : (d.managerTick ⟨p.1, curr, t⟩).sees (Ipv4Addr.ofU32 key) = u :=
      hsees _ (List.mem_append_right _ (List.mem_singleton_self _))
    have hwatched := slot_watched (P := P) (A := SynFloodAlert F) (f := SynFloodAlert.pps)
      hmono' hrate
    rw [hseen, hu] at hwatched
    unfold lifecycles reaffirmedRates
    rw [htransitions, hheartbeats]
    exact hwatched

/-- A source that goes from 20 to 200 SYNs a second, with a maximum of 100. -/
theorem flood_alerts_two_intervals :
    let snap : ℕ → ℕ → SynCountersSnapshot := fun secs packets =>
      ⟨secs * 1000000000, (∅ : Table UInt32 SynCounter).insert 1 ⟨packets, 0⟩⟩
    let tick : SynCountersSnapshot → SynTick := fun s =>
      ⟨some s, s.timestamp, .byRank UInt32.toNat fun _ _ => UInt32.toNat_inj.mp, Ipv4Addr.order⟩
    let d : SynFloodDetector ℚ := ⟨100, 1⟩
    lifecycles (step (after d ⟨0, 1, 1⟩ [tick (snap 0 0), tick (snap 5 100)])
      (tick (snap 10 1100))).2 1 = [.fired] := by
  intro snap tick d
  have hfits : ∀ i ∈ intervals ([tick (snap 0 0), tick (snap 5 100)] ++ [tick (snap 10 1100)]),
      (d.loud i).card ≤ d.topN := by
    intro i hi
    rcases List.mem_cons.mp hi with rfl | hi
    · decide +kernel
    · obtain rfl := List.mem_singleton.mp hi
      decide +kernel
  exact ((flood_alerts d ⟨0, 1, 1⟩ 1 [tick (snap 0 0), tick (snap 5 100)] (tick (snap 10 1100))
    (snap 5 100, tick (snap 5 100)) (snap 10 1100) rfl rfl (by decide +kernel)
    (by decide +kernel)).2 (by decide +kernel) hfits).1.trans (by decide +kernel)

end SynFloodRunner

end EbpfXdp
