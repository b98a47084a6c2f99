import EbpfXdpProgram.Alert.IpRuns
import EbpfXdpProgram.Anomaly.Detectors
import EbpfXdpProgram.Rate.Compute

/-!
# The SYN-flood runner

`SynFloodRunner` of `pipeline/synflood_runner.rs`. A run of the runner is a run of its alert manager
on the intervals between consecutive snapshots (`after_refines`). A source that other sources push
out of the top is quiet to the manager, whatever its rate: `resolved_after_quiet` says when a
resolve does follow quiet intervals.
-/

namespace EbpfXdp

open F64

variable {F : Type} [F64 F]

structure SynFloodRunner (F : Type) where
  prevSnapshot : Option SynCountersSnapshot
  detector : SynFloodDetector F
  alertLifecycleManager : IpAlertLifecycleManager (SynFloodSignal F) (SynFloodAlert F)
  lastTopN : List (SynIpRate F)

/-- One call of `SynFloodRunner::tick`: the snapshot, the time it reads, and the iteration orders of
the counters and of the manager's loop. -/
structure SynTick where
  current : Option SynCountersSnapshot
  now : Instant
  counterOrder : IterOrder UInt32
  order : IterOrder Ipv4Addr

/-- The interval that a tick processes. -/
structure SynInterval where
  prev : SynCountersSnapshot
  curr : SynCountersSnapshot
  tick : SynTick

/-- The interval as the alert manager sees it. -/
def SynFloodDetector.managerTick (d : SynFloodDetector F) (i : SynInterval) :
    IpTick (SynFloodSignal F) where
  signals := d.detect (computeSynRatesTopN i.tick.counterOrder i.prev i.curr d.topN)
  now := i.tick.now
  order := i.tick.order

namespace SynFloodRunner

def new (detector : SynFloodDetector F)
    (alertLifecycleManager : IpAlertLifecycleManager (SynFloodSignal F) (SynFloodAlert F)) :
    SynFloodRunner F where
  prevSnapshot := none
  detector := detector
  alertLifecycleManager := alertLifecycleManager
  lastTopN := []

/-- `tick`. -/
def step (r : SynFloodRunner F) (t : SynTick) :
    SynFloodRunner F × TickAlerts (IpAlertEvent (SynFloodAlert F)) (SynFloodAlert F) :=
  match t.current with
  | none => (r, ⟨[], []⟩)
  | some curr =>
    match primeOrDiff r.prevSnapshot t.current with
    | (prevSnapshot, none) => ({ r with prevSnapshot := prevSnapshot }, ⟨[], []⟩)
    | (prevSnapshot, some prev) =>
      let topN := computeSynRatesTopN t.counterOrder prev curr r.detector.topN
      let signals := r.detector.detect topN
      let (manager, transitions, heartbeats) := r.alertLifecycleManager.tick t.order signals t.now
      ({ prevSnapshot := prevSnapshot
         detector := r.detector
         alertLifecycleManager := manager
         lastTopN := topN }, ⟨transitions, heartbeats⟩)

/-- The runner after `ticks`, from a new one with the detector `d` and a new manager. -/
def after (d : SynFloodDetector F) (P : FsmConfig) (ticks : List SynTick) : SynFloodRunner F :=
  Run.exec step (new d (.new P.cooldown P.consecutiveThreshold P.resolveConsecutiveThreshold)) ticks

def present (ticks : List SynTick) : List (SynCountersSnapshot × SynTick) :=
  ticks.filterMap fun t => t.current.map fun curr => (curr, t)

def intervals (ticks : List SynTick) : List SynInterval :=
  (present ticks).consecutivePairs.map fun p => ⟨p.1.1, p.2.1, p.2.2⟩

theorem present_concat (ticks : List SynTick) (t : SynTick) :
    present (ticks ++ [t]) = present ticks ++ t.current.toList.map fun curr => (curr, t) := by
  unfold present
  rw [List.filterMap_append]
  congr 1
  cases hcurr : t.current with
  | none => exact List.filterMap_cons_none (by rw [hcurr]; rfl)
  | some curr => exact List.filterMap_cons_some (by rw [hcurr]; rfl)

theorem intervals_concat_none {ticks : List SynTick} {t : SynTick} (h : t.current = none) :
    intervals (ticks ++ [t]) = intervals ticks := by
  unfold intervals
  rw [present_concat, h, Option.toList_none, List.map_nil, List.append_nil]

theorem intervals_concat_some {ticks : List SynTick} {t : SynTick} {curr : SynCountersSnapshot}
    (h : t.current = some curr) :
    intervals (ticks ++ [t]) = intervals ticks ++
      (present ticks).getLast?.toList.map fun p => ⟨p.1, curr, t⟩ := by
  unfold intervals
  rw [present_concat, h, Option.toList_some, List.map_singleton, consecutivePairs_concat,
    List.map_append, List.map_map]
  rfl

theorem intervals_append (past rest : List SynTick) :
    intervals past <+: intervals (past ++ rest) := by
  induction rest using List.reverseRecOn with
  | nil => rw [List.append_nil]
  | append_singleton rest t ih =>
    rw [← List.append_assoc]
    cases hcurr : t.current with
    | none => rwa [intervals_concat_none hcurr]
    | some curr =>
      rw [intervals_concat_some hcurr]
      exact ih.trans (List.prefix_append ..)

section Refinement

variable (d : SynFloodDetector F) (P : FsmConfig)

theorem after_concat (ticks : List SynTick) (t : SynTick) :
    after d P (ticks ++ [t]) = (step (after d P ticks) t).1 := Run.exec_concat ..

/-- A run of the runner is a run of its manager on the intervals. -/
theorem after_refines (ticks : List SynTick) :
    let r := after d P ticks
    r.prevSnapshot = (present ticks).getLast?.map Prod.fst ∧ r.detector = d ∧
      r.alertLifecycleManager =
        IpAlertLifecycleManager.after P ((intervals ticks).map d.managerTick) := by
  induction ticks using List.reverseRecOn with
  | nil => exact ⟨rfl, rfl, rfl⟩
  | append_singleton past t ih =>
    obtain ⟨hprev, hdetector, hmanager⟩ := ih
    rw [after_concat]
    unfold step primeOrDiff
    cases hcurr : t.current with
    | none =>
      rw [intervals_concat_none hcurr, present_concat, hcurr, Option.toList_none, List.map_nil,
        List.append_nil]
      exact ⟨hprev, hdetector, hmanager⟩
    | some curr =>
      rw [intervals_concat_some hcurr, present_concat, hcurr, Option.toList_some,
        List.map_singleton, List.getLast?_concat]
      cases hlast : (present past).getLast? with
      | none =>
        rw [hlast] at hprev
        simp only [hprev, Option.map_none, Option.toList_none, List.map_nil, List.append_nil]
        exact ⟨rfl, hdetector, hmanager⟩
      | some p =>
        rw [hlast] at hprev
        simp only [hprev, Option.map_some, Option.toList_some, List.map_append,
          List.map_singleton, IpAlertLifecycleManager.after_concat, ← hmanager]
        refine ⟨trivial, hdetector, ?_⟩
        rw [hdetector]
        rfl

theorem transitions_step {past : List SynTick} {t : SynTick}
    {e : IpAlertEvent (SynFloodAlert F)} (he : e ∈ (step (after d P past) t).2.transitions) :
    ∃ i, intervals (past ++ [t]) = intervals past ++ [i] ∧
      e ∈ (IpAlertLifecycleManager.step
        (IpAlertLifecycleManager.after P ((intervals past).map d.managerTick))
        (d.managerTick i)).2.1 := by
  obtain ⟨hprev, hdetector, hmanager⟩ := after_refines d P past
  unfold step primeOrDiff at he
  cases hcurr : t.current with
  | none =>
    rw [hcurr] at he
    exact absurd he List.not_mem_nil
  | some curr =>
    cases hlast : (present past).getLast? with
    | none =>
      rw [hlast] at hprev
      simp only [hcurr, hprev, Option.map_none] at he
      exact absurd he List.not_mem_nil
    | some p =>
      rw [hlast] at hprev
      simp only [hcurr, hprev, Option.map_some, hdetector, hmanager] at he
      refine ⟨⟨p.1, curr, t⟩, ?_, he⟩
      rw [intervals_concat_some hcurr, hlast]
      rfl

end Refinement

/-! ## Resolves and quiet intervals -/

def Above (d : SynFloodDetector F) (key : UInt32) (i : SynInterval) : Prop :=
  lt d.maxSynPps (synRate i.prev i.curr key) = true

/-- If the source's rate in the interval is above the maximum, it is positive, and fewer than
`top_n` other sources have a rate that is not below it. -/
def Visible (d : SynFloodDetector F) (key : UInt32) (i : SynInterval) : Prop :=
  Above d key i → lt (0.0 : F) (synRate i.prev i.curr key) = true ∧
    (rivals F i.prev i.curr key).card < d.topN

variable [LawfulF64 F]

theorem active_of_above {d : SynFloodDetector F} {key : UInt32} {i : SynInterval}
    (hlt : i.prev.timestamp < i.curr.timestamp) (hvisible : Visible d key i)
    (habove : Above d key i) :
    ((d.managerTick i).sees (Ipv4Addr.ofU32 key)).active = true := by
  obtain ⟨hpos, hfew⟩ := hvisible habove
  refine IpAlertLifecycleManager.signalFor_isSome.mpr ⟨_, List.mem_map.mpr
    ⟨⟨Ipv4Addr.ofU32 key, synRate i.prev i.curr key⟩, List.mem_filter.mpr ⟨?_, habove⟩, rfl⟩, rfl⟩
  exact mem_computeSynRatesTopN i.tick.counterOrder hlt hpos hfew

/-- **A resolve follows quiet intervals**, in a run in which the source is visible: its rate was not
above the maximum in any of the last `max(1, resolve_consecutive_threshold)` intervals. -/
theorem resolved_after_quiet (d : SynFloodDetector F) (P : FsmConfig) (key : UInt32)
    (ticks : List SynTick)
    (hmono : (present ticks).IsChain fun a b => a.1.timestamp < b.1.timestamp)
    (hvisible : ∀ i ∈ intervals ticks, Visible d key i) :
    ∀ past t rest, ticks = past ++ t :: rest →
      ∀ e ∈ (step (after d P past) t).2.transitions,
        e.alert.srcIp = Ipv4Addr.ofU32 key → e.lifecycle = .resolved →
          Lasted (fun i => ¬Above d key i) (max 1 P.resolveConsecutiveThreshold.toNat)
            (intervals (past ++ [t])) := by
  intro past t rest hsplit e he hip hresolved
  obtain ⟨i, hi, he⟩ := transitions_step d P he
  have hmem : ∀ j ∈ intervals (past ++ [t]), j ∈ intervals ticks := fun j hj => by
    rw [hsplit, ← List.singleton_append, ← List.append_assoc]
    exact (intervals_append (past ++ [t]) rest).subset hj
  have hlasted := lasted_iff.mpr (IpAlertLifecycleManager.quiet_of_resolved P _ _ _
    (List.mem_filter.mpr ⟨he, decide_eq_true hip⟩) hresolved)
  rw [lasted_iff, ← List.map_singleton, ← List.map_append, ← hi, streak_map, ← lasted_iff]
    at hlasted
  refine hlasted.mono fun j hj hquiet habove => ?_
  obtain ⟨p, hp, rfl⟩ := List.mem_map.mp (hmem j hj)
  have hactive := active_of_above (rel_of_mem_consecutivePairs hmono hp) (hvisible _ (hmem _ hj))
    habove
  rw [hactive] at hquiet
  exact Bool.noConfusion hquiet

/-- A source at 200 and then at 20 SYNs a second, next to one at 200 all along and one at 50, with
two sources reported and a maximum of 100. -/
theorem resolved_after_quiet_rivals :
    let snap : ℕ → ℕ → ℕ → ℕ → SynCountersSnapshot := fun secs first second third =>
      ⟨secs * 1000000000, (((∅ : Table UInt32 SynCounter).insert 1 ⟨first, 0⟩).insert 2
        ⟨second, 0⟩).insert 3 ⟨third, 0⟩⟩
    let tick : SynCountersSnapshot → SynTick := fun s =>
      ⟨some s, s.timestamp, .byRank UInt32.toNat fun _ _ => UInt32.toNat_inj.mp, Ipv4Addr.order⟩
    let past := [tick (snap 0 0 0 0), tick (snap 5 1000 1000 250)]
    Lasted (fun i => ¬Above (⟨100, 2⟩ : SynFloodDetector ℚ) 1 i) (max 1 1)
      (intervals (past ++ [tick (snap 10 1100 2000 500)])) := by
  intro snap tick past
  have hvisible : ∀ i ∈ intervals (past ++ [tick (snap 10 1100 2000 500)]),
      Visible (⟨100, 2⟩ : SynFloodDetector ℚ) 1 i := by
    intro i hi
    rcases List.mem_cons.mp hi with rfl | hi
    · exact fun _ => by decide +kernel
    · -- the source is not above the maximum any more
      obtain rfl := List.mem_singleton.mp hi
      exact fun habove => absurd habove (by unfold Above; decide +kernel)
  exact resolved_after_quiet ⟨100, 2⟩ ⟨0, 1, 1⟩ 1 (past ++ [tick (snap 10 1100 2000 500)])
    (by decide +kernel) hvisible past (tick (snap 10 1100 2000 500)) [] rfl
    ⟨⟨⟨1⟩, 0, 0⟩, .resolved⟩ (by decide +kernel) rfl rfl

/-- With one source reported, a louder source resolves the alert of one that goes on at 200 SYNs a
second. -/
theorem louder_source_resolves :
    let snap : ℕ → Table UInt32 SynCounter → SynCountersSnapshot := fun secs counters =>
      ⟨secs * 1000000000, counters⟩
    let tick : SynCountersSnapshot → SynTick := fun s =>
      ⟨some s, s.timestamp, .byRank UInt32.toNat fun _ _ => UInt32.toNat_inj.mp, Ipv4Addr.order⟩
    let counters : Table UInt32 SynCounter := ∅
    let past :=
      [tick (snap 0 (counters.insert 1 ⟨0, 0⟩)), tick (snap 5 (counters.insert 1 ⟨1000, 0⟩))]
    let t := tick (snap 10 ((counters.insert 1 ⟨2000, 0⟩).insert 2 ⟨5000, 0⟩))
    let d : SynFloodDetector ℚ := ⟨100, 1⟩
    ((present (past ++ [t])).IsChain fun a b => a.1.timestamp < b.1.timestamp) ∧
      ⟨⟨⟨1⟩, 0, 0⟩, .resolved⟩ ∈ (step (after d ⟨0, 1, 1⟩ past) t).2.transitions ∧
      ¬Lasted (fun i => ¬Above d 1 i) (max 1 1) (intervals (past ++ [t])) := by
  intro snap tick counters past t d
  refine ⟨by decide +kernel, by decide +kernel, fun hlasted => ?_⟩
  exact hlasted.2 ⟨snap 5 (counters.insert 1 ⟨1000, 0⟩),
    snap 10 ((counters.insert 1 ⟨2000, 0⟩).insert 2 ⟨5000, 0⟩), t⟩ (List.mem_singleton_self _)
    (by unfold Above; decide +kernel)

end SynFloodRunner

end EbpfXdp
