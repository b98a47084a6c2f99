import EbpfXdpProgram.Alert.IpRuns
import EbpfXdpProgram.Rate.PortScan

/-!
# The port-scan runner

`PortScanRunner` of `pipeline/port_scan_runner.rs`. There is no snapshot to diff against: each tick
that has a snapshot is processed, and a run of the runner is a run of its alert manager on the
snapshots (`after_refines`).
-/

namespace EbpfXdp

variable {F : Type} [F64 F]

structure PortScanRunner (F : Type) where
  detector : PortScanDetector
  alertLifecycleManager : IpAlertLifecycleManager (PortScanSignal F) (PortScanAlert F)
  lastTopN : List PortScanIpBreadth

/-- One call of `PortScanRunner::tick`: the snapshot, the time it reads, and the iteration orders of
the touches, of the groups and of the manager's loop. -/
structure PortScanTick where
  current : Option PortScanCountersSnapshot
  now : Instant
  touchOrder : IterOrder PortScanKey
  groupOrder : IterOrder UInt32
  order : IterOrder Ipv4Addr

/-- A tick that has a snapshot. -/
structure PortScanRead where
  curr : PortScanCountersSnapshot
  tick : PortScanTick

namespace PortScanDetector

def breadths (d : PortScanDetector) (r : PortScanRead) : List PortScanIpBreadth :=
  computePortScanBreadth r.tick.touchOrder r.tick.groupOrder r.curr d.windowNs d.topN

/-- The tick as the alert manager sees it. -/
def managerTick (d : PortScanDetector) (r : PortScanRead) : IpTick (PortScanSignal F) where
  signals := d.detect (d.breadths r)
  now := r.tick.now
  order := r.tick.order

end PortScanDetector

namespace PortScanRunner

def new (detector : PortScanDetector)
    (alertLifecycleManager : IpAlertLifecycleManager (PortScanSignal F) (PortScanAlert F)) :
    PortScanRunner F where
  detector := detector
  alertLifecycleManager := alertLifecycleManager
  lastTopN := []

/-- `tick`. -/
def step (r : PortScanRunner F) (t : PortScanTick) :
    PortScanRunner F × TickAlerts (IpAlertEvent (PortScanAlert F)) (PortScanAlert F) :=
  match t.current with
  | none => (r, ⟨[], []⟩)
  | some curr =>
    let topN :=
      computePortScanBreadth t.touchOrder t.groupOrder curr r.detector.windowNs r.detector.topN
    let signals := r.detector.detect topN
    let (manager, transitions, heartbeats) := r.alertLifecycleManager.tick t.order signals t.now
    ({ detector := r.detector
       alertLifecycleManager := manager
       lastTopN := topN }, ⟨transitions, heartbeats⟩)

/-- The runner after `ticks`, from a new one with the detector `d` and a new manager. -/
def after (d : PortScanDetector) (P : FsmConfig) (ticks : List PortScanTick) : PortScanRunner F :=
  Run.exec step (new d (.new P.cooldown P.consecutiveThreshold P.resolveConsecutiveThreshold)) ticks

def reads (ticks : List PortScanTick) : List PortScanRead :=
  ticks.filterMap fun t => t.current.map fun curr => ⟨curr, t⟩

theorem reads_append (ticks ticks' : List PortScanTick) :
    reads (ticks ++ ticks') = reads ticks ++ reads ticks' := List.filterMap_append

theorem reads_concat (ticks : List PortScanTick) (t : PortScanTick) :
    reads (ticks ++ [t]) = reads ticks ++ t.current.toList.map fun curr => ⟨curr, t⟩ := by
  rw [reads_append]
  congr 1
  unfold reads
  cases hcurr : t.current with
  | none => exact List.filterMap_cons_none (by rw [hcurr]; rfl)
  | some curr => exact List.filterMap_cons_some (by rw [hcurr]; rfl)

theorem reads_concat_some {ticks : List PortScanTick} {t : PortScanTick}
    {curr : PortScanCountersSnapshot} (h : t.current = some curr) :
    reads (ticks ++ [t]) = reads ticks ++ [⟨curr, t⟩] := by
  rw [reads_concat, h]
  rfl

variable (d : PortScanDetector) (P : FsmConfig)

theorem after_concat (ticks : List PortScanTick) (t : PortScanTick) :
    (after d P (ticks ++ [t]) : PortScanRunner F) = (step (after d P ticks) t).1 :=
  Run.exec_concat ..

theorem after_append (ticks ticks' : List PortScanTick) :
    (after d P (ticks ++ ticks') : PortScanRunner F) = Run.exec step (after d P ticks) ticks' :=
  Run.exec_append ..

/-- A run of the runner is a run of its manager on the snapshots. -/
theorem after_refines (ticks : List PortScanTick) :
    let r : PortScanRunner F := after d P ticks
    r.detector = d ∧
      r.alertLifecycleManager =
        IpAlertLifecycleManager.after P ((reads ticks).map d.managerTick) ∧
      r.lastTopN = ((reads ticks).getLast?.map d.breadths).getD [] := by
  induction ticks using List.reverseRecOn with
  | nil => exact ⟨rfl, rfl, rfl⟩
  | append_singleton past t ih =>
    obtain ⟨hdetector, hmanager, htop⟩ := ih
    rw [after_concat]
    unfold step
    cases hcurr : t.current with
    | none =>
      rw [reads_concat, hcurr, Option.toList_none, List.map_nil, List.append_nil]
      exact ⟨hdetector, hmanager, htop⟩
    | some curr =>
      rw [reads_concat_some hcurr, List.map_append, List.map_singleton, List.getLast?_concat,
        IpAlertLifecycleManager.after_concat, ← hmanager]
      dsimp only
      rw [hdetector]
      exact ⟨rfl, rfl, rfl⟩

theorem step_some (past : List PortScanTick) {t : PortScanTick} {curr : PortScanCountersSnapshot}
    (h : t.current = some curr) :
    let out := IpAlertLifecycleManager.step
      (IpAlertLifecycleManager.after P ((reads past).map d.managerTick) :
        IpAlertLifecycleManager (PortScanSignal F) (PortScanAlert F)) (d.managerTick ⟨curr, t⟩)
    (step (after d P past : PortScanRunner F) t).2.transitions = out.2.1 ∧
      (step (after d P past : PortScanRunner F) t).2.heartbeats = out.2.2 := by
  obtain ⟨hdetector, hmanager, -⟩ := after_refines (F := F) d P past
  unfold step
  rw [h]
  dsimp only
  rw [hdetector, hmanager]
  exact ⟨rfl, rfl⟩

end PortScanRunner

end EbpfXdp
