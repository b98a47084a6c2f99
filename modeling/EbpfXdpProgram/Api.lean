import EbpfXdpProgram.Alert.ActiveCount
import EbpfXdpProgram.Alertmanager.Wire
import EbpfXdpProgram.Pipeline.PortScanRunner
import EbpfXdpProgram.Pipeline.Published
import EbpfXdpProgram.Pipeline.SynFloodRunner

/-!
# The read-only API

`ApiState` of `api.rs`, which the main loop writes, and what the handlers of `api/health.rs`,
`api/anomalies.rs`, `api/synflood.rs` and `api/port_scan.rs` answer from it. The rows of the
per-source endpoints join the top sources with the FSMs (`toView_snapshot`).
-/

namespace EbpfXdp

variable {F : Type}

structure SynFloodSnapshot (F : Type) where
  topOffenders : List (SynIpRate F)
  alerts : List IpAlertSlotSnapshot

structure PortScanSnapshot where
  topScanners : List PortScanIpBreadth
  alerts : List IpAlertSlotSnapshot

/-- `snapshot`; `o` is the iteration order of the sources. -/
def SynFloodRunner.snapshot (o : IterOrder Ipv4Addr) (r : SynFloodRunner F) : SynFloodSnapshot F where
  topOffenders := r.lastTopN
  alerts := r.alertLifecycleManager.snapshot o

/-- `snapshot`; `o` is the iteration order of the sources. -/
def PortScanRunner.snapshot (o : IterOrder Ipv4Addr) (r : PortScanRunner F) : PortScanSnapshot where
  topScanners := r.lastTopN
  alerts := r.alertLifecycleManager.snapshot o

structure ApiState (F : Type) where
  startedAt : Instant
  lastStatsAt : Option Instant
  warmedUp : Bool
  runnerSnapshot : Option (RunnerSnapshot F)
  synfloodSnapshot : Option (SynFloodSnapshot F)
  portScanSnapshot : Option PortScanSnapshot

/-- `now` is the time it reads. -/
def ApiState.new (now : Instant) : ApiState F where
  startedAt := now
  lastStatsAt := none
  warmedUp := false
  runnerSnapshot := none
  synfloodSnapshot := none
  portScanSnapshot := none

namespace Api

/-! ## `/health` -/

structure HealthResponse (F : Type) where
  status : String
  uptimeSecs : ℕ
  baselineWarmedUp : Bool
  lastStatsAgeSecs : Option F

/-- The handler of `/health`; `now` is the time it reads. -/
def health [F64 F] (state : ApiState F) (now : Instant) : HealthResponse F where
  status := "ok"
  uptimeSecs := durationSince now state.startedAt / 1000000000
  baselineWarmedUp := state.warmedUp
  lastStatsAgeSecs := state.lastStatsAt.map fun t => F64.asSecs (durationSince now t)

/-! ## `/anomalies` -/

structure AlertSlotView where
  kind : String
  phase : String
  consecutiveCount : UInt32
deriving DecidableEq

structure ProtoAnomalyView (F : Type) where
  proto : String
  pps : Option F
  bps : Option F
  baselineReady : Bool
  baselinePpsMean : Option F
  baselinePpsStddev : Option F
  baselineBpsMean : Option F
  baselineBpsStddev : Option F
  zScorePps : Option F
  zScoreBps : Option F
  level : Option String
  confidence : Option F
  frozen : Bool
  alerts : List AlertSlotView

structure AnomaliesResponse (F : Type) where
  protocols : List (ProtoAnomalyView F)

def alertSlotView (a : AlertSlotSnapshot) : AlertSlotView where
  kind := a.kind.label
  phase := a.phaseLabel
  consecutiveCount := a.consecutiveCount

def protoView (p : ProtoSnapshot F) : ProtoAnomalyView F :=
  let (baselineReady, ppsMean, ppsStddev, bpsMean, bpsStddev) :=
    match p.baseline with
    | .ready baseline => (true, some baseline.pps.mean, some baseline.pps.stddev,
        some baseline.bps.mean, some baseline.bps.stddev)
    | .warming => (false, none, none, none, none)
  { proto := p.proto.label.toLower
    pps := p.rate.map (·.pps)
    bps := p.rate.map (·.bps)
    baselineReady := baselineReady
    baselinePpsMean := ppsMean
    baselinePpsStddev := ppsStddev
    baselineBpsMean := bpsMean
    baselineBpsStddev := bpsStddev
    zScorePps := p.anomaly.map (·.zPps)
    zScoreBps := p.anomaly.map (·.zBps)
    level := p.anomaly.map (·.level.label)
    confidence := p.anomaly.map (·.confidence)
    frozen := p.frozen
    alerts := p.alerts.map alertSlotView }

def anomalies (state : ApiState F) : AnomaliesResponse F :=
  ⟨match state.runnerSnapshot with
    | some snapshot => snapshot.protos.map protoView
    | none => []⟩

/-! ## `/synflood` and `/portscan` -/

/-- A source of `/synflood` or `/portscan`; `value` is its `pps` or `distinct_ports`. -/
structure OffenderView (V : Type) where
  srcIp : String
  value : V
  alertPhase : Option String
  alertConsecutiveCount : Option UInt32

structure OffendersResponse (V : Type) where
  /-- `top_offenders` or `top_scanners`. -/
  top : List (OffenderView V)
  activeAlertCount : ℕ

/-- `to_view`, of a source with its value. -/
def toView {T V : Type} (srcIp : T → Ipv4Addr) (value : T → V) (top : List T)
    (alerts : List IpAlertSlotSnapshot) : OffendersResponse V where
  top := top.map fun r =>
    let alert := alerts.find? fun a => a.srcIp = srcIp r
    { srcIp := (srcIp r).display
      value := value r
      alertPhase := alert.map (·.phaseLabel)
      alertConsecutiveCount := alert.map (·.consecutiveCount) }
  activeAlertCount := alerts.length

def synflood (state : ApiState F) : OffendersResponse F :=
  match state.synfloodSnapshot with
  | some snapshot => toView SynIpRate.srcIp SynIpRate.pps snapshot.topOffenders snapshot.alerts
  | none => ⟨[], 0⟩

def portScan (state : ApiState F) : OffendersResponse UInt32 :=
  match state.portScanSnapshot with
  | some snapshot =>
    toView PortScanIpBreadth.srcIp PortScanIpBreadth.distinctPorts snapshot.topScanners snapshot.alerts
  | none => ⟨[], 0⟩

end Api

/-! ## The rows -/

namespace IpAlertLifecycleManager

variable {S A : Type}

theorem find_snapshot (o : IterOrder Ipv4Addr) (m : IpAlertLifecycleManager S A) (ip : Ipv4Addr) :
    (m.snapshot o).find? (fun a => a.srcIp = ip) =
      (m.states.lookup ip).map fun s => ⟨ip, s.phaseLabel, s.consecutiveCount⟩ := by
  have hother : ∀ ips : List Ipv4Addr, ip ∉ ips → (ips.filterMap fun ip =>
      (m.states.lookup ip).map fun s => (⟨ip, s.phaseLabel, s.consecutiveCount⟩ :
        IpAlertSlotSnapshot)).find? (fun a => a.srcIp = ip) = none := by
    intro ips hip
    rw [List.find?_eq_none]
    intro a ha hsrc
    obtain ⟨k, hk, ha⟩ := List.mem_filterMap.mp ha
    obtain ⟨s, -, rfl⟩ := Option.map_eq_some_iff.mp ha
    exact hip (of_decide_eq_true hsrc ▸ hk)
  unfold snapshot
  by_cases hmem : ip ∈ m.states.keys
  · obtain ⟨s, hs⟩ := Option.isSome_iff_exists.mp (Table.mem_keys.mp hmem)
    obtain ⟨before, after, hsplit⟩ := List.append_of_mem ((o.mem_enum _ _).mpr hmem)
    have hnodup := o.nodup m.states.keys
    rw [hsplit, List.nodup_middle, List.nodup_cons, List.mem_append, not_or] at hnodup
    rw [hsplit, List.filterMap_append, List.find?_append, hother before hnodup.1.1,
      List.filterMap_cons_some (b := ⟨ip, s.phaseLabel, s.consecutiveCount⟩) (by rw [hs]; rfl),
      List.find?_cons_of_pos (by simp), hs]
    rfl
  · rw [hother _ (mt (o.mem_enum _ _).mp hmem)]
    rw [Table.mem_keys, Bool.not_eq_true, Option.isSome_eq_false_iff, Option.isNone_iff_eq_none]
      at hmem
    rw [hmem]
    rfl

end IpAlertLifecycleManager

namespace Api

variable {S A T V : Type}

/-- What an endpoint answers about the sources at the top and the FSMs of the manager. -/
def offenders (srcIp : T → Ipv4Addr) (value : T → V) (top : List T)
    (m : IpAlertLifecycleManager S A) : OffendersResponse V where
  top := top.map fun r =>
    { srcIp := (srcIp r).display
      value := value r
      alertPhase := (m.states.lookup (srcIp r)).map (·.phaseLabel)
      alertConsecutiveCount := (m.states.lookup (srcIp r)).map (·.consecutiveCount) }
  activeAlertCount := m.activeCount

theorem toView_snapshot (srcIp : T → Ipv4Addr) (value : T → V) (top : List T)
    (o : IterOrder Ipv4Addr) (m : IpAlertLifecycleManager S A) :
    toView srcIp value top (m.snapshot o) = offenders srcIp value top m := by
  unfold toView offenders
  rw [m.length_snapshot]
  congr 1
  apply List.map_congr_left
  intro r _
  rw [m.find_snapshot]
  cases m.states.lookup (srcIp r) <;> rfl

end Api

end EbpfXdp
