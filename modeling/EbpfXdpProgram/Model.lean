import EbpfXdpProgram.Lib.F64
import EbpfXdpProgram.Lib.Table
import Mathlib.Order.Basic

/-!
# Data types

The values that cross the boundaries of the detection pipeline: protocol buckets and addresses
(`ebpf-xdp-program-common`), counter snapshots and rates (`rate/model.rs`), severities
(`anomaly/model.rs`), and signals, alerts and their lifecycle (`alert/model.rs`, `alert/view.rs`).
A 64-bit float is an `F` with `[F64 F]`; `u64` counters are naturals.
-/

namespace EbpfXdp

/-! ## Time

`std::time` in nanoseconds; an `Instant` counts from a fixed origin. -/

abbrev Instant := ℕ
abbrev Duration := ℕ

/-- `now.duration_since(earlier)`, which saturates at zero. -/
def durationSince (now earlier : Instant) : Duration := (now - earlier : ℕ)

theorem le_durationSince {d now earlier : ℕ} :
    d ≤ durationSince now earlier ↔ d = 0 ∨ earlier + d ≤ now := by
  show d ≤ now - earlier ↔ _
  omega

theorem lt_of_durationSince_lt {d k now earlier : ℕ} (h : durationSince now earlier < d)
    (hle : earlier + k ≤ now) : k < d := by
  have h' : now - earlier < d := h
  omega

theorem durationSince_pos {now earlier : Instant} (h : earlier < now) :
    0 < durationSince now earlier := Nat.sub_pos_of_lt h

theorem durationSince_mono {now now' : Instant} (h : now ≤ now') (earlier : Instant) :
    durationSince now earlier ≤ durationSince now' earlier := Nat.sub_le_sub_right h earlier

/-! ## Protocol buckets and addresses -/

inductive ProtoIndex
  | icmp | tcp | udp | ipv6 | other
deriving DecidableEq, Repr

namespace ProtoIndex

/-- Number of tracked buckets. -/
def count : ℕ := 5

/-- `proto as usize`. -/
def toUsize : ProtoIndex → ℕ
  | icmp => 0
  | tcp => 1
  | udp => 2
  | ipv6 => 3
  | other => 4

def fromIndex : ℕ → Option ProtoIndex
  | 0 => some icmp
  | 1 => some tcp
  | 2 => some udp
  | 3 => some ipv6
  | 4 => some other
  | _ => none

def label : ProtoIndex → String
  | icmp => "ICMP"
  | tcp => "TCP"
  | udp => "UDP"
  | ipv6 => "IPv6"
  | other => "OTHER"

theorem toUsize_lt (p : ProtoIndex) : p.toUsize < count := by cases p <;> decide

theorem fromIndex_eq_some {i : ℕ} {p : ProtoIndex} : fromIndex i = some p ↔ i = p.toUsize := by
  constructor
  · intro h
    unfold fromIndex at h
    split at h <;> simp_all [toUsize] <;> subst h <;> rfl
  · rintro rfl; cases p <;> rfl

theorem toUsize_injective : Function.Injective toUsize := fun _ _ h =>
  Option.some.inj ((fromIndex_eq_some.mpr rfl).symm.trans (fromIndex_eq_some.mpr h))

theorem label_injective : Function.Injective label := by
  intro p q h
  cases p <;> cases q <;> first | rfl | exact absurd h (by decide)

/-- `(0..ProtoIndex::COUNT).filter_map(ProtoIndex::from_index)`. -/
def every : List ProtoIndex := (List.range count).filterMap fromIndex

theorem mem_every (p : ProtoIndex) : p ∈ every := by cases p <;> decide

end ProtoIndex

/-- `std::net::Ipv4Addr`, as the number whose big-endian bytes are the octets. -/
structure Ipv4Addr where
  bits : UInt32
deriving DecidableEq, Repr

namespace Ipv4Addr

/-- `Ipv4Addr::from(u32)`. -/
def ofU32 (key : UInt32) : Ipv4Addr := ⟨key⟩

/-- The octet of weight `256 ^ i`. -/
def octet (ip : Ipv4Addr) (i : ℕ) : ℕ := ip.bits.toNat / 256 ^ i % 256

theorem eq_of_octets {a b : Ipv4Addr} (h₃ : a.octet 3 = b.octet 3) (h₂ : a.octet 2 = b.octet 2)
    (h₁ : a.octet 1 = b.octet 1) (h₀ : a.octet 0 = b.octet 0) : a = b := by
  obtain ⟨a⟩ := a
  obtain ⟨b⟩ := b
  have ha := a.toNat_lt
  have hb := b.toNat_lt
  unfold octet at h₀ h₁ h₂ h₃
  dsimp only at h₀ h₁ h₂ h₃
  have : a.toNat = b.toNat := by omega
  rw [UInt32.toNat_inj.mp this]

/-- An order to evaluate loops over sources in. -/
def order : IterOrder Ipv4Addr :=
  .byRank (·.bits.toNat) fun ⟨_⟩ ⟨_⟩ h => congrArg Ipv4Addr.mk (UInt32.toNat_inj.mp h)

end Ipv4Addr

/-! ## Counters and rates -/

/-- Cumulative counters of one protocol bucket, summed over CPUs. -/
structure TrafficCounters where
  packets : ℕ
  bytes : ℕ
deriving DecidableEq, Repr

structure TrafficCountersSnapshot where
  timestamp : Instant
  stats : List TrafficCounters
deriving DecidableEq, Repr

/-- Cumulative SYN counters of one source address, on one CPU or summed over CPUs. -/
structure SynCounter where
  packets : ℕ
  bytes : ℕ
deriving DecidableEq, Repr

structure SynCountersSnapshot where
  timestamp : Instant
  counters : Table UInt32 SynCounter

structure ProtoRate (F : Type) where
  proto : ProtoIndex
  pps : F
  bps : F
deriving DecidableEq

structure SynIpRate (F : Type) where
  srcIp : Ipv4Addr
  pps : F
deriving DecidableEq

/-- The distinct destination ports of a source within the detection window. -/
structure PortScanIpBreadth where
  srcIp : Ipv4Addr
  distinctPorts : UInt32
deriving DecidableEq, Repr

/-! ## Signals and alerts -/

/-- Severity; the derived order is that of the variants. -/
inductive AnomalyLevel
  | normal | suspicious | severe
deriving DecidableEq, Repr

namespace AnomalyLevel

def rank : AnomalyLevel → ℕ
  | normal => 0
  | suspicious => 1
  | severe => 2

theorem rank_injective : Function.Injective rank := by
  intro a b h
  cases a <;> cases b <;> first | rfl | exact absurd h (by decide)

instance : LinearOrder AnomalyLevel := LinearOrder.lift' rank rank_injective

def isNormal : AnomalyLevel → Bool
  | normal => true
  | _ => false

def label : AnomalyLevel → String
  | normal => "normal"
  | suspicious => "suspicious"
  | severe => "severe"

end AnomalyLevel

inductive AlertKind
  | spike | drop | emergency
deriving DecidableEq, Repr

namespace AlertKind

def label : AlertKind → String
  | spike => "spike"
  | drop => "drop"
  | emergency => "emergency"

theorem label_injective : Function.Injective label := by
  intro a b h
  cases a <;> cases b <;> first | rfl | exact absurd h (by decide)

end AlertKind

/-- The slot of an alert FSM in the per-protocol manager. -/
structure AlertKey where
  proto : ProtoIndex
  kind : AlertKind
deriving DecidableEq, Repr

namespace AlertKey

def rank (key : AlertKey) : ℕ :=
  3 * key.proto.toUsize + match key.kind with
    | .spike => 0
    | .drop => 1
    | .emergency => 2

theorem rank_injective : Function.Injective rank := by
  rintro ⟨p, k⟩ ⟨p', k'⟩ h
  cases p <;> cases p' <;> cases k <;> cases k' <;> first | rfl | exact absurd h (by decide)

/-- An order to evaluate loops over slots in. -/
def order : IterOrder AlertKey := .byRank rank rank_injective

end AlertKey

/-- A detector's verdict before the FSM. -/
structure AlertSignal (F : Type) where
  proto : ProtoIndex
  level : AnomalyLevel
  kind : AlertKind
  confidence : F
deriving DecidableEq

structure Alert (F : Type) where
  proto : ProtoIndex
  kind : AlertKind
  level : AnomalyLevel
  confidence : F
deriving DecidableEq

/-- Edge events of an alert FSM. -/
inductive AlertLifecycle
  | fired | resolved
deriving DecidableEq, Repr

def AlertLifecycle.label : AlertLifecycle → String
  | fired => "fired"
  | resolved => "resolved"

structure AlertEvent (F : Type) where
  alert : Alert F
  lifecycle : AlertLifecycle
deriving DecidableEq

def AlertSignal.key {F : Type} (s : AlertSignal F) : AlertKey := ⟨s.proto, s.kind⟩
def Alert.key {F : Type} (a : Alert F) : AlertKey := ⟨a.proto, a.kind⟩

/-- The alert of a signal: the same fields. -/
def AlertSignal.toAlert {F : Type} (s : AlertSignal F) : Alert F :=
  ⟨s.proto, s.kind, s.level, s.confidence⟩

/-- `TickAlerts`: the transitions of a tick and its re-affirmed alerts. -/
structure TickAlerts (Event A : Type) where
  transitions : List Event
  heartbeats : List A
deriving DecidableEq

/-! ## Per-source signals and alerts -/

/-- A per-source signal names its source. -/
class IpKeyed (S : Type) where
  srcIp : S → Ipv4Addr

/-- An alert for a source is built from its signal, or from nothing when it resolves. -/
class FromIpSignal (S A : Type) where
  fromSignal : Ipv4Addr → Option S → A

/-- The `src_ip` of an alert. -/
class AlertIp (A : Type) where
  alertIp : A → Ipv4Addr

/-- The alert built for a source names it. -/
class LawfulFromIpSignal (S A : Type) [FromIpSignal S A] [AlertIp A] : Prop where
  alertIp_fromSignal : ∀ (ip : Ipv4Addr) (s : Option S),
    AlertIp.alertIp (FromIpSignal.fromSignal ip s : A) = ip

structure IpAlertEvent (A : Type) where
  alert : A
  lifecycle : AlertLifecycle
deriving DecidableEq

structure SynFloodSignal (F : Type) where
  srcIp : Ipv4Addr
  pps : F
  confidence : F
deriving DecidableEq

structure SynFloodAlert (F : Type) where
  srcIp : Ipv4Addr
  pps : F
  confidence : F
deriving DecidableEq

structure PortScanSignal (F : Type) where
  srcIp : Ipv4Addr
  distinctPorts : UInt32
  confidence : F
deriving DecidableEq

structure PortScanAlert (F : Type) where
  srcIp : Ipv4Addr
  distinctPorts : UInt32
  confidence : F
deriving DecidableEq

section Instances

variable {F : Type} [F64 F]

instance : IpKeyed (SynFloodSignal F) := ⟨SynFloodSignal.srcIp⟩
instance : IpKeyed (PortScanSignal F) := ⟨PortScanSignal.srcIp⟩

instance : FromIpSignal (SynFloodSignal F) (SynFloodAlert F) where
  fromSignal srcIp signal :=
    ⟨srcIp, (signal.map (·.pps)).getD 0.0, (signal.map (·.confidence)).getD 0.0⟩

instance : FromIpSignal (PortScanSignal F) (PortScanAlert F) where
  fromSignal srcIp signal :=
    ⟨srcIp, (signal.map (·.distinctPorts)).getD 0, (signal.map (·.confidence)).getD 0.0⟩

instance : AlertIp (SynFloodAlert F) := ⟨SynFloodAlert.srcIp⟩
instance : AlertIp (PortScanAlert F) := ⟨PortScanAlert.srcIp⟩
instance : LawfulFromIpSignal (SynFloodSignal F) (SynFloodAlert F) := ⟨fun _ _ => rfl⟩
instance : LawfulFromIpSignal (PortScanSignal F) (PortScanAlert F) := ⟨fun _ _ => rfl⟩

end Instances

/-! ## Introspection views -/

structure AlertMetricsSnapshot where
  proto : ProtoIndex
  kind : AlertKind
  phaseValue : ℕ
  phaseLabel : String
  consecutiveCount : UInt32
deriving DecidableEq

structure IpAlertSlotSnapshot where
  srcIp : Ipv4Addr
  phaseLabel : String
  consecutiveCount : UInt32
deriving DecidableEq

end EbpfXdp
