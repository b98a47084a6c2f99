import EbpfXdpProgram.Anomaly.Detectors
import EbpfXdpProgram.Ebpf.Program
import EbpfXdpProgram.Lib.Ranking
import Mathlib.Data.Set.Card

/-!
# The breadth of port scans

`rate/port_scan_compute.rs`: a snapshot has the last touch of each source and port, the touches of
the window are grouped by source, and the sources with the most ports are kept. None of it depends
on the iteration orders of the two maps, but for the choice between sources with as many ports
(`widest_computePortScanBreadth`).
-/

namespace EbpfXdp

open Ranking

/-- `PORT_SCAN_TRACKER` as it was read, and when. -/
structure PortScanCountersSnapshot where
  nowNs : ℕ
  touches : Table PortScanKey PortTouch

/-- `read_port_scan_snapshot`; the system calls succeed. -/
def readPortScanSnapshot (o : IterOrder PortScanKey) (map : Table PortScanKey PortTouch)
    (nowNs : ℕ) : PortScanCountersSnapshot where
  nowNs := nowNs
  touches := (o.entries map).foldl (fun touches (key, touch) => touches.insert key touch) ∅

/-- The first loop of `compute_port_scan_breadth`. -/
def portsByIp (o : IterOrder PortScanKey) (snapshot : PortScanCountersSnapshot) (windowNs : ℕ) :
    Table UInt32 (Finset UInt16) :=
  (o.entries snapshot.touches).foldl (fun portsByIp (key, touch) =>
    if snapshot.nowNs - touch.lastSeenNs ≤ windowNs then
      portsByIp.insert key.srcAddr
        (insert key.dstPort ((portsByIp.lookup key.srcAddr).getD ∅))
    else portsByIp) ∅

/-- `compute_port_scan_breadth`; `o` and `o'` are the iteration orders of the touches and of the
groups. -/
def computePortScanBreadth (o : IterOrder PortScanKey) (o' : IterOrder UInt32)
    (snapshot : PortScanCountersSnapshot) (windowNs topN : ℕ) : List PortScanIpBreadth :=
  let breadths := (o'.entries (portsByIp o snapshot windowNs)).map fun (ip, ports) =>
    { srcIp := Ipv4Addr.ofU32 ip, distinctPorts := UInt32.ofNat ports.card : PortScanIpBreadth }
  (breadths.insertionSort fun a b => b.distinctPorts ≤ a.distinctPorts).take topN

theorem touches_readPortScanSnapshot (o : IterOrder PortScanKey)
    (map : Table PortScanKey PortTouch) (nowNs : ℕ) :
    (readPortScanSnapshot o map nowNs).touches = map := o.foldl_insert_entries map

/-! ## The touches of the window -/

section Window

variable (snapshot : PortScanCountersSnapshot) (windowNs : ℕ)

/-- The keys whose last touch is in the window. -/
def freshKeys : Finset PortScanKey :=
  snapshot.touches.keys.filter fun key => (snapshot.touches.lookup key).any fun touch =>
    snapshot.nowNs - touch.lastSeenNs ≤ windowNs

def freshSources : Finset UInt32 := (freshKeys snapshot windowNs).image (·.srcAddr)

def freshPorts (ip : UInt32) : Finset UInt16 :=
  ((freshKeys snapshot windowNs).filter (·.srcAddr = ip)).image (·.dstPort)

def distinctPorts (ip : UInt32) : ℕ := (freshPorts snapshot windowNs ip).card

def breadthOf (ip : UInt32) : PortScanIpBreadth :=
  ⟨Ipv4Addr.ofU32 ip, UInt32.ofNat (distinctPorts snapshot windowNs ip)⟩

variable {snapshot windowNs}

theorem mem_freshKeys {key : PortScanKey} :
    key ∈ freshKeys snapshot windowNs ↔ ∃ touch, snapshot.touches.lookup key = some touch ∧
      snapshot.nowNs - touch.lastSeenNs ≤ windowNs := by
  rw [freshKeys, Finset.mem_filter, Table.mem_keys]
  cases h : snapshot.touches.lookup key with
  | none => simp
  | some touch => simp

/-- The loop groups the ports of the fresh keys by source. -/
theorem portsByIp_eq (o : IterOrder PortScanKey) :
    portsByIp o snapshot windowNs = Table.groupBy (·.1.srcAddr) (·.1.dstPort)
      ((o.entries snapshot.touches).filter fun e =>
        snapshot.nowNs - e.2.lastSeenNs ≤ windowNs) := by
  unfold portsByIp Table.groupBy
  rw [List.foldl_filter]
  simp only [decide_eq_true_eq]

theorem getD_portsByIp (o : IterOrder PortScanKey) (ip : UInt32) :
    ((portsByIp o snapshot windowNs).lookup ip).getD ∅ = freshPorts snapshot windowNs ip := by
  rw [portsByIp_eq, Table.getD_groupBy]
  ext port
  simp only [freshPorts, List.mem_toFinset, List.mem_map, List.mem_filter, o.mem_entries,
    decide_eq_true_eq, Finset.mem_image, Finset.mem_filter, mem_freshKeys]
  constructor
  · rintro ⟨⟨key, touch⟩, ⟨⟨hlookup, hfresh⟩, hip⟩, rfl⟩
    exact ⟨key, ⟨⟨touch, hlookup, hfresh⟩, hip⟩, rfl⟩
  · rintro ⟨key, ⟨⟨touch, hlookup, hfresh⟩, hip⟩, rfl⟩
    exact ⟨⟨key, touch⟩, ⟨⟨hlookup, hfresh⟩, hip⟩, rfl⟩

theorem keys_portsByIp (o : IterOrder PortScanKey) :
    (portsByIp o snapshot windowNs).keys = freshSources snapshot windowNs := by
  ext ip
  rw [portsByIp_eq, Table.mem_keys_groupBy]
  simp only [freshSources, List.mem_filter, o.mem_entries, decide_eq_true_eq, Finset.mem_image,
    mem_freshKeys]
  constructor
  · rintro ⟨⟨key, touch⟩, ⟨hlookup, hfresh⟩, hip⟩
    exact ⟨key, ⟨touch, hlookup, hfresh⟩, hip⟩
  · rintro ⟨key, ⟨touch, hlookup, hfresh⟩, hip⟩
    exact ⟨⟨key, touch⟩, ⟨hlookup, hfresh⟩, hip⟩

/-- There are no more ports than a `u32` can count. -/
theorem toNat_distinctPorts (ip : UInt32) :
    (breadthOf snapshot windowNs ip).distinctPorts.toNat = distinctPorts snapshot windowNs ip := by
  have hcard : distinctPorts snapshot windowNs ip ≤ (Finset.range (2 ^ 16)).card :=
    Finset.card_le_card_of_injOn UInt16.toNat
      (fun port _ => Finset.mem_coe.mpr (Finset.mem_range.mpr port.toNat_lt))
      fun _ _ _ _ h => UInt16.toNat.inj h
  rw [Finset.card_range] at hcard
  exact UInt32.toNat_ofNat_of_lt' (hcard.trans_lt (by decide))

theorem distinctPorts_of_not_mem {ip : UInt32} (h : ip ∉ freshSources snapshot windowNs) :
    distinctPorts snapshot windowNs ip = 0 := by
  refine Finset.card_eq_zero.mpr (Finset.image_eq_empty.mpr (Finset.filter_eq_empty_iff.mpr ?_))
  rintro key hkey rfl
  exact h (Finset.mem_image_of_mem _ hkey)

end Window

/-! ## The widest sources -/

/-- `breadths` are the `topN` of the sources with the largest counts, the largest first. -/
structure Widest (count : UInt32 → ℕ) (sources : Finset UInt32) (topN : ℕ)
    (breadths : List PortScanIpBreadth) : Prop where
  distinct : (breadths.map (·.srcIp)).Nodup
  descending : breadths.Pairwise fun a b => b.distinctPorts.toNat ≤ a.distinctPorts.toNat
  length_eq : breadths.length = min topN sources.card
  count_eq : ∀ b ∈ breadths, ∃ ip ∈ sources,
    b.srcIp = Ipv4Addr.ofU32 ip ∧ b.distinctPorts.toNat = count ip
  widest : ∀ ip, Ipv4Addr.ofU32 ip ∉ breadths.map (·.srcIp) →
    ∀ b ∈ breadths, count ip ≤ b.distinctPorts.toNat

/-- `signals` are sources whose count exceeds the limit, all of them if there are at most `topN`. -/
structure Signals {F : Type} (count : UInt32 → ℕ) (limit topN : ℕ)
    (signals : List (PortScanSignal F)) : Prop where
  exceeds : ∀ s ∈ signals, ∃ ip, s.srcIp = Ipv4Addr.ofU32 ip ∧ limit < count ip
  all : {ip | limit < count ip}.ncard ≤ topN →
    ∀ ip, limit < count ip → Ipv4Addr.ofU32 ip ∈ signals.map (·.srcIp)

section Selection

variable {snapshot : PortScanCountersSnapshot} {windowNs topN : ℕ}

def breadthEntries (o' : IterOrder UInt32) (snapshot : PortScanCountersSnapshot) (windowNs : ℕ) :
    List PortScanIpBreadth :=
  (o'.enum (freshSources snapshot windowNs)).map (breadthOf snapshot windowNs)

theorem mem_breadthEntries {o' : IterOrder UInt32} {b : PortScanIpBreadth} :
    b ∈ breadthEntries o' snapshot windowNs ↔
      ∃ ip ∈ freshSources snapshot windowNs, breadthOf snapshot windowNs ip = b := by
  simp only [breadthEntries, List.mem_map, o'.mem_enum]

theorem isTop_computePortScanBreadth (o : IterOrder PortScanKey) (o' : IterOrder UInt32) :
    IsTop (·.distinctPorts.toNat) topN (breadthEntries o' snapshot windowNs)
      (computePortScanBreadth o o' snapshot windowNs topN) := by
  have hentries : (o'.entries (portsByIp o snapshot windowNs)).map (fun (ip, ports) =>
      (⟨Ipv4Addr.ofU32 ip, UInt32.ofNat ports.card⟩ : PortScanIpBreadth)) =
      breadthEntries o' snapshot windowNs := by
    rw [o'.entries_eq_map _ ∅, List.map_map, keys_portsByIp]
    unfold breadthEntries
    apply List.map_congr_left
    intro ip _
    rw [Function.comp_apply, getD_portsByIp]
    rfl
  unfold computePortScanBreadth
  dsimp only
  rw [hentries]
  refine isTop_take_insertionSort (fun a b => ?_) topN _
  exact UInt32.le_iff_toNat_le

theorem widest_computePortScanBreadth (o : IterOrder PortScanKey) (o' : IterOrder UInt32) :
    Widest (distinctPorts snapshot windowNs) (freshSources snapshot windowNs) topN
      (computePortScanBreadth o o' snapshot windowNs topN) := by
  have htop : IsTop _ topN _ (computePortScanBreadth o o' snapshot windowNs topN) :=
    isTop_computePortScanBreadth o o'
  refine ⟨htop.nodup_map ?_, htop.sorted, ?_, fun b hb => ?_, fun ip hip b hb => ?_⟩
  · unfold breadthEntries
    rw [List.map_map]
    exact (o'.nodup _).map fun a b hab => congrArg Ipv4Addr.bits hab
  · rw [htop.length_eq, breadthEntries, List.length_map, o'.length_enum]
  · obtain ⟨ip, hip, rfl⟩ := mem_breadthEntries.mp (htop.mem hb)
    exact ⟨ip, hip, rfl, toNat_distinctPorts ip⟩
  · by_cases hfresh : ip ∈ freshSources snapshot windowNs
    · rw [← toNat_distinctPorts]
      refine htop.le_of_not_mem (mem_breadthEntries.mpr ⟨ip, hfresh, rfl⟩) (fun hmem => hip ?_) hb
      exact List.mem_map.mpr ⟨_, hmem, rfl⟩
    · rw [distinctPorts_of_not_mem hfresh]
      exact Nat.zero_le _

/-- The entries above the limit are as many as the sources above it. -/
theorem countP_breadthEntries (o' : IterOrder UInt32) (limit : ℕ) :
    (breadthEntries o' snapshot windowNs).countP (fun b => limit < b.distinctPorts.toNat) =
      {ip | limit < distinctPorts snapshot windowNs ip}.ncard := by
  have hset : {ip | limit < distinctPorts snapshot windowNs ip} =
      ((freshSources snapshot windowNs).filter fun ip =>
        limit < distinctPorts snapshot windowNs ip : Finset UInt32) := by
    ext ip
    rw [Set.mem_ofPred_eq, Finset.mem_coe, Finset.mem_filter, iff_and_self]
    intro hlimit
    by_contra hfresh
    rw [distinctPorts_of_not_mem hfresh] at hlimit
    exact absurd hlimit (Nat.not_lt_zero _)
  rw [hset, Set.ncard_coe_finset, ← o'.countP_enum, breadthEntries, List.countP_map]
  simp only [Function.comp_def, toNat_distinctPorts]

theorem signals_detect {F : Type} [F64 F] (o : IterOrder PortScanKey) (o' : IterOrder UInt32)
    (d : PortScanDetector) :
    Signals (F := F) (distinctPorts snapshot windowNs) d.maxDistinctPorts.toNat topN
      (d.detect (computePortScanBreadth o o' snapshot windowNs topN)) := by
  have htop : IsTop _ topN _ (computePortScanBreadth o o' snapshot windowNs topN) :=
    isTop_computePortScanBreadth o o'
  refine ⟨fun s hs => ?_, fun hfew ip hip => ?_⟩
  · obtain ⟨b, hb, rfl⟩ := List.mem_map.mp hs
    obtain ⟨hb, hlimit⟩ := List.mem_filter.mp hb
    obtain ⟨ip, -, rfl⟩ := mem_breadthEntries.mp (htop.mem hb)
    have hlimit := UInt32.lt_iff_toNat_lt.mp (of_decide_eq_true hlimit)
    rw [toNat_distinctPorts] at hlimit
    exact ⟨ip, rfl, hlimit⟩
  · have hfresh : ip ∈ freshSources snapshot windowNs := by
      by_contra hfresh
      rw [distinctPorts_of_not_mem hfresh] at hip
      exact absurd hip (Nat.not_lt_zero _)
    rw [← countP_breadthEntries o'] at hfew
    rw [← toNat_distinctPorts] at hip
    have hb := htop.mem_of_countP_le hfew (mem_breadthEntries.mpr ⟨ip, hfresh, rfl⟩) hip
    have hlimit := decide_eq_true (UInt32.lt_iff_toNat_lt.mpr hip)
    exact List.mem_map.mpr
      ⟨_, List.mem_map.mpr ⟨_, List.mem_filter.mpr ⟨hb, hlimit⟩, rfl⟩, rfl⟩

end Selection

end EbpfXdp
