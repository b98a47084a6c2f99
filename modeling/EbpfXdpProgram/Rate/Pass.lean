import EbpfXdpProgram.Lib.MapRead
import EbpfXdpProgram.Rate.PortScan
import EbpfXdpProgram.Rate.Read

/-!
# Reads that take time

The reads of the three maps, one lookup after the other: each lookup is a system call, and the CPUs
go on between two of them. While nothing is written to the map, a pass ends with what the read of
the map has (`result_statsPass`, `result_synPass`, `result_portPass`).
-/

namespace EbpfXdp

variable {n : ℕ}

/-! ## The protocol counters -/

/-- `read_current_stats` on its way: the next bucket, and the sums so far. -/
structure StatsPass where
  idx : ℕ
  stats : List TrafficCounters

namespace StatsPass

def start : StatsPass := ⟨0, List.replicate ProtoIndex.count ⟨0, 0⟩⟩

/-- The next turn of the loop, which ends after the last bucket. -/
def next (protoStats : PerCpuArray n ProtoIndex.count ProtoStats) (r : StatsPass) : StatsPass :=
  match protoStats.values r.idx with
  | some values => ⟨r.idx + 1, r.stats.modify r.idx fun s => values.foldl .add s⟩
  | none => r

def result (r : StatsPass) : Option (List TrafficCounters) :=
  if r.idx = ProtoIndex.count then some r.stats else none

/-- The entry of the next bucket is its total, and the others are as they were. -/
theorem next_eq (protoStats : PerCpuArray n ProtoIndex.count ProtoStats) {r : StatsPass}
    {p : ProtoIndex} (h : r.idx = p.toUsize) :
    r.next protoStats = ⟨r.idx + 1, r.stats.modify p.toUsize fun s =>
      ⟨s.packets + (totalStats protoStats p).packets, s.bytes + (totalStats protoStats p).bytes⟩⟩ := by
  have hvalues : protoStats.values p.toUsize =
      some (List.ofFn fun c => protoStats c ⟨p.toUsize, p.toUsize_lt⟩) := dif_pos p.toUsize_lt
  unfold next
  rw [h, hvalues]
  simp only [foldl_trafficCounters_add, List.map_ofFn, List.sum_ofFn]
  rfl

theorem next_of_le (protoStats : PerCpuArray n ProtoIndex.count ProtoStats) {r : StatsPass}
    (h : ProtoIndex.count ≤ r.idx) : r.next protoStats = r := by
  have hvalues : protoStats.values r.idx = none := dif_neg (not_lt.mpr h)
  unfold next
  rw [hvalues]

end StatsPass

/-! ## The SYN and the port-scan tracker -/

abbrev SynPass := MapRead UInt32 SynCounter
abbrev PortPass := MapRead PortScanKey PortTouch

/-- The sum over the CPUs that `read_syn_snapshot` makes of an entry. -/
def sumSlots (perCpu : Fin n → SynCounter) : SynCounter := (List.ofFn perCpu).foldl .add ⟨0, 0⟩

/-- A pass sees the entry of a source, and the total of the source is that. -/
theorem totalSyn_of_lookup {map : PerCpuHashMap n UInt32 SynCounter} {x : UInt32}
    {slots : Fin n → SynCounter} (h : map.lookup x = some slots) : totalSyn map x = sumSlots slots := by
  have hslots : map.slots x = slots := PerCpuHashMap.slots_of_lookup h
  unfold totalSyn sumSlots
  rw [hslots, foldl_synCounter_add, List.map_ofFn, List.map_ofFn, List.sum_ofFn, List.sum_ofFn,
    Nat.zero_add, Nat.zero_add]
  rfl

/-! ## Maps at rest -/

theorem result_statsPass (protoStats : PerCpuArray n ProtoIndex.count ProtoStats) :
    ((StatsPass.next protoStats)^[ProtoIndex.count] .start).result = readCurrentStats protoStats :=
  rfl

theorem result_synPass (map : PerCpuHashMap n UInt32 SynCounter) {keys : List UInt32}
    (h : ∀ x ∈ map, x ∈ keys) (o : IterOrder UInt32) (now : Instant) :
    ((MapRead.start map).visits sumSlots map keys).result =
      some (readSynSnapshot o map now).counters := by
  obtain ⟨t, hresult, ht⟩ := MapRead.result_visits sumSlots map h
  rw [hresult]
  congr 1
  refine Finmap.ext_lookup fun x => ?_
  rw [ht, lookup_readSynSnapshot]
  cases hlookup : map.lookup x with
  | none =>
    rw [if_neg (Finmap.lookup_eq_none.mp hlookup)]
    rfl
  | some slots =>
    rw [if_pos (Finmap.mem_of_lookup_eq_some hlookup), totalSyn_of_lookup hlookup]
    rfl

theorem result_portPass (map : Table PortScanKey PortTouch) {keys : List PortScanKey}
    (h : ∀ key ∈ map, key ∈ keys) (o : IterOrder PortScanKey) (nowNs : ℕ) :
    ((MapRead.start map).visits id map keys).result =
      some (readPortScanSnapshot o map nowNs).touches := by
  obtain ⟨t, hresult, ht⟩ := MapRead.result_visits id map h
  rw [hresult, touches_readPortScanSnapshot]
  congr 1
  refine Finmap.ext_lookup fun key => ?_
  rw [ht, Option.map_id]
  rfl

end EbpfXdp
