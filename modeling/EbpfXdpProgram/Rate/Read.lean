import EbpfXdpProgram.Ebpf.Program
import EbpfXdpProgram.Rate.Compute

/-!
# Reading the kernel's maps

`read_current_stats` of `rate/compute.rs` and `read_syn_snapshot` of `rate/synflood_compute.rs`:
both sum the slots of the CPUs. The system calls succeed.
-/

namespace EbpfXdp

variable {n : ℕ}

/-! ## Sums over the CPUs -/

def TrafficCounters.add (s : TrafficCounters) (v : ProtoStats) : TrafficCounters :=
  ⟨s.packets + v.packets, s.bytes + v.bytes⟩

def SynCounter.add (acc c : SynCounter) : SynCounter := ⟨acc.packets + c.packets, acc.bytes + c.bytes⟩

theorem foldl_trafficCounters_add (vs : List ProtoStats) (s : TrafficCounters) :
    vs.foldl .add s = ⟨s.packets + (vs.map (·.packets)).sum, s.bytes + (vs.map (·.bytes)).sum⟩ := by
  induction vs generalizing s with
  | nil => rfl
  | cons v vs ih =>
    rw [List.foldl_cons, ih]
    simp only [TrafficCounters.add, List.map_cons, List.sum_cons, Nat.add_assoc]

theorem foldl_synCounter_add (cs : List SynCounter) (acc : SynCounter) :
    cs.foldl .add acc =
      ⟨acc.packets + (cs.map (·.packets)).sum, acc.bytes + (cs.map (·.bytes)).sum⟩ := by
  induction cs generalizing acc with
  | nil => rfl
  | cons c cs ih =>
    rw [List.foldl_cons, ih]
    simp only [SynCounter.add, List.map_cons, List.sum_cons, Nat.add_assoc]

/-! ## The protocol counters -/

/-- `read_current_stats`: nothing if an index is past the end of the array. -/
def readCurrentStats (protoStats : PerCpuArray n ProtoIndex.count ProtoStats) :
    Option (List TrafficCounters) :=
  (List.range ProtoIndex.count).foldlM (fun stats idx => do
    let values ← protoStats.values idx
    return stats.modify idx fun s => values.foldl .add s) (List.replicate ProtoIndex.count ⟨0, 0⟩)

def totalStats (protoStats : PerCpuArray n ProtoIndex.count ProtoStats) (p : ProtoIndex) :
    TrafficCounters :=
  ⟨∑ c, (protoStats c ⟨p.toUsize, p.toUsize_lt⟩).packets,
    ∑ c, (protoStats c ⟨p.toUsize, p.toUsize_lt⟩).bytes⟩

theorem readCurrentStats_eq (protoStats : PerCpuArray n ProtoIndex.count ProtoStats) :
    readCurrentStats protoStats =
      some ([.icmp, .tcp, .udp, .ipv6, .other].map (totalStats protoStats)) := by
  have hvalues : ∀ p : ProtoIndex, protoStats.values p.toUsize =
      some (List.ofFn fun c => protoStats c ⟨p.toUsize, p.toUsize_lt⟩) := fun p =>
    dif_pos p.toUsize_lt
  have hsum : ∀ p : ProtoIndex,
      (List.ofFn fun c => protoStats c ⟨p.toUsize, p.toUsize_lt⟩).foldl .add ⟨0, 0⟩ =
        totalStats protoStats p := fun p => by
    rw [foldl_trafficCounters_add, List.map_ofFn, List.map_ofFn, List.sum_ofFn, List.sum_ofFn,
      Nat.zero_add, Nat.zero_add]
    rfl
  have hrange : List.range ProtoIndex.count =
      [ProtoIndex.icmp, .tcp, .udp, .ipv6, .other].map ProtoIndex.toUsize := rfl
  unfold readCurrentStats
  rw [hrange, List.foldlM_map]
  simp only [List.foldlM_cons, List.foldlM_nil, hvalues, Option.bind_eq_bind, Option.bind_some,
    Option.pure_def]
  show some ([ProtoIndex.icmp, .tcp, .udp, .ipv6, .other].map fun p =>
    (List.ofFn fun c => protoStats c ⟨p.toUsize, p.toUsize_lt⟩).foldl TrafficCounters.add
      ⟨0, 0⟩) = _
  simp only [hsum]

/-! ## The SYN counters -/

/-- `read_syn_snapshot`; `o` is the iteration order of the map and `now` the time it reads. -/
def readSynSnapshot (o : IterOrder UInt32) (map : PerCpuHashMap n UInt32 SynCounter)
    (now : Instant) : SynCountersSnapshot where
  timestamp := now
  counters := (map.entries o).foldl (fun counters (key, perCpu) =>
    counters.insert key (perCpu.foldl .add ⟨0, 0⟩)) ∅

/-- The counters of a source over all CPUs. -/
def totalSyn (map : PerCpuHashMap n UInt32 SynCounter) (x : UInt32) : SynCounter :=
  ⟨∑ c, (map.slots x c).packets, ∑ c, (map.slots x c).bytes⟩

theorem lookup_readSynSnapshot (o : IterOrder UInt32) (map : PerCpuHashMap n UInt32 SynCounter)
    (now : Instant) (x : UInt32) :
    (readSynSnapshot o map now).counters.lookup x =
      if x ∈ map then some (totalSyn map x) else none := by
  have hsum : ∀ k, (List.ofFn (map.slots k)).foldl SynCounter.add ⟨0, 0⟩ = totalSyn map k :=
    fun k => by
      rw [foldl_synCounter_add, List.map_ofFn, List.map_ofFn, List.sum_ofFn, List.sum_ofFn,
        Nat.zero_add, Nat.zero_add]
      rfl
  have hsweep := foldl_sweep (fun k (t : Table UInt32 SynCounter) => t.lookup k)
    (fun k _ => some (totalSyn map k))
    (fun t k => t.insert k ((List.ofFn (map.slots k)).foldl SynCounter.add ⟨0, 0⟩))
    (fun t k => by rw [Finmap.lookup_insert, hsum])
    (fun t k j hj => Finmap.lookup_insert_of_ne _ hj) (o.nodup map.keys) ∅ x
  unfold readSynSnapshot PerCpuHashMap.entries
  rw [List.foldl_map]
  refine hsweep.trans (if_congr ?_ rfl (Finmap.lookup_empty x))
  rw [o.mem_enum, Finmap.mem_keys]

theorem getD_readSynSnapshot (o : IterOrder UInt32) (map : PerCpuHashMap n UInt32 SynCounter)
    (now : Instant) (x : UInt32) :
    ((readSynSnapshot o map now).counters.lookup x).getD ⟨0, 0⟩ = totalSyn map x := by
  rw [lookup_readSynSnapshot]
  split_ifs with h
  · rfl
  · have hzero : ∀ c, map.slots x c = 0 := PerCpuHashMap.slots_of_not_mem h
    unfold totalSyn
    simp only [hzero]
    show (⟨0, 0⟩ : SynCounter) = ⟨∑ _, 0, ∑ _, 0⟩
    rw [Finset.sum_const_zero]

theorem packets_readSynSnapshot (o : IterOrder UInt32) (map : PerCpuHashMap n UInt32 SynCounter)
    (now : Instant) (x : UInt32) :
    (readSynSnapshot o map now).packets x = (totalSyn map x).packets := by
  rw [← getD_readSynSnapshot o map now]
  unfold SynCountersSnapshot.packets
  cases (readSynSnapshot o map now).counters.lookup x with
  | none => rfl
  | some c => rfl

end EbpfXdp
