import EbpfXdpProgram.Lib.Reals
import EbpfXdpProgram.Rate.Compute

/-!
# The traffic mix

`diff_stats` and `compute_mix` of `rate/compute.rs`: the counters that came between two snapshots,
and the share of each protocol among the packets. In exact arithmetic the shares sum to 100
(`sum_mixShare`).
-/

namespace EbpfXdp

open F64

section Mix

variable {F : Type} [F64 F]

def diffStats (cur prev : List TrafficCounters) : List TrafficCounters :=
  (cur.zip prev).map fun (c, p) =>
    { packets := c.packets - p.packets, bytes := c.bytes - p.bytes }

def computeMix (delta : List TrafficCounters) : List (ProtoIndex × F) :=
  let total := (delta.map (·.packets)).sum
  if total = 0 then []
  else
    let total : F := ofNat total
    (List.range delta.length).filterMap fun idx =>
      (ProtoIndex.fromIndex idx).bind fun proto =>
        delta[idx]?.map fun s => (proto, ofNat s.packets * 100.0 / total)

def packetsOf (delta : List TrafficCounters) (p : ProtoIndex) : ℕ :=
  (delta[p.toUsize]?.map (·.packets)).getD 0

def totalPackets (delta : List TrafficCounters) : ℕ := (delta.map (·.packets)).sum

/-- The share of the protocol among the packets. -/
def mixShare (delta : List TrafficCounters) (p : ProtoIndex) : F :=
  ofNat (packetsOf delta p) * 100.0 / ofNat (totalPackets delta)

theorem length_diffStats {cur prev : List TrafficCounters} {n : ℕ} (hcur : cur.length = n)
    (hprev : prev.length = n) : (diffStats cur prev).length = n := by
  unfold diffStats
  rw [List.length_map, List.length_zip, hcur, hprev, min_self]

/-- What came of the protocol between two snapshots is the difference of its counters. -/
theorem packetsOf_diffStats {cur prev : List TrafficCounters} (h : cur.length = prev.length)
    (p : ProtoIndex) :
    packetsOf (diffStats cur prev) p = packetsOf cur p - packetsOf prev p := by
  have hiff : p.toUsize < cur.length ↔ p.toUsize < prev.length := by rw [h]
  unfold packetsOf diffStats
  rw [List.getElem?_map, List.zip_eq_zipWith, List.getElem?_zipWith]
  by_cases hp : p.toUsize < cur.length
  · rw [List.getElem?_eq_getElem hp, List.getElem?_eq_getElem (hiff.mp hp)]
    rfl
  · rw [List.getElem?_eq_none (not_lt.mp hp), List.getElem?_eq_none (not_lt.mp (mt hiff.mpr hp))]
    rfl

/-- A list of five counters, with its entries. -/
theorem exists_of_length_eq_count {delta : List TrafficCounters}
    (h : delta.length = ProtoIndex.count) : ∃ a b c d e, delta = [a, b, c, d, e] := by
  match delta, h with
  | [a, b, c, d, e], _ => exact ⟨a, b, c, d, e, rfl⟩

/-- The packets of the protocols are all packets. -/
theorem totalPackets_eq {delta : List TrafficCounters} (h : delta.length = ProtoIndex.count) :
    totalPackets delta = (ProtoIndex.every.map (packetsOf delta)).sum := by
  obtain ⟨a, b, c, d, e, rfl⟩ := exists_of_length_eq_count h
  rfl

/-- With packets there is a share for every protocol, without there is none. -/
theorem computeMix_eq {delta : List TrafficCounters} (h : delta.length = ProtoIndex.count) :
    (computeMix delta : List (ProtoIndex × F)) =
      if totalPackets delta = 0 then [] else ProtoIndex.every.map fun p => (p, mixShare delta p) := by
  obtain ⟨a, b, c, d, e, rfl⟩ := exists_of_length_eq_count h
  rfl

end Mix

/-! ## In exact arithmetic -/

theorem mixShare_real (delta : List TrafficCounters) (p : ProtoIndex) :
    (mixShare delta p : ℝ) = packetsOf delta p * (100 / totalPackets delta) := by
  unfold mixShare
  rw [real_ofNat, real_ofNat, show (100.0 : ℝ) = 100 by norm_num, mul_div_assoc]

theorem mixShare_nonneg (delta : List TrafficCounters) (p : ProtoIndex) :
    (0 : ℝ) ≤ mixShare delta p := by
  rw [mixShare_real]
  positivity

theorem sum_mixShare {delta : List TrafficCounters} (h : delta.length = ProtoIndex.count)
    (hpos : totalPackets delta ≠ 0) :
    (ProtoIndex.every.map (mixShare (F := ℝ) delta)).sum = 100 := by
  have hne : (totalPackets delta : ℝ) ≠ 0 := Nat.cast_ne_zero.mpr hpos
  have hsum : (ProtoIndex.every.map fun p => (packetsOf delta p : ℝ)).sum = totalPackets delta := by
    rw [totalPackets_eq h, Nat.cast_list_sum, List.map_map]
    rfl
  have hshare : mixShare (F := ℝ) delta =
      fun p => (packetsOf delta p : ℝ) * (100 / totalPackets delta) := by
    funext p
    exact mixShare_real delta p
  rw [hshare, List.sum_map_mul_right, hsum]
  field_simp

end EbpfXdp
