import EbpfXdpProgram.Lib.Ranking
import EbpfXdpProgram.Model

/-!
# Rates between two snapshots

`rate.rs`, `rate/compute.rs` and `rate/synflood_compute.rs`, and the `prime_or_diff` of
`pipeline.rs` that pairs a snapshot with the one before it. Counters are subtracted saturating, and
snapshots that are not in order have no rates.
-/

namespace EbpfXdp

open F64

variable {F : Type} [F64 F]

/-- The new `*prev`, and the previous snapshot if there is one to diff against. -/
def primeOrDiff {T : Type} (prev current : Option T) : Option T × Option T :=
  match current with
  | none => (prev, none)
  | some curr =>
    match prev with
    | some p => (some curr, some p)
    | none => (some curr, none)

def dtSecs (prev curr : Instant) : Option F :=
  let dt : F := asSecs (durationSince curr prev)
  if lt 0.0 dt then some dt else none

def rate (curr prev : ℕ) (dt : F) : F := ofNat (curr - prev) / dt

def computeRates (prev curr : TrafficCountersSnapshot) : List (ProtoRate F) :=
  match (dtSecs prev.timestamp curr.timestamp : Option F) with
  | none => []
  | some dt => (curr.stats.zip prev.stats).zipIdx.filterMap fun ((curr, prev), idx) =>
      (ProtoIndex.fromIndex idx).map fun proto =>
        { proto := proto
          pps := rate curr.packets prev.packets dt
          bps := rate curr.bytes prev.bytes dt }

/-- `compute_syn_rates_top_n`; `o` is the iteration order of the counters. -/
def computeSynRatesTopN (o : IterOrder UInt32) (prev curr : SynCountersSnapshot) (topN : ℕ) :
    List (SynIpRate F) :=
  match (dtSecs prev.timestamp curr.timestamp : Option F) with
  | none => []
  | some dt =>
    let rates := ((o.enum curr.counters.keys).filterMap fun key =>
      (curr.counters.lookup key).map fun c =>
        let prevPackets := ((prev.counters.lookup key).map (·.packets)).getD 0
        { srcIp := Ipv4Addr.ofU32 key, pps := rate c.packets prevPackets dt : SynIpRate F }).filter
      fun r => lt 0.0 r.pps
    (rates.insertionSort fun a b => lt a.pps b.pps = false).take topN

section Elapsed

variable [LawfulF64 F]

theorem dtSecs_eq_none {prev curr : Instant} (h : curr ≤ prev) :
    (dtSecs prev curr : Option F) = none := by
  have hzero : durationSince curr prev = 0 := Nat.sub_eq_zero_of_le h
  unfold dtSecs
  dsimp only
  rw [hzero, LawfulF64.asSecs_pos]
  rfl

theorem dtSecs_eq_some {prev curr : Instant} (h : prev < curr) :
    (dtSecs prev curr : Option F) = some (asSecs (durationSince curr prev)) := by
  unfold dtSecs
  dsimp only
  rw [LawfulF64.asSecs_pos, if_pos (decide_eq_true (durationSince_pos h))]

theorem computeRates_eq_nil {prev curr : TrafficCountersSnapshot}
    (h : curr.timestamp ≤ prev.timestamp) : (computeRates prev curr : List (ProtoRate F)) = [] := by
  unfold computeRates
  rw [dtSecs_eq_none h]

end Elapsed

/-! ## The protocols of the rates -/

theorem protos_computeRates (prev curr : TrafficCountersSnapshot) {rates : List (ProtoRate F)}
    (h : computeRates prev curr = rates) (hne : rates ≠ []) :
    rates.map (·.proto) =
      (List.range (min curr.stats.length prev.stats.length)).filterMap ProtoIndex.fromIndex := by
  subst h
  unfold computeRates at hne ⊢
  cases hdt : (dtSecs prev.timestamp curr.timestamp : Option F) with
  | none =>
    rw [hdt] at hne
    exact absurd rfl hne
  | some dt =>
    dsimp only
    rw [← List.length_zip, List.range_eq_range', ← List.zipIdx_map_snd, List.filterMap_map,
      List.map_filterMap]
    apply List.filterMap_congr
    intro e _
    rw [Option.map_map]
    exact Option.map_id' ..

theorem nodup_computeRates (prev curr : TrafficCountersSnapshot) :
    ((computeRates prev curr : List (ProtoRate F)).map (·.proto)).Nodup := by
  by_cases hne : (computeRates prev curr : List (ProtoRate F)) = []
  · rw [hne]
    exact List.nodup_nil
  · rw [protos_computeRates prev curr rfl hne]
    apply List.nodup_range.filterMap
    intro i j p hi hj
    exact (ProtoIndex.fromIndex_eq_some.mp hi).trans (ProtoIndex.fromIndex_eq_some.mp hj).symm

/-- With all buckets in both snapshots, every protocol has a rate or none has. -/
theorem exists_rate {prev curr : TrafficCountersSnapshot}
    (hprev : ProtoIndex.count ≤ prev.stats.length) (hcurr : ProtoIndex.count ≤ curr.stats.length)
    (hne : (computeRates prev curr : List (ProtoRate F)) ≠ []) (p : ProtoIndex) :
    ∃ rate ∈ (computeRates prev curr : List (ProtoRate F)), rate.proto = p := by
  rw [← List.mem_map, protos_computeRates prev curr rfl hne, List.mem_filterMap]
  have hp := p.toUsize_lt
  exact ⟨p.toUsize, List.mem_range.mpr (by omega), ProtoIndex.fromIndex_eq_some.mpr rfl⟩

/-! ## The rate of one protocol -/

/-- What a snapshot says about the protocol: its time and the protocol's counters. -/
def TrafficCountersSnapshot.about (p : ProtoIndex) (s : TrafficCountersSnapshot) :
    Instant × Option TrafficCounters :=
  (s.timestamp, s.stats[p.toUsize]?)

/-- The rate of the protocol between what two snapshots say about it. -/
def protoRate (p : ProtoIndex) (prev curr : Instant × Option TrafficCounters) :
    Option (ProtoRate F) :=
  (dtSecs prev.1 curr.1).bind fun dt => curr.2.bind fun c => prev.2.map fun c' =>
    { proto := p, pps := rate c.packets c'.packets dt, bps := rate c.bytes c'.bytes dt }

omit [F64 F] in
/-- In a list with an entry a bucket, a protocol finds what stands at its index. -/
theorem filter_filterMap_fromIndex {β : Type} {f : β → ProtoIndex → ProtoRate F}
    (hf : ∀ b q, (f b q).proto = q) (p : ProtoIndex) (l : List β) (n : ℕ) :
    ((l.zipIdx n).filterMap fun e => (ProtoIndex.fromIndex e.2).map (f e.1)).filter
        (·.proto = p) =
      if n ≤ p.toUsize then (l[p.toUsize - n]?.map (f · p)).toList else [] := by
  induction l generalizing n with
  | nil => simp
  | cons b l ih =>
    rw [List.zipIdx_cons]
    by_cases hn : n = p.toUsize
    · have hp := ProtoIndex.fromIndex_eq_some.mpr hn
      have hrest := ih (n + 1)
      rw [if_neg (by omega)] at hrest
      rw [List.filterMap_cons_some (b := f b p) (by rw [hp]; rfl),
        List.filter_cons_of_pos (by simp [hf]), hrest, if_pos hn.le, hn, Nat.sub_self]
      rfl
    · have hdrop : (((b, n) :: l.zipIdx (n + 1)).filterMap fun e =>
          (ProtoIndex.fromIndex e.2).map (f e.1)).filter (·.proto = p) =
          ((l.zipIdx (n + 1)).filterMap fun e =>
            (ProtoIndex.fromIndex e.2).map (f e.1)).filter (·.proto = p) := by
        cases hq : ProtoIndex.fromIndex n with
        | none => rw [List.filterMap_cons_none (by rw [hq]; rfl)]
        | some q =>
          have hne : q ≠ p := fun h => hn (h ▸ ProtoIndex.fromIndex_eq_some.mp hq)
          rw [List.filterMap_cons_some (b := f b q) (by rw [hq]; rfl),
            List.filter_cons_of_neg (by simpa [hf] using hne)]
      rw [hdrop, ih]
      by_cases hle : n ≤ p.toUsize
      · rw [if_pos (by omega), if_pos hle, show p.toUsize - n = p.toUsize - (n + 1) + 1 by omega,
          List.getElem?_cons_succ]
      · rw [if_neg (by omega), if_neg hle]

/-- The rates of a protocol depend on what the snapshots say about it only. -/
theorem filter_computeRates (prev curr : TrafficCountersSnapshot) (p : ProtoIndex) :
    (computeRates prev curr : List (ProtoRate F)).filter (·.proto = p) =
      (protoRate p (prev.about p) (curr.about p)).toList := by
  unfold computeRates protoRate TrafficCountersSnapshot.about
  cases (dtSecs prev.timestamp curr.timestamp : Option F) with
  | none => rfl
  | some dt =>
    have hfilter := filter_filterMap_fromIndex (f := fun (b : TrafficCounters × TrafficCounters) q =>
      (⟨q, rate b.1.packets b.2.packets dt, rate b.1.bytes b.2.bytes dt⟩ : ProtoRate F))
      (fun _ _ => rfl) p (curr.stats.zip prev.stats) 0
    rw [if_pos (Nat.zero_le _), Nat.sub_zero] at hfilter
    refine hfilter.trans ?_
    rw [List.zip_eq_zipWith, List.getElem?_zipWith]
    cases curr.stats[p.toUsize]? <;> cases prev.stats[p.toUsize]? <;> rfl

/-! ## The sources of the SYN rates -/

/-- The packets counted for the source, none if it is not in the snapshot. -/
def SynCountersSnapshot.packets (s : SynCountersSnapshot) (key : UInt32) : ℕ :=
  ((s.counters.lookup key).map (·.packets)).getD 0

def synRate (prev curr : SynCountersSnapshot) (key : UInt32) : F :=
  rate (curr.packets key) (prev.packets key) (asSecs (durationSince curr.timestamp prev.timestamp))

/-- The other sources whose rate is not below that of the source. -/
def rivals (F : Type) [F64 F] (prev curr : SynCountersSnapshot) (key : UInt32) : Finset UInt32 :=
  (curr.counters.keys.erase key).filter fun k =>
    lt (synRate prev curr k : F) (synRate prev curr key) = false

section Syn

variable [LawfulF64 F] {prev curr : SynCountersSnapshot}

theorem isNum_synRate (h : prev.timestamp < curr.timestamp) (key : UInt32) :
    IsNum (synRate prev curr key : F) :=
  LawfulF64.ratio_real _ _ (durationSince_pos h)

theorem mem_keys_of_synRate_pos (h : prev.timestamp < curr.timestamp) {key : UInt32}
    (hpos : lt (0.0 : F) (synRate prev curr key) = true) : key ∈ curr.counters.keys := by
  rw [Table.mem_keys, Option.isSome_iff_ne_none]
  intro hnone
  have hzero : curr.packets key = 0 := by
    unfold SynCountersSnapshot.packets
    rw [hnone]
    rfl
  unfold synRate rate at hpos
  rw [LawfulF64.ratio_pos _ _ (durationSince_pos h), hzero, Nat.zero_sub] at hpos
  exact Bool.noConfusion hpos

theorem computeSynRatesTopN_eq (o : IterOrder UInt32) (h : prev.timestamp < curr.timestamp)
    (topN : ℕ) : computeSynRatesTopN o prev curr topN =
      ((((o.enum curr.counters.keys).map fun key =>
        (⟨Ipv4Addr.ofU32 key, synRate prev curr key⟩ : SynIpRate F)).filter
          fun r => lt 0.0 r.pps).insertionSort fun a b => lt a.pps b.pps = false).take topN := by
  have hrates : ((o.enum curr.counters.keys).filterMap fun key =>
      (curr.counters.lookup key).map fun c =>
        (⟨Ipv4Addr.ofU32 key, rate c.packets (((prev.counters.lookup key).map (·.packets)).getD 0)
          (asSecs (durationSince curr.timestamp prev.timestamp))⟩ : SynIpRate F)) =
      (o.enum curr.counters.keys).map fun key => ⟨Ipv4Addr.ofU32 key, synRate prev curr key⟩ := by
    rw [← List.filterMap_eq_map]
    apply List.filterMap_congr
    intro k hk
    rw [o.mem_enum, Table.mem_keys, Option.isSome_iff_exists] at hk
    obtain ⟨c, hc⟩ := hk
    unfold synRate SynCountersSnapshot.packets
    rw [Function.comp_apply, hc]
    rfl
  unfold computeSynRatesTopN
  rw [dtSecs_eq_some h]
  dsimp only
  rw [hrates]

theorem of_mem_computeSynRatesTopN {o : IterOrder UInt32} (h : prev.timestamp < curr.timestamp)
    {topN : ℕ} {r : SynIpRate F} (hr : r ∈ computeSynRatesTopN o prev curr topN) :
    ∃ key ∈ curr.counters.keys, r = ⟨Ipv4Addr.ofU32 key, synRate prev curr key⟩ ∧
      lt 0.0 r.pps = true := by
  rw [computeSynRatesTopN_eq o h] at hr
  obtain ⟨hr, hpos⟩ := List.mem_filter.mp
    ((List.perm_insertionSort _ _).mem_iff.mp (List.mem_of_mem_take hr))
  obtain ⟨key, hkey, rfl⟩ := List.mem_map.mp hr
  exact ⟨key, (o.mem_enum _ _).mp hkey, rfl, hpos⟩

theorem mem_computeSynRatesTopN (o : IterOrder UInt32) (h : prev.timestamp < curr.timestamp)
    {key : UInt32} {topN : ℕ} (hpos : lt (0.0 : F) (synRate prev curr key) = true)
    (hfew : (rivals F prev curr key).card < topN) :
    (⟨Ipv4Addr.ofU32 key, synRate prev curr key⟩ : SynIpRate F) ∈
      computeSynRatesTopN o prev curr topN := by
  rw [computeSynRatesTopN_eq o h]
  refine Ranking.mem_best_of_countP_le (P := fun r : SynIpRate F => IsNum r.pps) ?_ ?_ ?_ ?_ ?_
  · intro a b ha hb
    rcases LawfulF64.le_total a.pps b.pps ha hb with hab | hba
    · exact .inr (not_lt_of_le hab)
    · exact .inl (not_lt_of_le hba)
  · intro a b c ha hb hc hab hbc
    exact not_lt_of_le (LawfulF64.le_trans _ _ _ (le_of_not_lt hb hc hbc) (le_of_not_lt ha hb hab))
  · intro r hr
    obtain ⟨k, -, rfl⟩ := List.mem_map.mp (List.mem_of_mem_filter hr)
    exact isNum_synRate h k
  · exact List.mem_filter.mpr
      ⟨List.mem_map.mpr ⟨key, (o.mem_enum _ _).mpr (mem_keys_of_synRate_pos h hpos), rfl⟩, hpos⟩
  · calc _ ≤ List.countP _ ((o.enum curr.counters.keys).map fun key =>
            (⟨Ipv4Addr.ofU32 key, synRate prev curr key⟩ : SynIpRate F)) :=
          List.Sublist.countP_le List.filter_sublist
      _ = (curr.counters.keys.filter fun k =>
            lt (synRate prev curr k : F) (synRate prev curr key) = false).card := by
          rw [List.countP_map]
          exact o.countP_enum ..
      _ ≤ (insert key (rivals F prev curr key)).card := by
          apply Finset.card_le_card
          intro k hk
          obtain ⟨hk, hlt⟩ := Finset.mem_filter.mp hk
          by_cases hkey : k = key
          · exact Finset.mem_insert.mpr (.inl hkey)
          · exact Finset.mem_insert_of_mem
              (Finset.mem_filter.mpr ⟨Finset.mem_erase.mpr ⟨hkey, hk⟩, hlt⟩)
      _ ≤ topN := (Finset.card_insert_le _ _).trans hfew

end Syn

end EbpfXdp
