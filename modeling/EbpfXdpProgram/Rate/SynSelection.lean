import EbpfXdpProgram.Anomaly.Detectors
import EbpfXdpProgram.Lib.Reals
import EbpfXdpProgram.Rate.Compute

/-!
# Which sources are flooding

The SYN rates and the signals made of them, in exact arithmetic and for any iteration order of the
counters: the fastest sources whose packets grew, the fastest first (`selected`), and of those above
the threshold all, unless there are more than are selected (`signalled`).
-/

namespace EbpfXdp

open F64 Ranking

/-- The packets that came since the previous snapshot, by the elapsed seconds. -/
noncomputable def synPps (prev curr : SynCountersSnapshot) (key : UInt32) : ℝ :=
  ((curr.packets key - prev.packets key : ℕ) : ℝ) /
    (((curr.timestamp - prev.timestamp : ℕ) : ℝ) / 1000000000)

def grown (prev curr : SynCountersSnapshot) : Finset UInt32 :=
  curr.counters.keys.filter fun key => prev.packets key < curr.packets key

noncomputable def above (prev curr : SynCountersSnapshot) (limit : ℝ) : Finset UInt32 :=
  curr.counters.keys.filter fun key => limit < synPps prev curr key

/-- `rates` are the `topN` fastest sources between the two snapshots, the fastest first. -/
structure Selected (prev curr : SynCountersSnapshot) (topN : ℕ) (rates : List (SynIpRate ℝ)) :
    Prop where
  distinct : (rates.map (·.srcIp)).Nodup
  descending : rates.Pairwise fun a b => b.pps ≤ a.pps
  length_eq : rates.length = min topN (grown prev curr).card
  pps_eq : ∀ r ∈ rates, ∃ key ∈ grown prev curr, r = ⟨Ipv4Addr.ofU32 key, synPps prev curr key⟩
  fastest : ∀ key, Ipv4Addr.ofU32 key ∉ rates.map (·.srcIp) →
    ∀ r ∈ rates, synPps prev curr key ≤ r.pps

/-- `signals` are the sources above the limit, or the `topN` fastest of them if there are more. -/
structure Signalled (prev curr : SynCountersSnapshot) (topN : ℕ) (limit : ℝ)
    (signals : List (SynFloodSignal ℝ)) : Prop where
  distinct : (signals.map (·.srcIp)).Nodup
  pps_eq : ∀ s ∈ signals, ∃ key ∈ above prev curr limit,
    s.srcIp = Ipv4Addr.ofU32 key ∧ s.pps = synPps prev curr key
  all : (above prev curr limit).card ≤ topN →
    ∀ key ∈ above prev curr limit, Ipv4Addr.ofU32 key ∈ signals.map (·.srcIp)
  length_eq : topN < (above prev curr limit).card → signals.length = topN
  fastest : ∀ key ∈ above prev curr limit, Ipv4Addr.ofU32 key ∉ signals.map (·.srcIp) →
    ∀ s ∈ signals, synPps prev curr key ≤ s.pps

section Exact

variable {prev curr : SynCountersSnapshot}

theorem synRate_real (prev curr : SynCountersSnapshot) (key : UInt32) :
    (synRate prev curr key : ℝ) = synPps prev curr key := by
  unfold synRate rate synPps
  rw [asSecs_real]
  rfl

theorem elapsed_pos (h : prev.timestamp < curr.timestamp) :
    (0 : ℝ) < ((curr.timestamp - prev.timestamp : ℕ) : ℝ) / 1000000000 :=
  div_pos (Nat.cast_pos.mpr (Nat.sub_pos_of_lt h)) (by norm_num)

theorem synPps_pos (h : prev.timestamp < curr.timestamp) {key : UInt32} :
    0 < synPps prev curr key ↔ prev.packets key < curr.packets key := by
  unfold synPps
  rw [div_pos_iff_of_pos_right (elapsed_pos h), Nat.cast_pos, tsub_pos_iff_lt]

theorem packets_eq_zero {s : SynCountersSnapshot} {key : UInt32} (h : key ∉ s.counters.keys) :
    s.packets key = 0 := by
  rw [Table.mem_keys, Option.isSome_iff_ne_none, not_not] at h
  unfold SynCountersSnapshot.packets
  rw [h]
  rfl

theorem mem_grown (h : prev.timestamp < curr.timestamp) {key : UInt32} :
    key ∈ grown prev curr ↔ 0 < synPps prev curr key := by
  rw [grown, Finset.mem_filter, synPps_pos h, and_iff_right_iff_imp]
  intro hgrown
  by_contra hkey
  rw [packets_eq_zero hkey] at hgrown
  exact absurd hgrown (Nat.not_lt_zero _)

theorem above_subset_grown (h : prev.timestamp < curr.timestamp) {limit : ℝ} (hlimit : 0 ≤ limit) :
    above prev curr limit ⊆ grown prev curr := by
  intro key hkey
  exact (mem_grown h).mpr (hlimit.trans_lt (Finset.mem_filter.mp hkey).2)

/-! ## The entries that are sorted -/

/-- What is reported of a source. -/
noncomputable def synEntry (prev curr : SynCountersSnapshot) (key : UInt32) : SynIpRate ℝ :=
  ⟨Ipv4Addr.ofU32 key, synPps prev curr key⟩

noncomputable def synEntries (o : IterOrder UInt32) (prev curr : SynCountersSnapshot) :
    List (SynIpRate ℝ) :=
  ((o.enum curr.counters.keys).filter fun key => prev.packets key < curr.packets key).map
    (synEntry prev curr)

theorem mem_synEntries {o : IterOrder UInt32} {r : SynIpRate ℝ} :
    r ∈ synEntries o prev curr ↔ ∃ key ∈ grown prev curr, synEntry prev curr key = r := by
  simp only [synEntries, grown, List.mem_map, List.mem_filter, o.mem_enum, Finset.mem_filter,
    decide_eq_true_eq]

theorem nodup_synEntries (o : IterOrder UInt32) :
    ((synEntries o prev curr).map (·.srcIp)).Nodup := by
  unfold synEntries
  rw [List.map_map]
  refine List.Nodup.map (fun a b hab => ?_) ((o.nodup _).filter _)
  exact congrArg Ipv4Addr.bits hab

theorem countP_synEntries (o : IterOrder UInt32) (p : SynIpRate ℝ → Prop) [DecidablePred p] :
    (synEntries o prev curr).countP (fun r => p r) =
      ((grown prev curr).filter fun key => p (synEntry prev curr key)).card := by
  unfold synEntries grown
  rw [List.countP_map, List.countP_filter, Finset.filter_filter]
  simp only [Function.comp_apply, ← Bool.decide_and, and_comm]
  exact o.countP_enum ..

theorem length_synEntries (o : IterOrder UInt32) :
    (synEntries o prev curr).length = (grown prev curr).card := by
  unfold synEntries grown
  rw [List.length_map, ← List.countP_eq_length_filter]
  exact o.countP_enum ..

theorem perm_synEntries (o o' : IterOrder UInt32) :
    (synEntries o prev curr).Perm (synEntries o' prev curr) :=
  ((o.perm_enum o' _).filter _).map _

theorem isTop_computeSynRatesTopN (o : IterOrder UInt32) (h : prev.timestamp < curr.timestamp)
    (topN : ℕ) :
    IsTop (·.pps) topN (synEntries o prev curr) (computeSynRatesTopN o prev curr topN) := by
  have hentries : ((o.enum curr.counters.keys).map fun key =>
      (⟨Ipv4Addr.ofU32 key, synRate prev curr key⟩ : SynIpRate ℝ)).filter
        (fun r => lt 0.0 r.pps) = synEntries o prev curr := by
    unfold synEntries synEntry
    rw [List.filter_map]
    simp only [synRate_real]
    congr 1
    refine List.filter_congr fun key _ => ?_
    rw [Function.comp_apply, Bool.eq_iff_iff, real_lt, decide_eq_true_iff, ← synPps_pos h,
      real_zero]
  rw [computeSynRatesTopN_eq o h, hentries]
  refine isTop_take_insertionSort (fun a b => ?_) topN _
  rw [← Bool.not_eq_true, real_lt, not_lt]

theorem selected (o : IterOrder UInt32) (h : prev.timestamp < curr.timestamp) (topN : ℕ) :
    Selected prev curr topN (computeSynRatesTopN o prev curr topN) where
  distinct := (isTop_computeSynRatesTopN o h topN).nodup_map (nodup_synEntries o)
  descending := (isTop_computeSynRatesTopN o h topN).sorted
  length_eq := by rw [(isTop_computeSynRatesTopN o h topN).length_eq, length_synEntries]
  pps_eq r hr := by
    obtain ⟨key, hkey, rfl⟩ := mem_synEntries.mp ((isTop_computeSynRatesTopN o h topN).mem hr)
    exact ⟨key, hkey, rfl⟩
  fastest key hkey r hr := by
    have htop := isTop_computeSynRatesTopN o h topN
    obtain ⟨key', hkey', rfl⟩ := mem_synEntries.mp (htop.mem hr)
    by_cases hgrown : key ∈ grown prev curr
    · refine htop.le_of_not_mem (mem_synEntries.mpr ⟨key, hgrown, rfl⟩) (fun hmem => hkey ?_) hr
      exact List.mem_map.mpr ⟨_, hmem, rfl⟩
    · -- a source that has not grown is not faster than one that has
      have hle := not_lt.mp (mt (mem_grown h).mpr hgrown)
      exact hle.trans ((mem_grown h).mp hkey').le

/-- The entries above the limit are as many as the sources above it. -/
theorem countP_above (o : IterOrder UInt32) (h : prev.timestamp < curr.timestamp) {limit : ℝ}
    (hlimit : 0 ≤ limit) :
    (synEntries o prev curr).countP (fun r => limit < r.pps) = (above prev curr limit).card := by
  rw [countP_synEntries]
  congr 1
  ext key
  rw [Finset.mem_filter]
  constructor
  · intro hkey
    exact Finset.mem_filter.mpr ⟨(Finset.mem_filter.mp hkey.1).1, hkey.2⟩
  · intro hkey
    exact ⟨above_subset_grown h hlimit hkey, (Finset.mem_filter.mp hkey).2⟩

theorem mem_detect {d : SynFloodDetector ℝ} {rates : List (SynIpRate ℝ)} {s : SynFloodSignal ℝ}
    (hs : s ∈ d.detect rates) :
    ∃ r ∈ rates, d.maxSynPps < r.pps ∧ s.srcIp = r.srcIp ∧ s.pps = r.pps := by
  obtain ⟨r, hr, rfl⟩ := List.mem_map.mp hs
  obtain ⟨hr, hpps⟩ := List.mem_filter.mp hr
  exact ⟨r, hr, real_lt.mp hpps, rfl, rfl⟩

theorem srcIp_mem_detect {d : SynFloodDetector ℝ} {rates : List (SynIpRate ℝ)} {r : SynIpRate ℝ}
    (hr : r ∈ rates) (hpps : d.maxSynPps < r.pps) : r.srcIp ∈ (d.detect rates).map (·.srcIp) :=
  List.mem_map.mpr
    ⟨_, List.mem_map.mpr ⟨r, List.mem_filter.mpr ⟨hr, real_lt.mpr hpps⟩, rfl⟩, rfl⟩

theorem signalled (o : IterOrder UInt32) (h : prev.timestamp < curr.timestamp) (topN : ℕ)
    (d : SynFloodDetector ℝ) (hlimit : 0 ≤ d.maxSynPps) :
    Signalled prev curr topN d.maxSynPps (d.detect (computeSynRatesTopN o prev curr topN)) := by
  have htop := isTop_computeSynRatesTopN o h topN
  refine ⟨?_, fun s hs => ?_, fun hfew key hkey => ?_, fun hmany => ?_, fun key hkey hout s hs => ?_⟩
  · unfold SynFloodDetector.detect
    rw [List.map_map]
    exact (htop.nodup_map (nodup_synEntries o)).sublist (List.filter_sublist.map _)
  · obtain ⟨r, hr, hpps, hip, hsame⟩ := mem_detect hs
    obtain ⟨key, hkey, rfl⟩ := mem_synEntries.mp (htop.mem hr)
    exact ⟨key, Finset.mem_filter.mpr ⟨(Finset.mem_filter.mp hkey).1, hpps⟩, hip, hsame⟩
  · have hentry : synEntry prev curr key ∈ synEntries o prev curr :=
      mem_synEntries.mpr ⟨key, above_subset_grown h hlimit hkey, rfl⟩
    rw [← countP_above o h hlimit] at hfew
    have hpps := (Finset.mem_filter.mp hkey).2
    exact srcIp_mem_detect (htop.mem_of_countP_le hfew hentry hpps) hpps
  · have hall : ∀ r ∈ (computeSynRatesTopN o prev curr topN : List (SynIpRate ℝ)),
        lt d.maxSynPps r.pps = true := fun r hr =>
      real_lt.mpr (htop.lt_of_le_countP (hmany.le.trans (countP_above o h hlimit).ge) hr)
    have hcard := Finset.card_le_card (above_subset_grown h hlimit)
    unfold SynFloodDetector.detect
    rw [List.filter_eq_self.mpr hall, List.length_map, (selected o h topN).length_eq,
      min_eq_left (hmany.le.trans hcard)]
  · obtain ⟨r, hr, -, -, hsame⟩ := mem_detect hs
    have hentry : synEntry prev curr key ∈ synEntries o prev curr :=
      mem_synEntries.mpr ⟨key, above_subset_grown h hlimit hkey, rfl⟩
    rw [hsame]
    exact htop.le_of_not_mem hentry
      (fun hmem => hout (srcIp_mem_detect hmem (Finset.mem_filter.mp hkey).2)) hr

end Exact

/-- Between two snapshots in order, the rates are the fastest sources, the signals are those of them
above the limit, and the values of the rates are the same for every order of the counters. -/
theorem syn_flood_selection (prev curr : SynCountersSnapshot)
    (h : prev.timestamp < curr.timestamp) (topN : ℕ) (d : SynFloodDetector ℝ)
    (hlimit : 0 ≤ d.maxSynPps) (o : IterOrder UInt32) :
    Selected prev curr topN (computeSynRatesTopN o prev curr topN) ∧
    Signalled prev curr topN d.maxSynPps (d.detect (computeSynRatesTopN o prev curr topN)) ∧
    ∀ o', (computeSynRatesTopN o' prev curr topN : List (SynIpRate ℝ)).map (·.pps) =
      (computeSynRatesTopN o prev curr topN).map (·.pps) :=
  ⟨selected o h topN, signalled o h topN d hlimit, fun o' =>
    (isTop_computeSynRatesTopN o' h topN).map_value_eq (isTop_computeSynRatesTopN o h topN)
      (perm_synEntries o' o)⟩

theorem Signalled.mem_iff {prev curr : SynCountersSnapshot} {topN : ℕ} {limit : ℝ}
    {signals : List (SynFloodSignal ℝ)} (h : Signalled prev curr topN limit signals)
    (hfit : (above prev curr limit).card ≤ topN) (key : UInt32) :
    Ipv4Addr.ofU32 key ∈ signals.map (·.srcIp) ↔ key ∈ above prev curr limit := by
  constructor
  · intro hsignal
    obtain ⟨s, hs, hip⟩ := List.mem_map.mp hsignal
    obtain ⟨key', hkey', hip', -⟩ := h.pps_eq s hs
    obtain rfl : key' = key := congrArg Ipv4Addr.bits (hip'.symm.trans hip)
    exact hkey'
  · exact h.all hfit key

/-! Within a second, rates are numbers of packets. -/

theorem synPps_second {prev curr : SynCountersSnapshot}
    (h : curr.timestamp - prev.timestamp = 1000000000) (key : UInt32) :
    synPps prev curr key = (curr.packets key - prev.packets key : ℕ) := by
  unfold synPps
  rw [h]
  norm_num

theorem above_second {prev curr : SynCountersSnapshot}
    (h : curr.timestamp - prev.timestamp = 1000000000) (limit : ℕ) :
    above prev curr limit = curr.counters.keys.filter fun key =>
      limit < curr.packets key - prev.packets key := by
  unfold above
  refine Finset.filter_congr fun key _ => ?_
  rw [synPps_second h, Nat.cast_lt]

/-- Of five sources within a second, with 600, 300, 5 and 200 more SYNs and fewer than before: three
are reported and the two above 250 are signalled; of the three above 100 only the fastest, if one is
reported. -/
theorem syn_flood_selection_five :
    let table (counts : List (UInt32 × ℕ)) : Table UInt32 SynCounter :=
      counts.foldl (fun t c => t.insert c.1 ⟨c.2, 60 * c.2⟩) ∅
    let prev : SynCountersSnapshot := ⟨0, table [(1, 100), (2, 50), (3, 10), (5, 400)]⟩
    let curr : SynCountersSnapshot :=
      ⟨1000000000, table [(1, 700), (2, 350), (3, 15), (4, 200), (5, 100)]⟩
    let o : IterOrder UInt32 := .byRank UInt32.toNat fun _ _ => UInt32.toNat.inj
    let signals (limit topN : ℕ) : List (SynFloodSignal ℝ) :=
      (⟨limit, topN⟩ : SynFloodDetector ℝ).detect (computeSynRatesTopN o prev curr topN)
    (computeSynRatesTopN o prev curr 3 : List (SynIpRate ℝ)).length = 3 ∧
      (∀ key, Ipv4Addr.ofU32 key ∈ (signals 250 3).map (·.srcIp) ↔ key = 1 ∨ key = 2) ∧
      (signals 100 1).map (·.srcIp) = [Ipv4Addr.ofU32 1] := by
  intro table prev curr o signals
  have hsecond : curr.timestamp - prev.timestamp = 1000000000 := rfl
  have hloud : above prev curr (250 : ℕ) = {1, 2} :=
    (above_second hsecond 250).trans (by decide +kernel)
  have hmany : above prev curr (100 : ℕ) = {1, 2, 4} :=
    (above_second hsecond 100).trans (by decide +kernel)
  obtain ⟨hselected, hsignalled, -⟩ := syn_flood_selection prev curr (by decide) 3
    ⟨(250 : ℕ), 3⟩ (Nat.cast_nonneg _) o
  obtain ⟨-, hcut, -⟩ := syn_flood_selection prev curr (by decide) 1 ⟨(100 : ℕ), 1⟩
    (Nat.cast_nonneg _) o
  refine ⟨hselected.length_eq.trans (by decide +kernel), fun key => ?_, ?_⟩
  · have hmem := hsignalled.mem_iff (by rw [hloud]; decide) key
    rwa [hloud, Finset.mem_insert, Finset.mem_singleton] at hmem
  · obtain ⟨s, hs⟩ := List.length_eq_one_iff.mp (hcut.length_eq (by rw [hmany]; decide))
    have hone : signals 100 1 = [s] := hs
    have hmem : s ∈ signals 100 1 := hone ▸ List.mem_singleton_self s
    obtain ⟨key, hkey, hip, hrate⟩ := hcut.pps_eq s hmem
    -- another source than the fastest would not be signalled alone
    obtain rfl : key = 1 := by
      by_contra hne
      have hout : Ipv4Addr.ofU32 1 ∉ (signals 100 1).map (·.srcIp) := by
        rw [hone, List.map_singleton, List.mem_singleton, hip]
        exact fun heq => hne (congrArg Ipv4Addr.bits heq).symm
      have hle := hcut.fastest 1 (by rw [hmany]; decide) hout s hmem
      rw [hrate, synPps_second hsecond, synPps_second hsecond, Nat.cast_le] at hle
      rw [hmany, Finset.mem_insert, Finset.mem_insert, Finset.mem_singleton] at hkey
      rcases hkey with rfl | rfl | rfl
      · exact hne rfl
      · exact absurd hle (by decide +kernel)
      · exact absurd hle (by decide +kernel)
    rw [hone, List.map_singleton, hip]

end EbpfXdp
