import EbpfXdpProgram.Ebpf.Program
import EbpfXdpProgram.Lib.Tally
import EbpfXdpProgram.Rate.Read
import Mathlib.Data.List.DropRight

/-!
# SYN rates and eviction

Between two reads the kernel records SYNs and may evict entries of `SYN_TRACKER`; the next SYN of an
evicted source creates its entry again from zero. User space sees two totals only. `counted_iff`
says when the rate that it computes from them counts the SYNs of the source since the later of the
first read and the creation of its entry.
-/

namespace EbpfXdp

variable {n : ℕ}

/-! ## Events in the kernel -/

inductive SynEvent (n : ℕ)
  | record (cpu : Fin n) (srcAddr : UInt32) (bytes : ℕ)
  | evict (srcAddr : UInt32)
deriving DecidableEq

namespace SynEvent

def records (x : UInt32) : SynEvent n → Bool
  | record _ srcAddr _ => srcAddr = x
  | evict _ => false

/-- The SYNs of the source since its last eviction. -/
def recordedSince (x : UInt32) (events : List (SynEvent n)) : ℕ :=
  (events.rtakeWhile (· ≠ evict x)).countP (records x)

theorem recordedSince_concat_evict (x : UInt32) (past : List (SynEvent n)) :
    recordedSince x (past ++ [evict x]) = 0 := by
  unfold recordedSince
  rw [List.rtakeWhile_concat_neg _ past (evict x) (by simp)]
  rfl

theorem recordedSince_concat {x : UInt32} {e : SynEvent n} (h : e ≠ evict x)
    (past : List (SynEvent n)) :
    recordedSince x (past ++ [e]) = recordedSince x past + if e.records x = true then 1 else 0 := by
  unfold recordedSince
  rw [List.rtakeWhile_concat_pos _ past e (decide_eq_true h), List.countP_append,
    List.countP_singleton]

end SynEvent

namespace KernelState

def evictSyn (s : KernelState n) (srcAddr : UInt32) : KernelState n :=
  { s with synTracker := s.synTracker.erase srcAddr }

def apply (s : KernelState n) : SynEvent n → KernelState n
  | .record cpu srcAddr bytes => s.recordSyn cpu srcAddr bytes
  | .evict srcAddr => s.evictSyn srcAddr

def run (s : KernelState n) (events : List (SynEvent n)) : KernelState n := events.foldl apply s

theorem run_concat (s : KernelState n) (past : List (SynEvent n)) (e : SynEvent n) :
    s.run (past ++ [e]) = (s.run past).apply e := List.foldl_concat ..

theorem run_append (s : KernelState n) (before between : List (SynEvent n)) :
    s.run (before ++ between) = (s.run before).run between := List.foldl_append

def synPackets (s : KernelState n) (x : UInt32) : ℕ := (totalSyn s.synTracker x).packets

theorem synPackets_of_not_mem {s : KernelState n} {x : UInt32} (h : x ∉ s.synTracker) :
    s.synPackets x = 0 := by
  have hslots : ∀ c, s.synTracker.slots x c = 0 := PerCpuHashMap.slots_of_not_mem h
  unfold synPackets totalSyn
  simp only [hslots]
  exact Finset.sum_const_zero

theorem synPackets_recordSyn (s : KernelState n) (cpu : Fin n) (srcAddr : UInt32) (bytes : ℕ)
    (x : UInt32) :
    (s.recordSyn cpu srcAddr bytes).synPackets x =
      s.synPackets x + if srcAddr = x then 1 else 0 := by
  have hslot : ∀ c, ((s.recordSyn cpu srcAddr bytes).synTracker.slots x c).packets =
      (s.synTracker.slots x c).packets + if c = cpu then if srcAddr = x then 1 else 0 else 0 :=
    fun c => by
      rw [slots_recordSyn]
      by_cases hx : srcAddr = x
      · simp only [hx, true_and, if_true]
        split_ifs <;> rfl
      · rw [if_neg fun h => hx h.1.symm, if_neg hx, ite_self, Nat.add_zero]
  unfold synPackets totalSyn
  simp only [hslot]
  rw [Finset.sum_add_distrib, Finset.sum_ite_eq' Finset.univ cpu, if_pos (Finset.mem_univ cpu)]

theorem synPackets_evictSyn (s : KernelState n) (srcAddr x : UInt32) :
    (s.evictSyn srcAddr).synPackets x = if srcAddr = x then 0 else s.synPackets x := by
  have hslot : ∀ c, (s.evictSyn srcAddr).synTracker.slots x c =
      if srcAddr = x then 0 else s.synTracker.slots x c := fun c => by
    split_ifs with hx
    · apply PerCpuHashMap.slots_of_not_mem
      unfold evictSyn
      rw [Finmap.mem_erase, hx]
      exact fun h => h.1 rfl
    · unfold PerCpuHashMap.slots evictSyn
      rw [Finmap.lookup_erase_ne (Ne.symm hx)]
  unfold synPackets totalSyn
  simp only [hslot]
  split_ifs
  · exact Finset.sum_const_zero
  · rfl

/-- The total of a source: the SYNs since its last eviction, on top of what was there if it is not
evicted. -/
theorem synPackets_run (s : KernelState n) (events : List (SynEvent n)) (x : UInt32) :
    (s.run events).synPackets x = SynEvent.recordedSince x events +
      if .evict x ∈ events then 0 else s.synPackets x := by
  induction events using List.reverseRecOn with
  | nil =>
    rw [if_neg List.not_mem_nil]
    exact (Nat.zero_add _).symm
  | append_singleton past e ih =>
    rw [run_concat]
    by_cases he : e = .evict x
    · subst he
      rw [SynEvent.recordedSince_concat_evict, if_pos (List.mem_append_right _ (by simp))]
      exact (synPackets_evictSyn _ x x).trans (if_pos rfl)
    · have hmem : .evict x ∈ past ++ [e] ↔ .evict x ∈ past := by
        simp only [List.mem_append, List.mem_singleton, Ne.symm he, or_false]
      rw [SynEvent.recordedSince_concat he, if_congr hmem rfl rfl, Nat.add_right_comm, ← ih]
      cases e with
      | record cpu srcAddr bytes =>
        refine (synPackets_recordSyn _ cpu srcAddr bytes x).trans ?_
        simp only [SynEvent.records, decide_eq_true_eq]
      | evict srcAddr =>
        have hx : srcAddr ≠ x := fun h => he (congrArg _ h)
        exact (synPackets_evictSyn _ srcAddr x).trans (if_neg hx)

theorem mem_run (events : List (SynEvent n)) (x : UInt32) :
    x ∈ ((new : KernelState n).run events).synTracker ↔
      0 < ((new : KernelState n).run events).synPackets x := by
  induction events using List.reverseRecOn with
  | nil =>
    have hnew : x ∉ ((new : KernelState n).run []).synTracker := Finmap.notMem_empty
    rw [synPackets_of_not_mem hnew]
    exact iff_of_false hnew (Nat.lt_irrefl 0)
  | append_singleton past e ih =>
    rw [run_concat]
    cases e with
    | record cpu srcAddr bytes =>
      show x ∈ (recordSyn _ cpu srcAddr bytes).synTracker ↔
        0 < (recordSyn _ cpu srcAddr bytes).synPackets x
      rw [mem_recordSyn, synPackets_recordSyn, ih]
      by_cases hx : srcAddr = x
      · rw [if_pos hx]
        exact iff_of_true (.inl hx.symm) (Nat.succ_pos _)
      · rw [if_neg hx, or_iff_right (Ne.symm hx), Nat.add_zero]
    | evict srcAddr =>
      show x ∈ (evictSyn _ srcAddr).synTracker ↔ 0 < (evictSyn _ srcAddr).synPackets x
      rw [synPackets_evictSyn]
      by_cases hx : srcAddr = x
      · rw [if_pos hx, hx]
        exact iff_of_false (fun h => (Finmap.mem_erase.mp h).1 rfl) (Nat.lt_irrefl 0)
      · rw [if_neg hx, ← ih]
        exact Finmap.mem_erase.trans (and_iff_right (Ne.symm hx))

end KernelState

/-! ## What user space counts -/

/-- The rates between the two snapshots count `syns` SYNs of the source, whatever the iteration
order and however many sources are reported: a reported rate is that number over the elapsed time,
and a positive number is reported if there is room for all sources. -/
def CountsSyns (prev curr : SynCountersSnapshot) (x : UInt32) (syns : ℕ) : Prop :=
  ∀ (o : IterOrder UInt32) (topN : ℕ),
    let rates : List (SynIpRate ℚ) := computeSynRatesTopN o prev curr topN
    (∀ r ∈ rates, r.srcIp = Ipv4Addr.ofU32 x →
      r.pps * F64.asSecs (durationSince curr.timestamp prev.timestamp) = syns) ∧
    (0 < syns → curr.counters.keys.card ≤ topN → ∃ r ∈ rates, r.srcIp = Ipv4Addr.ofU32 x)

section Counts

variable {prev curr : SynCountersSnapshot} (h : prev.timestamp < curr.timestamp) (x : UInt32)

include h in
theorem synRate_mul_elapsed :
    (synRate prev curr x : ℚ) * F64.asSecs (durationSince curr.timestamp prev.timestamp) =
      (curr.packets x - prev.packets x : ℕ) := by
  have hpos : (0 : ℚ) < durationSince curr.timestamp prev.timestamp :=
    Nat.cast_pos.mpr (durationSince_pos h)
  have hne : (F64.asSecs (durationSince curr.timestamp prev.timestamp) : ℚ) ≠ 0 := by
    rw [asSecs_rat]
    positivity
  exact div_mul_cancel₀ _ hne

include h in
theorem synRate_pos_iff :
    F64.lt (0.0 : ℚ) (synRate prev curr x) = true ↔ 0 < curr.packets x - prev.packets x := by
  unfold synRate rate
  rw [LawfulF64.ratio_pos _ _ (durationSince_pos h), decide_eq_true_eq]

include h in
theorem reported_of_more (o : IterOrder UInt32) {topN : ℕ}
    (hmore : 0 < curr.packets x - prev.packets x) (htopN : curr.counters.keys.card ≤ topN) :
    (⟨Ipv4Addr.ofU32 x, synRate prev curr x⟩ : SynIpRate ℚ) ∈
      computeSynRatesTopN o prev curr topN := by
  have hpos := (synRate_pos_iff h x).mpr hmore
  apply mem_computeSynRatesTopN o h hpos
  calc (rivals ℚ prev curr x).card ≤ (curr.counters.keys.erase x).card :=
        Finset.card_filter_le _ _
    _ < curr.counters.keys.card := Finset.card_erase_lt_of_mem (mem_keys_of_synRate_pos h hpos)
    _ ≤ topN := htopN

include h in
theorem countsSyns_iff (o : IterOrder UInt32) (syns : ℕ) :
    CountsSyns prev curr x syns ↔ curr.packets x - prev.packets x = syns := by
  have hrate : ∀ (o : IterOrder UInt32) (topN : ℕ),
      ∀ r ∈ (computeSynRatesTopN o prev curr topN : List (SynIpRate ℚ)),
        r.srcIp = Ipv4Addr.ofU32 x → r.pps = synRate prev curr x ∧
          0 < curr.packets x - prev.packets x := fun o topN r hr hip => by
    obtain ⟨key, -, rfl, hpos⟩ := of_mem_computeSynRatesTopN h hr
    obtain rfl : key = x := congrArg Ipv4Addr.bits hip
    exact ⟨rfl, (synRate_pos_iff h key).mp hpos⟩
  constructor
  · intro hcounts
    obtain ⟨hpps, hroom⟩ := hcounts o curr.counters.keys.card
    rcases Nat.eq_zero_or_pos (curr.packets x - prev.packets x) with hzero | hmore
    · by_contra hne
      obtain ⟨r, hr, hip⟩ := hroom (by omega) (Nat.le_refl _)
      exact absurd (hrate o _ r hr hip).2 (by omega)
    · have hmul := hpps _ (reported_of_more h x o hmore (Nat.le_refl _)) rfl
      exact Nat.cast_injective ((synRate_mul_elapsed h x).symm.trans hmul)
  · rintro hsyns o topN
    refine ⟨fun r hr hip => ?_, fun hpos htopN => ?_⟩
    · rw [(hrate o topN r hr hip).1, ← hsyns]
      exact synRate_mul_elapsed h x
    · exact ⟨_, reported_of_more h x o (by omega) htopN, rfl⟩

end Counts

/-- **When evicted sources are counted**: for a source that is in the later read, the rates count
the SYNs since the later of the earlier read and the creation of its entry exactly if it is not in
the earlier read or is not evicted in between. -/
theorem counted_iff (before between : List (SynEvent n)) (o₁ o₂ : IterOrder UInt32)
    {t₁ t₂ : Instant} (h : t₁ < t₂) (x : UInt32)
    (hx : x ∈ ((KernelState.new : KernelState n).run (before ++ between)).synTracker) :
    let s₁ := (KernelState.new : KernelState n).run before
    let s₂ := (KernelState.new : KernelState n).run (before ++ between)
    CountsSyns (readSynSnapshot o₁ s₁.synTracker t₁) (readSynSnapshot o₂ s₂.synTracker t₂) x
        (SynEvent.recordedSince x between) ↔
      x ∉ s₁.synTracker ∨ .evict x ∉ between := by
  intro s₁ s₂
  have hrun : s₂.synPackets x = SynEvent.recordedSince x between +
      if .evict x ∈ between then 0 else s₁.synPackets x := by
    have hsplit : s₂ = s₁.run between := KernelState.run_append .new before between
    rw [hsplit, KernelState.synPackets_run]
  have hpresent := (KernelState.mem_run (before ++ between) x).mp hx
  have hprev : x ∈ s₁.synTracker ↔ 0 < s₁.synPackets x := KernelState.mem_run before x
  rw [countsSyns_iff (show (readSynSnapshot o₁ s₁.synTracker t₁).timestamp <
    (readSynSnapshot o₂ s₂.synTracker t₂).timestamp from h) x o₁, packets_readSynSnapshot,
    packets_readSynSnapshot, hprev]
  show s₂.synPackets x - s₁.synPackets x = _ ↔ _
  change 0 < s₂.synPackets x at hpresent
  by_cases he : .evict x ∈ between
  · rw [if_pos he] at hrun
    simp only [he, not_true_eq_false, or_false]
    omega
  · rw [if_neg he] at hrun
    simp only [he, not_false_eq_true, or_true, iff_true]
    omega

/-- An order to evaluate loops over sources in. -/
def synOrder : IterOrder UInt32 := .byRank UInt32.toNat fun _ _ => UInt32.toNat_inj.mp

def synFlood (syns : ℕ) : List (SynEvent 1) := List.replicate syns (.record 0 1 60)

/-- An eviction before the earlier read does not matter: the four SYNs of the interval are
counted. -/
theorem counted_iff_steady :
    let before := synFlood 3 ++ .evict 1 :: synFlood 2
    CountsSyns (readSynSnapshot synOrder (KernelState.new.run before).synTracker 0)
      (readSynSnapshot synOrder (KernelState.new.run (before ++ synFlood 4)).synTracker 1) 1 4 := by
  intro before
  exact (counted_iff before (synFlood 4) synOrder synOrder (by decide) 1 (by decide +kernel)).mpr
    (.inr (by decide))

/-- A source with three SYNs is evicted and sends five more: two are counted. -/
theorem evicted_not_counted :
    ¬CountsSyns (readSynSnapshot synOrder (KernelState.new.run (synFlood 3)).synTracker 0)
      (readSynSnapshot synOrder
        (KernelState.new.run (synFlood 3 ++ .evict 1 :: synFlood 5)).synTracker 1) 1
      (SynEvent.recordedSince 1 (.evict 1 :: synFlood 5)) := by
  intro h
  have hcounted := (countsSyns_iff (by decide) 1 synOrder _).mp h
  revert hcounted
  decide +kernel

end EbpfXdp
