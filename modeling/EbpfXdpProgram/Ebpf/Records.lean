import EbpfXdpProgram.Ebpf.Concurrency
import EbpfXdpProgram.Ebpf.Eviction
import EbpfXdpProgram.Rate.PortTrace

/-!
# What the CPUs count and record

A step of a CPU adds at most the frame that it counts to the protocol counters, and at most the bare
SYN that it records to the trackers. This holds of every step on its own, whatever the kernel has
evicted: an eviction loses SYNs, and nothing makes more of them.
-/

namespace EbpfXdp

variable {n : ℕ}

namespace Machine

/-- The frame that the step counts. -/
def counts (m : Machine n) : CpuStep n → Option Frame
  | .count cpu frame => if m.phase cpu = .idle then some frame else none
  | .lookup _ | .record _ _ => none

/-- The bare SYN that the step records, and the time it reads. -/
def records (m : Machine n) : CpuStep n → Option (Frame × ℕ)
  | .record cpu now =>
    match m.phase cpu with
    | .looked frame _ _ _ => some (frame, now)
    | _ => none
  | .count _ _ | .lookup _ => none

end Machine

/-! ## The protocol counters -/

def statsOf (frames : List Frame) : TrafficCounters :=
  ⟨frames.length, (frames.map List.length).sum⟩

theorem KernelState.totalStats_countFrame {s : KernelState n} {p : ProtoIndex} {xs : List Frame}
    (h : totalStats s.protoStats p = statsOf xs) (f : Frame) (cpu : Fin n) :
    totalStats (s.countFrame f cpu).protoStats p =
      statsOf (xs ++ [f].filter fun f => f.bucket = some p) := by
  have hbucket : f.bucket.map ProtoIndex.toUsize = some p.toUsize ↔ f.bucket = some p :=
    (Option.map_injective ProtoIndex.toUsize_injective).eq_iff (b := some p)
  have hslot : ∀ c, (s.countFrame f cpu).protoStats c ⟨p.toUsize, p.toUsize_lt⟩ =
      ⟨(s.protoStats c ⟨p.toUsize, p.toUsize_lt⟩).packets +
          if c = cpu then if f.bucket = some p then 1 else 0 else 0,
        (s.protoStats c ⟨p.toUsize, p.toUsize_lt⟩).bytes +
          if c = cpu then if f.bucket = some p then f.length else 0 else 0⟩ := fun c => by
    rw [countFrame_eq]
    simp only [hbucket]
    by_cases hc : c = cpu
    · by_cases hp : f.bucket = some p <;> simp [hc, hp]
    · simp [hc]
  unfold totalStats statsOf at h ⊢
  obtain ⟨hpackets, hbytes⟩ := TrafficCounters.mk.inj h
  simp only [hslot, Finset.sum_add_distrib, hpackets, hbytes, Finset.sum_ite_eq', Finset.mem_univ,
    if_true, List.length_append, List.map_append, List.sum_append]
  by_cases hp : f.bucket = some p <;> simp [hp]

namespace Machine

/-- Counting is the only step that touches the protocol counters. -/
theorem totalStats_step {m : Machine n} {p : ProtoIndex} {xs : List Frame}
    (h : totalStats m.maps.protoStats p = statsOf xs) (c : CpuStep n) :
    totalStats (m.step c).1.maps.protoStats p =
      statsOf (xs ++ (m.counts c).toList.filter fun f => f.bucket = some p) := by
  cases c with
  | count cpu f =>
    unfold counts step
    dsimp only
    cases hp : m.phase cpu with
    | idle =>
      rw [countPacket_eq, if_pos rfl]
      split_ifs <;> exact m.maps.totalStats_countFrame h f cpu
    | counted f' x d => exact h.trans (by simp)
    | looked f' x d found => exact h.trans (by simp)
  | lookup cpu =>
    unfold counts step
    dsimp only
    cases m.phase cpu <;> exact h.trans (by simp)
  | record cpu now =>
    unfold counts step
    dsimp only
    cases m.phase cpu <;> exact h.trans (by simp)

end Machine

/-! ## The SYNs -/

namespace KernelState

theorem synPackets_finishSyn_le (s : KernelState n) (cpu : Fin n) (found : Bool) (srcAddr : UInt32)
    (bytes : ℕ) (x : UInt32) :
    (s.finishSyn cpu found srcAddr bytes).synPackets x ≤
      s.synPackets x + if srcAddr = x then 1 else 0 := by
  have hslot : ∀ c, ((s.finishSyn cpu found srcAddr bytes).synTracker.slots x c).packets ≤
      (s.synTracker.slots x c).packets + if c = cpu then if srcAddr = x then 1 else 0 else 0 :=
    fun c => by
      by_cases hfound : found = true → srcAddr ∈ s.synTracker
      · rw [slots_finishSyn s cpu hfound]
        by_cases hx : x = srcAddr
        · by_cases hc : c = cpu
          · simp only [hx, hc, true_and, if_true]
            split_ifs
            · exact Nat.le_refl _
            · exact Nat.le_add_left _ _
          · simp [hx, hc]
        · simp [hx]
      · -- the entry is gone, and the increment with it
        obtain ⟨htrue, hgone⟩ := Classical.not_imp.mp hfound
        have hsame : (s.finishSyn cpu found srcAddr bytes).synTracker = s.synTracker := by
          unfold finishSyn PerCpuHashMap.modify
          simp only [htrue, if_true, Finmap.lookup_eq_none.mpr hgone]
        rw [hsame]
        exact Nat.le_add_right _ _
  unfold synPackets totalSyn
  dsimp only
  refine (Finset.sum_le_sum fun c _ => hslot c).trans_eq ?_
  rw [Finset.sum_add_distrib, Finset.sum_ite_eq' Finset.univ cpu, if_pos (Finset.mem_univ cpu)]

end KernelState

namespace Machine

/-- A CPU that is to record a SYN has the source and the port of a bare SYN. -/
structure Holds (m : Machine n) : Prop where
  counted : ∀ cpu f x d, m.phase cpu = .counted f x d → f.BareSyn ∧ x = f.source ∧ d = f.destPort
  looked : ∀ cpu f x d found, m.phase cpu = .looked f x d found →
    f.BareSyn ∧ x = f.source ∧ d = f.destPort

theorem holds_new : Holds (new : Machine n) where
  counted _ _ _ _ h := CpuPhase.noConfusion h
  looked _ _ _ _ _ h := CpuPhase.noConfusion h

theorem Holds.setPhase {m : Machine n} (h : m.Holds) (cpu : Fin n) {p : CpuPhase}
    (hcounted : ∀ f x d, p = .counted f x d → f.BareSyn ∧ x = f.source ∧ d = f.destPort)
    (hlooked : ∀ f x d found, p = .looked f x d found →
      f.BareSyn ∧ x = f.source ∧ d = f.destPort) : (m.setPhase cpu p).Holds where
  counted c f x d hp := by
    by_cases hc : c = cpu
    · subst hc
      exact hcounted f x d ((phase_setPhase_self ..).symm.trans hp)
    · exact h.counted c f x d ((phase_setPhase_of_ne m hc p).symm.trans hp)
  looked c f x d found hp := by
    by_cases hc : c = cpu
    · subst hc
      exact hlooked f x d found ((phase_setPhase_self ..).symm.trans hp)
    · exact h.looked c f x d found ((phase_setPhase_of_ne m hc p).symm.trans hp)

theorem Holds.congr {m m' : Machine n} (h : m.Holds) (hphase : m'.phase = m.phase) : m'.Holds where
  counted cpu f x d hp := h.counted cpu f x d (by rwa [hphase] at hp)
  looked cpu f x d found hp := h.looked cpu f x d found (by rwa [hphase] at hp)

theorem Holds.step {m : Machine n} (h : m.Holds) (c : CpuStep n) : (m.step c).1.Holds := by
  rcases m.step_cases c with hnone | ⟨cpu, f, -, hsyn, hcount⟩ | ⟨cpu, f, -, -, hcount⟩ |
    ⟨cpu, f, x, d, hphase, hlookup⟩ | ⟨cpu, f, x, d, found, now, -, hrecord⟩
  · rw [hnone]
    exact h
  · rw [hcount]
    have hmaps : Holds { m with maps := m.maps.countFrame f cpu } := h.congr rfl
    refine hmaps.setPhase cpu (fun f' x d hp => ?_) fun f' x d found hp => by cases hp
    obtain ⟨rfl, rfl, rfl⟩ := CpuPhase.counted.inj hp
    exact ⟨hsyn, rfl, rfl⟩
  · rw [hcount]
    exact h.congr rfl
  · rw [hlookup]
    refine h.setPhase cpu (fun f' x d hp => by cases hp) fun f' x' d' found hp => ?_
    obtain ⟨rfl, rfl, rfl, -⟩ := CpuPhase.looked.inj hp
    exact h.counted cpu _ _ _ hphase
  · rw [hrecord]
    have hmaps : Holds { m with
        maps := (m.maps.finishSyn cpu found x f.length).recordPortTouch (.new x d) now } :=
      h.congr rfl
    exact hmaps.setPhase cpu (fun f' x d hp => by cases hp) fun f' x d found hp => by cases hp

/-- What a step does to the trackers: nothing, or it records the bare SYN of a CPU. -/
theorem trackers_step {m : Machine n} (h : m.Holds) (c : CpuStep n) :
    m.records c = none ∧ (m.step c).1.maps.synTracker = m.maps.synTracker ∧
      (m.step c).1.maps.portScanTracker = m.maps.portScanTracker ∨
    ∃ cpu f found now, m.records c = some (f, now) ∧ f.BareSyn ∧ (m.step c).1.maps =
      (m.maps.finishSyn cpu found f.source f.length).recordPortTouch (.new f.source f.destPort)
        now := by
  cases c with
  | count cpu f =>
    have hmaps : (m.step (.count cpu f)).1.maps = m.maps ∨
        (m.step (.count cpu f)).1.maps = m.maps.countFrame f cpu := by
      unfold step
      dsimp only
      cases m.phase cpu with
      | idle =>
        rw [countPacket_eq]
        split_ifs <;> exact .inr rfl
      | counted f' x d => exact .inl rfl
      | looked f' x d found => exact .inl rfl
    refine .inl ⟨rfl, ?_⟩
    rcases hmaps with hmaps | hmaps
    · rw [hmaps]
      exact ⟨rfl, rfl⟩
    · rw [hmaps, KernelState.countFrame_eq]
      exact ⟨rfl, rfl⟩
  | lookup cpu =>
    refine .inl ⟨rfl, ?_⟩
    unfold step
    dsimp only
    cases m.phase cpu <;> exact ⟨rfl, rfl⟩
  | record cpu now =>
    unfold step records
    dsimp only
    cases hp : m.phase cpu with
    | idle => exact .inl ⟨rfl, rfl, rfl⟩
    | counted f x d => exact .inl ⟨rfl, rfl, rfl⟩
    | looked f x d found =>
      obtain ⟨hsyn, rfl, rfl⟩ := h.looked cpu f x d found hp
      exact .inr ⟨cpu, f, found, now, rfl, hsyn, rfl⟩

theorem synPackets_step_le {m : Machine n} (h : m.Holds) (c : CpuStep n) (x : UInt32) :
    (m.step c).1.maps.synPackets x ≤
      m.maps.synPackets x + (m.records c).toList.countP fun e => e.1.source = x := by
  rcases trackers_step h c with ⟨hnone, hsyn, -⟩ | ⟨cpu, f, found, now, hsome, -, hmaps⟩
  · unfold KernelState.synPackets
    rw [hnone, hsyn]
    exact Nat.le_refl _
  · rw [hsome, hmaps, Option.toList_some, List.countP_singleton]
    simp only [decide_eq_true_eq]
    exact KernelState.synPackets_finishSyn_le m.maps cpu found f.source f.length x

end Machine

/-! ## Sources that are not evicted -/

namespace KernelState

variable (s : KernelState n) (cpu : Fin n) (found : Bool) {srcAddr x : UInt32} (bytes : ℕ)

/-- The end of `record_syn` leaves the other sources alone, also where its own entry is gone. -/
theorem lookup_finishSyn_of_ne (hx : x ≠ srcAddr) :
    (s.finishSyn cpu found srcAddr bytes).synTracker.lookup x = s.synTracker.lookup x := by
  unfold finishSyn
  cases found with
  | false => exact Finmap.lookup_insert_of_ne _ hx
  | true =>
    simp only [if_true, PerCpuHashMap.modify]
    cases s.synTracker.lookup srcAddr with
    | none => rfl
    | some slots => exact Finmap.lookup_insert_of_ne _ hx

theorem synPackets_finishSyn_self {found : Bool} (hfound : found = true → x ∈ s.synTracker)
    (hmissed : found = false → s.synTracker.slots x cpu = 0) :
    (s.finishSyn cpu found x bytes).synPackets x = s.synPackets x + 1 := by
  have hslot : ∀ c, ((s.finishSyn cpu found x bytes).synTracker.slots x c).packets =
      (s.synTracker.slots x c).packets + if c = cpu then 1 else 0 := fun c => by
    rw [slots_finishSyn s cpu hfound]
    by_cases hc : c = cpu
    · subst hc
      cases found with
      | true => simp
      | false =>
        rw [hmissed rfl, if_pos ⟨rfl, rfl⟩, if_neg Bool.false_ne_true, if_pos rfl]
        rfl
    · simp [hc]
  unfold synPackets totalSyn
  simp only [hslot]
  rw [Finset.sum_add_distrib, Finset.sum_ite_eq' Finset.univ cpu, if_pos (Finset.mem_univ cpu)]

theorem synPackets_congr {s s' : KernelState n}
    (h : s'.synTracker.lookup x = s.synTracker.lookup x) :
    s'.synPackets x = s.synPackets x := by
  unfold synPackets totalSyn PerCpuHashMap.slots
  rw [h]

end KernelState

namespace Machine

/-- As long as a source is not evicted, its SYNs are all counted: what a CPU has looked up stays
right. -/
structure Exact (x : UInt32) (frames : List Frame) (m : Machine n) : Prop where
  packets : m.maps.synPackets x = frames.countP (·.source = x)
  found : ∀ cpu f d, m.phase cpu = .looked f x d true → x ∈ m.maps.synTracker
  missed : ∀ cpu f d, m.phase cpu = .looked f x d false → m.maps.synTracker.slots x cpu = 0

theorem exact_new (x : UInt32) : Exact x [] (new : Machine n) where
  packets := KernelState.synPackets_of_not_mem Finmap.notMem_empty
  found _ _ _ h := CpuPhase.noConfusion h
  missed _ _ _ h := CpuPhase.noConfusion h

namespace Exact

variable {x : UInt32} {frames : List Frame} {m m' : Machine n} (h : m.Exact x frames)

include h

theorem other (hentry : m'.maps.synTracker.lookup x = m.maps.synTracker.lookup x)
    (hphase : ∀ cpu f d found, m'.phase cpu = .looked f x d found →
      m.phase cpu = .looked f x d found) :
    m'.Exact x frames where
  packets := (KernelState.synPackets_congr hentry).trans h.packets
  found cpu f d hp := by
    obtain ⟨slots, hslots⟩ := Finmap.mem_iff.mp (h.found cpu f d (hphase cpu f d true hp))
    exact Finmap.mem_iff.mpr ⟨slots, hentry.trans hslots⟩
  missed cpu f d hp := by
    unfold PerCpuHashMap.slots
    rw [hentry]
    exact h.missed cpu f d (hphase cpu f d false hp)

theorem step (hm : m.Holds) (c : CpuStep n) :
    (m.step c).1.Exact x (frames ++ (m.records c).toList.map Prod.fst) := by
  cases c with
  | count cpu f =>
    have hcount : (m.step (.count cpu f)).1.Exact x frames := by
      unfold Machine.step
      dsimp only
      cases m.phase cpu with
      | idle =>
        rw [countPacket_eq]
        split_ifs
        · refine h.other ?_ fun c g d found hp => (phase_of_setPhase hp CpuPhase.noConfusion).2
          rw [maps_setPhase, KernelState.countFrame_eq]
        · refine h.other ?_ fun c g d found hp => hp
          rw [KernelState.countFrame_eq]
      | counted g y d => exact h
      | looked g y d found => exact h
    simpa [records] using hcount
  | lookup cpu =>
    have hlookup : (m.step (.lookup cpu)).1.Exact x frames := by
      unfold Machine.step
      dsimp only
      cases m.phase cpu with
      | counted g y d =>
        refine ⟨h.packets, fun c f d' hp => ?_, fun c f d' hp => ?_⟩
        · by_cases hc : c = cpu
          · rw [hc, phase_setPhase_self] at hp
            obtain ⟨-, rfl, -, hget⟩ := CpuPhase.looked.inj hp
            exact PerCpuHashMap.get_isSome.mp hget
          · rw [phase_setPhase_of_ne _ hc] at hp
            exact h.found c f d' hp
        · by_cases hc : c = cpu
          · rw [hc, phase_setPhase_self] at hp
            obtain ⟨-, rfl, -, hget⟩ := CpuPhase.looked.inj hp
            have hgone : y ∉ m.maps.synTracker := fun hmem => by
              rw [PerCpuHashMap.get_isSome.mpr hmem] at hget
              exact Bool.noConfusion hget
            exact PerCpuHashMap.slots_of_not_mem hgone c
          · rw [phase_setPhase_of_ne _ hc] at hp
            exact h.missed c f d' hp
      | idle => exact h
      | looked g y d found => exact h
    simpa [records] using hlookup
  | record cpu now =>
    unfold Machine.step records
    dsimp only
    cases hp : m.phase cpu with
    | idle => simpa using h
    | counted g y d => simpa using h
    | looked g y d found =>
      obtain ⟨-, rfl, rfl⟩ := hm.looked cpu g y d found hp
      rw [Option.toList_some, List.map_singleton]
      by_cases hx : x = g.source
      · subst hx
        have hfound : found = true → g.source ∈ m.maps.synTracker := fun hf => by
          rw [hf] at hp
          exact h.found cpu g _ hp
        have hmissed : found = false → m.maps.synTracker.slots g.source cpu = 0 := fun hf => by
          rw [hf] at hp
          exact h.missed cpu g _ hp
        refine ⟨?_, fun c f d hp' => ?_, fun c f d hp' => ?_⟩
        · rw [List.countP_append, List.countP_singleton, if_pos (decide_eq_true rfl), ← h.packets]
          exact KernelState.synPackets_finishSyn_self m.maps cpu g.length hfound hmissed
        · obtain ⟨-, hp'⟩ := phase_of_setPhase hp' CpuPhase.noConfusion
          exact (m.maps.mem_finishSyn cpu hfound g.length _).mpr (.inl rfl)
        · -- the other CPU wrote its own slot only
          obtain ⟨hc, hp'⟩ := phase_of_setPhase hp' CpuPhase.noConfusion
          refine (m.maps.slots_finishSyn cpu hfound g.length _ c).trans ?_
          rw [if_neg fun hself => hc hself.2]
          exact h.missed c f d hp'
      · have hsame : (m.maps.finishSyn cpu found g.source g.length).synTracker.lookup x =
            m.maps.synTracker.lookup x := m.maps.lookup_finishSyn_of_ne cpu found g.length hx
        have hother : Exact x frames (({ m with
            maps := (m.maps.finishSyn cpu found g.source g.length).recordPortTouch
              (.new g.source g.destPort) now } : Machine n).setPhase cpu .idle) :=
          h.other hsame fun c f d found' hp' => (phase_of_setPhase hp' CpuPhase.noConfusion).2
        refine ⟨?_, hother.found, hother.missed⟩
        rw [List.countP_append, List.countP_singleton,
          if_neg (mt of_decide_eq_true (Ne.symm hx)), Nat.add_zero]
        exact hother.packets

theorem evictSyn {srcAddr : UInt32} (hne : x ≠ srcAddr) :
    Exact x frames { m with maps := m.maps.evictSyn srcAddr } :=
  h.other (Finmap.lookup_erase_ne hne) fun _ _ _ _ hp => hp

end Exact

end Machine

end EbpfXdp
