import EbpfXdpProgram.Ebpf.Grammar
import EbpfXdpProgram.Lib.Run
import EbpfXdpProgram.Lib.Tally
import EbpfXdpProgram.Rate.Read
import Mathlib.Data.List.ReduceOption

/-!
# CPUs in parallel

Each CPU runs the program on one frame after another. A frame is handled in up to three steps:
counting it in its bucket, the lookup of `record_syn`, and the increment or insert after it; the
steps of the CPUs interleave in any order. `Consistent` says that each CPU's own slots hold what
that CPU has recorded, whatever the others do, and so no SYN is lost or counted twice.
-/

namespace EbpfXdp

variable {n : ℕ}

/-! ## The machine -/

/-- How far a CPU is with its frame. -/
inductive CpuPhase
  | idle
  /-- The frame is counted, and its SYN is to be recorded. -/
  | counted (frame : Frame) (srcAddr : UInt32) (dstPort : UInt16)
  /-- The lookup of `record_syn` is done. -/
  | looked (frame : Frame) (srcAddr : UInt32) (dstPort : UInt16) (found : Bool)
deriving DecidableEq

structure Machine (n : ℕ) where
  maps : KernelState n
  phase : Fin n → CpuPhase

inductive CpuStep (n : ℕ)
  | count (cpu : Fin n) (frame : Frame)
  | lookup (cpu : Fin n)
  | record (cpu : Fin n) (now : ℕ)

/-- A frame that a CPU is done with. -/
structure Handled (n : ℕ) where
  cpu : Fin n
  frame : Frame

namespace Machine

def new : Machine n := ⟨.new, fun _ => .idle⟩

def setPhase (m : Machine n) (cpu : Fin n) (p : CpuPhase) : Machine n :=
  { m with phase := Function.update m.phase cpu p }

/-- One step, and the frame that the CPU is done with after it. A step that the CPU's phase does
not allow changes nothing, so that every list of steps is an interleaving. -/
def step (m : Machine n) : CpuStep n → Machine n × Option (Handled n)
  | .count cpu frame =>
    match m.phase cpu, countPacket m.maps cpu ⟨frame⟩ with
    | .idle, .ok (maps, some (srcAddr, dstPort)) =>
      ({ m with maps := maps }.setPhase cpu (.counted frame srcAddr dstPort), none)
    | .idle, .ok (maps, none) => ({ m with maps := maps }, some ⟨cpu, frame⟩)
    | _, _ => (m, none)
  | .lookup cpu =>
    match m.phase cpu with
    | .counted frame srcAddr dstPort =>
      let found := (m.maps.synTracker.get cpu srcAddr).isSome
      (m.setPhase cpu (.looked frame srcAddr dstPort found), none)
    | _ => (m, none)
  | .record cpu now =>
    match m.phase cpu with
    | .looked frame srcAddr dstPort found =>
      let maps := m.maps.finishSyn cpu found srcAddr frame.length
      ({ m with maps := maps.recordPortTouch (.new srcAddr dstPort) now }.setPhase cpu .idle,
        some ⟨cpu, frame⟩)
    | _ => (m, none)

def after (steps : List (CpuStep n)) : Machine n := Run.exec step new steps

/-- The frames that the CPUs are done with, in the order in which they finished. -/
def handled (steps : List (CpuStep n)) : List (Handled n) :=
  (Run.outs step new steps).reduceOption

theorem after_concat (past : List (CpuStep n)) (a : CpuStep n) :
    after (past ++ [a]) = (step (after past) a).1 := Run.exec_concat ..

theorem handled_concat (past : List (CpuStep n)) (a : CpuStep n) :
    handled (past ++ [a]) = handled past ++ (step (after past) a).2.toList := by
  unfold handled
  rw [Run.outs_concat, ← List.concat_eq_append, List.reduceOption_concat]
  rfl

end Machine

namespace Machine

theorem step_cases (m : Machine n) (a : CpuStep n) :
    m.step a = (m, none) ∨
    (∃ cpu f, m.phase cpu = .idle ∧ f.BareSyn ∧ m.step a =
      ({ m with maps := m.maps.countFrame f cpu }.setPhase cpu
        (.counted f f.source f.destPort), none)) ∨
    (∃ cpu f, m.phase cpu = .idle ∧ ¬f.BareSyn ∧
      m.step a = ({ m with maps := m.maps.countFrame f cpu }, some ⟨cpu, f⟩)) ∨
    (∃ cpu f x d, m.phase cpu = .counted f x d ∧
      m.step a = (m.setPhase cpu (.looked f x d (m.maps.synTracker.get cpu x).isSome), none)) ∨
    ∃ cpu f x d found now, m.phase cpu = .looked f x d found ∧ m.step a =
      ({ m with
          maps := (m.maps.finishSyn cpu found x f.length).recordPortTouch (.new x d) now }.setPhase
        cpu .idle, some ⟨cpu, f⟩) := by
  cases a with
  | count cpu f =>
    cases hp : m.phase cpu with
    | idle =>
      by_cases hs : f.BareSyn
      · refine .inr (.inl ⟨cpu, f, hp, hs, ?_⟩)
        simp only [step, hp, countPacket_eq, if_pos hs]
      · refine .inr (.inr (.inl ⟨cpu, f, hp, hs, ?_⟩))
        simp only [step, hp, countPacket_eq, if_neg hs]
    | counted f' x d => exact .inl (by simp only [step, hp])
    | looked f' x d found => exact .inl (by simp only [step, hp])
  | lookup cpu =>
    cases hp : m.phase cpu with
    | idle => exact .inl (by simp only [step, hp])
    | counted f x d =>
      exact .inr (.inr (.inr (.inl ⟨cpu, f, x, d, hp, by simp only [step, hp]⟩)))
    | looked f x d found => exact .inl (by simp only [step, hp])
  | record cpu now =>
    cases hp : m.phase cpu with
    | idle => exact .inl (by simp only [step, hp])
    | counted f x d => exact .inl (by simp only [step, hp])
    | looked f x d found =>
      exact .inr (.inr (.inr (.inr ⟨cpu, f, x, d, found, now, hp, by simp only [step, hp]⟩)))

@[simp] theorem maps_setPhase (m : Machine n) (cpu : Fin n) (p : CpuPhase) :
    (m.setPhase cpu p).maps = m.maps := rfl

theorem phase_setPhase_self (m : Machine n) (cpu : Fin n) (p : CpuPhase) :
    (m.setPhase cpu p).phase cpu = p := Function.update_self ..

theorem phase_setPhase_of_ne (m : Machine n) {c cpu : Fin n} (h : c ≠ cpu) (p : CpuPhase) :
    (m.setPhase cpu p).phase c = m.phase c := Function.update_of_ne h ..

theorem phase_of_setPhase {m : Machine n} {c cpu : Fin n} {p q : CpuPhase}
    (h : (m.setPhase cpu p).phase c = q) (hpq : p ≠ q) : c ≠ cpu ∧ m.phase c = q := by
  have hc : c ≠ cpu := by
    rintro rfl
    exact hpq ((phase_setPhase_self m c p).symm.trans h)
  exact ⟨hc, (phase_setPhase_of_ne m hc p).symm.trans h⟩

end Machine

/-! ## Each CPU's own slots -/

def Handled.IsSynOf (c : Fin n) (x : UInt32) (e : Handled n) : Prop :=
  e.cpu = c ∧ e.frame.BareSyn ∧ e.frame.source = x

def Handled.IsTcpOf (c : Fin n) (e : Handled n) : Prop := e.cpu = c ∧ e.frame.bucket = some .tcp

instance (c : Fin n) (x : UInt32) : DecidablePred (Handled.IsSynOf c x) :=
  fun _ => inferInstanceAs (Decidable (_ ∧ _ ∧ _))

instance (c : Fin n) : DecidablePred (Handled.IsTcpOf c) :=
  fun _ => inferInstanceAs (Decidable (_ ∧ _))

def KernelState.tcpPackets (s : KernelState n) (c : Fin n) : ℕ :=
  (s.protoStats c ⟨ProtoIndex.tcp.toUsize, ProtoIndex.tcp.toUsize_lt⟩).packets

theorem KernelState.tcpPackets_countFrame (s : KernelState n) (f : Frame) (cpu c : Fin n) :
    (s.countFrame f cpu).tcpPackets c =
      s.tcpPackets c + if c = cpu ∧ f.bucket = some .tcp then 1 else 0 := by
  have hbucket : f.bucket.map ProtoIndex.toUsize = some ProtoIndex.tcp.toUsize ↔
      f.bucket = some .tcp :=
    (Option.map_injective ProtoIndex.toUsize_injective).eq_iff (b := some .tcp)
  unfold tcpPackets
  rw [countFrame_eq]
  simp only [hbucket]
  split_ifs <;> rfl

/-- Each CPU's own slots hold what that CPU is done with, and a lookup still says what it said about
the own slot: nobody else writes it. -/
structure Consistent (done : List (Handled n)) (m : Machine n) : Prop where
  slots : ∀ x c, m.maps.synTracker.slots x c =
    ⟨tally (fun _ => 1) (Handled.IsSynOf c x) done,
      tally (·.frame.length) (Handled.IsSynOf c x) done⟩
  counted : ∀ c f x d, m.phase c = .counted f x d → f.BareSyn ∧ f.source = x
  looked : ∀ c f x d found, m.phase c = .looked f x d found → f.BareSyn ∧ f.source = x ∧
    (found = true → x ∈ m.maps.synTracker) ∧
    (found = false → m.maps.synTracker.slots x c = 0)
  tcp : ∀ c, m.maps.tcpPackets c =
    tally (fun _ => 1) (Handled.IsTcpOf c) done + if m.phase c = .idle then 0 else 1

namespace Consistent

theorem new : Consistent [] (Machine.new : Machine n) where
  slots _ _ := rfl
  counted _ _ _ _ h := CpuPhase.noConfusion h
  looked _ _ _ _ _ h := CpuPhase.noConfusion h
  tcp _ := rfl

variable {done : List (Handled n)} {m : Machine n} {cpu : Fin n} {f : Frame}

theorem count_syn (h : Consistent done m) (hidle : m.phase cpu = .idle) (hs : f.BareSyn) :
    Consistent done ({ m with maps := m.maps.countFrame f cpu }.setPhase cpu
      (.counted f f.source f.destPort)) := by
  have hmaps := m.maps.countFrame_eq f cpu
  refine ⟨fun x c => ?_, fun c f' x d hp => ?_, fun c f' x d found hp => ?_, fun c => ?_⟩
  · rw [Machine.maps_setPhase, hmaps]
    exact h.slots x c
  · by_cases hc : c = cpu
    · subst hc
      rw [Machine.phase_setPhase_self] at hp
      obtain ⟨rfl, rfl, -⟩ := CpuPhase.counted.inj hp
      exact ⟨hs, rfl⟩
    · rw [Machine.phase_setPhase_of_ne _ hc] at hp
      exact h.counted c f' x d hp
  · obtain ⟨-, hp⟩ := Machine.phase_of_setPhase hp CpuPhase.noConfusion
    rw [Machine.maps_setPhase, hmaps]
    exact h.looked c f' x d found hp
  · rw [Machine.maps_setPhase, KernelState.tcpPackets_countFrame, h.tcp]
    by_cases hc : c = cpu
    · subst hc
      rw [Machine.phase_setPhase_self, if_pos hidle, if_pos ⟨rfl, Frame.bucket_of_bareSyn hs⟩,
        if_neg fun hp => CpuPhase.noConfusion hp]
    · have hother : ¬(c = cpu ∧ f.bucket = some .tcp) := fun hp => hc hp.1
      rw [Machine.phase_setPhase_of_ne _ hc, if_neg hother]
      rfl

theorem count_other (h : Consistent done m) (hs : ¬f.BareSyn) :
    Consistent (done ++ [⟨cpu, f⟩]) { m with maps := m.maps.countFrame f cpu } := by
  have hmaps := m.maps.countFrame_eq f cpu
  refine ⟨fun x c => ?_, h.counted, fun c f' x d found hp => ?_, fun c => ?_⟩
  · have hnot : ¬Handled.IsSynOf c x ⟨cpu, f⟩ := fun hsyn => hs hsyn.2.1
    rw [tally_concat_neg hnot, tally_concat_neg hnot, ← h.slots x c, hmaps]
  · rw [hmaps]
    exact h.looked c f' x d found hp
  · rw [KernelState.tcpPackets_countFrame, h.tcp, tally_concat, Nat.add_right_comm]
    congr 2
    exact if_congr (and_congr_left' eq_comm) rfl rfl

theorem lookup {x : UInt32} {d : UInt16} (h : Consistent done m)
    (hp : m.phase cpu = .counted f x d) :
    Consistent done (m.setPhase cpu
      (.looked f x d (m.maps.synTracker.get cpu x).isSome)) := by
  refine ⟨h.slots, fun c f' x' d' hp' => ?_, fun c f' x' d' found hp' => ?_, fun c => ?_⟩
  · obtain ⟨-, hp'⟩ := Machine.phase_of_setPhase hp' CpuPhase.noConfusion
    exact h.counted c f' x' d' hp'
  · by_cases hc : c = cpu
    · subst hc
      rw [Machine.phase_setPhase_self] at hp'
      obtain ⟨rfl, rfl, -, rfl⟩ := CpuPhase.looked.inj hp'
      obtain ⟨hs, hx⟩ := h.counted c f x d hp
      refine ⟨hs, hx, PerCpuHashMap.get_isSome.mp, fun hmiss => ?_⟩
      exact PerCpuHashMap.slots_of_not_mem
        (fun hmem => Bool.eq_false_iff.mp hmiss (PerCpuHashMap.get_isSome.mpr hmem)) c
    · rw [Machine.phase_setPhase_of_ne _ hc] at hp'
      exact h.looked c f' x' d' found hp'
  · rw [Machine.maps_setPhase, h.tcp]
    by_cases hc : c = cpu
    · subst hc
      rw [Machine.phase_setPhase_self, hp]
      rfl
    · rw [Machine.phase_setPhase_of_ne _ hc]

/-- The slot of the CPU and the source gains the frame, also where the lookup missed. -/
theorem slots_record {x : UInt32} {d : UInt16} {found : Bool} (h : Consistent done m)
    (hp : m.phase cpu = .looked f x d found) (y : UInt32) (c : Fin n) :
    (m.maps.finishSyn cpu found x f.length).synTracker.slots y c =
      ⟨tally (fun _ => 1) (Handled.IsSynOf c y) (done ++ [⟨cpu, f⟩]),
        tally (·.frame.length) (Handled.IsSynOf c y) (done ++ [⟨cpu, f⟩])⟩ := by
  obtain ⟨hs, rfl, hfound, hmiss⟩ := h.looked cpu f x d found hp
  rw [m.maps.slots_finishSyn cpu hfound f.length y c]
  by_cases hyc : y = f.source ∧ c = cpu
  · obtain ⟨rfl, rfl⟩ := hyc
    have hsyn : Handled.IsSynOf c f.source ⟨c, f⟩ := ⟨rfl, hs, rfl⟩
    rw [if_pos ⟨rfl, rfl⟩, tally_concat_pos hsyn, tally_concat_pos hsyn]
    cases found with
    | true => rw [if_pos rfl, h.slots]
    | false =>
      have hzero := h.slots f.source c
      rw [hmiss rfl] at hzero
      obtain ⟨hpackets, hbytes⟩ := SynCounter.mk.inj hzero
      rw [← hpackets, ← hbytes, if_neg Bool.false_ne_true, Nat.zero_add, Nat.zero_add]
  · have hnot : ¬Handled.IsSynOf c y ⟨cpu, f⟩ := fun hsyn => hyc ⟨hsyn.2.2.symm, hsyn.1.symm⟩
    rw [if_neg hyc, tally_concat_neg hnot, tally_concat_neg hnot, h.slots]

theorem record {x : UInt32} {d : UInt16} {found : Bool} (h : Consistent done m)
    (hp : m.phase cpu = .looked f x d found) (now : ℕ) :
    Consistent (done ++ [⟨cpu, f⟩]) ({ m with
      maps := (m.maps.finishSyn cpu found x f.length).recordPortTouch (.new x d) now }.setPhase
        cpu .idle) := by
  have hslots := h.slots_record hp
  obtain ⟨hs, rfl, hfound, -⟩ := h.looked cpu f x d found hp
  refine ⟨fun y c => ?_, fun c f' y d' hp' => ?_, fun c f' y d' found' hp' => ?_, fun c => ?_⟩
  · rw [Machine.maps_setPhase, KernelState.synTracker_recordPortTouch, hslots]
  · obtain ⟨-, hp'⟩ := Machine.phase_of_setPhase hp' CpuPhase.noConfusion
    exact h.counted c f' y d' hp'
  · obtain ⟨hc, hp'⟩ := Machine.phase_of_setPhase hp' CpuPhase.noConfusion
    obtain ⟨hs', hy, hfound', hmiss'⟩ := h.looked c f' y d' found' hp'
    -- the other CPU wrote its own slot only
    refine ⟨hs', hy, fun hf => ?_, fun hf => ?_⟩
    · rw [Machine.maps_setPhase, KernelState.synTracker_recordPortTouch,
        m.maps.mem_finishSyn cpu hfound]
      exact .inr (hfound' hf)
    · rw [Machine.maps_setPhase, KernelState.synTracker_recordPortTouch,
        m.maps.slots_finishSyn cpu hfound, if_neg fun hyc => hc hyc.2]
      exact hmiss' hf
  · have hmaps : (m.maps.finishSyn cpu found f.source f.length).tcpPackets c =
        m.maps.tcpPackets c := rfl
    show (m.maps.finishSyn cpu found f.source f.length).tcpPackets c = _
    rw [hmaps, h.tcp, tally_concat]
    by_cases hc : c = cpu
    · subst hc
      have htcp : Handled.IsTcpOf c ⟨c, f⟩ := ⟨rfl, Frame.bucket_of_bareSyn hs⟩
      rw [Machine.phase_setPhase_self, hp, if_pos htcp]
      rfl
    · have hother : ¬Handled.IsTcpOf c ⟨cpu, f⟩ := fun ht => hc ht.1.symm
      rw [Machine.phase_setPhase_of_ne _ hc, if_neg hother]
      rfl

theorem step (h : Consistent done m) (a : CpuStep n) :
    Consistent (done ++ (m.step a).2.toList) (m.step a).1 := by
  rcases m.step_cases a with heq | ⟨cpu, f, hidle, hs, heq⟩ | ⟨cpu, f, -, hs, heq⟩ |
    ⟨cpu, f, x, d, hp, heq⟩ | ⟨cpu, f, x, d, found, now, hp, heq⟩
  · rw [heq]
    simpa using h
  · rw [heq]
    simpa using h.count_syn hidle hs
  · rw [heq]
    exact h.count_other hs
  · rw [heq]
    simpa using h.lookup hp
  · rw [heq]
    exact h.record hp now

end Consistent

theorem consistent_after (steps : List (CpuStep n)) :
    Consistent (Machine.handled steps) (Machine.after steps) := by
  induction steps using List.reverseRecOn with
  | nil => exact .new
  | append_singleton past a ih =>
    rw [Machine.after_concat, Machine.handled_concat]
    exact ih.step a

/-- A CPU that takes its steps without the others in between does what the program does. -/
theorem steps_alone (m : Machine n) (cpu : Fin n) (hidle : m.phase cpu = .idle) (f : Frame)
    (now : ℕ) :
    ebpfXdpProgram m.maps cpu now ⟨f⟩ =
      .ok ((Run.exec Machine.step m [.count cpu f, .lookup cpu, .record cpu now]).maps, xdpPass) := by
  rw [ebpfXdpProgram_eq]
  unfold KernelState.handle KernelState.recordFrame KernelState.recordSyn
  by_cases hs : f.BareSyn
  · have hcount : m.step (.count cpu f) = ({ m with maps := m.maps.countFrame f cpu }.setPhase cpu
        (.counted f f.source f.destPort), none) := by
      simp only [Machine.step, hidle, countPacket_eq, if_pos hs]
    rw [if_pos hs, Run.exec_cons, hcount]
    simp only [Run.exec_cons, Run.exec_nil, Machine.step, Machine.phase_setPhase_self,
      Machine.maps_setPhase]
  · have hcount : m.step (.count cpu f) =
        ({ m with maps := m.maps.countFrame f cpu }, some ⟨cpu, f⟩) := by
      simp only [Machine.step, hidle, countPacket_eq, if_neg hs]
    rw [if_neg hs, Run.exec_cons, hcount]
    simp only [Run.exec_cons, Run.exec_nil, Machine.step, hidle]

/-! ## What user space reads -/

def synsOf (x : UInt32) (done : List (Handled n)) : List Frame :=
  (done.map (·.frame)).filter fun f => f.BareSyn ∧ f.source = x

theorem sum_tally_synOf (w : Handled n → ℕ) (x : UInt32) (done : List (Handled n)) :
    ∑ c, tally w (Handled.IsSynOf c x) done =
      tally w (fun e => e.frame.BareSyn ∧ e.frame.source = x) done := by
  have hsum := sum_tally_key (w := w)
    (p := fun e : Handled n => e.frame.BareSyn ∧ e.frame.source = x) Handled.cpu Finset.univ done
  simp only [Finset.mem_univ, true_and] at hsum
  exact hsum

theorem totalSyn_after (steps : List (CpuStep n)) (x : UInt32) :
    totalSyn (Machine.after steps).maps.synTracker x =
      ⟨(synsOf x (Machine.handled steps)).length,
        ((synsOf x (Machine.handled steps)).map List.length).sum⟩ := by
  unfold totalSyn synsOf
  simp only [(consistent_after steps).slots, sum_tally_synOf]
  rw [List.filter_map, List.length_map, tally_one, List.map_map]
  rfl

/-- The bare SYNs are among the frames of the TCP bucket, and those are counted first. -/
theorem sum_synPackets_le (steps : List (CpuStep n)) (sources : Finset UInt32) :
    ∑ x ∈ sources, (totalSyn (Machine.after steps).maps.synTracker x).packets ≤
      ∑ c, (Machine.after steps).maps.tcpPackets c := by
  have hinv := consistent_after steps
  have hsource := sum_tally_key (w := fun _ => 1) (p := fun e : Handled n => e.frame.BareSyn)
    (fun e => e.frame.source) sources (Machine.handled steps)
  have hcpu := sum_tally_key (w := fun _ => 1)
    (p := fun e : Handled n => e.frame.bucket = some .tcp) Handled.cpu Finset.univ
    (Machine.handled steps)
  calc ∑ x ∈ sources, (totalSyn (Machine.after steps).maps.synTracker x).packets
      = ∑ x ∈ sources, tally (fun _ => 1) (fun e => e.frame.source = x ∧ e.frame.BareSyn)
          (Machine.handled steps) := by
        apply Finset.sum_congr rfl
        intro x _
        unfold totalSyn
        simp only [hinv.slots, sum_tally_synOf, and_comm]
    _ = tally (fun _ => 1) (fun e => e.frame.source ∈ sources ∧ e.frame.BareSyn)
          (Machine.handled steps) := hsource
    _ ≤ tally (fun _ => 1) (fun e => e.cpu ∈ Finset.univ ∧ e.frame.bucket = some .tcp)
          (Machine.handled steps) :=
        tally_mono (fun e h => ⟨Finset.mem_univ e.cpu, Frame.bucket_of_bareSyn h.2⟩) _
    _ = ∑ c, tally (fun _ => 1) (Handled.IsTcpOf c) (Machine.handled steps) :=
        hcpu.symm
    _ ≤ ∑ c, (Machine.after steps).maps.tcpPackets c := by
        apply Finset.sum_le_sum
        intro c _
        rw [hinv.tcp]
        exact Nat.le_add_right ..

/-- **No SYN is lost or counted twice**: in every state that an interleaving reaches, user space
reads for each source the number and the bytes of the bare SYNs that the CPUs are done with, and the
sources together do not exceed the TCP bucket. Nothing is assumed of the CPUs that are in between
two steps: what they have not written yet is not counted yet. -/
theorem no_syn_lost (steps : List (CpuStep n)) (o : IterOrder UInt32) (now : Instant) :
    let maps := (Machine.after steps).maps
    let snapshot := readSynSnapshot o maps.synTracker now
    (∀ x, (snapshot.counters.lookup x).getD ⟨0, 0⟩ =
      ⟨(synsOf x (Machine.handled steps)).length,
        ((synsOf x (Machine.handled steps)).map List.length).sum⟩) ∧
    ∃ stats tcp, readCurrentStats maps.protoStats = some stats ∧
      stats[ProtoIndex.tcp.toUsize]? = some tcp ∧
      ∑ x ∈ snapshot.counters.keys, snapshot.packets x ≤ tcp.packets := by
  intro maps snapshot
  refine ⟨fun x => ?_, _, totalStats maps.protoStats .tcp, readCurrentStats_eq _, rfl, ?_⟩
  · rw [getD_readSynSnapshot, totalSyn_after]
  · simp only [snapshot, packets_readSynSnapshot]
    exact sum_synPackets_le steps _

end EbpfXdp
