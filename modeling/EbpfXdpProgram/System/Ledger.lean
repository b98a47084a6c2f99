import EbpfXdpProgram.System

/-!
# Samples of the traffic

A sample has, for each protocol, the frames that were counted when the poll read its bucket; the
CPUs go on between the buckets. The ledger keeps the samples that the loop takes for the mix and for
the rates. They precede each other (`ordered_ledger`), and the counters of the kernel and of the
loop are those of the frames (`Machine.totalStats_step`, `Reads.next`, `Knows.step`).
-/

namespace EbpfXdp

variable {n : ℕ} {F : Type} [F64 F]

/-! ## Samples of the traffic -/

/-- The frames of each protocol that were counted when its bucket was read, and the time of the
poll. -/
structure Sample where
  timestamp : Instant
  frames : ProtoIndex → List Frame

namespace Sample

def snapshot (a : Sample) : TrafficCountersSnapshot :=
  ⟨a.timestamp, ProtoIndex.every.map fun p => statsOf (a.frames p)⟩

/-- The frames of the protocol that were counted from one sample to the next. -/
def gained (w : Sample × Sample) (p : ProtoIndex) : List Frame :=
  (w.2.frames p).drop (w.1.frames p).length

def totalGained (w : Sample × Sample) : ℕ := (ProtoIndex.every.map fun p => (gained w p).length).sum

/-- The first sample is not past the second. -/
def Precedes (a b : Sample) : Prop := ∀ p, a.frames p <+: b.frames p

end Sample

/-- The frames counted so far, and the samples taken of them. -/
structure TrafficLedger where
  counted : ProtoIndex → List Frame
  idx : ℕ
  /-- The frames that were counted when the bucket was read last. -/
  read : ProtoIndex → List Frame
  polled : Option Sample
  /-- The samples that the mix was computed from. -/
  mix : List Sample
  /-- The samples that the rates were computed from. -/
  rates : List Sample

namespace TrafficLedger

def new : TrafficLedger := ⟨fun _ => [], 0, fun _ => [], none, [], []⟩

def take (g : TrafficLedger) : LoopEvent → TrafficLedger
  | .statsPoll (some curr) _ => { g with idx := 0, polled := some ⟨curr.timestamp, g.read⟩ }
  | .mixAggregation => { g with idx := 0, mix := g.mix ++ g.polled.toList }
  | .anomalyEval _ => { g with idx := 0, rates := g.rates ++ g.polled.toList }
  | _ => { g with idx := 0 }

def observe (g : TrafficLedger) : Observation F → TrafficLedger
  | .counted frame =>
    { g with counted := fun p => g.counted p ++ [frame].filter fun f => f.bucket = some p }
  | .read .bucket =>
    { g with
      idx := g.idx + 1
      read := fun p => if p.toUsize = g.idx then g.counted p else g.read p }
  | .took event => g.take event
  | _ => g

end TrafficLedger

namespace System

def frames (trace : List (Observation F)) : List Frame :=
  trace.filterMap fun
    | .counted frame => some frame
    | _ => none

def ledger (trace : List (Observation F)) : TrafficLedger := trace.foldl .observe .new

end System

/-! ## Samples follow each other -/

namespace TrafficLedger

open Sample

/-- The samples precede each other and what is read. -/
structure Follows (read : ProtoIndex → List Frame) (samples : List Sample) : Prop where
  order : samples.Pairwise Precedes
  seen : ∀ a ∈ samples, ∀ p, a.frames p <+: read p

theorem Follows.grow {read read' : ProtoIndex → List Frame} {samples : List Sample}
    (h : Follows read samples) (hread : ∀ p, read p <+: read' p) : Follows read' samples where
  order := h.order
  seen a ha p := (h.seen a ha p).trans (hread p)

theorem Follows.poll {read : ProtoIndex → List Frame} {samples : List Sample}
    {polled : Option Sample}
    (h : Follows read (samples ++ polled.toList)) (timestamp : Instant) :
    Follows read (samples ++ (some ⟨timestamp, read⟩ : Option Sample).toList) := by
  have hseen : ∀ a ∈ samples, ∀ p, a.frames p <+: read p :=
    fun a ha => h.seen a (List.mem_append_left _ ha)
  refine ⟨List.pairwise_append.mpr ⟨(List.pairwise_append.mp h.order).1,
    List.pairwise_singleton _ _, fun a ha b hb => ?_⟩, fun a ha => ?_⟩
  · obtain rfl := List.mem_singleton.mp hb
    exact hseen a ha
  · rcases List.mem_append.mp ha with ha | ha
    · exact hseen a ha
    · obtain rfl := List.mem_singleton.mp ha
      exact fun p => List.prefix_rfl

theorem Follows.take {read : ProtoIndex → List Frame} {samples : List Sample}
    {polled : Option Sample}
    (h : Follows read (samples ++ polled.toList)) :
    Follows read (samples ++ polled.toList ++ polled.toList) := by
  refine ⟨List.pairwise_append.mpr ⟨h.order, (List.pairwise_append.mp h.order).2.1,
    fun a ha b hb => ?_⟩, fun a ha => ?_⟩
  · rcases List.mem_append.mp ha with ha | ha
    · exact (List.pairwise_append.mp h.order).2.2 a ha b hb
    · obtain rfl : a = b := by
        cases polled with
        | none => exact absurd ha List.not_mem_nil
        | some c => exact (List.mem_singleton.mp ha).trans (List.mem_singleton.mp hb).symm
      exact fun p => List.prefix_rfl
  · rcases List.mem_append.mp ha with ha | ha
    · exact h.seen a ha
    · exact h.seen a (List.mem_append_right _ ha)

structure Ordered (g : TrafficLedger) : Prop where
  read : ∀ p, g.read p <+: g.counted p
  mix : Follows g.read (g.mix ++ g.polled.toList)
  rates : Follows g.read (g.rates ++ g.polled.toList)

theorem Ordered.take {g : TrafficLedger} (h : g.Ordered) (e : LoopEvent) : (g.take e).Ordered := by
  rcases e with ⟨_ | curr, now⟩ | _ | _ | _ | _ | _ | _ | _
  · exact ⟨h.read, h.mix, h.rates⟩
  · exact ⟨h.read, h.mix.poll _, h.rates.poll _⟩
  · exact ⟨h.read, h.mix.take, h.rates⟩
  · exact ⟨h.read, h.mix, h.rates.take⟩
  all_goals exact ⟨h.read, h.mix, h.rates⟩

omit [F64 F] in
theorem Ordered.observe {g : TrafficLedger} (h : g.Ordered) (o : Observation F) :
    (g.observe o).Ordered := by
  rcases o with frame | _ | _ | _ | ⟨_ | _ | _ | _ | _⟩ | event | _ | _ | _
  case counted => exact ⟨fun p => (h.read p).trans (List.prefix_append _ _), h.mix, h.rates⟩
  case read.bucket =>
    have hgrow : ∀ p, g.read p <+: if p.toUsize = g.idx then g.counted p else g.read p := fun p => by
      split_ifs
      · exact h.read p
      · exact List.prefix_rfl
    refine ⟨fun p => ?_, h.mix.grow hgrow, h.rates.grow hgrow⟩
    show (if p.toUsize = g.idx then g.counted p else g.read p) <+: g.counted p
    split_ifs
    · exact List.prefix_rfl
    · exact h.read p
  case took => exact h.take event
  all_goals exact h

omit [F64 F] in
theorem ordered_ledger (trace : List (Observation F)) : (System.ledger trace).Ordered := by
  refine List.foldlRecOn trace _ ?_ fun g hg o _ => hg.observe o
  exact ⟨fun p => List.prefix_rfl, ⟨.nil, fun a ha => absurd ha List.not_mem_nil⟩,
    ⟨.nil, fun a ha => absurd ha List.not_mem_nil⟩⟩

omit [F64 F] in
theorem counted_ledger (trace : List (Observation F)) (p : ProtoIndex) :
    (System.ledger trace).counted p = (System.frames trace).filter fun f => f.bucket = some p := by
  induction trace using List.reverseRecOn with
  | nil => rfl
  | append_singleton trace o ih =>
    unfold System.ledger System.frames at ih ⊢
    rw [List.foldl_concat, List.filterMap_append, List.filter_append, ← ih]
    rcases o with frame | _ | _ | _ | ⟨_ | _ | _ | _ | _⟩ | event | _ | _ | _
    case counted => rfl
    case took =>
      rw [List.filterMap_cons_none rfl, List.filterMap_nil, List.filter_nil, List.append_nil]
      rcases event with ⟨_ | curr, now⟩ | _ | _ | _ | _ | _ | _ | _ <;> rfl
    all_goals exact (List.append_nil _).symm

/-- Between the samples no frame is missed, and none is in two pieces. -/
theorem Follows.isInfix {read : ProtoIndex → List Frame} {samples : List Sample}
    (h : Follows read samples) (p : ProtoIndex) :
    (samples.consecutivePairs.flatMap fun w => gained w p) <:+: read p := by
  cases samples with
  | nil => exact List.nil_infix
  | cons a samples =>
    have hpieces := flatMap_consecutivePairs (f := fun a => a.frames p) (h.order.imp fun hab => hab p)
    unfold gained
    rw [hpieces]
    exact (List.drop_suffix ..).isInfix.trans
      (h.seen _ (List.getLast_mem (List.cons_ne_nil a samples)) p).isInfix

end TrafficLedger

/-! ## The counters of the loop -/

namespace TrafficLedger

open Sample

/-- The poll has the totals of the buckets that it has read. -/
structure Reads (g : TrafficLedger) (r : StatsPass) : Prop where
  idx : r.idx = min g.idx ProtoIndex.count
  stats : r.stats =
    ProtoIndex.every.map fun p => if p.toUsize < g.idx then statsOf (g.read p) else ⟨0, 0⟩

theorem reads_start {g : TrafficLedger} (h : g.idx = 0) : Reads g .start := by
  refine ⟨?_, ?_⟩
  · rw [h]
    rfl
  · rw [h]
    rfl

theorem modify_every (f : TrafficCounters → TrafficCounters) (h : ProtoIndex → TrafficCounters)
    (p : ProtoIndex) : (ProtoIndex.every.map h).modify p.toUsize f =
      ProtoIndex.every.map fun q => if q = p then f (h q) else h q := by
  cases p <;> rfl

omit [F64 F] in
theorem Reads.next {g : TrafficLedger} {r : StatsPass} (h : Reads g r)
    {protoStats : PerCpuArray n ProtoIndex.count ProtoStats}
    (hkernel : ∀ p, totalStats protoStats p = statsOf (g.counted p)) :
    Reads (g.observe (.read .bucket : Observation F)) (r.next protoStats) := by
  by_cases hidx : g.idx < ProtoIndex.count
  · obtain ⟨p, hp⟩ : ∃ p : ProtoIndex, p.toUsize = g.idx := by
      match g.idx, hidx with
      | 0, _ => exact ⟨.icmp, rfl⟩
      | 1, _ => exact ⟨.tcp, rfl⟩
      | 2, _ => exact ⟨.udp, rfl⟩
      | 3, _ => exact ⟨.ipv6, rfl⟩
      | 4, _ => exact ⟨.other, rfl⟩
    have hr : r.idx = p.toUsize := by rw [h.idx, hp, Nat.min_eq_left hidx.le]
    rw [StatsPass.next_eq protoStats hr, h.stats, modify_every, hkernel]
    refine ⟨?_, List.map_congr_left fun q _ => ?_⟩
    · show r.idx + 1 = min (g.idx + 1) ProtoIndex.count
      rw [hr, hp, Nat.min_eq_left hidx]
    · show _ = if q.toUsize < g.idx + 1 then
        statsOf (if q.toUsize = g.idx then g.counted q else g.read q) else ⟨0, 0⟩
      by_cases hq : q = p
      · subst hq
        rw [if_pos rfl, if_neg (by omega), if_pos (by omega), if_pos hp, Nat.zero_add, Nat.zero_add]
      · have hne : q.toUsize ≠ g.idx := fun heq =>
          hq (ProtoIndex.toUsize_injective (heq.trans hp.symm))
        rw [if_neg hq, if_neg hne]
        exact if_congr (by omega) rfl rfl
  · have hle : ProtoIndex.count ≤ g.idx := not_lt.mp hidx
    have hr : r.idx = ProtoIndex.count := by rw [h.idx, Nat.min_eq_right hle]
    rw [StatsPass.next_of_le protoStats hr.ge]
    refine ⟨?_, h.stats.trans (List.map_congr_left fun q _ => ?_)⟩
    · show r.idx = min (g.idx + 1) ProtoIndex.count
      rw [hr, Nat.min_eq_right (by omega)]
    · show _ = if q.toUsize < g.idx + 1 then
        statsOf (if q.toUsize = g.idx then g.counted q else g.read q) else ⟨0, 0⟩
      have hq := q.toUsize_lt
      rw [if_pos (by omega), if_pos (by omega), if_neg (by omega)]

theorem Reads.result {g : TrafficLedger} {r : StatsPass} (h : Reads g r)
    {stats : List TrafficCounters} (hresult : r.result = some stats) :
    stats = ProtoIndex.every.map fun p => statsOf (g.read p) := by
  unfold StatsPass.result at hresult
  split_ifs at hresult with hidx
  rw [← Option.some.inj hresult, h.stats]
  refine List.map_congr_left fun p _ => if_pos ?_
  have hp := p.toUsize_lt
  rw [h.idx] at hidx
  omega

/-- The loop has the samples. -/
structure Knows (g : TrafficLedger) (l : MainLoop F) : Prop where
  current : l.currentCounters = g.polled.map Sample.snapshot
  mix : l.prevMixCounters = g.mix.getLast?.map Sample.snapshot
  rates : l.anomalyRunner.prevCounters = g.rates.getLast?.map Sample.snapshot

theorem getLast?_append_toList {α : Type} (xs : List α) (o : Option α) :
    (xs ++ o.toList).getLast? = o.or xs.getLast? := by
  cases o with
  | none => exact congrArg List.getLast? (List.append_nil xs)
  | some x => exact List.getLast?_concat

theorem Knows.step {g : TrafficLedger} {l : MainLoop F} (h : Knows g l) (fmt : WireFormat F)
    (amSink : Bool) (amGeneratorUrl : Option String) (hrunning : l.status = .running) (e : LoopEvent)
    (hread : ∀ curr now, e = .statsPoll (some curr) now →
      curr = Sample.snapshot ⟨curr.timestamp, g.read⟩) :
    Knows (g.take e) (l.step fmt amSink amGeneratorUrl e).1 := by
  unfold MainLoop.step MainLoop.turn
  rw [if_pos hrunning]
  rcases e with ⟨_ | curr, now⟩ | _ | eval | eval | eval | _ | _ | _
  · exact ⟨h.current, h.mix, h.rates⟩
  · exact ⟨congrArg some (hread curr now rfl), h.mix, h.rates⟩
  · have hmix : l.mixAggregation.1.prevMixCounters = l.currentCounters.or l.prevMixCounters := by
      unfold MainLoop.mixAggregation primeOrDiff
      rcases l.currentCounters with _ | curr
      · rfl
      · rcases l.prevMixCounters with _ | prev <;> rfl
    have hcurrent : l.mixAggregation.1.currentCounters = l.currentCounters := by
      unfold MainLoop.mixAggregation primeOrDiff
      rcases hcurr : l.currentCounters with _ | curr
      · exact hcurr
      · rcases l.prevMixCounters with _ | prev <;> rfl
    refine ⟨hcurrent.trans h.current, ?_, ?_⟩
    · rw [hmix, h.current, h.mix]
      show _ = ((g.mix ++ g.polled.toList).getLast?).map Sample.snapshot
      rw [getLast?_append_toList, Option.map_or]
    · rw [(MainLoop.sameRunners_mixAggregation l).anomaly]
      exact h.rates
  · refine ⟨h.current, h.mix, ?_⟩
    show (l.anomalyRunner.step (l.runnerTick eval)).1.prevCounters =
      ((g.rates ++ g.polled.toList).getLast?).map Sample.snapshot
    have hcurrent : (l.runnerTick eval).current = g.polled.map Sample.snapshot := h.current
    rw [AnomalyRunner.prevCounters_step, getLast?_append_toList, Option.map_or, h.rates, hcurrent]
  · dsimp only
    unfold MainLoop.synfloodEval
    rcases eval.tick.current with _ | curr
    · exact ⟨h.current, h.mix, h.rates⟩
    · rcases l.synfloodRunner.step eval.tick with ⟨runner, alerts⟩
      exact ⟨h.current, h.mix, h.rates⟩
  · dsimp only
    unfold MainLoop.portScanEval
    rcases eval.tick.current with _ | curr
    · exact ⟨h.current, h.mix, h.rates⟩
    · rcases l.portScanRunner.step eval.tick with ⟨runner, alerts⟩
      exact ⟨h.current, h.mix, h.rates⟩
  · dsimp only
    split_ifs <;> exact ⟨h.current, h.mix, h.rates⟩
  · exact ⟨h.current, h.mix, h.rates⟩
  · exact ⟨h.current, h.mix, h.rates⟩

end TrafficLedger

end EbpfXdp
