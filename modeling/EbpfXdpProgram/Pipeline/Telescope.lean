import EbpfXdpProgram.Lib.Reals
import EbpfXdpProgram.Pipeline.Runner

/-!
# Rates telescope

`prime_or_diff` keeps the last snapshot across ticks that have none, so the intervals that a run
processes are those between consecutive snapshots (`processed_eq`). A rate times the seconds of its
interval is what the counter gained there, and these gains sum to what it gained from the first
snapshot to the last (`rates_telescope`).
-/

namespace EbpfXdp

open F64

/-! ## The intervals -/

section Intervals

variable {T : Type}

/-- One tick of `prime_or_diff`: what it keeps, and the interval to process if there is one. -/
def diffStep (prev current : Option T) : Option T × Option (T × T) :=
  let (kept, previous) := primeOrDiff prev current
  (kept, previous.bind fun p => current.map fun curr => (p, curr))

theorem diffStep_eq (prev current : Option T) :
    diffStep prev current = (current.or prev, prev.bind fun p => current.map fun c => (p, c)) := by
  unfold diffStep primeOrDiff
  rcases current with _ | curr <;> rcases prev with _ | p <;> rfl

/-- What is kept is the last snapshot, however many ticks have had none since. -/
theorem exec_diffStep (ticks : List (Option T)) :
    Run.exec diffStep none ticks = ticks.reduceOption.getLast? := by
  induction ticks using List.reverseRecOn with
  | nil => rfl
  | append_singleton past current ih =>
    rw [Run.exec_concat, ih, diffStep_eq, ← List.concat_eq_append, List.reduceOption_concat]
    cases current with
    | none => rw [Option.toList_none, List.append_nil]; rfl
    | some curr => rw [Option.toList_some, List.getLast?_append]; rfl

/-- The intervals that the ticks process, in order. -/
def processed (ticks : List (Option T)) : List (T × T) := (Run.outs diffStep none ticks).reduceOption

theorem processed_eq (ticks : List (Option T)) :
    processed ticks = ticks.reduceOption.consecutivePairs := by
  induction ticks using List.reverseRecOn with
  | nil => rfl
  | append_singleton past current ih =>
    unfold processed at ih ⊢
    rw [Run.outs_concat, ← List.concat_eq_append, List.reduceOption_concat, ih, exec_diffStep,
      diffStep_eq, ← List.concat_eq_append, List.reduceOption_concat]
    cases current with
    | none =>
      rw [Option.toList_none, List.append_nil]
      cases past.reduceOption.getLast? <;> exact List.append_nil _
    | some curr =>
      rw [Option.toList_some, consecutivePairs_concat]
      cases past.reduceOption.getLast? <;> rfl

end Intervals

namespace AnomalyRunner

variable {F : Type} [F64 F]

/-- A runner keeps what `prime_or_diff` keeps, whatever its detectors and its manager do. -/
theorem prevCounters_after (baseline : EwmaEstimator F) (d : EmergencyDetector F)
    (m : AlertLifecycleManager F) (ticks : List RunnerTick) :
    (after (new baseline d m) ticks).prevCounters =
      Run.exec diffStep none (ticks.map (·.current)) := by
  induction ticks using List.reverseRecOn with
  | nil => rfl
  | append_singleton past t ih =>
    rw [after_concat, prevCounters_step, ih, List.map_append, List.map_singleton, Run.exec_concat,
      diffStep_eq]

/-- In a run, the rates of a tick are those of the interval that `prime_or_diff` gives it. -/
theorem rates_after (baseline : EwmaEstimator F) (d : EmergencyDetector F)
    (m : AlertLifecycleManager F) (past : List RunnerTick) (t : RunnerTick) :
    (after (new baseline d m) past).rates t =
      ((diffStep (Run.exec diffStep none (past.map (·.current))) t.current).2.map fun interval =>
        computeRates interval.1 interval.2).getD [] := by
  rw [← prevCounters_after baseline d m past, diffStep_eq]
  unfold rates
  rcases (after (new baseline d m) past).prevCounters with _ | prev <;>
    rcases t.current with _ | curr <;> rfl

end AnomalyRunner

/-! ## The gain of a counter -/

def TrafficCountersSnapshot.counters (s : TrafficCountersSnapshot) (p : ProtoIndex) :
    TrafficCounters :=
  s.stats.getD p.toUsize ⟨0, 0⟩

/-- The second snapshot is later, and no counter is lower. -/
structure Advances (prev curr : TrafficCountersSnapshot) : Prop where
  later : prev.timestamp < curr.timestamp
  packets_le : ∀ p, (prev.counters p).packets ≤ (curr.counters p).packets
  bytes_le : ∀ p, (prev.counters p).bytes ≤ (curr.counters p).bytes

noncomputable def elapsedSecs (interval : TrafficCountersSnapshot × TrafficCountersSnapshot) : ℝ :=
  (dtSecs interval.1.timestamp interval.2.timestamp : Option ℝ).getD 0

noncomputable def accounted (rateOf : ProtoRate ℝ → ℝ) (p : ProtoIndex)
    (interval : TrafficCountersSnapshot × TrafficCountersSnapshot) : ℝ :=
  (((computeRates interval.1 interval.2).filter (·.proto = p)).map fun r =>
    rateOf r * elapsedSecs interval).sum

theorem elapsedSecs_eq {prev curr : TrafficCountersSnapshot} (h : prev.timestamp < curr.timestamp) :
    elapsedSecs (prev, curr) = ((curr.timestamp : ℝ) - prev.timestamp) / 1000000000 := by
  unfold elapsedSecs
  dsimp only
  rw [dtSecs_eq_some h, Option.getD_some, asSecs_real, durationSince, Nat.cast_sub h.le]

theorem elapsedSecs_pos {prev curr : TrafficCountersSnapshot} (h : prev.timestamp < curr.timestamp) :
    0 < elapsedSecs (prev, curr) := by
  have htime : (prev.timestamp : ℝ) < curr.timestamp := Nat.cast_lt.mpr h
  rw [elapsedSecs_eq h]
  exact div_pos (sub_pos.mpr htime) (by norm_num)

theorem rate_mul {curr prev : ℕ} {dt : ℝ} (h : prev ≤ curr) (hdt : 0 < dt) :
    rate curr prev dt * dt = (curr : ℝ) - prev := by
  unfold rate
  rw [div_mul_cancel₀ _ hdt.ne', real_ofNat, Nat.cast_sub h]

section Interval

variable {prev curr : TrafficCountersSnapshot} (h : prev.timestamp < curr.timestamp)
  (hprev : prev.stats.length = ProtoIndex.count) (hcurr : curr.stats.length = ProtoIndex.count)

include h hprev hcurr in
theorem rates_of_interval (p : ProtoIndex) :
    (computeRates prev curr).filter (·.proto = p) =
      [{ proto := p
         pps := rate (curr.counters p).packets (prev.counters p).packets (elapsedSecs (prev, curr))
         bps := rate (curr.counters p).bytes (prev.counters p).bytes (elapsedSecs (prev, curr)) }] := by
  have hp := p.toUsize_lt
  have hget : ∀ s : TrafficCountersSnapshot, s.stats.length = ProtoIndex.count →
      s.stats[p.toUsize]? = some (s.counters p) := by
    intro s hs
    unfold TrafficCountersSnapshot.counters
    rw [List.getD_eq_getElem?_getD, List.getElem?_eq_getElem (hs ▸ hp), Option.getD_some]
  unfold elapsedSecs
  rw [filter_computeRates, protoRate, TrafficCountersSnapshot.about, TrafficCountersSnapshot.about,
    hget prev hprev, hget curr hcurr, dtSecs_eq_some h]
  rfl

end Interval

theorem accounted_eq {prev curr : TrafficCountersSnapshot} (h : Advances prev curr)
    (hprev : prev.stats.length = ProtoIndex.count) (hcurr : curr.stats.length = ProtoIndex.count)
    (p : ProtoIndex) :
    accounted (·.pps) p (prev, curr) =
        ((curr.counters p).packets : ℝ) - (prev.counters p).packets ∧
      accounted (·.bps) p (prev, curr) = ((curr.counters p).bytes : ℝ) - (prev.counters p).bytes := by
  have helapsed := elapsedSecs_pos h.later
  unfold accounted
  rw [rates_of_interval h.later hprev hcurr]
  simp only [List.map_cons, List.map_nil, List.sum_cons, List.sum_nil, add_zero]
  exact ⟨rate_mul (h.packets_le p) helapsed, rate_mul (h.bytes_le p) helapsed⟩

section Run

variable {ticks : List (Option TrafficCountersSnapshot)}

/-- Where each interval gains the difference of a quantity, a run gains its difference from the
first snapshot to the last. -/
theorem sum_processed (f : TrafficCountersSnapshot → ℝ)
    {gain : TrafficCountersSnapshot × TrafficCountersSnapshot → ℝ}
    (hgain : ∀ interval ∈ processed ticks, gain interval = f interval.2 - f interval.1)
    {first last : TrafficCountersSnapshot} (hfirst : ticks.reduceOption.head? = some first)
    (hlast : ticks.reduceOption.getLast? = some last) :
    ((processed ticks).map gain).sum = f last - f first := by
  rw [List.map_congr_left hgain, processed_eq]
  obtain ⟨rest, hpresent⟩ := List.head?_eq_some_iff.mp hfirst
  rw [hpresent] at hlast ⊢
  have hlast' := List.getLast?_eq_some_getLast (List.cons_ne_nil first rest)
  obtain rfl := Option.some.inj (hlast'.symm.trans hlast)
  exact sum_consecutivePairs f first rest

theorem advances_of_processed
    (hfive : ∀ s ∈ ticks.reduceOption, s.stats.length = ProtoIndex.count)
    (hchain : ticks.reduceOption.IsChain Advances)
    {interval : TrafficCountersSnapshot × TrafficCountersSnapshot}
    (h : interval ∈ processed ticks) :
    Advances interval.1 interval.2 ∧ interval.1.stats.length = ProtoIndex.count ∧
      interval.2.stats.length = ProtoIndex.count := by
  rw [processed_eq] at h
  obtain ⟨hprev, hcurr⟩ := List.of_mem_zip h
  exact ⟨rel_of_mem_consecutivePairs hchain h, hfive _ hprev, hfive _ (List.mem_of_mem_tail hcurr)⟩

/-- **Rates telescope**: the interval of a tick starts at the snapshot before it, whatever gap lies
between, and over a run the rates of a protocol times the elapsed seconds sum to what its counters
gained from the first snapshot to the last. -/
theorem rates_telescope (hfive : ∀ s ∈ ticks.reduceOption, s.stats.length = ProtoIndex.count)
    (hchain : ticks.reduceOption.IsChain Advances) (p : ProtoIndex) :
    (∀ past curr rest, ticks = past ++ some curr :: rest →
      (diffStep (Run.exec diffStep none past) (some curr)).2 =
        past.reduceOption.getLast?.map fun prev => (prev, curr)) ∧
    (∀ interval ∈ processed ticks,
      elapsedSecs interval =
          ((interval.2.timestamp : ℝ) - interval.1.timestamp) / 1000000000 ∧
        ∃ r : ProtoRate ℝ, (computeRates interval.1 interval.2).filter (·.proto = p) = [r]) ∧
    ∀ first last, ticks.reduceOption.head? = some first →
      ticks.reduceOption.getLast? = some last →
      ((processed ticks).map (accounted (·.pps) p)).sum =
          ((last.counters p).packets : ℝ) - (first.counters p).packets ∧
        ((processed ticks).map (accounted (·.bps) p)).sum =
          ((last.counters p).bytes : ℝ) - (first.counters p).bytes := by
  refine ⟨fun past curr rest _ => ?_, fun interval hinterval => ?_, fun first last hfirst hlast => ?_⟩
  · rw [exec_diffStep, diffStep_eq]
    cases past.reduceOption.getLast? <;> rfl
  · obtain ⟨hadvances, hprev, hcurr⟩ := advances_of_processed hfive hchain hinterval
    exact ⟨elapsedSecs_eq hadvances.later, _, rates_of_interval hadvances.later hprev hcurr p⟩
  · have hgain : ∀ interval ∈ processed ticks, accounted (·.pps) p interval =
          ((interval.2.counters p).packets : ℝ) - (interval.1.counters p).packets ∧
        accounted (·.bps) p interval =
          ((interval.2.counters p).bytes : ℝ) - (interval.1.counters p).bytes := by
      intro interval hinterval
      obtain ⟨hadvances, hprev, hcurr⟩ := advances_of_processed hfive hchain hinterval
      exact accounted_eq hadvances hprev hcurr p
    exact ⟨sum_processed (fun s => ((s.counters p).packets : ℝ)) (fun i hi => (hgain i hi).1) hfirst
        hlast,
      sum_processed (fun s => ((s.counters p).bytes : ℝ)) (fun i hi => (hgain i hi).2) hfirst hlast⟩

end Run

def evenSnapshot (timestamp : Instant) (packets bytes : ℕ) : TrafficCountersSnapshot :=
  ⟨timestamp, List.replicate ProtoIndex.count ⟨packets, bytes⟩⟩

theorem counters_evenSnapshot (timestamp : Instant) (packets bytes : ℕ) (p : ProtoIndex) :
    (evenSnapshot timestamp packets bytes).counters p = ⟨packets, bytes⟩ := by cases p <;> rfl

theorem advances_evenSnapshot {t t' packets packets' bytes bytes' : ℕ} (ht : t < t')
    (hpackets : packets ≤ packets') (hbytes : bytes ≤ bytes') :
    Advances (evenSnapshot t packets bytes) (evenSnapshot t' packets' bytes') where
  later := ht
  packets_le p := by rwa [counters_evenSnapshot, counters_evenSnapshot]
  bytes_le p := by rwa [counters_evenSnapshot, counters_evenSnapshot]

/-- Three snapshots, with two ticks that have none after the first. -/
def gapTicks : List (Option TrafficCountersSnapshot) :=
  [some (evenSnapshot 0 100 6400), none, none, some (evenSnapshot 90000000000 700 44800),
    some (evenSnapshot 120000000000 1000 64000)]

/-- The two ticks lose no packet. -/
theorem rates_telescope_gap :
    ((processed gapTicks).map (accounted (·.pps) .tcp)).sum = 900 := by
  have hfive : ∀ s ∈ gapTicks.reduceOption, s.stats.length = ProtoIndex.count := by
    simp [gapTicks, List.reduceOption, evenSnapshot]
  have hchain : gapTicks.reduceOption.IsChain Advances :=
    .cons_cons (advances_evenSnapshot (by decide) (by decide) (by decide))
      (.cons_cons (advances_evenSnapshot (by decide) (by decide) (by decide)) (.singleton _))
  obtain ⟨-, -, hsums⟩ := rates_telescope hfive hchain .tcp
  rw [(hsums (evenSnapshot 0 100 6400) (evenSnapshot 120000000000 1000 64000) rfl rfl).1,
    counters_evenSnapshot, counters_evenSnapshot]
  norm_num

end EbpfXdp
