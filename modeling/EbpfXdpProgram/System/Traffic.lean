import EbpfXdpProgram.MainLoop.Gauges
import EbpfXdpProgram.System.Delivery
import EbpfXdpProgram.System.Ledger

/-!
# The traffic behind the gauges

The mix and the rates are computed from one sample to the next, and what their gauges show is a
share and a rate of the frames that were counted in between (`mix_shown`, `rates_shown`).
-/

namespace EbpfXdp

open F64 Metric

variable {n : ℕ} {F : Type} [F64 F]

namespace TrafficLedger

open Sample

/-! ## What the gauges show -/

/-- The share of the protocol among the frames from one sample to the next. -/
def mixOf (w : Sample × Sample) (p : ProtoIndex) : F :=
  ofNat (gained w p).length * 100.0 / ofNat (totalGained w)

/-- The rates of the protocol from one sample to the next, if time has passed. -/
def ratesOf (w : Sample × Sample) (p : ProtoIndex) : Option (ProtoRate F) :=
  (dtSecs w.1.timestamp w.2.timestamp).map fun dt =>
    { proto := p
      pps := ofNat (gained w p).length / dt
      bps := ofNat ((gained w p).map List.length).sum / dt }

/-- The mix was computed from these samples last. -/
def mixWindow (g : TrafficLedger) : Option (Sample × Sample) :=
  (g.mix.consecutivePairs.filter fun w => totalGained w ≠ 0).getLast?

/-- The rates of the protocol were computed from these samples last. -/
def lastRates (g : TrafficLedger) (p : ProtoIndex) : Option (ProtoRate F) :=
  (g.rates.consecutivePairs.filterMap (ratesOf · p)).getLast?

theorem packetsOf_every (h : ProtoIndex → List Frame) (p : ProtoIndex) :
    packetsOf (ProtoIndex.every.map fun p => statsOf (h p)) p = (h p).length := by
  cases p <;> rfl

theorem packetsOf_snapshots (w : Sample × Sample) (p : ProtoIndex) :
    packetsOf (diffStats w.2.snapshot.stats w.1.snapshot.stats) p = (gained w p).length := by
  have hlength : w.2.snapshot.stats.length = w.1.snapshot.stats.length := rfl
  rw [packetsOf_diffStats hlength, gained, List.length_drop]
  exact congrArg₂ (· - ·) (packetsOf_every w.2.frames p) (packetsOf_every w.1.frames p)

theorem totalPackets_snapshots (w : Sample × Sample) :
    totalPackets (diffStats w.2.snapshot.stats w.1.snapshot.stats) = totalGained w := by
  rw [totalPackets_eq (length_diffStats rfl rfl), funext (packetsOf_snapshots w)]
  rfl

theorem written_mixAggregation {g : TrafficLedger} {l : MainLoop F} (h : Knows g l) (p : ProtoIndex) :
    written l.mixAggregation.2.metrics (.proto "xdp_traffic_mix_pct" p) =
      (g.mix.getLast?.bind fun a => g.polled.bind fun b =>
        if totalGained (a, b) = 0 then none else some (mixOf (a, b) p)) := by
  have hcurrent := h.current
  have hmix := h.mix
  unfold MainLoop.mixAggregation primeOrDiff
  rw [hcurrent, hmix]
  rcases g.polled with _ | b
  · cases g.mix.getLast? <;> rfl
  · rcases g.mix.getLast? with _ | a
    · rfl
    · dsimp only [Option.map_some, Option.bind_some]
      rw [computeMix_eq (length_diffStats rfl rfl), totalPackets_snapshots (a, b)]
      by_cases hzero : totalGained (a, b) = 0
      · rw [if_pos hzero, if_pos hzero]
        rfl
      · have hshares : ∀ f : ProtoIndex → ProtoIndex × F, (ProtoIndex.every.map f).isEmpty = false :=
          fun f => rfl
        rw [if_neg hzero, if_neg hzero, hshares, if_neg Bool.false_ne_true, updateMix, List.map_map,
          List.map_eq_flatMap, written_every (p := p) fun q hq => by simp [Op.valueOf, hq]]
        have hmixOf : ∀ q, mixShare (F := F) (diffStats b.snapshot.stats a.snapshot.stats) q =
            mixOf (a, b) q := fun q => by
          unfold mixShare mixOf
          rw [packetsOf_snapshots (a, b), totalPackets_snapshots (a, b)]
        simp [hmixOf, Op.valueOf]

theorem about_snapshot (a : Sample) (p : ProtoIndex) :
    a.snapshot.about p = (a.timestamp, some (statsOf (a.frames p))) := by
  cases p <;> rfl

theorem protoRate_snapshots {w : Sample × Sample} (h : Precedes w.1 w.2) (p : ProtoIndex) :
    (protoRate p (w.1.snapshot.about p) (w.2.snapshot.about p) : Option (ProtoRate F)) =
      ratesOf w p := by
  have hpackets : (w.2.frames p).length - (w.1.frames p).length = (gained w p).length := by
    rw [gained, List.length_drop]
  have hbytes : ((w.2.frames p).map List.length).sum - ((w.1.frames p).map List.length).sum =
      ((gained w p).map List.length).sum := by
    obtain ⟨rest, hrest⟩ := h p
    unfold gained
    rw [← hrest, List.drop_left, List.map_append, List.sum_append, Nat.add_sub_cancel_left]
  unfold protoRate ratesOf rate
  rw [about_snapshot, about_snapshot]
  cases (dtSecs w.1.timestamp w.2.timestamp : Option F) with
  | none => rfl
  | some dt =>
    simp only [Option.bind_some, Option.map_some, statsOf, hpackets, hbytes]

theorem written_anomalyEval {g : TrafficLedger} {l : MainLoop F} (h : Knows g l) (hg : g.Ordered)
    (fmt : WireFormat F) (amSink : Bool) (amGeneratorUrl : Option String) (eval : AnomalyEval)
    (p : ProtoIndex) {k : String × (ProtoRate F → F)} (hk : k ∈ rateGauges) :
    written (l.anomalyEval fmt amSink amGeneratorUrl eval).2.metrics (.proto k.1 p) =
      (g.rates.getLast?.bind fun a => g.polled.bind fun b => ratesOf (a, b) p).map k.2 := by
  have hprev := h.rates
  have hcurr : (l.runnerTick eval).current = g.polled.map Sample.snapshot := h.current
  show written (l.anomalyRunner.records eval.slots (l.runnerTick eval)) _ = _
  rcases hlast : g.rates.getLast? with _ | a
  · rw [hlast] at hprev
    exact congrArg (written · _) (AnomalyRunner.records_skipped (.inl hprev))
  · rcases hpolled : g.polled with _ | b
    · rw [hpolled] at hcurr
      exact congrArg (written · _) (AnomalyRunner.records_skipped (.inr hcurr))
    · rw [hlast] at hprev
      rw [hpolled] at hcurr
      have hprecedes : Precedes a b := by
        have horder := hg.rates.order
        rw [hpolled] at horder
        exact (List.pairwise_append.mp horder).2.2 a (List.mem_of_getLast? hlast) b
          (List.mem_singleton_self b)
      refine (MainLoop.reads_rate p hk _ _ _ _ _ hprev hcurr).trans ?_
      dsimp only
      rw [AnomalyRunner.ratesOf_eq, hprev, hcurr]
      simp only [Option.map_some, Option.bind_some]
      rw [protoRate_snapshots (w := (a, b)) hprecedes]
      cases (ratesOf (a, b) p : Option (ProtoRate F)) <;> rfl

section Turn

variable {fmt : WireFormat F} {amSink : Bool} {amGeneratorUrl : Option String} {g : TrafficLedger}
  {l : MainLoop F} (h : Knows g l) (hrunning : l.status = .running)

theorem consecutivePairs_append_toList {α : Type} (xs : List α) (o : Option α) :
    (xs ++ o.toList).consecutivePairs =
      xs.consecutivePairs ++ (xs.getLast?.bind fun a => o.map fun b => (a, b)).toList := by
  cases o with
  | none => cases xs.getLast? <;> simp
  | some b =>
    rw [Option.toList_some, consecutivePairs_concat]
    cases xs.getLast? <;> rfl

include h hrunning

/-- The mix gauge after a turn: an aggregation writes it, and nothing else does. -/
theorem written_mix (e : LoopEvent) (p : ProtoIndex) :
    (written (l.step fmt amSink amGeneratorUrl e).2.metrics (.proto "xdp_traffic_mix_pct" p)).or
        (g.mixWindow.map (mixOf · p)) =
      (g.take e).mixWindow.map (mixOf (F := F) · p) := by
  have hother : "xdp_traffic_mix_pct" ∉ runnerNames ∧ "xdp_traffic_mix_pct" ∉ synfloodNames ∧
      "xdp_traffic_mix_pct" ∉ portScanNames := by decide
  obtain ⟨hrunner, hsynflood, hportScan⟩ := hother
  unfold MainLoop.step MainLoop.turn
  rw [if_pos hrunning]
  rcases e with ⟨_ | curr, now⟩ | _ | eval | eval | eval | _ | _ | _
  · rfl
  · rfl
  · dsimp only
    rw [written_mixAggregation h p]
    unfold mixWindow take
    dsimp only
    rw [consecutivePairs_append_toList, List.filter_append, List.getLast?_append]
    rcases g.mix.getLast? with _ | a
    · rfl
    · rcases g.polled with _ | b
      · rfl
      · by_cases hzero : totalGained (a, b) = 0 <;> simp [hzero]
  · have huntouched : written (l.anomalyEval fmt amSink amGeneratorUrl eval).2.metrics
        (.proto "xdp_traffic_mix_pct" p) = none :=
      ((AnomalyRunner.writesOnly_records eval.slots _ _).untouched hrunner).1
    dsimp only
    rw [huntouched]
    rfl
  · dsimp only
    rw [((l.writesOnly_synfloodEval eval).untouched hsynflood).1]
    rfl
  · dsimp only
    rw [((l.writesOnly_portScanEval eval).untouched hportScan).1]
    rfl
  · rfl
  · rfl
  · rfl

/-- The rate gauges after a turn: an anomaly tick writes them, and nothing else does. -/
theorem written_rates (ho : g.Ordered) (e : LoopEvent) (p : ProtoIndex)
    {k : String × (ProtoRate F → F)} (hk : k ∈ rateGauges) :
    (written (l.step fmt amSink amGeneratorUrl e).2.metrics (.proto k.1 p)).or
        ((g.lastRates p).map k.2) =
      ((g.take e).lastRates p).map k.2 := by
  have hdisjoint : ∀ name ∈ rateNames,
      name ∉ ["xdp_traffic_mix_pct"] ∧ name ∉ synfloodNames ∧ name ∉ portScanNames := by decide
  obtain ⟨hmix, hsynflood, hportScan⟩ := hdisjoint _ (name_mem_rateNames hk)
  unfold MainLoop.step MainLoop.turn
  rw [if_pos hrunning]
  rcases e with ⟨_ | curr, now⟩ | _ | eval | eval | eval | _ | _ | _
  · rfl
  · rfl
  · dsimp only
    rw [(l.writesOnly_mixAggregation.untouched hmix).1]
    rfl
  · dsimp only
    rw [written_anomalyEval h ho fmt amSink amGeneratorUrl eval p hk]
    unfold lastRates take
    dsimp only
    rw [consecutivePairs_append_toList, List.filterMap_append, List.getLast?_append, ← Option.map_or]
    congr 2
    rcases g.rates.getLast? with _ | a
    · rfl
    · rcases g.polled with _ | b
      · rfl
      · simp only [Option.bind_some, Option.map_some, Option.toList_some]
        cases hw : (ratesOf (a, b) p : Option (ProtoRate F)) <;> simp [hw]
  · dsimp only
    rw [((l.writesOnly_synfloodEval eval).untouched hsynflood).1]
    rfl
  · dsimp only
    rw [((l.writesOnly_portScanEval eval).untouched hportScan).1]
    rfl
  · rfl
  · rfl
  · rfl

end Turn

end TrafficLedger

/-! ## The system -/

namespace System

open Sample TrafficLedger

omit [F64 F] in
theorem ledger_append (trace out : List (Observation F)) :
    ledger (trace ++ out) = out.foldl .observe (ledger trace) := List.foldl_append

omit [F64 F] in
theorem ledger_exchange {trace out : List (Observation F)} (h : ∀ o ∈ out, o.IsExchange) :
    ledger (trace ++ out) = ledger trace ∧ ops (trace ++ out) = ops trace := by
  induction out using List.reverseRecOn with
  | nil => exact ⟨congrArg ledger (List.append_nil trace), congrArg ops (List.append_nil trace)⟩
  | append_singleton out o ih =>
    obtain ⟨hledger, hops⟩ := ih fun o' ho' => h o' (List.mem_append_left _ ho')
    have ho := h o (List.mem_append_right _ (List.mem_singleton_self o))
    rw [← List.append_assoc, ledger_append, ops_append, hledger, hops]
    cases o with
    | dispatched output => exact ⟨rfl, List.append_nil _⟩
    | answered request response => exact ⟨rfl, List.append_nil _⟩
    | counted _ | recorded _ _ | evictedSyn _ | evictedPort _ | read _ | took _ | wrote _ =>
      exact ho.elim

variable (fmt : WireFormat F) (amSink : Bool) (amGeneratorUrl : Option String)

/-- The counters of the kernel and of the loop are those of the ledger, and so are the gauges. -/
structure Traffic (trace : List (Observation F)) (s : System n F) : Prop where
  kernel : ∀ p, totalStats s.kernel.maps.protoStats p = statsOf ((ledger trace).counted p)
  reads : (ledger trace).Reads s.passes.stats
  knows : (ledger trace).Knows s.loop
  mix : ∀ p, written (ops trace) (.proto "xdp_traffic_mix_pct" p) =
    (ledger trace).mixWindow.map (mixOf · p)
  rates : ∀ p, ∀ k ∈ rateGauges,
    written (ops trace) (.proto k.1 p) = ((ledger trace).lastRates p).map k.2

theorem Traffic.other {trace trace' : List (Observation F)} {s s' : System n F} (h : Traffic trace s)
    (hledger : ledger trace' = ledger trace) (hops : ops trace' = ops trace)
    (hkernel : s'.kernel.maps.protoStats = s.kernel.maps.protoStats)
    (hpasses : s'.passes.stats = s.passes.stats) (hloop : s'.loop = s.loop) : Traffic trace' s' := by
  refine ⟨?_, ?_, ?_, ?_, ?_⟩
  · rw [hledger, hkernel]
    exact h.kernel
  · rw [hledger, hpasses]
    exact h.reads
  · rw [hledger, hloop]
    exact h.knows
  · rw [hledger, hops]
    exact h.mix
  · rw [hledger, hops]
    exact h.rates

section Steps

variable {fmt amSink amGeneratorUrl} {trace : List (Observation F)} {s : System n F}
  (h : Traffic trace s)

include h

theorem Traffic.cpu (c : CpuStep n) :
    Traffic (trace ++ ((s.kernel.counts c).toList.map .counted ++
      (s.kernel.records c).toList.map fun e => .recorded e.1 e.2))
      { s with kernel := (s.kernel.step c).1 } := by
  have hops : ops (trace ++ ((s.kernel.counts c).toList.map .counted ++
      (s.kernel.records c).toList.map fun e => .recorded e.1 e.2)) = ops trace := by
    rw [ops_append]
    cases s.kernel.counts c <;> cases s.kernel.records c <;> exact List.append_nil _
  have hledger : ledger (trace ++ ((s.kernel.counts c).toList.map .counted ++
      (s.kernel.records c).toList.map fun e => .recorded e.1 e.2)) =
      { ledger trace with
        counted := fun p => (ledger trace).counted p ++
          (s.kernel.counts c).toList.filter fun f => f.bucket = some p } := by
    rw [ledger_append]
    cases s.kernel.counts c with
    | none =>
      simp only [Option.toList_none, List.filter_nil, List.append_nil]
      cases s.kernel.records c <;> rfl
    | some f => cases s.kernel.records c <;> rfl
  refine ⟨fun p => ?_, ?_, ?_, ?_, ?_⟩
  · rw [hledger]
    exact Machine.totalStats_step (h.kernel p) c
  · rw [hledger]
    exact ⟨h.reads.idx, h.reads.stats⟩
  · rw [hledger]
    exact ⟨h.knows.current, h.knows.mix, h.knows.rates⟩
  · rw [hledger, hops]
    exact h.mix
  · rw [hledger, hops]
    exact h.rates

theorem Traffic.bucket :
    Traffic (trace ++ [.read .bucket])
      { s with passes := s.passes.step s.kernel.maps .bucket } := by
  have hledger : ledger (trace ++ [.read .bucket]) =
      (ledger trace).observe (.read .bucket : Observation F) := ledger_append ..
  have hops : ops (trace ++ [.read .bucket]) = ops trace := by
    rw [ops_append]
    exact List.append_nil _
  refine ⟨?_, ?_, ?_, ?_, ?_⟩
  · rw [hledger]
    exact h.kernel
  · rw [hledger]
    exact h.reads.next h.kernel
  · rw [hledger]
    exact ⟨h.knows.current, h.knows.mix, h.knows.rates⟩
  · rw [hledger, hops]
    exact h.mix
  · rw [hledger, hops]
    exact h.rates

theorem Traffic.read (r : ReadStep) :
    Traffic (trace ++ [.read r]) { s with passes := s.passes.step s.kernel.maps r } := by
  have hops : ops (trace ++ [.read r]) = ops trace := by
    rw [ops_append]
    exact List.append_nil _
  cases r with
  | bucket => exact h.bucket
  | startSyn => exact h.other (ledger_append ..) hops rfl rfl rfl
  | syn srcAddr => exact h.other (ledger_append ..) hops rfl rfl rfl
  | startPorts => exact h.other (ledger_append ..) hops rfl rfl rfl
  | port key => exact h.other (ledger_append ..) hops rfl rfl rfl

theorem Traffic.arm (hrunning : s.loop.status = .running) (arm : Arm) :
    let e := arm.event s.passes
    let turn := (s.loop.step fmt amSink amGeneratorUrl e).2
    Traffic (trace ++ [.took e, .wrote turn.metrics])
      { s with
        passes := .idle
        loop := (s.loop.step fmt amSink amGeneratorUrl e).1
        unsent := some turn.pushes } := by
  intro e turn
  have hledger : ledger (trace ++ [.took e, .wrote turn.metrics]) = (ledger trace).take e :=
    ledger_append ..
  have hops : System.ops (trace ++ [.took e, .wrote turn.metrics]) =
      System.ops trace ++ turn.metrics := by
    rw [ops_append]
    exact congrArg _ (List.append_nil _)
  have hcounted : ((ledger trace).take e).counted = (ledger trace).counted := by
    rcases e with ⟨_ | curr, now⟩ | _ | _ | _ | _ | _ | _ | _ <;> rfl
  have hidx : ((ledger trace).take e).idx = 0 := by
    rcases e with ⟨_ | curr, now⟩ | _ | _ | _ | _ | _ | _ | _ <;> rfl
  refine ⟨?_, ?_, ?_, fun p => ?_, fun p k hk => ?_⟩
  · rw [hledger, hcounted]
    exact h.kernel
  · rw [hledger]
    exact reads_start hidx
  · rw [hledger]
    refine h.knows.step fmt amSink amGeneratorUrl hrunning e fun curr now he => ?_
    change arm.event s.passes = _ at he
    cases arm with
    | statsPoll succeeds timestamp now' =>
      obtain ⟨hread, -⟩ := LoopEvent.statsPoll.inj he
      split_ifs at hread
      obtain ⟨stats, hresult, rfl⟩ := Option.map_eq_some_iff.mp hread
      rw [h.reads.result hresult]
      rfl
    | _ => cases he
  · rw [hops, written_append, h.mix, hledger]
    exact written_mix h.knows hrunning e p
  · rw [hops, written_append, h.rates p k hk, hledger]
    exact TrafficLedger.written_rates h.knows hrunning (ordered_ledger trace) e p hk

end Steps

theorem kept_traffic : Kept fmt amSink amGeneratorUrl (Traffic (n := n)) where
  cpu c h := h.cpu c
  evictSyn _ h := by
    refine h.other (ledger_append ..) ?_ rfl rfl rfl
    rw [ops_append]
    exact List.append_nil _
  evictPort _ h := by
    refine h.other (ledger_append ..) ?_ rfl rfl rfl
    rw [ops_append]
    exact List.append_nil _
  read r h := h.read r
  arm arm hrunning h := h.arm hrunning arm
  exchange hkernel hpasses hloop hout h := by
    obtain ⟨hledger, hops⟩ := ledger_exchange hout
    exact h.other hledger hops (by rw [hkernel]) (by rw [hpasses]) hloop

theorem traffic_after (detectors : ResolvedDetectors F) (now : Instant) (steps : List (SystemStep n)) :
    let s := new (.new detectors now)
    Traffic (s.trace fmt amSink amGeneratorUrl steps) (s.after fmt amSink amGeneratorUrl steps) := by
  intro s
  refine (kept_traffic fmt amSink amGeneratorUrl).after ?_ steps
  refine ⟨fun p => ?_, reads_start rfl, ⟨rfl, rfl, rfl⟩, fun p => rfl, fun p k hk => rfl⟩
  show (⟨∑ c : Fin n, 0, ∑ c : Fin n, 0⟩ : TrafficCounters) = ⟨0, 0⟩
  rw [Finset.sum_const_zero]

/-- **The mix gauges show frames**: after every interleaving, the gauge of a protocol is its share
of the frames that were counted between the two last samples of the mix with a frame in between. The
samples leave no frame out and count none twice. -/
theorem mix_shown (detectors : ResolvedDetectors F) (now : Instant) (steps : List (SystemStep n))
    (p : ProtoIndex) :
    let trace := (new (.new detectors now)).trace fmt amSink amGeneratorUrl steps
    let windows := (ledger trace).mix.consecutivePairs
    (registry trace).gauges.lookup (.proto "xdp_traffic_mix_pct" p) =
      (windows.filter fun w => totalGained w ≠ 0).getLast?.map (fun w =>
        ofNat (gained w p).length * 100.0 / ofNat (totalGained w)) ∧
    (windows.flatMap fun w => gained w p) <:+:
      (frames trace).filter fun f => f.bucket = some p := by
  intro trace windows
  have h : Traffic trace _ := traffic_after fmt amSink amGeneratorUrl detectors now steps
  have ho := ordered_ledger trace
  have hmix : Follows (ledger trace).read (ledger trace).mix :=
    ⟨(List.pairwise_append.mp ho.mix.order).1, fun a ha => ho.mix.seen a (List.mem_append_left _ ha)⟩
  refine ⟨(gauge_registry trace _).trans (h.mix p), ?_⟩
  rw [← counted_ledger]
  exact (hmix.isInfix p).trans (ho.read p).isInfix

theorem ratesOf_eq [LawfulF64 F] (w : Sample × Sample) (p : ProtoIndex) :
    (TrafficLedger.ratesOf w p : Option (ProtoRate F)) =
      if w.1.timestamp < w.2.timestamp then
        some ⟨p, ofNat (gained w p).length / asSecs (durationSince w.2.timestamp w.1.timestamp),
          ofNat ((gained w p).map List.length).sum /
            asSecs (durationSince w.2.timestamp w.1.timestamp)⟩
      else none := by
  unfold TrafficLedger.ratesOf
  split_ifs with hlt
  · rw [dtSecs_eq_some hlt]
    rfl
  · rw [dtSecs_eq_none (not_lt.mp hlt)]
    rfl

end System

end EbpfXdp
