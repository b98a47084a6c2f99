import EbpfXdpProgram.MainLoop.Start
import EbpfXdpProgram.Pipeline.SynFloodAlerts
import EbpfXdpProgram.System

/-!
# The traffic behind a SYN-flood alert

The CPUs record SYNs, the kernel evicts sources and the loop reads one source after the other, all
at once. An eviction loses SYNs, and a source that is read late has more of them; but no read has
more SYNs of a source than were recorded since the read before it began. So a SYN-flood alert is
never raised for less traffic than its configuration says (`flood_backed`).
-/

namespace EbpfXdp

open F64

variable {n : ℕ} {F : Type} [F64 F]

/-! ## The ledger -/

/-- A read of `SYN_TRACKER`, with the bare SYNs that were recorded when it began and when it
ended. -/
structure SynRead where
  tick : SynTick
  curr : SynCountersSnapshot
  began : List Frame
  ended : List Frame

def synsFrom (x : UInt32) (frames : List Frame) : ℕ := frames.countP fun f => f.source = x

theorem synsFrom_append (x : UInt32) (frames frames' : List Frame) :
    synsFrom x (frames ++ frames') = synsFrom x frames + synsFrom x frames' := List.countP_append

theorem synsFrom_le {x : UInt32} {frames frames' : List Frame} (h : frames <+: frames') :
    synsFrom x frames ≤ synsFrom x frames' := h.sublist.countP_le

namespace SynRead

/-- The SYNs of the source that were recorded from the beginning of a read to the end of the
next. -/
def syns (w : SynRead × SynRead) (x : UInt32) : ℕ :=
  synsFrom x (w.2.ended.drop w.1.began.length)

/-- The SYNs of the source that were recorded from the end of a read to the beginning of the
next. -/
def between (w : SynRead × SynRead) (x : UInt32) : ℕ :=
  synsFrom x (w.2.began.drop w.1.ended.length)

def interval (w : SynRead × SynRead) : SynInterval := ⟨w.1.curr, w.2.curr, w.2.tick⟩

/-- The later read has no more SYNs than were recorded since the earlier one began. -/
def Bounded (a b : SynRead) : Prop :=
  a.began <+: b.ended ∧
    ∀ x, b.curr.packets x + synsFrom x a.began ≤ a.curr.packets x + synsFrom x b.ended

theorem Bounded.packets_le {w : SynRead × SynRead} (h : Bounded w.1 w.2) (x : UInt32) :
    w.2.curr.packets x - w.1.curr.packets x ≤ syns w x := by
  obtain ⟨⟨rest, hrest⟩, hle⟩ := h
  have hx := hle x
  rw [← hrest, synsFrom_append] at hx
  unfold syns
  rw [← hrest, List.drop_left]
  omega

end SynRead

/-- The bare SYNs recorded and the sources evicted so far, and the reads of the tracker. -/
structure SynLedger where
  recorded : List Frame
  evicted : List UInt32
  /-- Those recorded when the read in progress began. -/
  began : List Frame
  reads : List SynRead

namespace SynLedger

def new : SynLedger := ⟨[], [], [], []⟩

def observe (g : SynLedger) : Observation F → SynLedger
  | .recorded frame _ => { g with recorded := g.recorded ++ [frame] }
  | .evictedSyn srcAddr => { g with evicted := g.evicted ++ [srcAddr] }
  | .read .startSyn => { g with began := g.recorded }
  | .took (.synfloodEval eval) =>
    match eval.tick.current with
    | some curr => { g with reads := g.reads ++ [⟨eval.tick, curr, g.began, g.recorded⟩] }
    | none => g
  | _ => g

omit [F64 F] in
theorem observe_took_none {g : SynLedger} {e : LoopEvent}
    (h : ∀ eval, e = .synfloodEval eval → eval.tick.current = none) :
    g.observe (.took e : Observation F) = g := by
  cases e with
  | synfloodEval eval =>
    unfold observe
    dsimp only
    rw [h eval rfl]
  | _ => rfl

omit [F64 F] in
theorem observe_took_some {g : SynLedger} {eval : SynFloodEval} {curr : SynCountersSnapshot}
    (h : eval.tick.current = some curr) : g.observe (.took (.synfloodEval eval) : Observation F) =
      { g with reads := g.reads ++ [⟨eval.tick, curr, g.began, g.recorded⟩] } := by
  unfold observe
  dsimp only
  rw [h]

end SynLedger

namespace System

def synLedger (trace : List (Observation F)) : SynLedger := trace.foldl .observe .new

omit [F64 F] in
theorem synLedger_append (trace out : List (Observation F)) :
    synLedger (trace ++ out) = out.foldl .observe (synLedger trace) := List.foldl_append

omit [F64 F] in
theorem synLedger_exchange {trace out : List (Observation F)} (h : ∀ o ∈ out, o.IsExchange) :
    synLedger (trace ++ out) = synLedger trace := by
  rw [synLedger_append]
  refine @List.foldlRecOn _ _ (· = synLedger trace) out _ _ rfl fun g hg o ho => ?_
  rw [hg]
  cases o with
  | dispatched output => rfl
  | answered request response => rfl
  | counted _ | recorded _ _ | evictedSyn _ | evictedPort _ | read _ | took _ | wrote _ =>
    exact (h _ ho).elim

end System

/-! ## The tracker and its reads -/

def packetsRead (entry : Option SynCounter) : ℕ := (entry.map (·.packets)).getD 0

namespace SynLedger

/-- What a read has of a source is no less than what the tracker has, but for the SYNs since the
read began, and no more than the read before it allows. -/
structure Fair (g : SynLedger) (maps : KernelState n) (x : UInt32) (entry : Option SynCounter) :
    Prop where
  present : maps.synPackets x + synsFrom x g.began ≤ packetsRead entry + synsFrom x g.recorded
  recorded : packetsRead entry ≤ synsFrom x g.recorded
  prev : ∀ r ∈ g.reads.getLast?,
    packetsRead entry + synsFrom x r.began ≤ r.curr.packets x + synsFrom x g.recorded

/-- The tracker has no more SYNs of a source than were recorded and than its last read allows. -/
structure Covered (g : SynLedger) (maps : KernelState n) (x : UInt32) : Prop where
  recorded : maps.synPackets x ≤ synsFrom x g.recorded
  prev : ∀ r ∈ g.reads.getLast?,
    maps.synPackets x + synsFrom x r.began ≤ r.curr.packets x + synsFrom x g.recorded

/-- The SYNs of the ledger come in the order of the reads. -/
structure Ordered (g : SynLedger) : Prop where
  began : g.began <+: g.recorded
  read : ∀ r ∈ g.reads, r.began <+: r.ended ∧ r.ended <+: g.recorded ∧ r.tick.current = some r.curr

theorem Ordered.synsFrom_began {g : SynLedger} (h : g.Ordered) {r : SynRead} (hr : r ∈ g.reads)
    (x : UInt32) : synsFrom x r.began ≤ synsFrom x g.recorded :=
  synsFrom_le ((h.read r hr).1.trans (h.read r hr).2.1)

omit [F64 F] in
theorem Ordered.observe {g : SynLedger} (h : g.Ordered) (o : Observation F) :
    (g.observe o).Ordered := by
  rcases o with _ | ⟨frame, now⟩ | _ | _ | ⟨_ | _ | _ | _ | _⟩ | event | _ | _ | _
  case recorded =>
    have hgrow : g.recorded <+: g.recorded ++ [frame] := List.prefix_append _ _
    exact ⟨h.began.trans hgrow, fun r hr =>
      ⟨(h.read r hr).1, (h.read r hr).2.1.trans hgrow, (h.read r hr).2.2⟩⟩
  case evictedSyn => exact ⟨h.began, h.read⟩
  case read.startSyn => exact ⟨List.prefix_rfl, h.read⟩
  case took =>
    rcases event with _ | _ | _ | eval | _ | _ | _ | _
    case synfloodEval =>
      unfold SynLedger.observe
      dsimp only
      cases hcurr : eval.tick.current with
      | none => exact h
      | some curr =>
        refine ⟨h.began, fun r hr => ?_⟩
        rcases List.mem_append.mp hr with hr | hr
        · exact h.read r hr
        · obtain rfl := List.mem_singleton.mp hr
          exact ⟨h.began, List.prefix_rfl, hcurr⟩
    all_goals exact h
  all_goals exact h

omit [F64 F] in
theorem ordered_synLedger (trace : List (Observation F)) : (System.synLedger trace).Ordered := by
  refine List.foldlRecOn trace _ ?_ fun g hg o _ => hg.observe o
  exact ⟨List.prefix_rfl, fun r hr => absurd hr List.not_mem_nil⟩

section Fair

variable {g : SynLedger} {maps : KernelState n} (ho : g.Ordered) {x : UInt32}

include ho

theorem Ordered.fair_none (hgone : x ∉ maps.synTracker) : g.Fair maps x none where
  present := by
    rw [KernelState.synPackets_of_not_mem hgone]
    exact Nat.add_le_add_left (synsFrom_le ho.began) 0
  recorded := Nat.zero_le _
  prev r hr := by
    have hbegan := ho.synsFrom_began (List.mem_of_getLast? hr) x
    unfold packetsRead
    rw [Option.map_none, Option.getD_none]
    omega

theorem Ordered.fair_lookup (hcovered : g.Covered maps x) {slots : Fin n → SynCounter}
    (hlookup : maps.synTracker.lookup x = some slots) : g.Fair maps x (some (sumSlots slots)) := by
  have hpackets : packetsRead (some (sumSlots slots)) = maps.synPackets x := by
    unfold KernelState.synPackets
    rw [totalSyn_of_lookup hlookup]
    rfl
  refine ⟨?_, ?_, fun r hr => ?_⟩
  · rw [hpackets]
    exact Nat.add_le_add_left (synsFrom_le ho.began) _
  · rw [hpackets]
    exact hcovered.recorded
  · rw [hpackets]
    exact hcovered.prev r hr

end Fair

section Grow

variable {g g' : SynLedger} {maps maps' : KernelState n} {x : UInt32} {entry : Option SynCounter}

theorem Fair.grow (h : g.Fair maps x entry) (hbegan : g'.began = g.began)
    (hreads : g'.reads = g.reads) (hrecorded : g.recorded <+: g'.recorded)
    (hmaps : maps'.synPackets x + synsFrom x g.recorded ≤
      maps.synPackets x + synsFrom x g'.recorded) : g'.Fair maps' x entry := by
  have hgrow := synsFrom_le (x := x) hrecorded
  refine ⟨?_, h.recorded.trans hgrow, fun r hr => ?_⟩
  · have hpresent := h.present
    rw [hbegan]
    omega
  · rw [hreads] at hr
    exact (h.prev r hr).trans (Nat.add_le_add_left hgrow _)

theorem Covered.grow (h : g.Covered maps x) (hreads : g'.reads = g.reads)
    (hmaps : maps'.synPackets x + synsFrom x g.recorded ≤
      maps.synPackets x + synsFrom x g'.recorded) : g'.Covered maps' x := by
  refine ⟨?_, fun r hr => ?_⟩
  · have hrecorded := h.recorded
    omega
  · rw [hreads] at hr
    have hprev := h.prev r hr
    omega

end Grow

end SynLedger

/-! ## The system -/

namespace System

open SynLedger

variable (d : SynFloodDetector F) (P : FsmConfig)

/-- The read in progress is fair, those before it are bounded, and the runner has seen them. What is
not evicted is exact. -/
structure Flood (trace : List (Observation F)) (s : System n F) : Prop where
  holds : s.kernel.Holds
  exact : ∀ x ∉ (synLedger trace).evicted, s.kernel.Exact x (synLedger trace).recorded
  pass : ∀ r, s.passes.syn = some r → r.Along ((synLedger trace).Fair s.kernel.maps)
  covered : ∀ x, (synLedger trace).Covered s.kernel.maps x
  bounded : (synLedger trace).reads.IsChain SynRead.Bounded
  counted : ∀ r ∈ (synLedger trace).reads, ∀ x, r.curr.packets x ≤ synsFrom x r.ended ∧
    (x ∉ (synLedger trace).evicted → synsFrom x r.began ≤ r.curr.packets x)
  runner : s.loop.synfloodRunner = .after d P ((synLedger trace).reads.map (·.tick))

section Steps

variable {d P} {fmt : WireFormat F} {amSink : Bool} {amGeneratorUrl : Option String}
  {trace : List (Observation F)} {s : System n F} (h : Flood d P trace s)

include h

theorem Flood.other {s' : System n F} {trace' : List (Observation F)}
    (hledger : synLedger trace' = synLedger trace)
    (htracker : s'.kernel.maps.synTracker = s.kernel.maps.synTracker)
    (hphase : s'.kernel.phase = s.kernel.phase) (hpasses : s'.passes.syn = s.passes.syn)
    (hloop : s'.loop.synfloodRunner = s.loop.synfloodRunner) : Flood d P trace' s' := by
  have hpackets : ∀ x, s'.kernel.maps.synPackets x = s.kernel.maps.synPackets x := fun x =>
    KernelState.synPackets_congr (by rw [htracker])
  refine ⟨h.holds.congr hphase, fun x hx => ?_, fun r hr => ?_, fun x => ?_, ?_, ?_, ?_⟩
  · rw [hledger] at hx ⊢
    exact (h.exact x hx).other (by rw [htracker]) fun cpu f d found hp => by rwa [hphase] at hp
  · rw [hledger]
    exact (h.pass r (hpasses.symm.trans hr)).mono fun x b hfair =>
      hfair.grow rfl rfl List.prefix_rfl (by rw [hpackets])
  · rw [hledger]
    exact (h.covered x).grow rfl (by rw [hpackets])
  · rw [hledger]
    exact h.bounded
  · rw [hledger]
    exact h.counted
  · rw [hledger, hloop]
    exact h.runner

theorem Flood.cpu (c : CpuStep n) :
    Flood d P (trace ++ ((s.kernel.counts c).toList.map .counted ++
      (s.kernel.records c).toList.map fun e => .recorded e.1 e.2))
      { s with kernel := (s.kernel.step c).1 } := by
  have hledger : synLedger (trace ++ ((s.kernel.counts c).toList.map .counted ++
      (s.kernel.records c).toList.map fun e => .recorded e.1 e.2)) =
      { synLedger trace with
        recorded := (synLedger trace).recorded ++ (s.kernel.records c).toList.map (·.1) } := by
    rw [synLedger_append]
    cases s.kernel.records c with
    | none =>
      simp only [Option.toList_none, List.map_nil, List.append_nil]
      cases s.kernel.counts c <;> rfl
    | some e => cases s.kernel.counts c <;> rfl
  have hmaps : ∀ x, (s.kernel.step c).1.maps.synPackets x + synsFrom x (synLedger trace).recorded ≤
      s.kernel.maps.synPackets x + synsFrom x ((synLedger trace).recorded ++
        (s.kernel.records c).toList.map (·.1)) := fun x => by
    have hstep := Machine.synPackets_step_le h.holds c x
    rw [synsFrom_append]
    unfold synsFrom
    rw [List.countP_map]
    have hcount : (s.kernel.records c).toList.countP ((fun f => decide (f.source = x)) ∘ (·.1)) =
        (s.kernel.records c).toList.countP fun e => e.1.source = x := rfl
    omega
  refine ⟨h.holds.step c, fun x hx => ?_, fun r hr => ?_, fun x => ?_, ?_, ?_, ?_⟩
  · rw [hledger] at hx ⊢
    exact (h.exact x hx).step h.holds c
  · rw [hledger]
    exact (h.pass r hr).mono fun x b hfair =>
      hfair.grow rfl rfl (List.prefix_append _ _) (hmaps x)
  · rw [hledger]
    exact (h.covered x).grow rfl (hmaps x)
  · rw [hledger]
    exact h.bounded
  · rw [hledger]
    exact h.counted
  · rw [hledger]
    exact h.runner

theorem Flood.evictSyn (srcAddr : UInt32) :
    Flood d P (trace ++ [.evictedSyn srcAddr])
      { s with
        kernel := { s.kernel with maps := s.kernel.maps.evictSyn srcAddr }
        passes := { s.passes with syn := s.passes.syn.map (·.forget srcAddr) } } := by
  have hledger : synLedger (trace ++ [.evictedSyn srcAddr]) =
      { synLedger trace with evicted := (synLedger trace).evicted ++ [srcAddr] } :=
    synLedger_append ..
  have ho := ordered_synLedger (trace ++ [.evictedSyn srcAddr])
  have hle : ∀ x, (s.kernel.maps.evictSyn srcAddr).synPackets x +
      synsFrom x (synLedger trace).recorded ≤
        s.kernel.maps.synPackets x + synsFrom x (synLedger trace).recorded := fun x => by
    rw [KernelState.synPackets_evictSyn]
    split_ifs
    · exact Nat.add_le_add_right (Nat.zero_le _) _
    · exact Nat.le_refl _
  have hgone : srcAddr ∉ (s.kernel.maps.evictSyn srcAddr).synTracker := by
    unfold KernelState.evictSyn
    rw [Finmap.mem_erase]
    exact fun hmem => hmem.1 rfl
  refine ⟨h.holds.congr rfl, fun x hx => ?_, fun r hr => ?_, fun x => ?_, ?_, fun r hr x => ?_, ?_⟩
  · rw [hledger] at hx ⊢
    rw [List.mem_append, List.mem_singleton, not_or] at hx
    exact (h.exact x hx.1).evictSyn hx.2
  · obtain ⟨r, hpass, rfl⟩ := Option.map_eq_some_iff.mp hr
    refine MapRead.Along.forget ((h.pass r hpass).mono fun x b hfair => ?_) (ho.fair_none hgone)
    rw [hledger]
    exact hfair.grow rfl rfl List.prefix_rfl (hle x)
  · rw [hledger]
    exact (h.covered x).grow rfl (hle x)
  · rw [hledger]
    exact h.bounded
  · rw [hledger] at hr ⊢
    exact ⟨(h.counted r hr x).1, fun hx =>
      (h.counted r hr x).2 fun hmem => hx (List.mem_append_left _ hmem)⟩
  · rw [hledger]
    exact h.runner

theorem Flood.startSyn :
    Flood d P (trace ++ [.read .startSyn])
      { s with passes := s.passes.step s.kernel.maps .startSyn } := by
  have hledger : synLedger (trace ++ [.read .startSyn]) =
      { synLedger trace with began := (synLedger trace).recorded } := synLedger_append ..
  have ho := ordered_synLedger (trace ++ [.read .startSyn])
  refine ⟨h.holds, fun x hx => ?_, fun r hr => ?_, fun x => ?_, ?_, ?_, ?_⟩
  · rw [hledger] at hx ⊢
    exact h.exact x hx
  · obtain rfl := Option.some.inj hr
    exact MapRead.along_start fun x hx => ho.fair_none hx
  · rw [hledger]
    exact ⟨(h.covered x).recorded, (h.covered x).prev⟩
  · rw [hledger]
    exact h.bounded
  · rw [hledger]
    exact h.counted
  · rw [hledger]
    exact h.runner

theorem Flood.syn (srcAddr : UInt32) :
    Flood d P (trace ++ [.read (.syn srcAddr)])
      { s with passes := s.passes.step s.kernel.maps (.syn srcAddr) } := by
  have hledger : synLedger (trace ++ [.read (.syn srcAddr)]) = synLedger trace := synLedger_append ..
  refine ⟨h.holds, ?_, fun r hr => ?_, ?_, ?_, ?_, ?_⟩
  · rw [hledger]
    exact h.exact
  · rw [hledger]
    obtain ⟨r, hpass, rfl⟩ := Option.map_eq_some_iff.mp hr
    exact (h.pass r hpass).visit fun slots hslots =>
      (ordered_synLedger trace).fair_lookup (h.covered srcAddr) hslots
  · rw [hledger]
    exact h.covered
  · rw [hledger]
    exact h.bounded
  · rw [hledger]
    exact h.counted
  · rw [hledger]
    exact h.runner

theorem Flood.arm (hrunning : s.loop.status = .running) (arm : Arm) :
    let e := arm.event s.passes
    let turn := (s.loop.step fmt amSink amGeneratorUrl e).2
    Flood d P (trace ++ [.took e, .wrote turn.metrics])
      { s with
        passes := .idle
        loop := (s.loop.step fmt amSink amGeneratorUrl e).1
        unsent := some turn.pushes } := by
  intro e turn
  have hledger : synLedger (trace ++ [.took e, .wrote turn.metrics]) =
      (synLedger trace).observe (.took e : Observation F) := synLedger_append ..
  by_cases hnone : ∀ eval, e = .synfloodEval eval → eval.tick.current = none
  · rw [SynLedger.observe_took_none hnone] at hledger
    refine ⟨h.holds, ?_, fun r hr => absurd hr (Option.some_ne_none r).symm, ?_, ?_, ?_, ?_⟩
    · rw [hledger]
      exact h.exact
    · rw [hledger]
      exact h.covered
    · rw [hledger]
      exact h.bounded
    · rw [hledger]
      exact h.counted
    · rw [hledger]
      exact (MainLoop.synfloodRunner_step_none hnone).trans h.runner
  · simp only [not_forall] at hnone
    obtain ⟨eval, heval, hcurr⟩ := hnone
    obtain ⟨curr, hcurr⟩ := Option.ne_none_iff_exists'.mp hcurr
    -- the read has ended, and is fair to every source
    obtain ⟨r, hpass, hresult⟩ : ∃ r, s.passes.syn = some r ∧ r.result = some curr.counters := by
      change arm.event s.passes = _ at heval
      cases arm with
      | synfloodEval a =>
        obtain rfl := LoopEvent.synfloodEval.inj heval
        dsimp only at hcurr
        split_ifs at hcurr
        obtain ⟨t, ht, rfl⟩ := Option.map_eq_some_iff.mp hcurr
        exact Option.bind_eq_some_iff.mp ht
      | _ => cases heval
    have hfair : ∀ x, (synLedger trace).Fair s.kernel.maps x (curr.counters.lookup x) :=
      (h.pass r hpass).result hresult
    have hobserve : (synLedger trace).observe (.took e : Observation F) = { synLedger trace with
        reads := (synLedger trace).reads ++
          [⟨eval.tick, curr, (synLedger trace).began, (synLedger trace).recorded⟩] } := by
      rw [heval]
      exact SynLedger.observe_took_some hcurr
    rw [hobserve] at hledger
    refine ⟨h.holds, ?_, fun r hr => absurd hr (Option.some_ne_none r).symm, fun x => ?_, ?_,
      fun r hr x => ?_, ?_⟩
    · rw [hledger]
      exact h.exact
    · rw [hledger]
      refine ⟨(h.covered x).recorded, fun r hr => ?_⟩
      rw [List.getLast?_concat] at hr
      obtain rfl := Option.some.inj hr
      exact (hfair x).present
    · rw [hledger]
      refine List.IsChain.append h.bounded (List.isChain_singleton _) fun a ha b hb => ?_
      obtain rfl := Option.some.inj hb
      have ho := ordered_synLedger trace
      obtain ⟨hbegan, hended, -⟩ := ho.read a (List.mem_of_getLast? ha)
      exact ⟨hbegan.trans hended, fun x => (hfair x).prev a ha⟩
    · rw [hledger] at hr ⊢
      rcases List.mem_append.mp hr with hr | hr
      · exact h.counted r hr x
      · obtain rfl := List.mem_singleton.mp hr
        refine ⟨(hfair x).recorded, fun hx => ?_⟩
        have hpresent := (hfair x).present
        rw [(h.exact x hx).packets, Nat.add_comm] at hpresent
        exact Nat.le_of_add_le_add_right hpresent
    · rw [hledger, List.map_append, List.map_singleton, SynFloodRunner.after_concat, ← h.runner,
        heval]
      exact MainLoop.synfloodRunner_step_some hrunning hcurr

theorem Flood.read (r : ReadStep) :
    Flood d P (trace ++ [.read r]) { s with passes := s.passes.step s.kernel.maps r } := by
  cases r with
  | startSyn => exact h.startSyn
  | syn srcAddr => exact h.syn srcAddr
  | bucket => exact h.other (synLedger_append ..) rfl rfl rfl rfl
  | startPorts => exact h.other (synLedger_append ..) rfl rfl rfl rfl
  | port key => exact h.other (synLedger_append ..) rfl rfl rfl rfl

theorem Flood.between_le {w : SynRead × SynRead}
    (hw : w ∈ (synLedger trace).reads.consecutivePairs) {x : UInt32}
    (hx : x ∉ (synLedger trace).evicted) :
    SynRead.between w x ≤ w.2.curr.packets x - w.1.curr.packets x := by
  obtain ⟨hfirst, hsecond⟩ := List.of_mem_zip hw
  have hsecond := List.mem_of_mem_tail hsecond
  have hle := (h.counted _ hfirst x).1
  have hge := (h.counted _ hsecond x).2 hx
  have ho := ordered_synLedger trace
  have hbegan := (ho.read _ hsecond).1.trans (ho.read _ hsecond).2.1
  unfold SynRead.between
  rcases List.prefix_or_prefix_of_prefix (ho.read _ hfirst).2.1 hbegan with ⟨rest, hrest⟩ | hoverlap
  · rw [← hrest, synsFrom_append] at hge
    rw [← hrest, List.drop_left]
    omega
  · -- the reads overlap, and there is nothing in between
    rw [List.drop_eq_nil_of_le hoverlap.length_le]
    exact Nat.zero_le _

end Steps

theorem kept_flood (fmt : WireFormat F) (amSink : Bool) (amGeneratorUrl : Option String) :
    Kept fmt amSink amGeneratorUrl (Flood (n := n) d P) where
  cpu c h := h.cpu c
  evictSyn srcAddr h := h.evictSyn srcAddr
  evictPort _ h := h.other (synLedger_append ..) rfl rfl rfl rfl
  read r h := h.read r
  arm arm hrunning h := h.arm hrunning arm
  exchange hkernel hpasses hloop hout h :=
    h.other (synLedger_exchange hout) (by rw [hkernel]) (by rw [hkernel]) (by rw [hpasses])
      (by rw [hloop])

/-- From an accepted configuration, no read is torn against the source. -/
theorem flood_after {debug : String → String} {config : Option (Config F)}
    {detectors : ResolvedDetectors F} {resolved : ResolvedConfig F}
    (h : resolveAll debug config = .ok (detectors, resolved)) (fmt : WireFormat F) (amSink : Bool)
    (amGeneratorUrl : Option String) (now : Instant) (steps : List (SystemStep n)) :
    let s := new (.new detectors now)
    Flood detectors.synfloodDetector detectors.synfloodAlertLifecycleManager.config
      (s.trace fmt amSink amGeneratorUrl steps) (s.after fmt amSink amGeneratorUrl steps) := by
  obtain ⟨⟨P, hmanager⟩, -⟩ := started_of_ok h
  refine (kept_flood _ _ fmt amSink amGeneratorUrl).after ?_ steps
  refine ⟨Machine.holds_new, fun x _ => Machine.exact_new x,
    fun r hr => absurd hr (Option.some_ne_none r).symm, fun x => ⟨?_, fun r hr => ?_⟩,
    List.isChain_nil, fun r hr => absurd hr List.not_mem_nil, ?_⟩
  · exact (Machine.exact_new x).packets.le
  · exact absurd hr (Option.some_ne_none r).symm
  · show SynFloodRunner.new _ detectors.synfloodAlertLifecycleManager = _
    rw [hmanager]
    rfl

/-- **No SYN is counted twice, and none is missed**: after every interleaving, the rate of a source
between two reads is that of at most the SYNs recorded from the beginning of the first read to the
end of the second and, if the source was never evicted, of at least those recorded from the end of
the first to the beginning of the second. -/
theorem syns_counted {debug : String → String} {config : Option (Config F)}
    {detectors : ResolvedDetectors F} {resolved : ResolvedConfig F}
    (h : resolveAll debug config = .ok (detectors, resolved)) (fmt : WireFormat F) (amSink : Bool)
    (amGeneratorUrl : Option String) (now : Instant) (steps : List (SystemStep n)) (x : UInt32) :
    let g := synLedger ((new (.new detectors now)).trace fmt amSink amGeneratorUrl steps)
    ∀ w ∈ g.reads.consecutivePairs,
      let syns := w.2.curr.packets x - w.1.curr.packets x
      (synRate w.1.curr w.2.curr x : F) =
        ofNat syns / asSecs (durationSince w.2.curr.timestamp w.1.curr.timestamp) ∧
      syns ≤ SynRead.syns w x ∧ (x ∉ g.evicted → SynRead.between w x ≤ syns) := by
  intro g w hw
  have hflood := flood_after (n := n) h fmt amSink amGeneratorUrl now steps
  have hbounded : SynRead.Bounded w.1 w.2 := rel_of_mem_consecutivePairs hflood.bounded hw
  exact ⟨rfl, hbounded.packets_le x, hflood.between_le hw⟩

/-- A CPU records a bare SYN, and the loop reads its source. -/
def recordAndRead (cpu : Fin n) (frame : Frame) (nowNs : ℕ) : List (SystemStep n) :=
  [.cpu (.count cpu frame), .cpu (.lookup cpu), .cpu (.record cpu nowNs), .read .startSyn,
    .read (.syn frame.source)]

def synArm (timestamp : Instant) : Arm := .synfloodEval
  { succeeds := true
    timestamp := timestamp
    now := timestamp
    counterOrder := .byRank UInt32.toNat fun _ _ => UInt32.toNat.inj
    order := Ipv4Addr.order
    wall := timestamp
    shown := Ipv4Addr.order }

/-- A SYN before each of two reads. -/
theorem syns_counted_two_reads :
    let fmt : WireFormat ℚ := ⟨Nat.repr, fun _ _ => ""⟩
    let frame := Frame.tcp 40 Frame.synHeader
    let steps := recordAndRead (0 : Fin 1) frame 1 ++ [.arm (synArm 1), .publish] ++
      recordAndRead 0 frame 2 ++
      [.arm (synArm 2), .publish]
    ∃ detectors resolved, resolveAll String.quote none = .ok (detectors, resolved) ∧
      let g := synLedger ((new (.new detectors 0)).trace fmt true none steps)
      g.reads.length = 2 ∧ ∀ w ∈ g.reads.consecutivePairs,
        w.2.curr.packets frame.source - w.1.curr.packets frame.source = 1 := by
  intro fmt frame steps
  let detectors : ResolvedDetectors ℚ := (expect (resolveAll String.quote none) rfl).1
  have hok : resolveAll String.quote none = .ok (detectors, defaultResolvedConfig) := rfl
  have hbetween : ∀ w ∈ (synLedger ((new (.new detectors 0)).trace fmt true none
      steps)).reads.consecutivePairs,
      SynRead.syns w frame.source = 1 ∧ SynRead.between w frame.source = 1 := by decide +kernel
  refine ⟨detectors, _, hok, by decide +kernel, fun w hw => ?_⟩
  obtain ⟨-, hle, hge⟩ := syns_counted hok fmt true none 0 steps frame.source w hw
  rw [(hbetween w hw).1] at hle
  rw [(hbetween w hw).2] at hge
  exact hle.antisymm (hge (by decide +kernel))

theorem intervals_reads {reads : List SynRead} (h : ∀ r ∈ reads, r.tick.current = some r.curr) :
    SynFloodRunner.intervals (reads.map (·.tick)) = reads.consecutivePairs.map SynRead.interval := by
  have hpresent : SynFloodRunner.present (reads.map (·.tick)) =
      reads.map fun r => (r.curr, r.tick) := by
    unfold SynFloodRunner.present
    rw [List.filterMap_map, ← List.filterMap_eq_map]
    refine List.filterMap_congr fun r hr => ?_
    show r.tick.current.map _ = _
    rw [h r hr]
    rfl
  unfold SynFloodRunner.intervals List.consecutivePairs
  rw [hpresent, ← List.map_tail, List.zip_map, List.map_map]
  rfl

theorem Flood.manager {d : SynFloodDetector F} {P : FsmConfig} {trace : List (Observation F)}
    {s : System n F} (h : Flood d P trace s) :
    s.loop.synfloodRunner.alertLifecycleManager = .after P
      ((synLedger trace).reads.consecutivePairs.map fun w => d.managerTick (SynRead.interval w)) := by
  rw [h.runner, (SynFloodRunner.after_refines d P _).2.2,
    intervals_reads fun r hr => ((ordered_synLedger trace).read r hr).2.2, List.map_map]
  rfl

variable [LawfulF64 F]

/-- A source that sends too much between two reads has a signal, if all such sources are
reported. -/
theorem active_of_between {d : SynFloodDetector F} {w : SynRead × SynRead} {x : UInt32}
    (hmax : le (0.0 : F) d.maxSynPps = true) (hfits : (d.loud (SynRead.interval w)).card ≤ d.topN)
    (hlt : w.1.curr.timestamp < w.2.curr.timestamp)
    (hread : SynRead.between w x ≤ w.2.curr.packets x - w.1.curr.packets x)
    (habove : ∀ syns, SynRead.between w x ≤ syns → lt d.maxSynPps
      (ofNat syns / asSecs (durationSince w.2.curr.timestamp w.1.curr.timestamp)) = true) :
    ((d.managerTick (SynRead.interval w)).sees (Ipv4Addr.ofU32 x)).active = true :=
  SynFloodRunner.active_of_above (i := SynRead.interval w) hlt
    (SynFloodDetector.visible_of_fits (i := SynRead.interval w) hlt hmax hfits) (habove _ hread)

/-- **No flood without an alert**: after every interleaving in which a source was not evicted, if
its SYNs were recorded at a rate above the maximum in as many windows in a row as it takes, each
from the end of a read to the beginning of the next, and all sources above the maximum were
reported, its alert is open at the last of them, or has fired less than the cooldown before. -/
theorem flood_caught {debug : String → String} {config : Option (Config F)}
    {detectors : ResolvedDetectors F} {resolved : ResolvedConfig F}
    (h : resolveAll debug config = .ok (detectors, resolved)) (fmt : WireFormat F) (amSink : Bool)
    (amGeneratorUrl : Option String) (now : Instant) (steps : List (SystemStep n)) (x : UInt32) :
    let s := (new (.new detectors now)).after fmt amSink amGeneratorUrl steps
    let g := synLedger ((new (.new detectors now)).trace fmt amSink amGeneratorUrl steps)
    let windows := g.reads.consecutivePairs
    let secs (w : SynRead × SynRead) : F :=
      asSecs (durationSince w.2.curr.timestamp w.1.curr.timestamp)
    let d := detectors.synfloodDetector
    let manager := detectors.synfloodAlertLifecycleManager
    x ∉ g.evicted → windows.length < 2 ^ 32 → le (0.0 : F) d.maxSynPps = true →
      Lasted (fun w => (d.loud (SynRead.interval w)).card ≤ d.topN ∧
          w.1.curr.timestamp < w.2.curr.timestamp ∧
          ∀ syns, SynRead.between w x ≤ syns → lt d.maxSynPps (ofNat syns / secs w) = true)
        (max 1 manager.consecutiveThreshold.toNat) windows →
      let slot := s.loop.synfloodRunner.alertLifecycleManager.slotState (Ipv4Addr.ofU32 x)
      slot.isFiring = true ∨ ∃ w ∈ windows.getLast?, ∃ fired, slot.lastFired = some fired ∧
        durationSince w.2.tick.now fired < manager.cooldown := by
  intro s g windows secs d manager hx hlen hmax hlasted slot
  have hflood := flood_after (n := n) h fmt amSink amGeneratorUrl now steps
  have hactive := hlasted.mono fun w hw ⟨hfits, hlt, habove⟩ =>
    active_of_between hmax hfits hlt (hflood.between_le hw hx) habove
  have hstreak : max 1 manager.config.consecutiveThreshold.toNat ≤
      streak (fun t => (t.sees (Ipv4Addr.ofU32 x)).active)
        (windows.map fun w => d.managerTick (SynRead.interval w)) := by
    rw [streak_map]
    exact lasted_iff.mp hactive
  have hslot : slot = _ := congrArg (·.slotState (Ipv4Addr.ofU32 x)) hflood.manager
  rw [hslot]
  refine (IpAlertLifecycleManager.firing_of_streak (A := SynFloodAlert F)
    ((List.length_map _).trans_lt hlen) hstreak).imp_right fun ⟨t, ht, hcooling⟩ => ?_
  rw [List.getLast?_map] at ht
  obtain ⟨w, hw, rfl⟩ := Option.map_eq_some_iff.mp ht
  exact ⟨w, hw, hcooling⟩

/-- Four SYNs from 10.0.0.1, one before each of four reads. -/
theorem flood_caught_four_syns :
    let fmt : WireFormat ℚ := ⟨Nat.repr, fun _ _ => ""⟩
    let frame := Frame.tcp 40 Frame.synHeader
    let turn (millis : ℕ) := recordAndRead (0 : Fin 1) frame (millis * 1000000) ++
      [.arm (synArm (millis * 1000000)), .publish]
    let steps := turn 1 ++ turn 2 ++ turn 3 ++ turn 4
    ∃ detectors resolved, resolveAll String.quote none = .ok (detectors, resolved) ∧
      let s := (new (.new detectors 0)).after fmt true none steps
      let slot := s.loop.synfloodRunner.alertLifecycleManager.slotState (.ofU32 frame.source)
      slot.isFiring = true ∨ slot.lastFired ≠ none := by
  intro fmt frame turn steps
  let detectors : ResolvedDetectors ℚ := (expect (resolveAll String.quote none) rfl).1
  have hok : resolveAll String.quote none = .ok (detectors, defaultResolvedConfig) := rfl
  have hloud : ∀ w ∈ (synLedger ((new (.new detectors 0)).trace fmt true none
      steps)).reads.consecutivePairs,
      (detectors.synfloodDetector.loud (SynRead.interval w)).card ≤
          detectors.synfloodDetector.topN ∧
        w.1.curr.timestamp < w.2.curr.timestamp ∧
        asSecs (durationSince w.2.curr.timestamp w.1.curr.timestamp) = (1 / 1000 : ℚ) ∧
        SynRead.between w frame.source = 1 := by decide +kernel
  have hcaught := flood_caught hok fmt true none 0 steps frame.source (by decide +kernel)
    (by decide +kernel) (by decide +kernel) ⟨by decide +kernel, fun w hw => ?_⟩
  · exact ⟨detectors, _, hok, hcaught.imp_right fun ⟨w, hw, fired, hfired, hlt⟩ => by
      rw [hfired]
      exact Option.some_ne_none fired⟩
  · obtain ⟨hfits, hlt, hsecs, hsyns⟩ := hloud w (List.mem_of_mem_drop hw)
    refine ⟨hfits, hlt, fun syns hle => ?_⟩
    have hone : (1 : ℚ) ≤ syns := by exact_mod_cast hsyns.symm.trans_le hle
    show decide ((100.0 : ℚ) <
      syns / asSecs (durationSince w.2.curr.timestamp w.1.curr.timestamp)) = true
    rw [hsecs]
    apply decide_eq_true
    linarith

end System

end EbpfXdp
