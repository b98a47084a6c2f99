import EbpfXdpProgram.MainLoop.Start
import EbpfXdpProgram.Pipeline.PortScanAlerts
import EbpfXdpProgram.System

/-!
# The traffic behind a port-scan alert

The loop reads `PORT_SCAN_TRACKER` one key after the other, while the CPUs record SYNs and the
kernel evicts keys. A read has each key as it was at some time since the read began. So its window
has no port that was not touched by the end of the read and, for a source that was never evicted,
every port that was touched by its beginning (`scan_ports`); and an alert is never raised for fewer
ports than its configuration says (`scan_backed`).
-/

namespace EbpfXdp

open PortEvent

variable {n : ℕ} {F : Type} [F64 F]

/-! ## Reads and windows -/

/-- The ports that the source touched no longer than the window before `now`. -/
def recentPorts (events : List PortEvent) (now windowNs : ℕ) (ip : UInt32) : Finset UInt16 :=
  (events.filterMap fun
    | .touch srcAddr dstPort t => if srcAddr = ip ∧ now - t ≤ windowNs then some dstPort else none
    | .evict _ => none).toFinset

theorem mem_recentPorts {events : List PortEvent} {now windowNs : ℕ} {ip : UInt32} {port : UInt16} :
    port ∈ recentPorts events now windowNs ip ↔
      ∃ t ∈ touches (.new ip port) events, now - t ≤ windowNs := by
  unfold recentPorts
  rw [List.mem_toFinset, List.mem_filterMap]
  constructor
  · rintro ⟨e, he, hport⟩
    cases e with
    | evict k => cases hport
    | touch srcAddr dstPort t =>
      obtain ⟨⟨rfl, hrecent⟩, hsome⟩ := Option.ite_none_right_eq_some.mp hport
      obtain rfl := Option.some.inj hsome
      exact ⟨t, mem_touches.mpr ⟨_, _, rfl, he⟩, hrecent⟩
  · rintro ⟨t, ht, hrecent⟩
    obtain ⟨srcAddr, dstPort, hkey, he⟩ := mem_touches.mp ht
    obtain ⟨rfl, rfl, -⟩ := PortScanKey.mk.inj hkey
    exact ⟨_, he, if_pos ⟨rfl, hrecent⟩⟩

/-- The entry of the key after the events. -/
def lastTouch (events : List PortEvent) (key : PortScanKey) : Option PortTouch :=
  (unevicted key events).getLast?.map .mk

/-- A read of `PORT_SCAN_TRACKER`, with what had happened to the map when it began and when it
ended. -/
structure ScanRead where
  tick : PortScanTick
  curr : PortScanCountersSnapshot
  began : List PortEvent
  ended : List PortEvent

namespace ScanRead

/-- Each key is read as it was at some time during the read. -/
def Regular (r : ScanRead) : Prop :=
  ∀ key, MapRead.During lastTouch r.began r.ended key (r.curr.touches.lookup key)

variable {r : ScanRead} {windowNs : ℕ} {ip : UInt32}

theorem Regular.freshPorts_subset (h : r.Regular) :
    freshPorts r.curr windowNs ip ⊆ recentPorts r.ended r.curr.nowNs windowNs ip := by
  intro port hport
  obtain ⟨key, hkey, rfl⟩ := Finset.mem_image.mp hport
  obtain ⟨hfresh, rfl⟩ := Finset.mem_filter.mp hkey
  obtain ⟨touch, hlookup, hrecent⟩ := mem_freshKeys.mp hfresh
  obtain ⟨past, -, hended, hlast⟩ := h key
  rw [hlookup] at hlast
  obtain ⟨t, ht, rfl⟩ := Option.map_eq_some_iff.mp hlast.symm
  have hmem := List.mem_of_getLast? ht
  have hkey := eq_new_of_mem_unevicted hmem
  refine mem_recentPorts.mpr ⟨t, ?_, hrecent⟩
  rw [← hkey]
  exact (hended.filterMap _).subset ((unevicted_sublist key past).subset hmem)

end ScanRead

/-! ## The ledger -/

/-- What has happened to the map so far, and the reads of it. -/
structure ScanLedger where
  events : List PortEvent
  /-- What had happened when the read in progress began. -/
  began : List PortEvent
  reads : List ScanRead

namespace ScanLedger

def new : ScanLedger := ⟨[], [], []⟩

def observe (g : ScanLedger) : Observation F → ScanLedger
  | .recorded frame now =>
    { g with events := g.events ++ [.touch frame.source frame.destPort now] }
  | .evictedPort key => { g with events := g.events ++ [.evict key] }
  | .read .startPorts => { g with began := g.events }
  | .took (.portScanEval eval) =>
    match eval.tick.current with
    | some curr => { g with reads := g.reads ++ [⟨eval.tick, curr, g.began, g.events⟩] }
    | none => g
  | _ => g

omit [F64 F] in
theorem observe_took_none {g : ScanLedger} {e : LoopEvent}
    (h : ∀ eval, e = .portScanEval eval → eval.tick.current = none) :
    g.observe (.took e : Observation F) = g := by
  cases e with
  | portScanEval eval =>
    unfold observe
    dsimp only
    rw [h eval rfl]
  | _ => rfl

omit [F64 F] in
theorem observe_took_some {g : ScanLedger} {eval : PortScanEval} {curr : PortScanCountersSnapshot}
    (h : eval.tick.current = some curr) : g.observe (.took (.portScanEval eval) : Observation F) =
      { g with reads := g.reads ++ [⟨eval.tick, curr, g.began, g.events⟩] } := by
  unfold observe
  dsimp only
  rw [h]

end ScanLedger

namespace System

def scanLedger (trace : List (Observation F)) : ScanLedger := trace.foldl .observe .new

omit [F64 F] in
theorem scanLedger_append (trace out : List (Observation F)) :
    scanLedger (trace ++ out) = out.foldl .observe (scanLedger trace) := List.foldl_append

omit [F64 F] in
theorem scanLedger_exchange {trace out : List (Observation F)} (h : ∀ o ∈ out, o.IsExchange) :
    scanLedger (trace ++ out) = scanLedger trace := by
  rw [scanLedger_append]
  refine @List.foldlRecOn _ _ (· = scanLedger trace) out _ _ rfl fun g hg o ho => ?_
  rw [hg]
  cases o with
  | dispatched output => rfl
  | answered request response => rfl
  | counted _ | recorded _ _ | evictedSyn _ | evictedPort _ | read _ | took _ | wrote _ =>
    exact (h _ ho).elim

/-! ## The invariant -/

variable (d : PortScanDetector) (P : FsmConfig)

/-- The read in progress and those before it are regular, and the runner has seen them. -/
structure Scan (trace : List (Observation F)) (s : System n F) : Prop where
  holds : s.kernel.Holds
  tracker : ∀ key, s.kernel.maps.portScanTracker.lookup key =
    lastTouch (scanLedger trace).events key
  began : (scanLedger trace).began <+: (scanLedger trace).events
  pass : ∀ r, s.passes.ports = some r →
    r.Along (MapRead.During lastTouch (scanLedger trace).began (scanLedger trace).events)
  regular : ∀ r ∈ (scanLedger trace).reads,
    r.Regular ∧ r.ended <+: (scanLedger trace).events ∧ r.tick.current = some r.curr
  runner : s.loop.portScanRunner = .after d P ((scanLedger trace).reads.map (·.tick))

section Steps

variable {d P} {fmt : WireFormat F} {amSink : Bool} {amGeneratorUrl : Option String}
  {trace : List (Observation F)} {s : System n F} (h : Scan d P trace s)

include h

theorem Scan.other {s' : System n F} {trace' : List (Observation F)}
    (hledger : scanLedger trace' = scanLedger trace)
    (htracker : s'.kernel.maps.portScanTracker = s.kernel.maps.portScanTracker)
    (hphase : s'.kernel.phase = s.kernel.phase) (hpasses : s'.passes.ports = s.passes.ports)
    (hloop : s'.loop.portScanRunner = s.loop.portScanRunner) : Scan d P trace' s' := by
  refine ⟨h.holds.congr hphase, ?_, ?_, ?_, ?_, ?_⟩
  · rw [hledger, htracker]
    exact h.tracker
  · rw [hledger]
    exact h.began
  · rw [hledger, hpasses]
    exact h.pass
  · rw [hledger]
    exact h.regular
  · rw [hledger, hloop]
    exact h.runner

theorem Scan.grow {s' : System n F} {trace' : List (Observation F)} {new : List PortEvent}
    (hledger : scanLedger trace' =
      { scanLedger trace with events := (scanLedger trace).events ++ new })
    (hholds : s'.kernel.Holds)
    (htracker : ∀ key, s'.kernel.maps.portScanTracker.lookup key =
      lastTouch ((scanLedger trace).events ++ new) key)
    (hpass : ∀ r, s'.passes.ports = some r → r.Along (MapRead.During lastTouch
      (scanLedger trace).began ((scanLedger trace).events ++ new)))
    (hloop : s'.loop = s.loop) : Scan d P trace' s' := by
  have hgrow := List.prefix_append (scanLedger trace).events new
  refine ⟨hholds, ?_, ?_, ?_, fun r hr => ?_, ?_⟩
  · rw [hledger]
    exact htracker
  · rw [hledger]
    exact h.began.trans hgrow
  · rw [hledger]
    exact hpass
  · rw [hledger] at hr ⊢
    obtain ⟨hregular, hended, hcurr⟩ := h.regular r hr
    exact ⟨hregular, hended.trans hgrow, hcurr⟩
  · rw [hledger, hloop]
    exact h.runner

theorem Scan.pass_grow {r : PortPass} (hr : s.passes.ports = some r) (new : List PortEvent) :
    r.Along (MapRead.During lastTouch (scanLedger trace).began ((scanLedger trace).events ++ new)) :=
  (h.pass r hr).mono fun _ _ hduring => hduring.grow (List.prefix_append _ _)

theorem Scan.cpu (c : CpuStep n) :
    Scan d P (trace ++ ((s.kernel.counts c).toList.map .counted ++
      (s.kernel.records c).toList.map fun e => .recorded e.1 e.2))
      { s with kernel := (s.kernel.step c).1 } := by
  have hledger : scanLedger (trace ++ ((s.kernel.counts c).toList.map .counted ++
      (s.kernel.records c).toList.map fun e => .recorded e.1 e.2)) =
      { scanLedger trace with
        events := (scanLedger trace).events ++
          (s.kernel.records c).toList.map fun e => .touch e.1.source e.1.destPort e.2 } := by
    rw [scanLedger_append]
    cases s.kernel.records c with
    | none =>
      simp only [Option.toList_none, List.map_nil, List.append_nil]
      cases s.kernel.counts c <;> rfl
    | some e => cases s.kernel.counts c <;> rfl
  refine h.grow hledger (h.holds.step c) (fun key => ?_) (fun r hr => h.pass_grow hr _) rfl
  rcases Machine.trackers_step h.holds c with ⟨hnone, -, hports⟩ |
    ⟨cpu, f, found, now, hsome, -, hmaps⟩
  · rw [hnone, Option.toList_none, List.map_nil, List.append_nil]
    exact (congrArg (Finmap.lookup key) hports).trans (h.tracker key)
  · show (s.kernel.step c).1.maps.portScanTracker.lookup key = _
    rw [hsome, hmaps, Option.toList_some, List.map_singleton, KernelState.lookup_recordPortTouch]
    unfold lastTouch
    split_ifs with hkey
    · rw [hkey, unevicted_touch_self, List.getLast?_concat]
      rfl
    · rw [unevicted_touch_of_ne key _ (Ne.symm hkey)]
      exact h.tracker key

theorem Scan.evictPort (key : PortScanKey) :
    Scan d P (trace ++ [.evictedPort key])
      { s with
        kernel := { s.kernel with maps := s.kernel.maps.applyPort (.evict key) }
        passes := { s.passes with ports := s.passes.ports.map (·.forget key) } } := by
  have hgone : lastTouch ((scanLedger trace).events ++ [.evict key]) key = none := by
    unfold lastTouch
    rw [unevicted_evict_self]
    rfl
  refine h.grow (scanLedger_append ..) (h.holds.congr rfl) (fun k => ?_) (fun r hr => ?_) rfl
  · by_cases hk : key = k
    · subst hk
      exact (Finmap.lookup_erase ..).trans hgone.symm
    · refine (Finmap.lookup_erase_ne (Ne.symm hk)).trans ((h.tracker k).trans ?_)
      unfold lastTouch
      rw [unevicted_evict_of_ne k _ hk]
  · obtain ⟨r, hpass, rfl⟩ := Option.map_eq_some_iff.mp hr
    refine (h.pass_grow hpass _).forget ?_
    have hnow : MapRead.During lastTouch (scanLedger trace).began _ key _ :=
      MapRead.during_now (h.began.trans (List.prefix_append _ [.evict key]))
    rwa [hgone] at hnow

theorem Scan.startPorts :
    Scan d P (trace ++ [.read .startPorts])
      { s with passes := s.passes.step s.kernel.maps .startPorts } := by
  have hledger : scanLedger (trace ++ [.read .startPorts]) =
      { scanLedger trace with began := (scanLedger trace).events } := scanLedger_append ..
  refine ⟨h.holds, ?_, ?_, fun r hr => ?_, ?_, ?_⟩
  · rw [hledger]
    exact h.tracker
  · rw [hledger]
  · obtain rfl := Option.some.inj hr
    rw [hledger]
    refine MapRead.along_start fun key hkey => ?_
    rw [← Finmap.lookup_eq_none.mpr hkey, h.tracker]
    exact MapRead.during_now List.prefix_rfl
  · rw [hledger]
    exact h.regular
  · rw [hledger]
    exact h.runner

theorem Scan.port (key : PortScanKey) :
    Scan d P (trace ++ [.read (.port key)])
      { s with passes := s.passes.step s.kernel.maps (.port key) } := by
  have hledger : scanLedger (trace ++ [.read (.port key)]) = scanLedger trace :=
    scanLedger_append ..
  refine ⟨h.holds, ?_, ?_, fun r hr => ?_, ?_, ?_⟩
  · rw [hledger]
    exact h.tracker
  · rw [hledger]
    exact h.began
  · rw [hledger]
    obtain ⟨r, hpass, rfl⟩ := Option.map_eq_some_iff.mp hr
    refine (h.pass r hpass).visit fun touch htouch => ?_
    rw [id, ← htouch, h.tracker]
    exact MapRead.during_now h.began
  · rw [hledger]
    exact h.regular
  · rw [hledger]
    exact h.runner

theorem Scan.arm (hrunning : s.loop.status = .running) (arm : Arm) :
    let e := arm.event s.passes
    let turn := (s.loop.step fmt amSink amGeneratorUrl e).2
    Scan d P (trace ++ [.took e, .wrote turn.metrics])
      { s with
        passes := .idle
        loop := (s.loop.step fmt amSink amGeneratorUrl e).1
        unsent := some turn.pushes } := by
  intro e turn
  have hledger : scanLedger (trace ++ [.took e, .wrote turn.metrics]) =
      (scanLedger trace).observe (.took e : Observation F) := scanLedger_append ..
  by_cases hnone : ∀ eval, e = .portScanEval eval → eval.tick.current = none
  · rw [ScanLedger.observe_took_none hnone] at hledger
    refine ⟨h.holds, ?_, ?_, fun r hr => absurd hr (Option.some_ne_none r).symm, ?_, ?_⟩
    · rw [hledger]
      exact h.tracker
    · rw [hledger]
      exact h.began
    · rw [hledger]
      exact h.regular
    · rw [hledger]
      exact (MainLoop.portScanRunner_step_none hnone).trans h.runner
  · simp only [not_forall] at hnone
    obtain ⟨eval, heval, hcurr⟩ := hnone
    obtain ⟨curr, hcurr⟩ := Option.ne_none_iff_exists'.mp hcurr
    -- the read has ended, and is regular
    obtain ⟨r, hpass, hresult⟩ : ∃ r, s.passes.ports = some r ∧ r.result = some curr.touches := by
      change arm.event s.passes = _ at heval
      cases arm with
      | portScanEval a =>
        obtain rfl := LoopEvent.portScanEval.inj heval
        dsimp only at hcurr
        split_ifs at hcurr
        obtain ⟨t, ht, rfl⟩ := Option.map_eq_some_iff.mp hcurr
        exact Option.bind_eq_some_iff.mp ht
      | _ => cases heval
    have hobserve : (scanLedger trace).observe (.took e : Observation F) = { scanLedger trace with
        reads := (scanLedger trace).reads ++
          [⟨eval.tick, curr, (scanLedger trace).began, (scanLedger trace).events⟩] } := by
      rw [heval]
      exact ScanLedger.observe_took_some hcurr
    rw [hobserve] at hledger
    refine ⟨h.holds, ?_, ?_, fun r hr => absurd hr (Option.some_ne_none r).symm, fun r hr => ?_, ?_⟩
    · rw [hledger]
      exact h.tracker
    · rw [hledger]
      exact h.began
    · rw [hledger] at hr ⊢
      rcases List.mem_append.mp hr with hr | hr
      · exact h.regular r hr
      · obtain rfl := List.mem_singleton.mp hr
        exact ⟨(h.pass _ hpass).result hresult, List.prefix_rfl, hcurr⟩
    · rw [hledger, List.map_append, List.map_singleton, PortScanRunner.after_concat, ← h.runner,
        heval]
      exact MainLoop.portScanRunner_step_some hrunning hcurr

theorem Scan.read (r : ReadStep) :
    Scan d P (trace ++ [.read r]) { s with passes := s.passes.step s.kernel.maps r } := by
  cases r with
  | startPorts => exact h.startPorts
  | port key => exact h.port key
  | bucket => exact h.other (scanLedger_append ..) rfl rfl rfl rfl
  | startSyn => exact h.other (scanLedger_append ..) rfl rfl rfl rfl
  | syn srcAddr => exact h.other (scanLedger_append ..) rfl rfl rfl rfl

end Steps

theorem kept_scan (fmt : WireFormat F) (amSink : Bool) (amGeneratorUrl : Option String) :
    Kept fmt amSink amGeneratorUrl (Scan (n := n) d P) where
  cpu c h := h.cpu c
  evictSyn _ h := h.other (scanLedger_append ..) rfl rfl rfl rfl
  evictPort key h := h.evictPort key
  read r h := h.read r
  arm arm hrunning h := h.arm hrunning arm
  exchange hkernel hpasses hloop hout h :=
    h.other (scanLedger_exchange hout) (by rw [hkernel]) (by rw [hkernel]) (by rw [hpasses])
      (by rw [hloop])

theorem scan_after {debug : String → String} {config : Option (Config F)}
    {detectors : ResolvedDetectors F} {resolved : ResolvedConfig F}
    (h : resolveAll debug config = .ok (detectors, resolved)) (fmt : WireFormat F) (amSink : Bool)
    (amGeneratorUrl : Option String) (now : Instant) (steps : List (SystemStep n)) :
    let s := new (.new detectors now)
    Scan detectors.portScanDetector detectors.portScanAlertLifecycleManager.config
      (s.trace fmt amSink amGeneratorUrl steps) (s.after fmt amSink amGeneratorUrl steps) := by
  obtain ⟨-, ⟨P, hmanager⟩, -⟩ := started_of_ok h
  refine (kept_scan _ _ fmt amSink amGeneratorUrl).after ?_ steps
  refine ⟨Machine.holds_new, fun key => rfl, List.prefix_rfl,
    fun r hr => absurd hr (Option.some_ne_none r).symm, fun r hr => absurd hr List.not_mem_nil, ?_⟩
  show PortScanRunner.new _ detectors.portScanAlertLifecycleManager = _
  rw [hmanager]
  rfl

theorem reads_arm_ports {s : System n F} (hidle : s.unsent = none)
    (hrunning : s.loop.status = .running) (fmt : WireFormat F) (amSink : Bool)
    (amGeneratorUrl : Option String) {arm : Arm} {eval : PortScanEval}
    {curr : PortScanCountersSnapshot} (harm : arm.event s.passes = .portScanEval eval)
    (hcurr : eval.tick.current = some curr) (trace : List (Observation F)) :
    (scanLedger (trace ++ (s.step fmt amSink amGeneratorUrl (.arm arm)).2)).reads =
      (scanLedger trace).reads ++
        [⟨eval.tick, curr, (scanLedger trace).began, (scanLedger trace).events⟩] := by
  unfold System.step
  dsimp only
  rw [if_pos ⟨hidle, hrunning⟩, scanLedger_append, harm]
  show ((scanLedger trace).observe (.took (.portScanEval eval) : Observation F)).reads = _
  rw [ScanLedger.observe_took_some hcurr]

theorem reads_ticks {reads : List ScanRead} (h : ∀ r ∈ reads, r.tick.current = some r.curr) :
    PortScanRunner.reads (reads.map (·.tick)) = reads.map fun r => ⟨r.curr, r.tick⟩ := by
  unfold PortScanRunner.reads
  rw [List.filterMap_map, ← List.filterMap_eq_map]
  refine List.filterMap_congr fun r hr => ?_
  show r.tick.current.map _ = _
  rw [h r hr]
  rfl

/-- A TCP header to port 22 with SYN set. -/
def sshHeader : List UInt8 := [0, 80, 0, 22, 0, 0, 0, 0, 0, 0, 0, 0, 0x50, 2, 0, 0, 0, 0, 0, 0]

/-- A CPU records two bare SYNs, and the loop reads the ports that they touched. -/
def touchAndRead (cpu : Fin n) (f g : Frame) : List (SystemStep n) :=
  [.cpu (.count cpu f), .cpu (.lookup cpu), .cpu (.record cpu 1),
    .cpu (.count cpu g), .cpu (.lookup cpu), .cpu (.record cpu 2), .read .startPorts,
    .read (.port (.new f.source f.destPort)), .read (.port (.new g.source g.destPort))]

def portArm (nowNs : ℕ) : Arm := .portScanEval
  { succeeds := true
    nowNs := nowNs
    now := nowNs
    touchOrder := touchOrder
    groupOrder := .byRank UInt32.toNat fun _ _ => UInt32.toNat.inj
    order := Ipv4Addr.order
    wall := nowNs
    shown := Ipv4Addr.order }

/-- **No alert without a scan**: after every interleaving, evictions and late reads included, an arm
that fires the alert of a source has as many reads behind it as it takes, in the window of each of
which the source had touched more ports than the maximum by the end of the read. The alert names no
more ports than that. -/
theorem scan_backed {debug : String → String} {config : Option (Config F)}
    {detectors : ResolvedDetectors F} {resolved : ResolvedConfig F}
    (h : resolveAll debug config = .ok (detectors, resolved)) (fmt : WireFormat F) (amSink : Bool)
    (amGeneratorUrl : Option String) (now : Instant) (steps : List (SystemStep n)) (arm : Arm)
    (eval : PortScanEval) (ip : UInt32) :
    let s := (new (.new detectors now)).after fmt amSink amGeneratorUrl steps
    let trace := (new (.new detectors now)).trace fmt amSink amGeneratorUrl (steps ++ [.arm arm])
    let d := detectors.portScanDetector
    let ports (r : ScanRead) := (recentPorts r.ended r.curr.nowNs d.windowNs ip).card
    s.unsent = none → s.loop.status = .running → arm.event s.passes = .portScanEval eval →
      ∀ e ∈ (s.loop.portScanRunner.step eval.tick).2.transitions,
        e.alert.srcIp = Ipv4Addr.ofU32 ip → e.lifecycle = .fired →
          Lasted (fun r => d.maxDistinctPorts.toNat < ports r)
            (max 1 detectors.portScanAlertLifecycleManager.consecutiveThreshold.toNat)
            (scanLedger trace).reads ∧
          ∃ r ∈ (scanLedger trace).reads.getLast?, e.alert.distinctPorts.toNat ≤ ports r := by
  intro s trace d ports hidle hrunning harm e he hip hfired
  have hscan := scan_after (n := n) h fmt amSink amGeneratorUrl now
  have hrunner : s.loop.portScanRunner = _ := (hscan steps).runner
  have hregular := (hscan (steps ++ [.arm arm])).regular
  rw [hrunner] at he
  obtain ⟨curr, hcurr⟩ : ∃ curr, eval.tick.current = some curr := by
    refine Option.ne_none_iff_exists'.mp fun hnone => ?_
    unfold PortScanRunner.step at he
    rw [hnone] at he
    exact absurd he List.not_mem_nil
  rw [(PortScanRunner.step_some d _ _ hcurr).1] at he
  -- the last read of the ledger is that of the arm
  have htrace : trace = _ ++ (s.step fmt amSink amGeneratorUrl (.arm arm)).2 := trace_concat ..
  have hreads := reads_arm_ports hidle hrunning fmt amSink amGeneratorUrl harm hcurr
    ((new (.new detectors now)).trace fmt amSink amGeneratorUrl steps)
  rw [← htrace] at hreads
  have hticks : PortScanRunner.reads ((scanLedger trace).reads.map (·.tick)) = _ :=
    reads_ticks fun r hr => (hregular r hr).2.2
  nth_rewrite 1 [hreads] at hticks
  rw [List.map_append, List.map_singleton, PortScanRunner.reads_concat_some hcurr] at hticks
  have hslot : e ∈ IpAlertLifecycleManager.slotEvents (IpAlertLifecycleManager.step
      (IpAlertLifecycleManager.after _ _) (d.managerTick ⟨curr, eval.tick⟩)) (Ipv4Addr.ofU32 ip) :=
    List.mem_filter.mpr ⟨he, decide_eq_true hip⟩
  have hstreak := IpAlertLifecycleManager.active_of_fired hslot hfired
  rw [← List.map_singleton, ← List.map_append, hticks, streak_map, streak_map] at hstreak
  refine ⟨(lasted_iff.mpr hstreak).mono fun r hr hactive => ?_, ?_⟩
  · have hexceeds := of_decide_eq_true (PortScanDetector.exceeds_of_active hactive)
    exact hexceeds.trans_le (Finset.card_le_card (hregular r hr).1.freshPorts_subset)
  · obtain ⟨signal, hsignal, halert⟩ := IpAlertLifecycleManager.alert_of_fired hslot hfired
    have hmem : _ ∈ (scanLedger trace).reads :=
      hreads ▸ List.mem_append_right _ (List.mem_singleton_self _)
    refine ⟨_, by rw [hreads, List.getLast?_concat]; rfl, ?_⟩
    rw [halert]
    exact (PortScanDetector.count_of_signalFor hsignal).trans_le
      (Finset.card_le_card (hregular _ hmem).1.freshPorts_subset)

/-- Two ports, with a maximum of one. -/
theorem scan_backed_two_ports :
    let fmt : WireFormat ℚ := ⟨Nat.repr, fun _ _ => ""⟩
    let config : Config ℚ :=
      { Config.empty with portScan := some ⟨some 1, none, none, none, some 1, none⟩ }
    let f := Frame.tcp 40 Frame.synHeader
    let steps := touchAndRead (0 : Fin 1) f (.tcp 40 sshHeader)
    ∃ detectors resolved, resolveAll String.quote (some config) = .ok (detectors, resolved) ∧
      let trace := (new (.new detectors 0)).trace fmt true none (steps ++ [.arm (portArm 10)])
      Lasted (fun r => 1 < (recentPorts r.ended r.curr.nowNs
        detectors.portScanDetector.windowNs f.source).card) 1 (scanLedger trace).reads := by
  intro fmt config f steps
  let loaded := expect (resolveAll String.quote (some config)) rfl
  have hok : resolveAll String.quote (some config) = .ok (loaded.1, loaded.2) := rfl
  obtain ⟨eval, heval, e, he, hip, hfired⟩ : ∃ eval,
      (portArm 10).event ((new (.new loaded.1 0)).after fmt true none steps).passes =
          .portScanEval eval ∧
        ∃ e ∈ (((new (.new loaded.1 0)).after fmt true none steps).loop.portScanRunner.step
            eval.tick).2.transitions,
          e.alert.srcIp = Ipv4Addr.ofU32 f.source ∧ e.lifecycle = .fired :=
    ⟨_, rfl, by decide +kernel⟩
  have hlasted := (scan_backed hok fmt true none 0 steps (portArm 10) eval f.source
    (by decide +kernel) (by decide +kernel) heval e he hip hfired).1
  exact ⟨loaded.1, loaded.2, hok, hlasted⟩

theorem Scan.manager {d : PortScanDetector} {P : FsmConfig} {trace : List (Observation F)}
    {s : System n F} (h : Scan d P trace s) :
    s.loop.portScanRunner.alertLifecycleManager =
      .after P ((scanLedger trace).reads.map fun r => d.managerTick ⟨r.curr, r.tick⟩) := by
  rw [h.runner, (PortScanRunner.after_refines d P _).2.1,
    reads_ticks fun r hr => (h.regular r hr).2.2, List.map_map]
  rfl

end System

end EbpfXdp
