import EbpfXdpProgram.Alertmanager.Dispatcher
import EbpfXdpProgram.Ebpf.Records
import EbpfXdpProgram.MainLoop
import EbpfXdpProgram.Rate.Pass

/-!
# The kernel and the process

The CPUs count frames and the kernel evicts entries while the main loop takes one arm after the
other, the dispatcher task posts what the loop pushes, and the API answers requests. A turn of the
loop is not atomic: it reads a map one lookup after the other, pushes its alerts one by one, and
writes the API state at its end, and the others take steps in between. `agrees_after` reads every
interleaving as a run of the loop alone. After the loop, `main` waits for the task, but not for
longer than `shutdownGracePeriod`.
-/

namespace EbpfXdp

variable {n : ℕ} {F : Type} [F64 F]

def shutdownGracePeriod : Duration := 5000000000

/-! ## The steps -/

inductive ReadStep
  /-- `read_current_stats` reads the next bucket. -/
  | bucket
  /-- `read_syn_snapshot` begins. -/
  | startSyn
  | syn (srcAddr : UInt32)
  /-- `read_port_scan_snapshot` begins. -/
  | startPorts
  | port (key : PortScanKey)

structure Passes where
  stats : StatsPass
  syn : Option SynPass
  ports : Option PortPass

namespace Passes

def idle : Passes := ⟨.start, none, none⟩

def step (maps : KernelState n) (r : Passes) : ReadStep → Passes
  | .bucket => { r with stats := r.stats.next maps.protoStats }
  | .startSyn => { r with syn := some (.start maps.synTracker) }
  | .syn srcAddr => { r with syn := r.syn.map (·.visit sumSlots maps.synTracker srcAddr) }
  | .startPorts => { r with ports := some (.start maps.portScanTracker) }
  | .port key => { r with ports := r.ports.map (·.visit id maps.portScanTracker key) }

end Passes

/-- `synflood_eval_tick`: whether the read of the map succeeds and when it ends, and what the arm
reads besides. -/
structure SynFloodArm where
  succeeds : Bool
  timestamp : Instant
  now : Instant
  counterOrder : IterOrder UInt32
  order : IterOrder Ipv4Addr
  wall : SystemTime
  shown : IterOrder Ipv4Addr

/-- `port_scan_eval_tick`: whether the read of the map succeeds and when it ends, and what the arm
reads besides. -/
structure PortScanArm where
  succeeds : Bool
  nowNs : ℕ
  now : Instant
  touchOrder : IterOrder PortScanKey
  groupOrder : IterOrder UInt32
  order : IterOrder Ipv4Addr
  wall : SystemTime
  shown : IterOrder Ipv4Addr

/-- An arm of the loop, once the reads that it begins with are over. -/
inductive Arm
  | statsPoll (succeeds : Bool) (timestamp now : Instant)
  | mixAggregation
  | anomalyEval (eval : AnomalyEval)
  | synfloodEval (arm : SynFloodArm)
  | portScanEval (arm : PortScanArm)
  | apiExit
  | sigint
  | sigterm

def Arm.event (r : Passes) : Arm → LoopEvent
  | .statsPoll succeeds timestamp now =>
    .statsPoll (if succeeds then r.stats.result.map (⟨timestamp, ·⟩) else none) now
  | .mixAggregation => .mixAggregation
  | .anomalyEval eval => .anomalyEval eval
  | .synfloodEval arm => .synfloodEval
    { tick :=
        { current :=
            if arm.succeeds then (r.syn.bind (·.result)).map (⟨arm.timestamp, ·⟩) else none
          now := arm.now
          counterOrder := arm.counterOrder
          order := arm.order }
      wall := arm.wall
      shown := arm.shown }
  | .portScanEval arm => .portScanEval
    { tick :=
        { current :=
            if arm.succeeds then (r.ports.bind (·.result)).map (⟨arm.nowNs, ·⟩) else none
          now := arm.now
          touchOrder := arm.touchOrder
          groupOrder := arm.groupOrder
          order := arm.order }
      wall := arm.wall
      shown := arm.shown }
  | .apiExit => .apiExit
  | .sigint => .sigint
  | .sigterm => .sigterm

inductive Request
  | health (now : Instant)
  | anomalies
  | synflood
  | portScan

inductive Response (F : Type)
  | health (response : Api.HealthResponse F)
  | anomalies (response : Api.AnomaliesResponse F)
  | synflood (response : Api.OffendersResponse F)
  | portScan (response : Api.OffendersResponse UInt32)

def Request.answer (state : ApiState F) : Request → Response F
  | .health now => .health (Api.health state now)
  | .anomalies => .anomalies (Api.anomalies state)
  | .synflood => .synflood (Api.synflood state)
  | .portScan => .portScan (Api.portScan state)

inductive TaskStep
  | recv
  | tryRecv
  | post (outcome : PostOutcome)

def TaskStep.step {A : Type} : TaskStep → DispatchStep A
  | .recv => .recv
  | .tryRecv => .tryRecv
  | .post outcome => .post outcome

inductive SystemStep (n : ℕ)
  | cpu (step : CpuStep n)
  /-- The kernel makes room in `SYN_TRACKER`. -/
  | evictSyn (srcAddr : UInt32)
  /-- The kernel makes room in `PORT_SCAN_TRACKER`. -/
  | evictPort (key : PortScanKey)
  | read (step : ReadStep)
  | arm (arm : Arm)
  /-- The turn in progress pushes its next alert. -/
  | push
  /-- The turn in progress writes the API state and ends. -/
  | publish
  /-- The loop has ended, and the sink is dropped. -/
  | dropSink
  /-- `main` returns, so long after the sink was dropped, and the task goes with the runtime. The
  other tasks that it joins are left out. -/
  | exit (elapsed : Duration)
  | task (step : TaskStep)
  | request (request : Request)

inductive Observation (F : Type)
  /-- A CPU has counted the frame, or found no bucket for it. -/
  | counted (frame : Frame)
  /-- A CPU has recorded the bare SYN, at the time it read. -/
  | recorded (frame : Frame) (now : ℕ)
  | evictedSyn (srcAddr : UInt32)
  | evictedPort (key : PortScanKey)
  | read (step : ReadStep)
  | took (event : LoopEvent)
  | wrote (ops : List (MetricOp F))
  | dispatched (output : DispatchOutput AlertmanagerAlert)
  | answered (request : Request) (response : Response F)

structure System (n : ℕ) (F : Type) where
  kernel : Machine n
  passes : Passes
  loop : MainLoop F
  /-- What the turn in progress has still to push. -/
  unsent : Option (List AlertmanagerAlert)
  /-- What `api_ctx.dynamic` holds. -/
  shared : ApiState F
  dispatcher : Dispatcher AlertmanagerAlert
  /-- How long after the sink was dropped `main` has returned. -/
  returned : Option Duration

namespace Dispatcher

variable {A : Type}

theorem step_task (d : Dispatcher A) (t : TaskStep) :
    (d.step t.step).1.channel.senders = d.channel.senders ∧
      ((d.step t.step).2 = none ∨ ∃ batch ok, (d.step t.step).2 = some (.posted batch ok)) := by
  cases t with
  | recv =>
    unfold TaskStep.step step
    dsimp only
    cases d.phase with
    | receiving =>
      rcases hrecv : d.channel.recv with ⟨channel, first | _ | _⟩
      · exact ⟨(Channel.queue_of_received (.inr hrecv)).2.1, .inl rfl⟩
      · obtain ⟨rfl, -⟩ := Channel.of_not_received (.inr (.inl hrecv))
        exact ⟨rfl, .inl rfl⟩
      · obtain ⟨rfl, -⟩ := Channel.of_not_received (.inr (.inr hrecv))
        exact ⟨rfl, .inl rfl⟩
    | collecting batch => exact ⟨rfl, .inl rfl⟩
    | posting batch attempt => exact ⟨rfl, .inl rfl⟩
    | exited => exact ⟨rfl, .inl rfl⟩
  | tryRecv =>
    unfold TaskStep.step step
    dsimp only
    cases d.phase with
    | collecting batch =>
      dsimp only
      by_cases hlen : batch.length < maxBatch
      · rw [if_pos hlen]
        rcases hrecv : d.channel.tryRecv with ⟨channel, e | next⟩
        · obtain ⟨rfl, -⟩ := Channel.of_not_received (.inl ⟨e, hrecv⟩)
          exact ⟨rfl, .inl rfl⟩
        · exact ⟨(Channel.queue_of_received (.inl hrecv)).2.1, .inl rfl⟩
      · rw [if_neg hlen]
        exact ⟨rfl, .inl rfl⟩
    | receiving => exact ⟨rfl, .inl rfl⟩
    | posting batch attempt => exact ⟨rfl, .inl rfl⟩
    | exited => exact ⟨rfl, .inl rfl⟩
  | post outcome =>
    unfold TaskStep.step step
    dsimp only
    cases d.phase with
    | posting batch attempt =>
      dsimp only
      by_cases hretry : outcome.retried = true ∧ attempt + 1 < retryAttempts
      · rw [if_pos hretry]
        exact ⟨rfl, .inl rfl⟩
      · rw [if_neg hretry]
        exact ⟨rfl, .inr ⟨batch, _, rfl⟩⟩
    | receiving => exact ⟨rfl, .inl rfl⟩
    | collecting batch => exact ⟨rfl, .inl rfl⟩
    | exited => exact ⟨rfl, .inl rfl⟩

/-- A push through a live sink is accepted, or refused by a full queue as long as the task runs. -/
theorem step_push {d : Dispatcher A} (hs : d.channel.senders ≠ 0) (hopen : d.channel.closed = false)
    (alert : A) :
    (d.step (.push alert)).1.channel.senders = d.channel.senders ∧
      ((d.step (.push alert)).2 = some (.accepted alert) ∨
        (d.step (.push alert)).2 = some (.refused alert .full)) := by
  have hstep : d.step (.push alert) = ((d.push alert).1, some (d.push alert).2) := if_neg hs
  rw [hstep]
  unfold push
  rcases hsend : d.channel.trySend alert with ⟨channel, e | ⟨⟩⟩
  · obtain ⟨rfl, ⟨hclosed, -⟩ | ⟨-, rfl⟩⟩ := Channel.refused hsend
    · exact absurd (hclosed.symm.trans hopen) (by decide)
    · exact ⟨rfl, .inr rfl⟩
  · exact ⟨(Channel.queue_of_accepted hsend).2.1, .inl rfl⟩

end Dispatcher

namespace System

/-- The program is loaded and attached, and the loop is about to be entered. -/
def new (loop : MainLoop F) : System n F where
  kernel := .new
  passes := .idle
  loop := loop
  unsent := none
  shared := loop.api
  dispatcher := .new
  returned := none

variable (fmt : WireFormat F) (amSink : Bool) (amGeneratorUrl : Option String)

/-- One step, and what can be told of it. A step that cannot be taken changes nothing, so that every
list of steps is an interleaving. -/
def step (s : System n F) : SystemStep n → System n F × List (Observation F)
  | .cpu step =>
    ({ s with kernel := (s.kernel.step step).1 },
      (s.kernel.counts step).toList.map .counted ++
        (s.kernel.records step).toList.map fun (frame, now) => .recorded frame now)
  | .evictSyn srcAddr =>
    ({ s with
        kernel := { s.kernel with maps := s.kernel.maps.evictSyn srcAddr }
        passes := { s.passes with syn := s.passes.syn.map (·.forget srcAddr) } },
      [.evictedSyn srcAddr])
  | .evictPort key =>
    ({ s with
        kernel := { s.kernel with maps := s.kernel.maps.applyPort (.evict key) }
        passes := { s.passes with ports := s.passes.ports.map (·.forget key) } },
      [.evictedPort key])
  | .read step =>
    if s.unsent = none ∧ s.loop.status = .running then
      ({ s with passes := s.passes.step s.kernel.maps step }, [.read step])
    else (s, [])
  | .arm arm =>
    if s.unsent = none ∧ s.loop.status = .running then
      let event := arm.event s.passes
      let (loop, turn) := s.loop.step fmt amSink amGeneratorUrl event
      ({ s with passes := .idle, loop := loop, unsent := some turn.pushes },
        [.took event, .wrote turn.metrics])
    else (s, [])
  | .push =>
    match s.unsent with
    | some (alert :: rest) =>
      let (dispatcher, output) := s.dispatcher.step (.push alert)
      ({ s with dispatcher := dispatcher, unsent := some rest }, output.toList.map .dispatched)
    | _ => (s, [])
  | .publish =>
    match s.unsent with
    | some [] => ({ s with shared := s.loop.api, unsent := none }, [])
    | _ => (s, [])
  | .dropSink =>
    if s.unsent = none ∧ s.loop.status ≠ .running then
      ({ s with dispatcher := (s.dispatcher.step .dropSink).1 }, [])
    else (s, [])
  | .exit elapsed =>
    if s.returned = none ∧ s.dispatcher.channel.senders = 0 ∧
        (amSink = false ∨ s.dispatcher.phase = .exited ∨ shutdownGracePeriod ≤ elapsed) then
      ({ s with returned := some elapsed }, [])
    else (s, [])
  | .task step =>
    if s.returned = none then
      let (dispatcher, output) := s.dispatcher.step step.step
      ({ s with dispatcher := dispatcher }, output.toList.map .dispatched)
    else (s, [])
  | .request request => (s, [.answered request (request.answer s.shared)])

def after (s : System n F) (steps : List (SystemStep n)) : System n F :=
  Run.exec (step fmt amSink amGeneratorUrl) s steps

def trace (s : System n F) (steps : List (SystemStep n)) : List (Observation F) :=
  (Run.outs (step fmt amSink amGeneratorUrl) s steps).flatten

theorem after_concat (s : System n F) (past : List (SystemStep n)) (x : SystemStep n) :
    s.after fmt amSink amGeneratorUrl (past ++ [x]) =
      ((s.after fmt amSink amGeneratorUrl past).step fmt amSink amGeneratorUrl x).1 :=
  Run.exec_concat ..

theorem trace_concat (s : System n F) (past : List (SystemStep n)) (x : SystemStep n) :
    s.trace fmt amSink amGeneratorUrl (past ++ [x]) = s.trace fmt amSink amGeneratorUrl past ++
      ((s.after fmt amSink amGeneratorUrl past).step fmt amSink amGeneratorUrl x).2 := by
  unfold trace
  rw [Run.outs_concat, List.flatten_append, List.flatten_singleton]
  rfl

end System

/-! ## Invariants of the kernel and the loop -/

/-- What is told of an exchange with Alertmanager or with a client. -/
def Observation.IsExchange : Observation F → Prop
  | dispatched _ | answered _ _ => True
  | counted _ | recorded _ _ | evictedSyn _ | evictedPort _ | read _ | took _ | wrote _ => False

namespace System

variable {fmt : WireFormat F} {amSink : Bool} {amGeneratorUrl : Option String}

/-- The rule for what the CPUs, the evictions, the reads and the arms keep: the pushes, the task and
the API do not touch the maps, the reads or the loop. -/
structure Kept (fmt : WireFormat F) (amSink : Bool) (amGeneratorUrl : Option String)
    (J : List (Observation F) → System n F → Prop) : Prop where
  cpu : ∀ {trace s} (c : CpuStep n), J trace s →
    J (trace ++ ((s.kernel.counts c).toList.map .counted ++
      (s.kernel.records c).toList.map fun e => .recorded e.1 e.2))
      { s with kernel := (s.kernel.step c).1 }
  evictSyn : ∀ {trace s} (srcAddr : UInt32), J trace s → J (trace ++ [.evictedSyn srcAddr])
    { s with
      kernel := { s.kernel with maps := s.kernel.maps.evictSyn srcAddr }
      passes := { s.passes with syn := s.passes.syn.map (·.forget srcAddr) } }
  evictPort : ∀ {trace s} (key : PortScanKey), J trace s → J (trace ++ [.evictedPort key])
    { s with
      kernel := { s.kernel with maps := s.kernel.maps.applyPort (.evict key) }
      passes := { s.passes with ports := s.passes.ports.map (·.forget key) } }
  read : ∀ {trace s} (r : ReadStep), J trace s →
    J (trace ++ [.read r]) { s with passes := s.passes.step s.kernel.maps r }
  arm : ∀ {trace s} (arm : Arm), s.loop.status = .running → J trace s →
    J (trace ++ [.took (arm.event s.passes),
        .wrote (s.loop.step fmt amSink amGeneratorUrl (arm.event s.passes)).2.metrics])
      { s with
        passes := .idle
        loop := (s.loop.step fmt amSink amGeneratorUrl (arm.event s.passes)).1
        unsent := some (s.loop.step fmt amSink amGeneratorUrl (arm.event s.passes)).2.pushes }
  exchange : ∀ {trace s s' out}, s'.kernel = s.kernel → s'.passes = s.passes → s'.loop = s.loop →
    (∀ o ∈ out, Observation.IsExchange o) → J trace s → J (trace ++ out) s'

theorem Kept.step {J : List (Observation F) → System n F → Prop}
    (h : Kept fmt amSink amGeneratorUrl J)
    {trace : List (Observation F)} {s : System n F} (hs : J trace s) (x : SystemStep n) :
    J (trace ++ (s.step fmt amSink amGeneratorUrl x).2) (s.step fmt amSink amGeneratorUrl x).1 := by
  have hnone : J (trace ++ []) s := by
    rw [List.append_nil]
    exact hs
  have hdispatched : ∀ outs : List (DispatchOutput AlertmanagerAlert),
      ∀ o ∈ outs.map (Observation.dispatched (F := F)), o.IsExchange := fun outs o ho => by
    obtain ⟨output, -, rfl⟩ := List.mem_map.mp ho
    trivial
  have hsilent : ∀ o ∈ ([] : List (Observation F)), o.IsExchange := fun o ho =>
    absurd ho List.not_mem_nil
  cases x with
  | cpu c => exact h.cpu c hs
  | evictSyn srcAddr => exact h.evictSyn srcAddr hs
  | evictPort key => exact h.evictPort key hs
  | read r =>
    unfold System.step
    dsimp only
    split_ifs
    · exact h.read r hs
    · exact hnone
  | arm arm =>
    unfold System.step
    dsimp only
    split_ifs with htaken
    · exact h.arm arm htaken.2 hs
    · exact hnone
  | push =>
    unfold System.step
    dsimp only
    rcases s.unsent with _ | _ | ⟨alert, rest⟩
    · exact hnone
    · exact hnone
    · exact h.exchange (s := s) rfl rfl rfl (hdispatched _) hs
  | publish =>
    unfold System.step
    dsimp only
    rcases s.unsent with _ | _ | ⟨alert, rest⟩
    · exact hnone
    · exact h.exchange (s := s) rfl rfl rfl hsilent hs
    · exact hnone
  | dropSink =>
    unfold System.step
    dsimp only
    split_ifs
    · exact h.exchange (s := s) rfl rfl rfl hsilent hs
    · exact hnone
  | exit elapsed =>
    unfold System.step
    dsimp only
    split_ifs
    · exact h.exchange (s := s) rfl rfl rfl hsilent hs
    · exact hnone
  | task t =>
    unfold System.step
    dsimp only
    split_ifs
    · exact h.exchange (s := s) rfl rfl rfl (hdispatched _) hs
    · exact hnone
  | request request =>
    refine h.exchange (s := s) rfl rfl rfl (fun o ho => ?_) hs
    obtain rfl := List.mem_singleton.mp ho
    trivial

theorem Kept.after {J : List (Observation F) → System n F → Prop}
    (h : Kept fmt amSink amGeneratorUrl J)
    {s : System n F} (h0 : J [] s) (steps : List (SystemStep n)) :
    J (s.trace fmt amSink amGeneratorUrl steps) (s.after fmt amSink amGeneratorUrl steps) := by
  induction steps using List.reverseRecOn with
  | nil => exact h0
  | append_singleton past x ih =>
    rw [after_concat, trace_concat]
    exact h.step ih x

end System

/-! ## What can be told of a run -/

namespace Observation

def event : Observation F → Option LoopEvent
  | took event => some event
  | counted _ | recorded _ _ | evictedSyn _ | evictedPort _ | read _ | wrote _ | dispatched _
  | answered _ _ => none

def ops : Observation F → List (MetricOp F)
  | wrote ops => ops
  | counted _ | recorded _ _ | evictedSyn _ | evictedPort _ | read _ | took _ | dispatched _
  | answered _ _ => []

def output : Observation F → Option (DispatchOutput AlertmanagerAlert)
  | dispatched output => some output
  | counted _ | recorded _ _ | evictedSyn _ | evictedPort _ | read _ | took _ | wrote _
  | answered _ _ => none

end Observation

def DispatchOutput.offered {A : Type} : DispatchOutput A → Option A
  | accepted alert => some alert
  | refused alert _ => some alert
  | posted _ _ => none

namespace System

section Trace

variable (trace : List (Observation F))

def events : List LoopEvent := trace.filterMap Observation.event

def ops : List (MetricOp F) := trace.flatMap Observation.ops

/-- What has come of the pushes and of the task. -/
def outputs : List (DispatchOutput AlertmanagerAlert) := trace.filterMap Observation.output

def offered : List AlertmanagerAlert := (outputs trace).filterMap DispatchOutput.offered

def accepted : List AlertmanagerAlert := (outputs trace).filterMap DispatchOutput.alert

def posted : List (List AlertmanagerAlert) := (outputs trace).filterMap DispatchOutput.batch

variable {trace} {rest : List (Observation F)}

omit [F64 F] in
theorem events_append : events (trace ++ rest) = events trace ++ events rest := List.filterMap_append

omit [F64 F] in
theorem ops_append : ops (trace ++ rest) = ops trace ++ ops rest := List.flatMap_append

omit [F64 F] in
theorem outputs_append : outputs (trace ++ rest) = outputs trace ++ outputs rest :=
  List.filterMap_append

end Trace

variable (fmt : WireFormat F) (amSink : Bool) (amGeneratorUrl : Option String)

/-- The process is where a run of the loop alone on the same events is, except that the turn in
progress has not pushed all of its alerts yet nor written the API state. -/
structure Agrees (l : MainLoop F) (trace : List (Observation F)) (s : System n F) : Prop where
  loop : s.loop = l.after fmt amSink amGeneratorUrl (events trace)
  shared : s.shared = (l.after fmt amSink amGeneratorUrl
    (if s.unsent = none then events trace else (events trace).dropLast)).api
  ops : ops trace = (l.turns fmt amSink amGeneratorUrl (events trace)).flatMap (·.metrics)
  pushes : offered trace ++ s.unsent.getD [] =
    (l.turns fmt amSink amGeneratorUrl (events trace)).flatMap (·.pushes)
  faithful : Dispatcher.Faithful (accepted trace) (posted trace) s.dispatcher
  alive : s.unsent ≠ none ∨ s.loop.status = .running → s.dispatcher.channel.senders ≠ 0
  full : ∀ a e, .refused a e ∈ outputs trace → e = .full

section Steps

variable {fmt amSink amGeneratorUrl} {l : MainLoop F} {trace : List (Observation F)}
  {s : System n F} (h : Agrees fmt amSink amGeneratorUrl l trace s)

include h

theorem Agrees.other {s' : System n F} {out : List (Observation F)} (hevents : events out = [])
    (hops : System.ops out = []) (houtputs : outputs out = []) (hloop : s'.loop = s.loop)
    (hshared : s'.shared = s.shared) (hunsent : s'.unsent = s.unsent)
    (hdispatcher : s'.dispatcher = s.dispatcher) :
    Agrees fmt amSink amGeneratorUrl l (trace ++ out) s' := by
  have houts : outputs (trace ++ out) = outputs trace := by
    rw [outputs_append, houtputs, List.append_nil]
  have hevs : events (trace ++ out) = events trace := by
    rw [events_append, hevents, List.append_nil]
  refine ⟨?_, ?_, ?_, ?_, ?_, ?_, ?_⟩
  · rw [hloop, hevs, h.loop]
  · rw [hshared, hunsent, hevs, h.shared]
  · rw [ops_append, hops, List.append_nil, hevs, h.ops]
  · unfold offered
    rw [houts, hunsent, hevs]
    exact h.pushes
  · unfold accepted posted
    rw [houts, hdispatcher]
    exact h.faithful
  · rw [hunsent, hloop, hdispatcher]
    exact h.alive
  · rw [houts]
    exact h.full

theorem Agrees.none : Agrees fmt amSink amGeneratorUrl l (trace ++ []) s :=
  h.other rfl rfl rfl rfl rfl rfl rfl

theorem Agrees.arm (hidle : s.unsent = .none) (hrunning : s.loop.status = .running) (e : LoopEvent) :
    Agrees fmt amSink amGeneratorUrl l
      (trace ++ [.took e, .wrote (s.loop.step fmt amSink amGeneratorUrl e).2.metrics])
      { s with
        passes := .idle
        loop := (s.loop.step fmt amSink amGeneratorUrl e).1
        unsent := some (s.loop.step fmt amSink amGeneratorUrl e).2.pushes } := by
  have houts : outputs (trace ++ [.took e,
      .wrote (s.loop.step fmt amSink amGeneratorUrl e).2.metrics]) = outputs trace := by
    rw [outputs_append]
    exact List.append_nil _
  have hevs : events (trace ++ [.took e,
      .wrote (s.loop.step fmt amSink amGeneratorUrl e).2.metrics]) = events trace ++ [e] :=
    events_append
  have hturns : l.turns fmt amSink amGeneratorUrl (events trace ++ [e]) =
      l.turns fmt amSink amGeneratorUrl (events trace) ++
        [(s.loop.step fmt amSink amGeneratorUrl e).2] := by
    rw [h.loop]
    exact Run.outs_concat ..
  refine ⟨?_, ?_, ?_, ?_, ?_, fun _ => h.alive (.inr hrunning), ?_⟩
  · rw [hevs, h.loop]
    exact (Run.exec_concat ..).symm
  · rw [hevs, if_neg (Option.some_ne_none _), List.dropLast_concat, h.shared, if_pos hidle]
  · rw [ops_append, hevs, hturns, h.ops, List.flatMap_append, List.flatMap_singleton]
    exact congrArg _ (List.append_nil _)
  · have hpushes := h.pushes
    rw [hidle, Option.getD_none, List.append_nil] at hpushes
    unfold offered at hpushes ⊢
    rw [houts, hevs, hturns, hpushes, List.flatMap_append, List.flatMap_singleton]
    rfl
  · unfold accepted posted
    rw [houts]
    exact h.faithful
  · rw [houts]
    exact h.full

theorem Agrees.dispatch (x : DispatchStep AlertmanagerAlert)
    {unsent : Option (List AlertmanagerAlert)} (hnone : unsent = .none ↔ s.unsent = .none)
    (hpushes : ((s.dispatcher.step x).2.bind DispatchOutput.offered).toList ++ unsent.getD [] =
      s.unsent.getD [])
    (halive : s.unsent ≠ .none ∨ s.loop.status = .running →
      (s.dispatcher.step x).1.channel.senders ≠ 0)
    (hfull : ∀ a e, (s.dispatcher.step x).2 = some (.refused a e) → e = .full) :
    Agrees fmt amSink amGeneratorUrl l (trace ++ (s.dispatcher.step x).2.toList.map .dispatched)
      { s with dispatcher := (s.dispatcher.step x).1, unsent := unsent } := by
  have hlog : ∀ {β : Type} (f : DispatchOutput AlertmanagerAlert → Option β),
      (outputs (trace ++ (s.dispatcher.step x).2.toList.map .dispatched)).filterMap f =
        (outputs trace).filterMap f ++ ((s.dispatcher.step x).2.bind f).toList := fun f => by
    rw [outputs_append, List.filterMap_append]
    cases (s.dispatcher.step x).2 with
    | none => rfl
    | some o => cases hf : f o <;> simp [outputs, Observation.output, hf]
  have hevs : events (trace ++ (s.dispatcher.step x).2.toList.map .dispatched) = events trace := by
    rw [events_append]
    cases (s.dispatcher.step x).2 <;> exact List.append_nil _
  refine ⟨?_, ?_, ?_, ?_, ?_, ?_, fun a e hmem => ?_⟩
  · rw [hevs]
    exact h.loop
  · rw [hevs]
    simp only [hnone]
    exact h.shared
  · rw [hevs, ops_append, ← h.ops]
    cases (s.dispatcher.step x).2 <;> exact List.append_nil _
  · unfold offered
    rw [hlog, hevs, List.append_assoc, hpushes]
    exact h.pushes
  · unfold accepted posted
    rw [hlog, hlog]
    exact h.faithful.step x
  · simp only [ne_eq, hnone]
    exact halive
  · rw [outputs_append] at hmem
    rcases List.mem_append.mp hmem with hmem | hmem
    · exact h.full a e hmem
    · apply hfull a e
      cases hout : (s.dispatcher.step x).2 with
      | none =>
        rw [hout] at hmem
        exact absurd hmem List.not_mem_nil
      | some o =>
        rw [hout] at hmem
        exact congrArg some (List.mem_singleton.mp hmem).symm

/-- Every step of the system is a step of the loop alone, or none. -/
theorem Agrees.step (x : SystemStep n) :
    Agrees fmt amSink amGeneratorUrl l (trace ++ (s.step fmt amSink amGeneratorUrl x).2)
      (s.step fmt amSink amGeneratorUrl x).1 := by
  cases x with
  | cpu c =>
    refine h.other ?_ ?_ ?_ rfl rfl rfl rfl
    all_goals
      unfold System.step
      dsimp only
      cases s.kernel.counts c <;> cases s.kernel.records c <;> rfl
  | evictSyn srcAddr => exact h.other rfl rfl rfl rfl rfl rfl rfl
  | evictPort key => exact h.other rfl rfl rfl rfl rfl rfl rfl
  | read r =>
    unfold System.step
    dsimp only
    split_ifs
    · exact h.other rfl rfl rfl rfl rfl rfl rfl
    · exact h.none
  | arm arm =>
    unfold System.step
    dsimp only
    split_ifs with htaken
    · exact h.arm htaken.1 htaken.2 _
    · exact h.none
  | push =>
    unfold System.step
    dsimp only
    rcases hunsent : s.unsent with _ | _ | ⟨alert, rest⟩
    · exact h.none
    · exact h.none
    · have hs : s.dispatcher.channel.senders ≠ 0 := h.alive (.inl (by rw [hunsent]; simp))
      have hopen : s.dispatcher.channel.closed = false := by
        by_contra hclosed
        rw [Bool.not_eq_false] at hclosed
        exact hs (h.faithful.exited (h.faithful.closed hclosed)).1
      obtain ⟨hsenders, hout⟩ := Dispatcher.step_push hs hopen alert
      refine h.dispatch (.push alert) (by simp [hunsent]) ?_ (fun _ => hsenders ▸ hs)
        fun a e hrefused => ?_
      · rw [hunsent]
        rcases hout with hout | hout <;> rw [hout] <;> rfl
      · rcases hout with hout | hout
        · rw [hout] at hrefused
          exact absurd (Option.some.inj hrefused) (by simp)
        · rw [hout] at hrefused
          exact (DispatchOutput.refused.inj (Option.some.inj hrefused)).2.symm
  | publish =>
    unfold System.step
    dsimp only
    rcases hunsent : s.unsent with _ | _ | ⟨alert, rest⟩
    · exact h.none
    · rw [List.append_nil]
      have hpushes := h.pushes
      rw [hunsent] at hpushes
      exact ⟨h.loop, congrArg MainLoop.api h.loop, h.ops, hpushes, h.faithful,
        fun _ => h.alive (.inl (by rw [hunsent]; simp)), h.full⟩
    · exact h.none
  | dropSink =>
    unfold System.step
    dsimp only
    split_ifs with hdone
    · exact h.dispatch .dropSink (by simp) rfl
        (fun halive => by
          rcases halive with hbusy | hrunning
          · exact absurd hdone.1 hbusy
          · exact absurd hrunning hdone.2)
        fun a e hrefused => by cases hrefused
    · exact h.none
  | exit elapsed =>
    unfold System.step
    dsimp only
    split_ifs
    · exact h.other rfl rfl rfl rfl rfl rfl rfl
    · exact h.none
  | task t =>
    unfold System.step
    dsimp only
    split_ifs
    · obtain ⟨hsenders, hout⟩ := s.dispatcher.step_task t
      refine h.dispatch t.step Iff.rfl ?_ (fun halive => hsenders ▸ h.alive halive)
        fun a e hrefused => ?_
      · rcases hout with hout | ⟨batch, ok, hout⟩ <;> rw [hout] <;> rfl
      · rcases hout with hout | ⟨batch, ok, hout⟩
        · rw [hout] at hrefused
          cases hrefused
        · rw [hout] at hrefused
          exact absurd (Option.some.inj hrefused) (by simp)
    · exact h.none
  | request request => exact h.other rfl rfl rfl rfl rfl rfl rfl

end Steps

theorem agrees_after (l : MainLoop F) (steps : List (SystemStep n)) :
    Agrees fmt amSink amGeneratorUrl l ((new l).trace fmt amSink amGeneratorUrl steps)
      ((new l).after fmt amSink amGeneratorUrl steps) := by
  induction steps using List.reverseRecOn with
  | nil =>
    refine ⟨rfl, rfl, rfl, rfl, Dispatcher.faithful_after [], fun _ => Nat.one_ne_zero,
      fun a e hmem => ?_⟩
    exact absurd hmem List.not_mem_nil
  | append_singleton past x ih =>
    rw [after_concat, trace_concat]
    exact ih.step x

/-- **The API answers from whole turns**: whenever a request is answered, the answer is read off the
API state of the loop after the turns that have ended, all but the one in progress. -/
theorem answers_current (l : MainLoop F) (steps : List (SystemStep n)) (request : Request) :
    let s := (new l).after fmt amSink amGeneratorUrl steps
    let taken := events ((new l).trace fmt amSink amGeneratorUrl steps)
    let ended := if s.unsent = none then taken else taken.dropLast
    (s.step fmt amSink amGeneratorUrl (.request request)).2 =
      [.answered request (request.answer (l.after fmt amSink amGeneratorUrl ended).api)] := by
  intro s taken ended
  have hshared := (agrees_after fmt amSink amGeneratorUrl l steps).shared
  show [Observation.answered request (request.answer s.shared)] = _
  rw [hshared]

end System

end EbpfXdp
