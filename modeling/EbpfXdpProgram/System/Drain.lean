import EbpfXdpProgram.System.Delivery

/-!
# The end of the process

Once the loop has ended and the sink is dropped, nothing is pushed any more, and the dispatcher task
works off what is left: a potential pays for every step that the task takes, and another one for its
requests. So the task ends after a bounded number of both, whatever Alertmanager answers, and has
posted every alert that was accepted. `main` waits for it until the grace period is over
(`shutdown_drains`).
-/

namespace EbpfXdp

namespace Dispatcher

variable {A : Type} (d : Dispatcher A)

/-- One for a step that the task is at. -/
def turns : DispatchStep A → ℕ
  | .recv => match d.phase with
    | .receiving => 1
    | _ => 0
  | .tryRecv => match d.phase with
    | .collecting _ => 1
    | _ => 0
  | .post _ => match d.phase with
    | .posting _ _ => 1
    | _ => 0
  | .push _ | .cloneSink | .dropSink => 0

/-- One for a request to Alertmanager. -/
def requests : DispatchStep A → ℕ
  | .post outcome => d.turns (.post outcome)
  | .push _ | .cloneSink | .dropSink | .recv | .tryRecv => 0

/-- Without sinks, the task takes no more steps than this. -/
def stepsLeft : ℕ :=
  match d.phase with
  | .receiving => 5 * d.channel.queue.length + 1
  | .collecting _ => 5 * d.channel.queue.length + 5
  | .posting _ attempt => 5 * d.channel.queue.length + 1 + max 1 (retryAttempts - attempt)
  | .exited => 0

def batches (alerts : ℕ) : ℕ := (alerts + 63) / maxBatch

/-- Without sinks, the task makes no more requests than this. -/
def requestsLeft : ℕ :=
  match d.phase with
  | .receiving => retryAttempts * batches d.channel.queue.length
  | .collecting batch => retryAttempts * batches (max 1 batch.length + d.channel.queue.length)
  | .posting _ attempt =>
    max 1 (retryAttempts - attempt) + retryAttempts * batches d.channel.queue.length
  | .exited => 0

/-- What a step does when the sinks are gone: it is paid for by both potentials. -/
structure Paid (d' : Dispatcher A) (s : DispatchStep A) : Prop where
  senders : d'.channel.senders = 0
  turns : d'.stepsLeft + d.turns s ≤ d.stepsLeft
  requests : d'.requestsLeft + d.requests s ≤ d.requestsLeft

theorem paid_self {s : DispatchStep A} (hs : d.channel.senders = 0) (hturns : d.turns s = 0)
    (hrequests : d.requests s = 0) : Paid d d s :=
  ⟨hs, by rw [hturns, Nat.add_zero], by rw [hrequests, Nat.add_zero]⟩

section Paid

variable {d} (hs : d.channel.senders = 0)

include hs

theorem paid_recv : Paid d (d.step .recv).1 .recv := by
  unfold step
  dsimp only
  cases hphase : d.phase with
  | receiving =>
    rcases hrecv : d.channel.recv with ⟨channel, first | _ | _⟩
    · obtain ⟨hqueue, hsenders, -⟩ := Channel.queue_of_received (.inr hrecv)
      refine ⟨hsenders.trans hs, ?_, ?_⟩
      · simp only [stepsLeft, turns, hphase, hqueue, List.length_cons]
        omega
      · simp only [requestsLeft, requests, hphase, hqueue, List.length_cons, List.length_nil]
        unfold batches retryAttempts maxBatch
        omega
    · obtain ⟨rfl, -⟩ := Channel.of_not_received (.inr (.inl hrecv))
      refine ⟨hs, ?_, Nat.zero_le _⟩
      simp only [stepsLeft, turns, hphase]
      omega
    · exact absurd hs (Channel.senders_of_pending hrecv)
  | collecting batch => exact paid_self d hs (by simp [turns, hphase]) rfl
  | posting batch attempt => exact paid_self d hs (by simp [turns, hphase]) rfl
  | exited => exact paid_self d hs (by simp [turns, hphase]) rfl

theorem paid_tryRecv : Paid d (d.step .tryRecv).1 .tryRecv := by
  unfold step
  dsimp only
  cases hphase : d.phase with
  | collecting batch =>
    dsimp only
    by_cases hlen : batch.length < maxBatch
    · rw [if_pos hlen]
      rcases hrecv : d.channel.tryRecv with ⟨channel, e | next⟩
      · obtain ⟨rfl, hqueue⟩ := Channel.of_not_received (.inl ⟨e, hrecv⟩)
        refine ⟨hs, ?_, ?_⟩
        · simp only [stepsLeft, turns, hphase]
          unfold retryAttempts
          omega
        · simp only [requestsLeft, requests, hphase, hqueue, List.length_nil]
          unfold batches retryAttempts maxBatch
          omega
      · obtain ⟨hqueue, hsenders, -⟩ := Channel.queue_of_received (.inl hrecv)
        refine ⟨hsenders.trans hs, ?_, ?_⟩
        · simp only [stepsLeft, turns, hphase, hqueue, List.length_cons]
          omega
        · simp only [requestsLeft, requests, hphase, hqueue, List.length_cons, List.length_append,
            List.length_nil]
          unfold batches retryAttempts maxBatch
          omega
    · rw [if_neg hlen]
      refine ⟨hs, ?_, ?_⟩
      · simp only [stepsLeft, turns, hphase]
        unfold retryAttempts
        omega
      · simp only [requestsLeft, requests, hphase]
        unfold maxBatch at hlen
        unfold batches retryAttempts maxBatch
        omega
  | receiving => exact paid_self d hs (by simp [turns, hphase]) rfl
  | posting batch attempt => exact paid_self d hs (by simp [turns, hphase]) rfl
  | exited => exact paid_self d hs (by simp [turns, hphase]) rfl

theorem paid_post (outcome : PostOutcome) :
    Paid d (d.step (.post outcome)).1 (.post outcome) := by
  unfold step
  dsimp only
  cases hphase : d.phase with
  | posting batch attempt =>
    dsimp only
    by_cases hretry : outcome.retried = true ∧ attempt + 1 < retryAttempts
    · rw [if_pos hretry]
      obtain ⟨-, hattempt⟩ := hretry
      refine ⟨hs, ?_, ?_⟩
      · simp only [stepsLeft, turns, hphase]
        omega
      · simp only [requestsLeft, requests, turns, hphase]
        omega
    · rw [if_neg hretry]
      refine ⟨hs, ?_, ?_⟩
      · simp only [stepsLeft, turns, hphase]
        omega
      · simp only [requestsLeft, requests, turns, hphase]
        omega
  | receiving => exact paid_self d hs (by simp [turns, hphase]) (by simp [requests, turns, hphase])
  | collecting batch =>
    exact paid_self d hs (by simp [turns, hphase]) (by simp [requests, turns, hphase])
  | exited => exact paid_self d hs (by simp [turns, hphase]) (by simp [requests, turns, hphase])

theorem paid_step (s : DispatchStep A) : Paid d (d.step s).1 s := by
  cases s with
  | push alert =>
    have hstep : d.step (.push alert) = (d, none) := if_pos hs
    rw [hstep]
    exact paid_self d hs rfl rfl
  | cloneSink =>
    have hstep : d.step .cloneSink = (d, none) := if_pos hs
    rw [hstep]
    exact paid_self d hs rfl rfl
  | dropSink =>
    refine ⟨?_, Nat.le_refl _, Nat.le_refl _⟩
    show d.channel.senders - 1 = 0
    rw [hs]
  | recv => exact paid_recv hs
  | tryRecv => exact paid_tryRecv hs
  | post outcome => exact paid_post hs outcome

end Paid

/-- What is held and what waits is bounded, and so is what is left to do. -/
theorem left_le {acc : List A} {po : List (List A)} {d : Dispatcher A} (h : Faithful acc po d) :
    d.stepsLeft ≤ 1285 ∧ d.requestsLeft ≤ 15 := by
  have hqueue := d.channel.length_le
  unfold dispatchChannelCapacity at hqueue
  unfold stepsLeft requestsLeft batches retryAttempts maxBatch
  cases hphase : d.phase with
  | receiving => exact ⟨by dsimp only; omega, by dsimp only; omega⟩
  | collecting batch =>
    have hmem : batch ∈ po ++ d.phase.batch := by
      rw [hphase]
      exact List.mem_append_right _ (List.mem_singleton_self _)
    have hbatch := (h.sizes batch hmem).2
    unfold maxBatch at hbatch
    exact ⟨by dsimp only; omega, by dsimp only; omega⟩
  | posting batch attempt => exact ⟨by dsimp only; omega, by dsimp only; omega⟩
  | exited => exact ⟨Nat.zero_le _, Nat.zero_le _⟩

theorem exists_turn {d : Dispatcher A} (h : d.phase ≠ .exited) :
    ∃ t : TaskStep, d.turns t.step = 1 := by
  cases hphase : d.phase with
  | receiving => exact ⟨.recv, by simp [TaskStep.step, turns, hphase]⟩
  | collecting batch => exact ⟨.tryRecv, by simp [TaskStep.step, turns, hphase]⟩
  | posting batch attempt => exact ⟨.post .success, by simp [TaskStep.step, turns, hphase]⟩
  | exited => exact absurd hphase h

theorem exited_step {d : Dispatcher A} (h : d.phase = .exited) (s : DispatchStep A) :
    (d.step s).1.phase = .exited := by
  cases s with
  | push alert =>
    unfold step
    dsimp only
    split_ifs
    · exact h
    · unfold push
      rcases d.channel.trySend alert with ⟨channel, _ | _⟩ <;> exact h
  | cloneSink =>
    unfold step
    dsimp only
    split_ifs <;> exact h
  | dropSink => exact h
  | recv => simp [step, h]
  | tryRecv => simp [step, h]
  | post outcome => simp [step, h]

end Dispatcher

namespace System

variable {n : ℕ} {F : Type} [F64 F] (fmt : WireFormat F) (amSink : Bool)
  (amGeneratorUrl : Option String)

/-- One for a step that the task is at, while `main` waits. -/
def taskTurns (s : System n F) : SystemStep n → ℕ
  | .task t => if s.returned = none then s.dispatcher.turns t.step else 0
  | _ => 0

/-- One for a request to Alertmanager, while `main` waits. -/
def taskRequests (s : System n F) : SystemStep n → ℕ
  | .task t => if s.returned = none then s.dispatcher.requests t.step else 0
  | _ => 0

/-- A step of the system is a step of the dispatcher, or leaves it as it is. -/
theorem dispatcher_step (s : System n F) (x : SystemStep n) :
    (s.step fmt amSink amGeneratorUrl x).1.dispatcher = s.dispatcher ∧ s.taskTurns x = 0 ∧
        s.taskRequests x = 0 ∨
      ∃ y, (s.step fmt amSink amGeneratorUrl x).1.dispatcher = (s.dispatcher.step y).1 ∧
        s.taskTurns x = s.dispatcher.turns y ∧ s.taskRequests x = s.dispatcher.requests y := by
  cases x with
  | task t =>
    unfold System.step taskTurns taskRequests
    dsimp only
    split_ifs
    · exact .inr ⟨t.step, rfl, rfl, rfl⟩
    · exact .inl ⟨rfl, rfl, rfl⟩
  | push =>
    unfold System.step
    dsimp only
    rcases s.unsent with _ | _ | ⟨alert, rest⟩
    · exact .inl ⟨rfl, rfl, rfl⟩
    · exact .inl ⟨rfl, rfl, rfl⟩
    · exact .inr ⟨.push alert, rfl, rfl, rfl⟩
  | dropSink =>
    unfold System.step
    dsimp only
    split_ifs
    · exact .inr ⟨.dropSink, rfl, rfl, rfl⟩
    · exact .inl ⟨rfl, rfl, rfl⟩
  | publish =>
    unfold System.step
    dsimp only
    rcases s.unsent with _ | _ | ⟨alert, rest⟩ <;> exact .inl ⟨rfl, rfl, rfl⟩
  | read _ | arm _ | exit _ =>
    unfold System.step
    dsimp only
    split_ifs <;> exact .inl ⟨rfl, rfl, rfl⟩
  | cpu _ | evictSyn _ | evictPort _ | request _ => exact .inl ⟨rfl, rfl, rfl⟩

theorem paid_step {s : System n F} (hs : s.dispatcher.channel.senders = 0) (x : SystemStep n) :
    let d := (s.step fmt amSink amGeneratorUrl x).1.dispatcher
    d.channel.senders = 0 ∧ d.stepsLeft + s.taskTurns x ≤ s.dispatcher.stepsLeft ∧
      d.requestsLeft + s.taskRequests x ≤ s.dispatcher.requestsLeft := by
  intro d
  unfold d
  rcases dispatcher_step fmt amSink amGeneratorUrl s x with
    ⟨hsame, hturns, hrequests⟩ | ⟨y, hstep, hturns, hrequests⟩
  · rw [hsame, hturns, hrequests]
    exact ⟨hs, Nat.le_refl _, Nat.le_refl _⟩
  · rw [hstep, hturns, hrequests]
    have hpaid := Dispatcher.paid_step hs y
    exact ⟨hpaid.senders, hpaid.turns, hpaid.requests⟩

theorem senders_step {s : System n F} (hs : s.dispatcher.channel.senders = 0) (x : SystemStep n) :
    (s.step fmt amSink amGeneratorUrl x).1.dispatcher.channel.senders = 0 :=
  (paid_step fmt amSink amGeneratorUrl hs x).1

theorem senders_after {s : System n F} (hs : s.dispatcher.channel.senders = 0)
    (steps : List (SystemStep n)) :
    (s.after fmt amSink amGeneratorUrl steps).dispatcher.channel.senders = 0 :=
  Run.exec_invariant (I := fun s : System n F => s.dispatcher.channel.senders = 0)
    (fun _ x hs => senders_step fmt amSink amGeneratorUrl hs x) hs steps

/-- What is left to do pays for all steps of the task. -/
theorem paid_after {s : System n F} (hs : s.dispatcher.channel.senders = 0)
    (steps : List (SystemStep n)) :
    let d := (s.after fmt amSink amGeneratorUrl steps).dispatcher
    d.stepsLeft + Run.cost (step fmt amSink amGeneratorUrl) taskTurns s steps ≤
        s.dispatcher.stepsLeft ∧
      d.requestsLeft + Run.cost (step fmt amSink amGeneratorUrl) taskRequests s steps ≤
        s.dispatcher.requestsLeft := by
  have hkept : ∀ (s : System n F) x, s.dispatcher.channel.senders = 0 →
      (s.step fmt amSink amGeneratorUrl x).1.dispatcher.channel.senders = 0 :=
    fun s x hs => senders_step fmt amSink amGeneratorUrl hs x
  constructor
  · exact Run.cost_le_potential (V := fun s : System n F => s.dispatcher.stepsLeft) hkept
      (fun s x hs => (paid_step fmt amSink amGeneratorUrl hs x).2.1) hs steps
  · exact Run.cost_le_potential (V := fun s : System n F => s.dispatcher.requestsLeft) hkept
      (fun s x hs => (paid_step fmt amSink amGeneratorUrl hs x).2.2) hs steps

/-- `main` has waited for the task, or for as long as it waits. -/
def Waited (s : System n F) : Prop :=
  ∀ elapsed, s.returned = some elapsed →
    s.dispatcher.phase = .exited ∨ shutdownGracePeriod ≤ elapsed

theorem waited_step {s : System n F} (h : Waited s) (x : SystemStep n) :
    Waited (s.step fmt true amGeneratorUrl x).1 := by
  have hsame : (s.step fmt true amGeneratorUrl x).1.returned = s.returned →
      Waited (s.step fmt true amGeneratorUrl x).1 := fun hreturned elapsed helapsed => by
    refine (h elapsed (hreturned ▸ helapsed)).imp_left fun hexited => ?_
    rcases dispatcher_step fmt true amGeneratorUrl s x with ⟨hsame, -⟩ | ⟨y, hstep, -⟩
    · rwa [hsame]
    · rw [hstep]
      exact Dispatcher.exited_step hexited y
  cases x with
  | exit elapsed =>
    unfold System.step
    dsimp only
    by_cases htaken : s.returned = none ∧ s.dispatcher.channel.senders = 0 ∧
        (true = false ∨ s.dispatcher.phase = .exited ∨ shutdownGracePeriod ≤ elapsed)
    · rw [if_pos htaken]
      intro elapsed' helapsed
      obtain rfl := Option.some.inj helapsed
      exact htaken.2.2.resolve_left (by simp)
    · rw [if_neg htaken]
      exact h
  | read _ | arm _ | dropSink | task _ =>
    refine hsame ?_
    unfold System.step
    dsimp only
    split_ifs <;> rfl
  | push | publish =>
    refine hsame ?_
    unfold System.step
    dsimp only
    rcases s.unsent with _ | _ | ⟨alert, rest⟩ <;> rfl
  | cpu _ | evictSyn _ | evictPort _ | request _ => exact hsame rfl

theorem waited_after {s : System n F} (h : Waited s) (steps : List (SystemStep n)) :
    Waited (s.after fmt true amGeneratorUrl steps) :=
  Run.exec_invariant (I := Waited) (fun _ x hs => waited_step fmt amGeneratorUrl hs x) h steps

/-- **The process drains within the grace period**: once the sink is dropped, whatever the
interleaving and the answers of Alertmanager, the task makes at most 15 more requests and takes at
most 1285 more steps. What it is done with is a beginning of what was accepted, in order, with at
most 320 alerts missing, and none once the task has ended. Until `main` returns, the task has ended
or there is a step that it can take, and the task keeps `main` from returning no longer than until
it has ended or the grace period is over; if `main` has returned before that, the task had ended. -/
theorem shutdown_drains (l : MainLoop F) (steps rest : List (SystemStep n))
    (hdropped : ((new l : System n F).after fmt true amGeneratorUrl
      steps).dispatcher.channel.senders = 0) :
    let s := (new l).after fmt true amGeneratorUrl steps
    let s' := s.after fmt true amGeneratorUrl rest
    let trace := (new l).trace fmt true amGeneratorUrl (steps ++ rest)
    Run.cost (step fmt true amGeneratorUrl) taskRequests s rest ≤ 15 ∧
    Run.cost (step fmt true amGeneratorUrl) taskTurns s rest ≤ 1285 ∧
    (∃ waiting, (posted trace).flatten ++ waiting = accepted trace ∧ waiting.length ≤ 320 ∧
      (s'.dispatcher.phase = .exited → waiting = [])) ∧
    (s'.returned = none → (s'.dispatcher.phase = .exited ∨ ∃ t, s'.taskTurns (.task t) = 1) ∧
      ∀ elapsed, s'.dispatcher.phase = .exited ∨ shutdownGracePeriod ≤ elapsed →
        (s'.step fmt true amGeneratorUrl (.exit elapsed)).1.returned = some elapsed) ∧
    ∀ elapsed, s'.returned = some elapsed → elapsed < shutdownGracePeriod →
      s'.dispatcher.phase = .exited := by
  intro s s' trace
  have h := (agrees_after fmt true amGeneratorUrl l steps).faithful
  obtain ⟨hturns, hrequests⟩ := Dispatcher.left_le h
  obtain ⟨hstepsLeft, hrequestsLeft⟩ := paid_after fmt true amGeneratorUrl hdropped rest
  have hdropped' : s'.dispatcher.channel.senders = 0 :=
    senders_after fmt true amGeneratorUrl hdropped rest
  have hafter : (new l : System n F).after fmt true amGeneratorUrl (steps ++ rest) = s' :=
    Run.exec_append ..
  have h' := (agrees_after fmt true amGeneratorUrl l (steps ++ rest)).faithful
  rw [hafter] at h'
  refine ⟨?_, ?_, h'.waiting, fun hwaits => ⟨?_, fun elapsed hmay => ?_⟩,
    fun elapsed hreturned hearly => ?_⟩
  · exact (Nat.le_add_left _ _).trans (hrequestsLeft.trans hrequests)
  · exact (Nat.le_add_left _ _).trans (hstepsLeft.trans hturns)
  · refine or_iff_not_imp_left.mpr fun hrunning => ?_
    obtain ⟨t, ht⟩ := Dispatcher.exists_turn hrunning
    exact ⟨t, (if_pos hwaits).trans ht⟩
  · unfold System.step
    dsimp only
    rw [if_pos ⟨hwaits, hdropped', .inr hmay⟩]
  · have hstart : Waited (new l : System n F) := fun _ hnone => by cases hnone
    have hwaited : Waited s' := waited_after _ _ (waited_after _ _ hstart steps) rest
    exact (hwaited elapsed hreturned).resolve_right (not_le.mpr hearly)

/-- An emergency is pushed right before the signal. The first request is lost, and the second one
ends within a second. -/
theorem shutdown_drains_icmp :
    let fmt : WireFormat ℚ := ⟨Nat.repr, fun _ _ => ""⟩
    let detectors := (expect (resolveAll (F := ℚ) String.quote none) rfl).1
    let eval (secs : ℕ) : Arm := .anomalyEval ⟨secs * 1000000000, fun _ => AlertKey.order,
      AlertKey.order, secs, secs * 1000000000, AlertKey.order⟩
    let steps : List (SystemStep 1) := pollAndTake 1000000000 (eval 1) ++
      List.replicate 4 (.cpu (.count 0 icmpFrame)) ++ pollAndTake 2000000000 (eval 2) ++
      [.push, .publish, .arm .sigint, .publish, .dropSink]
    let rest := [.task .recv, .task .tryRecv, .task (.post .transportError),
      .task (.post .success), .task .recv, .exit 1000000000]
    let trace := (new (.new detectors 0)).trace fmt true none (steps ++ rest)
    (accepted trace).length = 1 ∧ (posted trace).flatten = accepted trace := by
  intro fmt detectors eval steps rest trace
  obtain ⟨-, -, ⟨waiting, horder, -, hwaiting⟩, -, hreturned⟩ :=
    shutdown_drains fmt none (.new detectors 0) steps rest (by decide +kernel)
  have hexited := hreturned 1000000000 (by decide +kernel) (by decide)
  rw [hwaiting hexited, List.append_nil] at horder
  exact ⟨by decide +kernel, horder⟩

end System

end EbpfXdp
