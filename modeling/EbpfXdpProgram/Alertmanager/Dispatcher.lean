import EbpfXdpProgram.Lib.Channel
import EbpfXdpProgram.Lib.Run
import Mathlib.Data.List.ReduceOption

/-!
# The Alertmanager dispatcher

`AlertmanagerSink` and `run_dispatcher` of `alertmanager.rs`, for alerts of any type `A`: sinks push
onto a bounded channel while a background task receives, collects a batch, and posts it with
retries. The steps of the sinks and of the task interleave in any order. `dispatcher_faithful` says
that the batches and what still waits are the accepted alerts in their order.
-/

namespace EbpfXdp

variable {A : Type}

def dispatchChannelCapacity : ℕ := 256
def maxBatch : ℕ := 64
def retryAttempts : ℕ := 3

/-- What becomes of one request of `post_with_retry`. -/
inductive PostOutcome
  | success
  | clientError
  /-- A response that is neither a success nor a client error. -/
  | otherStatus
  | transportError
deriving DecidableEq

namespace PostOutcome

def retried : PostOutcome → Bool
  | success | clientError => false
  | otherStatus | transportError => true

end PostOutcome

inductive DispatcherPhase (A : Type)
  /-- At `rx.recv().await`. -/
  | receiving
  /-- In the loop that fills the batch. -/
  | collecting (batch : List A)
  /-- In `post_with_retry`, before the request of this number. -/
  | posting (batch : List A) (attempt : ℕ)
  | exited

instance (phase : DispatcherPhase A) : Decidable (phase = .exited) :=
  match phase with
  | .exited => .isTrue rfl
  | .receiving | .collecting _ | .posting _ _ => .isFalse (by simp)

def DispatcherPhase.batch : DispatcherPhase A → List (List A)
  | receiving => []
  | collecting batch => [batch]
  | posting batch _ => [batch]
  | exited => []

structure Dispatcher (A : Type) where
  channel : Channel A dispatchChannelCapacity
  phase : DispatcherPhase A

/-- A step of a holder of a sink or of the task. -/
inductive DispatchStep (A : Type)
  | push (alert : A)
  | cloneSink
  | dropSink
  /-- One poll of `rx.recv()`. -/
  | recv
  /-- One turn of the loop that fills the batch. -/
  | tryRecv
  /-- One request of `post_with_retry`. -/
  | post (outcome : PostOutcome)

inductive DispatchOutput (A : Type)
  | accepted (alert : A)
  | refused (alert : A) (error : Channel.TrySendError)
  /-- `post_with_retry` has returned, with `Ok` or an error. -/
  | posted (batch : List A) (ok : Bool)

namespace DispatchOutput

def alert : DispatchOutput A → Option A
  | accepted alert => some alert
  | refused _ _ | posted _ _ => none

def batch : DispatchOutput A → Option (List A)
  | posted batch _ => some batch
  | accepted _ | refused _ _ => none

end DispatchOutput

namespace Dispatcher

/-- `maybe_spawn`: one sink, and the task at its first receive. -/
def new : Dispatcher A := ⟨.new dispatchChannelCapacity, .receiving⟩

def push (d : Dispatcher A) (alert : A) : Dispatcher A × DispatchOutput A :=
  match d.channel.trySend alert with
  | (channel, .ok ()) => ({ d with channel := channel }, .accepted alert)
  | (channel, .error e) => ({ d with channel := channel }, .refused alert e)

/-- One step, and what comes of it. A step that cannot be taken (a push without a live sink, a step
of the task when it is elsewhere) changes nothing, so that every list of steps is an
interleaving. -/
def step (d : Dispatcher A) : DispatchStep A → Dispatcher A × Option (DispatchOutput A)
  | .push alert =>
    if d.channel.senders = 0 then (d, none)
    else ((d.push alert).1, some (d.push alert).2)
  | .cloneSink =>
    if d.channel.senders = 0 then (d, none)
    else ({ d with channel := d.channel.cloneSender }, none)
  | .dropSink => ({ d with channel := d.channel.dropSender }, none)
  | .recv =>
    match d.phase with
    | .receiving =>
      match d.channel.recv with
      | (channel, .message first) => (⟨channel, .collecting [first]⟩, none)
      | (channel, .finished) => (⟨channel.dropReceiver, .exited⟩, none)
      | (channel, .pending) => (⟨channel, .receiving⟩, none)
    | _ => (d, none)
  | .tryRecv =>
    match d.phase with
    | .collecting batch =>
      if batch.length < maxBatch then
        match d.channel.tryRecv with
        | (channel, .ok next) => (⟨channel, .collecting (batch ++ [next])⟩, none)
        | (channel, .error _) => (⟨channel, .posting batch 0⟩, none)
      else ({ d with phase := .posting batch 0 }, none)
    | _ => (d, none)
  | .post outcome =>
    match d.phase with
    | .posting batch attempt =>
      if outcome.retried ∧ attempt + 1 < retryAttempts then
        ({ d with phase := .posting batch (attempt + 1) }, none)
      else ({ d with phase := .receiving }, some (.posted batch (outcome = .success)))
    | _ => (d, none)

def after (steps : List (DispatchStep A)) : Dispatcher A := Run.exec step new steps

def outputs (steps : List (DispatchStep A)) : List (DispatchOutput A) :=
  (Run.outs step new steps).reduceOption

def accepted (steps : List (DispatchStep A)) : List A :=
  (outputs steps).filterMap DispatchOutput.alert

def posted (steps : List (DispatchStep A)) : List (List A) :=
  (outputs steps).filterMap DispatchOutput.batch

theorem after_concat (past : List (DispatchStep A)) (s : DispatchStep A) :
    after (past ++ [s]) = (step (after past) s).1 := Run.exec_concat ..

theorem outputs_concat (past : List (DispatchStep A)) (s : DispatchStep A) :
    outputs (past ++ [s]) = outputs past ++ (step (after past) s).2.toList := by
  unfold outputs
  rw [Run.outs_concat, ← List.concat_eq_append, List.reduceOption_concat]
  rfl

/-! ## No alert is lost -/

/-- The batches and the queue are the accepted alerts in their order, and the task is gone only
after the sinks, with nothing left. -/
structure Faithful (accepted : List A) (posted : List (List A)) (d : Dispatcher A) : Prop where
  order : (posted ++ d.phase.batch).flatten ++ d.channel.queue = accepted
  sizes : ∀ batch ∈ posted ++ d.phase.batch, 1 ≤ batch.length ∧ batch.length ≤ maxBatch
  closed : d.channel.closed = true → d.phase = .exited
  exited : d.phase = .exited → d.channel.senders = 0 ∧ d.channel.queue = []

section Steps

variable {acc : List A} {po : List (List A)} {d : Dispatcher A} (h : Faithful acc po d)

include h

theorem Faithful.silent {d' : Dispatcher A} (hbatch : d'.phase.batch = d.phase.batch)
    (hqueue : d'.channel.queue = d.channel.queue) (hclosed : d'.channel.closed = d.channel.closed)
    (hphase : d'.phase = .exited ↔ d.phase = .exited)
    (hsenders : d.channel.senders = 0 → d'.channel.senders = 0) : Faithful acc po d' where
  order := by rw [hbatch, hqueue]; exact h.order
  sizes := by rw [hbatch]; exact h.sizes
  closed hc := hphase.mpr (h.closed (hclosed ▸ hc))
  exited hexit := by
    obtain ⟨hs, hq⟩ := h.exited (hphase.mp hexit)
    exact ⟨hsenders hs, hqueue.trans hq⟩

theorem Faithful.push (alert : A) (hs : d.channel.senders ≠ 0) :
    Faithful (acc ++ (d.push alert).2.alert.toList) (po ++ (d.push alert).2.batch.toList)
      (d.push alert).1 := by
  have hrunning : d.phase ≠ .exited := fun hexit => hs (h.exited hexit).1
  unfold Dispatcher.push
  rcases hsend : d.channel.trySend alert with ⟨channel, e | ⟨⟩⟩
  · obtain ⟨rfl, -⟩ := Channel.refused hsend
    simp only [DispatchOutput.alert, DispatchOutput.batch, Option.toList_none, List.append_nil]
    exact h
  · obtain ⟨hqueue, hsenders, hclosed⟩ := Channel.queue_of_accepted hsend
    simp only [DispatchOutput.alert, DispatchOutput.batch, Option.toList_none, List.append_nil,
      Option.toList_some]
    refine ⟨?_, h.sizes, fun hc => h.closed (hclosed ▸ hc), fun hexit => absurd hexit hrunning⟩
    show _ ++ channel.queue = _
    rw [hqueue, ← List.append_assoc, h.order]

theorem Faithful.receive {channel : Channel A dispatchChannelCapacity} {a : A}
    (hqueue : d.channel.queue = a :: channel.queue) (hclosed : channel.closed = d.channel.closed)
    (hrunning : d.phase ≠ .exited) (hlen : d.phase.batch.flatten.length < maxBatch) :
    Faithful acc po ⟨channel, .collecting (d.phase.batch.flatten ++ [a])⟩ where
  order := by
    have horder := h.order
    rw [hqueue] at horder
    show (po ++ [d.phase.batch.flatten ++ [a]]).flatten ++ channel.queue = acc
    rw [← horder]
    simp only [List.flatten_append, List.flatten_singleton, List.append_assoc,
      List.singleton_append]
  sizes batch hb := by
    rcases List.mem_append.mp hb with hb | hb
    · exact h.sizes batch (List.mem_append_left _ hb)
    · obtain rfl := List.mem_singleton.mp hb
      rw [List.length_append, List.length_singleton]
      omega
  closed hc := absurd (h.closed (hclosed ▸ hc)) hrunning
  exited hexit := by cases hexit

theorem Faithful.exit (hphase : d.phase = .receiving) (hqueue : d.channel.queue = [])
    (hsenders : d.channel.senders = 0) : Faithful acc po ⟨d.channel.dropReceiver, .exited⟩ where
  order := by
    have horder := h.order
    rw [hphase, hqueue] at horder
    exact horder
  sizes := by
    have hsizes := h.sizes
    rw [hphase] at hsizes
    exact hsizes
  closed _ := rfl
  exited _ := ⟨hsenders, rfl⟩

theorem Faithful.posted {batch : List A} {attempt : ℕ} (hphase : d.phase = .posting batch attempt) :
    Faithful acc (po ++ [batch]) { d with phase := .receiving } where
  order := by
    have horder := h.order
    rw [hphase] at horder
    show (po ++ [batch] ++ []).flatten ++ d.channel.queue = acc
    rw [List.append_nil]
    exact horder
  sizes := by
    have hsizes := h.sizes
    rw [hphase] at hsizes
    show ∀ b ∈ po ++ [batch] ++ [], _
    rw [List.append_nil]
    exact hsizes
  closed hc := by
    have hexit := h.closed hc
    rw [hphase] at hexit
    cases hexit
  exited hexit := by cases hexit

theorem Faithful.recv :
    (d.step .recv).2 = none ∧ Faithful acc po (d.step .recv).1 := by
  unfold Dispatcher.step
  cases hphase : d.phase with
  | receiving =>
    rcases hrecv : d.channel.recv with ⟨channel, first | _ | _⟩
    · obtain ⟨hqueue, -, hclosed⟩ := Channel.queue_of_received (.inr hrecv)
      have hreceive := h.receive hqueue hclosed (by simp [hphase])
        (by rw [hphase]; exact Nat.zero_lt_succ _)
      rw [hphase] at hreceive
      exact ⟨rfl, hreceive⟩
    · obtain ⟨rfl, hqueue⟩ := Channel.of_not_received (.inr (.inl hrecv))
      exact ⟨rfl, h.exit hphase hqueue (Channel.senders_of_finished hrecv)⟩
    · obtain ⟨rfl, -⟩ := Channel.of_not_received (.inr (.inr hrecv))
      exact ⟨rfl, h.silent (by rw [hphase]) rfl rfl (by rw [hphase]) id⟩
  | collecting batch => exact ⟨rfl, h⟩
  | posting batch attempt => exact ⟨rfl, h⟩
  | exited => exact ⟨rfl, h⟩

theorem Faithful.tryRecv :
    (d.step .tryRecv).2 = none ∧ Faithful acc po (d.step .tryRecv).1 := by
  unfold Dispatcher.step
  cases hphase : d.phase with
  | collecting batch =>
    have hposting : Faithful acc po ⟨d.channel, .posting batch 0⟩ :=
      h.silent (by rw [hphase]; rfl) rfl rfl (by simp [hphase]) id
    dsimp only
    split_ifs with hlen
    · rcases hrecv : d.channel.tryRecv with ⟨channel, e | next⟩
      · obtain ⟨rfl, -⟩ := Channel.of_not_received (.inl ⟨e, hrecv⟩)
        exact ⟨rfl, hposting⟩
      · obtain ⟨hqueue, -, hclosed⟩ := Channel.queue_of_received (.inl hrecv)
        have hbatch : d.phase.batch.flatten = batch := by rw [hphase]; exact List.flatten_singleton
        have hreceive := h.receive hqueue hclosed (by simp [hphase]) (by rwa [hbatch])
        rw [hbatch] at hreceive
        exact ⟨rfl, hreceive⟩
    · exact ⟨rfl, hposting⟩
  | receiving => exact ⟨rfl, h⟩
  | posting batch attempt => exact ⟨rfl, h⟩
  | exited => exact ⟨rfl, h⟩

theorem Faithful.post (outcome : PostOutcome) :
    (d.step (.post outcome)).2 = none ∧ Faithful acc po (d.step (.post outcome)).1 ∨
      ∃ batch, (d.step (.post outcome)).2 = some (.posted batch (outcome = .success)) ∧
        Faithful acc (po ++ [batch]) (d.step (.post outcome)).1 := by
  unfold Dispatcher.step
  cases hphase : d.phase with
  | posting batch attempt =>
    dsimp only
    split_ifs with hretry
    · exact .inl ⟨rfl, h.silent (by rw [hphase]; rfl) rfl rfl (by simp [hphase]) id⟩
    · exact .inr ⟨batch, rfl, h.posted hphase⟩
  | receiving => exact .inl ⟨rfl, h⟩
  | collecting batch => exact .inl ⟨rfl, h⟩
  | exited => exact .inl ⟨rfl, h⟩

/-- What comes of a step goes to the logs. -/
theorem Faithful.step (s : DispatchStep A) :
    Faithful (acc ++ ((d.step s).2.bind DispatchOutput.alert).toList)
      (po ++ ((d.step s).2.bind DispatchOutput.batch).toList) (d.step s).1 := by
  have hsilent : (d.step s).2 = none ∧ Faithful acc po (d.step s).1 →
      Faithful (acc ++ ((d.step s).2.bind DispatchOutput.alert).toList)
        (po ++ ((d.step s).2.bind DispatchOutput.batch).toList) (d.step s).1 := by
    rintro ⟨hnone, h'⟩
    rw [hnone]
    simpa using h'
  cases s with
  | push alert =>
    by_cases hs : d.channel.senders = 0
    · have hstep : d.step (.push alert) = (d, none) := if_pos hs
      exact hsilent (by rw [hstep]; exact ⟨rfl, h⟩)
    · have hstep : d.step (.push alert) = ((d.push alert).1, some (d.push alert).2) := if_neg hs
      rw [hstep]
      exact h.push alert hs
  | cloneSink =>
    by_cases hs : d.channel.senders = 0
    · have hstep : d.step .cloneSink = (d, none) := if_pos hs
      exact hsilent (by rw [hstep]; exact ⟨rfl, h⟩)
    · have hstep : d.step .cloneSink = ({ d with channel := d.channel.cloneSender }, none) :=
        if_neg hs
      exact hsilent (by
        rw [hstep]
        exact ⟨rfl, h.silent rfl rfl rfl Iff.rfl fun h0 => absurd h0 hs⟩)
  | dropSink =>
    refine hsilent ⟨rfl, h.silent rfl rfl rfl Iff.rfl fun h0 => ?_⟩
    show d.channel.senders - 1 = 0
    rw [h0]
  | recv => exact hsilent h.recv
  | tryRecv => exact hsilent h.tryRecv
  | post outcome =>
    rcases h.post outcome with ⟨hnone, hkept⟩ | ⟨batch, hout, hposted⟩
    · exact hsilent ⟨hnone, hkept⟩
    · rw [hout]
      simpa [DispatchOutput.alert, DispatchOutput.batch] using hposted

end Steps

theorem faithful_after (steps : List (DispatchStep A)) :
    Faithful (accepted steps) (posted steps) (after steps) := by
  induction steps using List.reverseRecOn with
  | nil =>
    refine ⟨rfl, fun batch hb => absurd hb List.not_mem_nil, fun hc => ?_, fun hexit => ?_⟩
    · cases hc
    · cases hexit
  | append_singleton past s ih =>
    have hlog : ∀ {β : Type} (f : DispatchOutput A → Option β) (o : Option (DispatchOutput A)),
        o.toList.filterMap f = (o.bind f).toList := fun f o => by
      rw [List.filterMap_eq_flatMap_toList, Option.toList_bind]
      rfl
    have hstep := ih.step s
    unfold accepted posted at hstep ⊢
    rw [after_concat, outputs_concat, List.filterMap_append, List.filterMap_append, hlog, hlog]
    exact hstep

/-- What is accepted and not posted yet is held by the task or queued. -/
theorem Faithful.waiting {acc : List A} {po : List (List A)} {d : Dispatcher A}
    (h : Faithful acc po d) : ∃ waiting, po.flatten ++ waiting = acc ∧
      waiting.length ≤ maxBatch + dispatchChannelCapacity ∧
      (d.phase = .exited → waiting = []) := by
  refine ⟨d.phase.batch.flatten ++ d.channel.queue, ?_, ?_, fun hexit => ?_⟩
  · rw [← List.append_assoc, ← List.flatten_append]
    exact h.order
  · have hbatch : d.phase.batch.flatten.length ≤ maxBatch := by
      have hsizes := fun batch hb => (h.sizes batch (List.mem_append_right _ hb)).2
      cases hphase : d.phase with
      | receiving | exited => exact Nat.zero_le _
      | collecting batch | posting batch attempt =>
        rw [hphase] at hsizes
        simpa [DispatcherPhase.batch] using hsizes batch (List.mem_singleton_self _)
    rw [List.length_append]
    exact Nat.add_le_add hbatch d.channel.length_le
  · rw [hexit, (h.exited hexit).2]
    rfl

theorem full_of_refused {d : Dispatcher A} {alert : A} {e : Channel.TrySendError}
    (h : (d.step (.push alert)).2 = some (.refused alert e)) :
    d.channel.queue.length = dispatchChannelCapacity ∨ d.channel.closed = true := by
  unfold step at h
  dsimp only at h
  split_ifs at h with hs
  unfold push at h
  rcases hsend : d.channel.trySend alert with ⟨channel, e' | ⟨⟩⟩
  · rcases (Channel.refused hsend).2 with ⟨hc, -⟩ | ⟨hfull, -⟩
    · exact .inr hc
    · exact .inl hfull
  · rw [hsend] at h
    exact absurd (Option.some.inj h) (by simp)

/-- **No accepted alert is lost, duplicated or reordered**: after every interleaving the batches
posted so far, the batch that is filled or posted, and the queue are the accepted pushes in their
order; a push is refused only by a full queue or when the task is gone; every batch has between 1
and `MAX_BATCH` alerts; and the task exits only after every sink, with all alerts posted. -/
theorem dispatcher_faithful (steps : List (DispatchStep A)) :
    let d := after steps
    (posted steps).flatten ++ d.phase.batch.flatten ++ d.channel.queue = accepted steps ∧
      (∀ alert e, (d.step (.push alert)).2 = some (.refused alert e) →
        d.channel.queue.length = dispatchChannelCapacity ∨ d.phase = .exited) ∧
      (∀ batch ∈ posted steps ++ d.phase.batch, 1 ≤ batch.length ∧ batch.length ≤ maxBatch) ∧
      (d.phase = .exited → d.channel.senders = 0 ∧ (posted steps).flatten = accepted steps) := by
  intro d
  have h : Faithful (accepted steps) (posted steps) d := faithful_after steps
  refine ⟨?_, fun alert e hrefused => ?_, h.sizes, fun hexit => ?_⟩
  · rw [← List.flatten_append]
    exact h.order
  · exact (full_of_refused hrefused).imp_right h.closed
  · obtain ⟨hs, hqueue⟩ := h.exited hexit
    have horder := h.order
    rw [hexit, hqueue, List.append_nil] at horder
    refine ⟨hs, ?_⟩
    rw [← horder]
    exact congrArg List.flatten (List.append_nil _).symm

/-- An alert that is pushed while a batch is collected joins it; the next one waits for the post. -/
example : posted [.push 1, .recv, .push 2, .tryRecv, .tryRecv, .push 3, .dropSink,
    .post .transportError, .post .success, .recv, .tryRecv, .post .clientError, .recv] =
      [[1, 2], [3]] := rfl

end Dispatcher

end EbpfXdp
