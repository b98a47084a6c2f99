import Mathlib.Tactic.Common

/-!
# Bounded channels

A channel from many senders to one receiver: a queue in which at most `capacity` messages wait, the
number of live senders, and whether the receiver is gone. No operation waits; a receive that would
is `pending`. A message is accepted at the end of the queue and received from its front
(`queue_of_accepted`, `queue_of_received`).
-/

structure Channel (α : Type*) (capacity : ℕ) where
  /-- The messages that wait, the oldest first. -/
  queue : List α
  senders : ℕ
  /-- The receiver is gone. -/
  closed : Bool
  length_le : queue.length ≤ capacity

namespace Channel

inductive TrySendError
  | full | closed
deriving DecidableEq

inductive TryRecvError
  | empty | disconnected
deriving DecidableEq

/-- One poll of a receive: `finished` once all senders are gone and nothing is left. -/
inductive Polled (α : Type*)
  | message (a : α)
  | finished
  | pending

variable {α : Type*} {capacity : ℕ}

def new (capacity : ℕ) : Channel α capacity := ⟨[], 1, false, Nat.zero_le _⟩

def trySend (c : Channel α capacity) (a : α) : Channel α capacity × Except TrySendError Unit :=
  if c.closed then (c, .error .closed)
  else if h : c.queue.length < capacity then
    ({ c with
        queue := c.queue ++ [a]
        length_le := by rw [List.length_append, List.length_singleton]; exact h }, .ok ())
  else (c, .error .full)

/-- The channel without its oldest message. -/
def pop (c : Channel α capacity) : Channel α capacity :=
  { c with
    queue := c.queue.tail
    length_le := by
      have := c.length_le
      rw [List.length_tail]
      omega }

def tryRecv (c : Channel α capacity) : Channel α capacity × Except TryRecvError α :=
  match c.queue.head? with
  | some a => (c.pop, .ok a)
  | none => (c, .error (if c.senders = 0 then .disconnected else .empty))

def recv (c : Channel α capacity) : Channel α capacity × Polled α :=
  match c.queue.head? with
  | some a => (c.pop, .message a)
  | none => (c, if c.senders = 0 then .finished else .pending)

def cloneSender (c : Channel α capacity) : Channel α capacity := { c with senders := c.senders + 1 }

def dropSender (c : Channel α capacity) : Channel α capacity := { c with senders := c.senders - 1 }

/-- Messages that still wait are lost with the receiver. -/
def dropReceiver (c : Channel α capacity) : Channel α capacity where
  queue := []
  senders := c.senders
  closed := true
  length_le := Nat.zero_le _

variable {c c' : Channel α capacity} {a : α}

@[simp] theorem queue_cloneSender : c.cloneSender.queue = c.queue := rfl
@[simp] theorem closed_cloneSender : c.cloneSender.closed = c.closed := rfl
@[simp] theorem queue_dropSender : c.dropSender.queue = c.queue := rfl
@[simp] theorem closed_dropSender : c.dropSender.closed = c.closed := rfl
@[simp] theorem senders_pop : c.pop.senders = c.senders := rfl
@[simp] theorem closed_pop : c.pop.closed = c.closed := rfl

theorem queue_of_head? (h : c.queue.head? = some a) : c.queue = a :: c.pop.queue := by
  obtain ⟨rest, hrest⟩ := List.head?_eq_some_iff.mp h
  show c.queue = a :: c.queue.tail
  rw [hrest, List.tail_cons]

/-- An accepted message is the last in the queue, and nothing else changes. -/
theorem queue_of_accepted (h : c.trySend a = (c', .ok ())) :
    c'.queue = c.queue ++ [a] ∧ c'.senders = c.senders ∧ c'.closed = c.closed := by
  unfold trySend at h
  split_ifs at h with hc hlen
  · exact absurd (Prod.mk.inj h).2 (by simp)
  · obtain ⟨rfl, -⟩ := Prod.mk.inj h
    exact ⟨rfl, rfl, rfl⟩
  · exact absurd (Prod.mk.inj h).2 (by simp)

/-- A message is refused by a full queue or for want of a receiver, and then nothing changes. -/
theorem refused {e : TrySendError} (h : c.trySend a = (c', .error e)) :
    c' = c ∧ (c.closed = true ∧ e = .closed ∨ c.queue.length = capacity ∧ e = .full) := by
  unfold trySend at h
  split_ifs at h with hc hlen
  · obtain ⟨rfl, he⟩ := Prod.mk.inj h
    exact ⟨rfl, .inl ⟨hc, (Except.error.inj he).symm⟩⟩
  · exact absurd (Prod.mk.inj h).2 (by simp)
  · obtain ⟨rfl, he⟩ := Prod.mk.inj h
    exact ⟨rfl, .inr ⟨Nat.le_antisymm c.length_le (Nat.not_lt.mp hlen), (Except.error.inj he).symm⟩⟩

/-- A received message was the first in the queue, whether or not the receiver would have waited. -/
theorem queue_of_received (h : c.tryRecv = (c', .ok a) ∨ c.recv = (c', .message a)) :
    c.queue = a :: c'.queue ∧ c'.senders = c.senders ∧ c'.closed = c.closed := by
  unfold tryRecv recv at h
  cases hq : c.queue.head? with
  | none =>
    rw [hq] at h
    rcases h with h | h
    · exact absurd (Prod.mk.inj h).2 (by simp)
    · refine absurd (Prod.mk.inj h).2 ?_
      split_ifs <;> simp
  | some b =>
    rw [hq] at h
    have hpop : c' = c.pop ∧ a = b := by
      rcases h with h | h
      · exact ⟨(Prod.mk.inj h).1.symm, (Except.ok.inj (Prod.mk.inj h).2).symm⟩
      · exact ⟨(Prod.mk.inj h).1.symm, (Polled.message.inj (Prod.mk.inj h).2).symm⟩
    obtain ⟨rfl, rfl⟩ := hpop
    exact ⟨queue_of_head? hq, rfl, rfl⟩

/-- A receive that gets no message changes nothing, and there is none. -/
theorem of_not_received (h : (∃ e, c.tryRecv = (c', .error e)) ∨ c.recv = (c', .finished) ∨
    c.recv = (c', .pending)) : c' = c ∧ c.queue = [] := by
  unfold tryRecv recv at h
  cases hq : c.queue.head? with
  | none =>
    rw [hq] at h
    refine ⟨?_, List.head?_eq_none_iff.mp hq⟩
    rcases h with ⟨e, h⟩ | h | h
    · exact (Prod.mk.inj h).1.symm
    · exact (Prod.mk.inj h).1.symm
    · exact (Prod.mk.inj h).1.symm
  | some b =>
    rw [hq] at h
    rcases h with ⟨e, h⟩ | h | h
    · exact absurd (Prod.mk.inj h).2 (by simp)
    · exact absurd (Prod.mk.inj h).2 (by simp)
    · exact absurd (Prod.mk.inj h).2 (by simp)

theorem senders_of_pending (h : c.recv = (c', .pending)) : c.senders ≠ 0 := by
  intro hs
  unfold recv at h
  rw [(of_not_received (.inr (.inr h))).2] at h
  rw [List.head?_nil, if_pos hs] at h
  exact absurd (Prod.mk.inj h).2 (by simp)

theorem senders_of_finished (h : c.recv = (c', .finished)) : c.senders = 0 := by
  unfold recv at h
  rw [(of_not_received (.inr (.inl h))).2] at h
  by_contra hs
  rw [List.head?_nil, if_neg hs] at h
  exact absurd (Prod.mk.inj h).2 (by simp)

end Channel
