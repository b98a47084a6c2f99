import Mathlib.Computability.Language

/-!
# Streams of sessions

A session opens, beats any number of times and closes; a stream is a sequence of sessions, the last
of which may be unfinished. `Session.follow` runs over a stream and remembers whether a session is
open: a stream it gets through is one of `Session.streams`.
-/

namespace Session

open Computability

inductive Signal
  | opens | beats | closes
deriving DecidableEq, Repr

open Signal

/-- Whether a session is open after the signal; `none` if the signal is out of place. -/
def next : Bool → Signal → Option Bool
  | false, opens => some true
  | true, beats => some true
  | true, closes => some false
  | _, _ => none

def follow (isOpen : Bool) (stream : List Signal) : Option Bool := stream.foldlM next isOpen

def session : Language Signal := {[opens]} * {[beats]}∗ * {[closes]}

/-- Finished sessions, and possibly an unfinished one. -/
def streams : Language Signal := session∗ * (1 + {[opens]} * {[beats]}∗)

@[simp] theorem follow_nil (isOpen : Bool) : follow isOpen [] = some isOpen := rfl

theorem follow_append (isOpen : Bool) (s t : List Signal) :
    follow isOpen (s ++ t) = (follow isOpen s).bind (follow · t) := List.foldlM_append

theorem follow_concat (isOpen : Bool) (s : List Signal) (a : Signal) :
    follow isOpen (s ++ [a]) = (follow isOpen s).bind (next · a) := by
  rw [follow_append]
  congr 1
  funext b
  exact bind_pure (next b a)

theorem kstar_append_mem {L : Language Signal} {s t : List Signal} (hs : s ∈ L∗) (ht : t ∈ L) :
    s ++ t ∈ L∗ :=
  Set.mem_of_mem_of_subset (Language.append_mem_mul hs ht) (kstar_mul_le_kstar (a := L))

/-- What a followed stream is made of, by the state it ends in. -/
theorem mem_of_follow (stream : List Signal) :
    (follow false stream = some false → stream ∈ session∗) ∧
    (follow false stream = some true → stream ∈ session∗ * ({[opens]} * {[beats]}∗)) := by
  induction stream using List.reverseRecOn with
  | nil => exact ⟨fun _ => Language.nil_mem_kstar _, fun h => absurd h (by decide)⟩
  | append_singleton s a ih =>
    rw [follow_concat]
    rcases hs : follow false s with _ | _ | _
    · exact ⟨nofun, nofun⟩
    · have hmem := ih.1 hs
      refine ⟨fun h => ?_, fun h => ?_⟩
      · rcases a with _ | _ | _ <;> exact absurd h (by decide)
      · cases a with
        | opens =>
          exact Language.append_mem_mul hmem
            (Language.append_mem_mul (b := []) (Set.mem_singleton _) (Language.nil_mem_kstar _))
        | beats => exact absurd h (by decide)
        | closes => exact absurd h (by decide)
    · obtain ⟨x, hx, y, hy, rfl⟩ := Language.mem_mul.mp (ih.2 hs)
      refine ⟨fun h => ?_, fun h => ?_⟩
      · cases a with
        | opens => exact absurd h (by decide)
        | beats => exact absurd h (by decide)
        | closes =>
          rw [List.append_assoc]
          exact kstar_append_mem hx (Language.append_mem_mul hy (Set.mem_singleton _))
      · cases a with
        | opens => exact absurd h (by decide)
        | beats =>
          obtain ⟨o, ho, b, hb, rfl⟩ := Language.mem_mul.mp hy
          rw [List.append_assoc, List.append_assoc]
          exact Language.append_mem_mul hx
            (Language.append_mem_mul ho (kstar_append_mem hb (Set.mem_singleton _)))
        | closes => exact absurd h (by decide)

/-- In a followed stream a session is open just before every signal that does not open one. -/
theorem follow_before {before after : List Signal} {a : Signal} {isOpen : Bool}
    (h : follow false (before ++ a :: after) = some isOpen) :
    follow false before = some (decide (a ≠ opens)) := by
  rw [← List.singleton_append, ← List.append_assoc, follow_append, follow_concat] at h
  obtain ⟨c, hc, -⟩ := Option.bind_eq_some_iff.mp h
  obtain ⟨b, hb, hnext⟩ := Option.bind_eq_some_iff.mp hc
  rw [hb]
  rcases b with _ | _ <;> rcases a with _ | _ | _ <;> first | rfl | simp [next] at hnext

/-- Each session that is opened and is not open at the end is closed. -/
theorem count_of_follow {isOpen isOpen' : Bool} {stream : List Signal}
    (h : follow isOpen stream = some isOpen') :
    isOpen.toNat + stream.count opens = stream.count closes + isOpen'.toNat := by
  induction stream using List.reverseRecOn generalizing isOpen' with
  | nil =>
    obtain rfl := Option.some.inj h
    simp
  | append_singleton s a ih =>
    rw [follow_concat] at h
    obtain ⟨b, hb, hnext⟩ := Option.bind_eq_some_iff.mp h
    have hpast := ih hb
    rw [List.count_append, List.count_append]
    cases b <;> cases a <;> simp [next] at hnext <;> subst hnext <;> simp at hpast ⊢ <;> omega

theorem mem_streams_of_follow {stream : List Signal} {isOpen : Bool}
    (h : follow false stream = some isOpen) : stream ∈ streams := by
  unfold streams
  rw [mul_add, mul_one]
  cases isOpen with
  | false => exact Or.inl ((mem_of_follow stream).1 h)
  | true => exact Or.inr ((mem_of_follow stream).2 h)

end Session
