import Mathlib.Algebra.BigOperators.Fin
import Mathlib.Algebra.Order.BigOperators.Group.Finset
import Mathlib.Tactic.Common

/-!
# Tallies of events

`tally w p xs` adds up the weights of the events that satisfy `p`: their number if every weight is
one. The tallies of the events with each key of a set add up to the tally of the events whose key
is in the set (`sum_tally_key`).
-/

/-- The total weight of the events that satisfy `p`. -/
def tally {α : Type*} (w : α → ℕ) (p : α → Prop) [DecidablePred p] (xs : List α) : ℕ :=
  ((xs.filter fun x => p x).map w).sum

section Tally

variable {α : Type*} {w : α → ℕ} {p q : α → Prop} [DecidablePred p] [DecidablePred q]

theorem tally_concat (xs : List α) (x : α) :
    tally w p (xs ++ [x]) = tally w p xs + if p x then w x else 0 := by
  unfold tally
  rw [List.filter_append, List.map_append, List.sum_append]
  split_ifs with h
  · rw [List.filter_singleton, decide_eq_true h]
    rfl
  · rw [List.filter_singleton, decide_eq_false h]
    rfl

theorem tally_concat_pos {x : α} (h : p x) (xs : List α) :
    tally w p (xs ++ [x]) = tally w p xs + w x := by rw [tally_concat, if_pos h]

theorem tally_concat_neg {x : α} (h : ¬p x) (xs : List α) :
    tally w p (xs ++ [x]) = tally w p xs := by rw [tally_concat, if_neg h, Nat.add_zero]

theorem tally_one (xs : List α) :
    tally (fun _ => 1) p xs = (xs.filter fun x => p x).length := by
  unfold tally
  rw [List.map_const', List.sum_replicate, smul_eq_mul, Nat.mul_one]

theorem tally_mono (h : ∀ x, p x → q x) (xs : List α) : tally w p xs ≤ tally w q xs := by
  induction xs using List.reverseRecOn with
  | nil => exact Nat.le_refl 0
  | append_singleton xs x ih =>
    rw [tally_concat, tally_concat]
    by_cases hp : p x
    · rw [if_pos hp, if_pos (h x hp)]
      omega
    · rw [if_neg hp]
      omega

/-- The tallies by key add up. -/
theorem sum_tally_key {κ : Type*} [DecidableEq κ] (key : α → κ) (s : Finset κ) (xs : List α) :
    ∑ k ∈ s, tally w (fun x => key x = k ∧ p x) xs = tally w (fun x => key x ∈ s ∧ p x) xs := by
  induction xs using List.reverseRecOn with
  | nil => exact Finset.sum_const_zero
  | append_singleton xs x ih =>
    simp only [tally_concat]
    rw [Finset.sum_add_distrib, ih]
    congr 1
    by_cases hp : p x
    · simp only [hp, and_true]
      exact Finset.sum_ite_eq s (key x) fun _ => w x
    · simp only [hp, and_false, if_false]
      exact Finset.sum_const_zero

end Tally
