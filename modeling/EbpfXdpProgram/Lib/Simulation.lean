import EbpfXdpProgram.Lib.Run
import Mathlib.Data.List.ReduceOption

/-!
# Simulations that skip steps

A machine refines another one if each of its steps is, through an abstraction of the states, one
step of the other machine or none. Then a run is a run of the other machine on the inputs that are
passed on, with the same outputs (`exec_passed`, `outs_passed`).
-/

namespace Run

variable {σ σ' ι ι' ω : Type*} {step : σ → ι → σ × List ω} {step' : σ' → ι' → σ' × List ω}
  {abs : σ → σ'} {pass : σ → ι → Option ι'}

/-- Each step is the step of the other machine on the input that `pass` gives, or no step where it
gives none. -/
structure Refines (step : σ → ι → σ × List ω) (step' : σ' → ι' → σ' × List ω) (abs : σ → σ')
    (pass : σ → ι → Option ι') : Prop where
  step_passed : ∀ s x y, pass s x = some y → step' (abs s) y = (abs (step s x).1, (step s x).2)
  step_skipped : ∀ s x, pass s x = none → abs (step s x).1 = abs s ∧ (step s x).2 = []

/-- The inputs that a run passes on. -/
def passedOn (step : σ → ι → σ × List ω) (pass : σ → ι → Option ι') : σ → List ι → List ι'
  | _, [] => []
  | s, x :: xs => (pass s x).toList ++ passedOn step pass (step s x).1 xs

theorem passedOn_append (s : σ) (xs ys : List ι) :
    passedOn step pass s (xs ++ ys) =
      passedOn step pass s xs ++ passedOn step pass (exec step s xs) ys := by
  induction xs generalizing s with
  | nil => rfl
  | cons x xs ih => simp only [List.cons_append, passedOn, ih, List.append_assoc, exec_cons]

theorem exec_passed (h : Refines step step' abs pass) (s : σ) (xs : List ι) :
    exec step' (abs s) (passedOn step pass s xs) = abs (Run.exec step s xs) := by
  induction xs generalizing s with
  | nil => rfl
  | cons x xs ih =>
    rw [passedOn, exec_append, exec_cons]
    cases hpass : pass s x with
    | none =>
      rw [Option.toList_none, exec_nil, ← (h.step_skipped s x hpass).1]
      exact ih _
    | some y =>
      rw [Option.toList_some, exec_cons, exec_nil, h.step_passed s x y hpass]
      exact ih _

theorem outs_passed (h : Refines step step' abs pass) (s : σ) (xs : List ι) :
    (outs step' (abs s) (passedOn step pass s xs)).flatten = (Run.outs step s xs).flatten := by
  induction xs generalizing s with
  | nil => rfl
  | cons x xs ih =>
    rw [passedOn, outs_append, List.flatten_append, Run.outs, List.flatten_cons]
    cases hpass : pass s x with
    | none =>
      obtain ⟨habs, hsilent⟩ := h.step_skipped s x hpass
      rw [Option.toList_none, exec_nil, hsilent, ← habs]
      exact ih _
    | some y =>
      rw [Option.toList_some, exec_cons, exec_nil, Run.outs, Run.outs, h.step_passed s x y hpass, ih,
        List.flatten_singleton]

end Run
