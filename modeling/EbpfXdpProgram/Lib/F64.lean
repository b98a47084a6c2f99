import Mathlib.Algebra.Order.Ring.Rat
import Mathlib.Tactic.FieldSimp
import Mathlib.Tactic.Linarith
import Mathlib.Tactic.NormNum
import Mathlib.Tactic.Positivity

/-!
# The number interface

`F64 F` lists the operations a program uses on 64-bit floats, without laws: a definition over
`[F64 F]` is about IEEE-754 doubles, about exact rationals and about exact reals at once.
`LawfulF64` adds the facts about the comparisons and about elapsed-time ratios that hold in every
one of these readings, NaN included: a NaN is a value that is not `le` itself.
-/

/-- The operations on `f64`. -/
class F64 (F : Type) extends Add F, Sub F, Mul F, Div F, Neg F, Max F, Min F, OfScientific F where
  lt : F → F → Bool
  le : F → F → Bool
  abs : F → F
  /-- `libm::sqrt(x)`. -/
  sqrt : F → F
  /-- `n as f64`; arguments past `u64::MAX` stand for `u64::MAX`. -/
  ofNat : ℕ → F

namespace F64

variable {F : Type} [F64 F]

def clamp (x lo hi : F) : F := if lt x lo then lo else if lt hi x then hi else x

/-- `Duration::as_secs_f64` of a duration given in nanoseconds. -/
def asSecs (nanos : ℕ) : F :=
  ofNat (nanos / 1000000000) + ofNat (nanos % 1000000000) / ofNat 1000000000

/-- The value compares with itself: it is not NaN. -/
def IsNum (x : F) : Prop := le x x = true

end F64

open F64

/-- What holds of the comparisons in every reading of `f64`. -/
class LawfulF64 (F : Type) [F64 F] : Prop where
  lt_iff : ∀ a b : F, lt a b = true ↔ le a b = true ∧ le b a = false
  le_trans : ∀ a b c : F, le a b = true → le b c = true → le a c = true
  le_total : ∀ a b : F, IsNum a → IsNum b → le a b = true ∨ le b a = true
  le_real : ∀ a b : F, le a b = true → IsNum a ∧ IsNum b
  zero_real : IsNum (0.0 : F)
  /-- A count over a positive elapsed time is a number. -/
  ratio_real : ∀ n d : ℕ, 0 < d → IsNum (ofNat n / asSecs d : F)
  asSecs_pos : ∀ d : ℕ, lt (0.0 : F) (asSecs d) = decide (0 < d)
  ratio_pos : ∀ n d : ℕ, 0 < d → lt (0.0 : F) (ofNat n / asSecs d) = decide (0 < n)

namespace F64

variable {F : Type} [F64 F] [LawfulF64 F]

theorem not_lt_of_le {a b : F} (h : le b a = true) : lt a b = false := by
  cases hab : lt a b with
  | false => rfl
  | true =>
    have := ((LawfulF64.lt_iff a b).mp hab).2
    rw [h] at this
    exact absurd this (by decide)

theorem le_of_not_lt {a b : F} (ha : IsNum a) (hb : IsNum b) (h : lt a b = false) :
    le b a = true := by
  rcases LawfulF64.le_total a b ha hb with hab | hba
  · cases hba : le b a with
    | false =>
      have := (LawfulF64.lt_iff a b).mpr ⟨hab, hba⟩
      rw [h] at this
      exact absurd this (by decide)
    | true => rfl
  · exact hba

end F64

/-! ## Exact rationals

The reading in which a computation can be evaluated. The square root is exact on squares. -/

instance : F64 ℚ where
  lt a b := decide (a < b)
  le a b := decide (a ≤ b)
  abs a := max a (-a)
  sqrt a := (Nat.sqrt (a.num.toNat * a.den) : ℚ) / a.den
  ofNat n := (n : ℚ)

theorem asSecs_rat (d : ℕ) : (asSecs d : ℚ) = (d : ℚ) / 1000000000 := by
  have h : ((1000000000 * (d / 1000000000) + d % 1000000000 : ℕ) : ℚ) = d := by
    rw [Nat.div_add_mod]
  push_cast at h
  show ((d / 1000000000 : ℕ) : ℚ) + ((d % 1000000000 : ℕ) : ℚ) / ((1000000000 : ℕ) : ℚ) = _
  push_cast
  linarith

instance : LawfulF64 ℚ where
  lt_iff a b := by
    show decide (a < b) = true ↔ decide (a ≤ b) = true ∧ decide (b ≤ a) = false
    simp only [decide_eq_true_eq, decide_eq_false_iff_not]
    exact lt_iff_le_not_ge
  le_trans a b c hab hbc := by
    have hab' : a ≤ b := of_decide_eq_true hab
    have hbc' : b ≤ c := of_decide_eq_true hbc
    exact decide_eq_true (hab'.trans hbc')
  le_total a b _ _ := by
    rcases le_total a b with h | h
    · exact .inl (decide_eq_true h)
    · exact .inr (decide_eq_true h)
  le_real a b _ := ⟨decide_eq_true (le_refl a), decide_eq_true (le_refl b)⟩
  zero_real := decide_eq_true (le_refl _)
  ratio_real _ _ _ := decide_eq_true (le_refl _)
  asSecs_pos d := by
    show decide ((0.0 : ℚ) < asSecs d) = _
    rw [asSecs_rat, show (0.0 : ℚ) = 0 by norm_num]
    congr 1
    rw [div_pos_iff_of_pos_right (by norm_num : (0 : ℚ) < 1000000000), Nat.cast_pos]
  ratio_pos n d hd := by
    have hd' : (0 : ℚ) < (d : ℚ) / 1000000000 := by positivity
    show decide ((0.0 : ℚ) < (n : ℚ) / asSecs d) = _
    rw [asSecs_rat, show (0.0 : ℚ) = 0 by norm_num]
    congr 1
    rw [div_pos_iff_of_pos_right hd', Nat.cast_pos]
