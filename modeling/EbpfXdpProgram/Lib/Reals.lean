import EbpfXdpProgram.Lib.F64
import Mathlib.Analysis.Real.Sqrt

/-!
# Exact reals

The reading of `f64` in which a computation is free of rounding. It cannot be evaluated; the lemmas
of this module turn its comparisons into those of `ℝ`.
-/

open F64

open scoped Classical in
noncomputable instance : F64 ℝ where
  lt a b := decide (a < b)
  le a b := decide (a ≤ b)
  abs a := |a|
  sqrt a := Real.sqrt a
  ofNat n := (n : ℝ)

namespace F64

theorem real_zero : (0.0 : ℝ) = 0 := by norm_num

theorem real_one : (1.0 : ℝ) = 1 := by norm_num

theorem real_three : (3.0 : ℝ) = 3 := by norm_num

theorem real_six : (6.0 : ℝ) = 6 := by norm_num

theorem real_lt {a b : ℝ} : lt a b = true ↔ a < b := decide_eq_true_iff

theorem real_le {a b : ℝ} : le a b = true ↔ a ≤ b := decide_eq_true_iff

theorem real_abs (a : ℝ) : F64.abs a = |a| := rfl

theorem real_ofNat (n : ℕ) : (F64.ofNat n : ℝ) = n := rfl

theorem real_clamp {x lo hi : ℝ} (hlo : lo ≤ x) (hhi : x ≤ hi) : clamp x lo hi = x := by
  unfold clamp
  rw [if_neg fun h => hlo.not_gt (real_lt.mp h), if_neg fun h => hhi.not_gt (real_lt.mp h)]

theorem asSecs_real (d : ℕ) : (asSecs d : ℝ) = (d : ℝ) / 1000000000 := by
  have h : ((1000000000 * (d / 1000000000) + d % 1000000000 : ℕ) : ℝ) = d := by
    rw [Nat.div_add_mod]
  push_cast at h
  unfold asSecs
  simp only [real_ofNat]
  push_cast
  linarith

end F64

instance : LawfulF64 ℝ where
  lt_iff a b := by
    rw [← Bool.not_eq_true (le b a), real_lt, real_le, real_le]
    exact lt_iff_le_not_ge
  le_trans a b c hab hbc := real_le.mpr ((real_le.mp hab).trans (real_le.mp hbc))
  le_total a b _ _ := (le_total a b).imp real_le.mpr real_le.mpr
  le_real a b _ := ⟨real_le.mpr (le_refl a), real_le.mpr (le_refl b)⟩
  zero_real := real_le.mpr (le_refl _)
  ratio_real _ _ _ := real_le.mpr (le_refl _)
  asSecs_pos d := by
    rw [Bool.eq_iff_iff, real_lt, decide_eq_true_iff, asSecs_real, real_zero,
      div_pos_iff_of_pos_right (by norm_num : (0 : ℝ) < 1000000000), Nat.cast_pos]
  ratio_pos n d hd := by
    have hd' : (0 : ℝ) < (d : ℝ) / 1000000000 := by positivity
    rw [Bool.eq_iff_iff, real_lt, decide_eq_true_iff, asSecs_real, real_zero,
      real_ofNat, div_pos_iff_of_pos_right hd', Nat.cast_pos]
