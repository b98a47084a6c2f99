import Mathlib.Analysis.SpecificLimits.Basic
import Mathlib.Tactic.Linarith

/-!
# Exponential smoothing with clipped steps

A smoothed value moves by the share `a` of the way to what it is fed (`mix`), or of that way cut to
a limit (`approach`). The bounds are over any ordered field; the limits are over `ℝ`: a value fed a
constant through limits that stay away from `0` reaches it, and a value fed what vanishes vanishes.
-/

namespace Smoothing

section Field

variable {K : Type*} [Field K] [LinearOrder K]

/-- The share `a` of `y`, and the rest of `x`. -/
def mix (a x y : K) : K := (1 - a) * x + a * y

/-- The deviation `d` cut to the limit `l`. -/
def clip (l d : K) : K := max (-l) (min d l)

/-- The share `a` of the way from `x` to `c`, cut to the limit `l`. -/
def approach (a l x c : K) : K := x + a * clip l (c - x)

variable [IsStrictOrderedRing K] {a x y c d lo hi l : K}

/-! ## Mixing -/

theorem le_mix (ha : 0 ≤ a) (ha' : a ≤ 1) (hx : lo ≤ x) (hy : lo ≤ y) : lo ≤ mix a x y :=
  calc lo = (1 - a) * lo + a * lo := by ring
    _ ≤ (1 - a) * x + a * y :=
      add_le_add (mul_le_mul_of_nonneg_left hx (by linarith)) (mul_le_mul_of_nonneg_left hy ha)

theorem mix_le (ha : 0 ≤ a) (ha' : a ≤ 1) (hx : x ≤ hi) (hy : y ≤ hi) : mix a x y ≤ hi :=
  calc (1 - a) * x + a * y ≤ (1 - a) * hi + a * hi :=
      add_le_add (mul_le_mul_of_nonneg_left hx (by linarith)) (mul_le_mul_of_nonneg_left hy ha)
    _ = hi := by ring

/-- What is fed counts at least its share. -/
theorem mul_le_mix (ha' : a ≤ 1) (hx : 0 ≤ x) : a * y ≤ mix a x y :=
  le_add_of_nonneg_left (mul_nonneg (by linarith) hx)

/-! ## Clipping -/

theorem clip_of_nonneg (hl : 0 ≤ l) (hd : 0 ≤ d) : clip l d = min d l :=
  max_eq_right ((neg_nonpos.mpr hl).trans (le_min hd hl))

theorem clip_of_nonpos (hl : 0 ≤ l) (hd : d ≤ 0) : clip l d = -min (-d) l := by
  unfold clip
  rw [min_eq_left (hd.trans hl), ← max_neg_neg, neg_neg, max_comm]

theorem abs_clip (hl : 0 ≤ l) : |clip l d| = min |d| l := by
  rcases le_total 0 d with hd | hd
  · rw [clip_of_nonneg hl hd, abs_of_nonneg hd, abs_of_nonneg (le_min hd hl)]
  · rw [clip_of_nonpos hl hd, abs_neg, abs_of_nonpos hd,
      abs_of_nonneg (le_min (neg_nonneg.mpr hd) hl)]

theorem clip_zero (hl : 0 ≤ l) : clip l 0 = 0 := by
  rw [clip_of_nonneg hl le_rfl, min_eq_left hl]

/-! ## Approaching -/

theorem approach_self (hl : 0 ≤ l) : approach a l x x = x := by
  unfold approach
  rw [sub_self, clip_zero hl, mul_zero, add_zero]

theorem abs_approach_sub_le (ha : 0 ≤ a) (hl : 0 ≤ l) : |approach a l x c - x| ≤ a * l := by
  unfold approach
  rw [add_sub_cancel_left, abs_mul, abs_of_nonneg ha, abs_clip hl]
  exact mul_le_mul_of_nonneg_left (min_le_right ..) ha

theorem approach_mem (ha : 0 ≤ a) (ha' : a ≤ 1) (hl : 0 ≤ l) :
    min x c ≤ approach a l x c ∧ approach a l x c ≤ max x c := by
  unfold approach
  rcases le_total x c with h | h
  · have hd : 0 ≤ c - x := sub_nonneg.mpr h
    have hclip : 0 ≤ min (c - x) l := le_min hd hl
    have hle : a * min (c - x) l ≤ c - x :=
      (mul_le_of_le_one_left hclip ha').trans (min_le_left ..)
    rw [min_eq_left h, max_eq_right h, clip_of_nonneg hl hd]
    exact ⟨le_add_of_nonneg_right (mul_nonneg ha hclip), by linarith⟩
  · have hd : c - x ≤ 0 := sub_nonpos.mpr h
    have hclip : 0 ≤ min (-(c - x)) l := le_min (neg_nonneg.mpr hd) hl
    have hle : a * min (-(c - x)) l ≤ -(c - x) :=
      (mul_le_of_le_one_left hclip ha').trans (min_le_left ..)
    have hge : 0 ≤ a * min (-(c - x)) l := mul_nonneg ha hclip
    rw [min_eq_right h, max_eq_left h, clip_of_nonpos hl hd, mul_neg]
    exact ⟨by linarith, by linarith⟩

/-- Where neither the way nor the limit is shorter than `d`, a step is at least its share. -/
theorem mul_le_approach_sub (ha : 0 ≤ a) (hd : 0 ≤ d) (hway : d ≤ c - x) (hl : d ≤ l) :
    a * d ≤ approach a l x c - x := by
  unfold approach
  rw [add_sub_cancel_left, clip_of_nonneg (hd.trans hl) (hd.trans hway)]
  exact mul_le_mul_of_nonneg_left (le_min hway hl) ha

theorem abs_sub_approach (ha' : a ≤ 1) (hl : 0 ≤ l) :
    |c - approach a l x c| = |c - x| - a * min |c - x| l := by
  unfold approach
  rcases le_total 0 (c - x) with hd | hd
  · have hclip : 0 ≤ min (c - x) l := le_min hd hl
    have hle : a * min (c - x) l ≤ c - x :=
      (mul_le_of_le_one_left hclip ha').trans (min_le_left ..)
    rw [clip_of_nonneg hl hd, abs_of_nonneg hd, abs_of_nonneg (by linarith)]
    ring
  · have hclip : 0 ≤ min (-(c - x)) l := le_min (neg_nonneg.mpr hd) hl
    have hle : a * min (-(c - x)) l ≤ -(c - x) :=
      (mul_le_of_le_one_left hclip ha').trans (min_le_left ..)
    rw [clip_of_nonpos hl hd, abs_of_nonpos hd, abs_of_nonpos (by linarith)]
    ring

end Field

/-! ## Limits -/

section Limits

open Filter Topology

variable {a : ℝ}

/-- A distance that keeps falling by a share of itself, or of limits that stay away from `0`,
vanishes. -/
theorem tendsto_of_descent {D l : ℕ → ℝ} {m : ℝ} (ha : 0 < a) (hm : 0 < m) (hl : ∀ n, m ≤ l n)
    (hD : ∀ n, 0 ≤ D n) (hstep : ∀ n, D (n + 1) = D n - a * min (D n) (l n)) :
    Tendsto D atTop (𝓝 0) := by
  have hanti : Antitone D := antitone_nat_of_succ_le fun n => by
    have hmin : 0 ≤ min (D n) (l n) := le_min (hD n) (hm.le.trans (hl n))
    have := mul_nonneg ha.le hmin
    linarith [hstep n]
  -- the limit of the distances is a share of itself or of the least limit below itself
  obtain ⟨L, hL⟩ : ∃ L, Tendsto D atTop (𝓝 L) :=
    ⟨_, tendsto_atTop_ciInf hanti ⟨0, by rintro _ ⟨n, rfl⟩; exact hD n⟩⟩
  have hL0 : 0 ≤ L := ge_of_tendsto' hL hD
  have hstep' : ∀ n, D (n + 1) ≤ D n - a * min (D n) m := fun n => by
    have := mul_le_mul_of_nonneg_left (min_le_min_left (D n) (hl n)) ha.le
    linarith [hstep n]
  have hlimit : L ≤ L - a * min L m :=
    le_of_tendsto_of_tendsto' ((tendsto_add_atTop_iff_nat 1).mpr hL)
      (hL.sub ((hL.min tendsto_const_nhds).const_mul a)) hstep'
  have hmin : min L m ≤ 0 := by
    by_contra hpos
    have := mul_pos ha (not_le.mp hpos)
    linarith
  have hLle : L ≤ 0 := (min_le_iff.mp hmin).resolve_right (not_le.mpr hm)
  rwa [le_antisymm hLle hL0] at hL

/-- Below a bound on what it is fed, a smoothed value exceeds the bound by less and less. -/
theorem le_of_mix {v w : ℕ → ℝ} {b : ℝ} (ha : 0 ≤ a) (ha' : a ≤ 1)
    (hstep : ∀ n, v (n + 1) = mix a (v n) (w n)) (hw : ∀ n, w n ≤ b) (n : ℕ) :
    v n ≤ b + (1 - a) ^ n * (v 0 - b) := by
  induction n with
  | zero => linarith
  | succ n ih =>
    calc v (n + 1) = (1 - a) * v n + a * w n := hstep n
      _ ≤ (1 - a) * (b + (1 - a) ^ n * (v 0 - b)) + a * b :=
        add_le_add (mul_le_mul_of_nonneg_left ih (by linarith))
          (mul_le_mul_of_nonneg_left (hw n) ha)
      _ = b + (1 - a) ^ (n + 1) * (v 0 - b) := by ring

/-- A smoothed value vanishes with what it is fed. -/
theorem tendsto_mix {v w : ℕ → ℝ} (ha : 0 < a) (ha' : a ≤ 1) (hv : ∀ n, 0 ≤ v n)
    (hstep : ∀ n, v (n + 1) = mix a (v n) (w n)) (hw : Tendsto w atTop (𝓝 0)) :
    Tendsto v atTop (𝓝 0) := by
  rw [Metric.tendsto_atTop]
  intro ε hε
  obtain ⟨N, hN⟩ := Metric.tendsto_atTop.mp hw (ε / 2) (half_pos hε)
  have hbound := le_of_mix (v := fun n => v (N + n)) (w := fun n => w (N + n)) (b := ε / 2) ha.le
    ha' (fun n => hstep (N + n)) fun n => by
      have := hN (N + n) (Nat.le_add_right ..)
      rw [Real.dist_0_eq_abs] at this
      exact (le_abs_self _).trans this.le
  have hpow : Tendsto (fun n => (1 - a) ^ n * (v N - ε / 2)) atTop (𝓝 0) := by
    have := (tendsto_pow_atTop_nhds_zero_of_lt_one (r := 1 - a) (by linarith) (by linarith)).mul_const
      (v N - ε / 2)
    rwa [zero_mul] at this
  obtain ⟨M, hM⟩ := Metric.tendsto_atTop.mp hpow (ε / 2) (half_pos hε)
  refine ⟨N + M, fun n hn => ?_⟩
  obtain ⟨k, rfl⟩ := Nat.exists_eq_add_of_le ((Nat.le_add_right N M).trans hn)
  have hk := hM k (by omega)
  rw [Real.dist_0_eq_abs] at hk ⊢
  have := hbound k
  have := le_abs_self ((1 - a) ^ k * (v N - ε / 2))
  rw [abs_of_nonneg (hv _)]
  simp only [Nat.add_zero] at *
  linarith

end Limits

end Smoothing
