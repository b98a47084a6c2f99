import EbpfXdpProgram.Baseline.Estimator
import EbpfXdpProgram.Lib.Reals
import EbpfXdpProgram.Lib.Smoothing

/-!
# What samples do to an EWMA

In exact arithmetic an update is a clipped step of the mean and two mixes, of the variance with the
square of the clipped deviation and of the MAD with the whole deviation (`mean_update`,
`variance_update`, `mad_update`). Samples of a range keep the EWMA in the range
(`samples_stay_in_range`), and one outlier moves mean and variance by bounded amounts for good
(`outlier_bounded`). The MAD takes deviations whole: one sample can widen the clipping window, and
two can move the mean, as far as one likes (`burst_bounded_iff`).
-/

namespace EbpfXdp

open F64 Smoothing

/-! ## Panics -/

section Panics

variable {F : Type} [F64 F]

/-- `f64::clamp`; `none` is its panic, unless `min <= max`. -/
def tryClamp (x lo hi : F) : Option F := if le lo hi then some (clamp x lo hi) else none

def tryHuber (delta scale k : F) : Option F :=
  let limit := k * scale
  tryClamp delta (-limit) limit

namespace Ewma

/-- `update` with the panic of its clamp. -/
def tryUpdate (e : Ewma F) (sample : F) : Option (Ewma F) := do
  let prevMean := e.mean
  let delta := sample - prevMean
  let boundedDelta ← tryHuber delta e.robustStddev 3.0
  return {
    alpha := e.alpha
    mean := prevMean + e.alpha * boundedDelta
    variance := (1.0 - e.alpha) * e.variance + e.alpha * boundedDelta * boundedDelta
    mad := (1.0 - e.alpha) * e.mad + e.alpha * F64.abs (sample - prevMean)
    samples := e.samples + 1 }

theorem tryUpdate_eq (e : Ewma F) (sample : F) :
    e.tryUpdate sample =
      if le (-(3.0 * e.robustStddev)) (3.0 * e.robustStddev) then some (e.update sample)
      else none := by
  unfold tryUpdate tryHuber tryClamp
  dsimp only
  split_ifs <;> rfl

def feed (e : Ewma F) (samples : List F) : Ewma F := samples.foldl update e

theorem feed_append (e : Ewma F) (xs ys : List F) : e.feed (xs ++ ys) = (e.feed xs).feed ys :=
  List.foldl_append

end Ewma

end Panics

/-! ## One update, exactly -/

namespace Ewma

/-- How far from the mean a sample counts in full. -/
noncomputable def window (e : Ewma ℝ) : ℝ := 3 * e.robustStddev

/-- The smoothing factor is as documented, and variance and MAD are not negative. -/
structure Regular (e : Ewma ℝ) : Prop where
  alpha_pos : 0 < e.alpha
  alpha_le_one : e.alpha ≤ 1
  variance_nonneg : 0 ≤ e.variance
  mad_nonneg : 0 ≤ e.mad

theorem epsilon_le_robustStddev (e : Ewma ℝ) : 1e-9 ≤ e.robustStddev := le_max_right _ _

theorem robustStddev_pos (e : Ewma ℝ) : 0 < e.robustStddev :=
  lt_of_lt_of_le (by norm_num) e.epsilon_le_robustStddev

theorem mad_le_robustStddev (e : Ewma ℝ) : 1.4826 * e.mad ≤ e.robustStddev :=
  (le_max_left _ _).trans (le_max_left _ _)

theorem window_pos (e : Ewma ℝ) : 0 < e.window := mul_pos (by norm_num) e.robustStddev_pos

theorem huber_real {delta scale : ℝ} (h : 0 ≤ scale) :
    huber delta scale 3.0 = clip (3 * scale) delta := by
  unfold huber clamp clip
  dsimp only
  rw [real_three]
  split_ifs with hlo hhi
  · have hlo := real_lt.mp hlo
    rw [min_eq_left (by linarith), max_eq_left hlo.le]
  · have hhi := real_lt.mp hhi
    rw [min_eq_right hhi.le, max_eq_right (by linarith)]
  · have hlo := not_lt.mp (mt real_lt.mpr hlo)
    have hhi := not_lt.mp (mt real_lt.mpr hhi)
    rw [min_eq_left hhi, max_eq_right hlo]

@[simp] theorem alpha_update (e : Ewma ℝ) (x : ℝ) : (e.update x).alpha = e.alpha := rfl

theorem mean_update (e : Ewma ℝ) (x : ℝ) :
    (e.update x).mean = approach e.alpha e.window e.mean x := by
  unfold update
  dsimp only
  rw [huber_real e.robustStddev_pos.le]
  rfl

theorem variance_update (e : Ewma ℝ) (x : ℝ) :
    (e.update x).variance = mix e.alpha e.variance (clip e.window (x - e.mean) ^ 2) := by
  unfold update mix
  dsimp only
  rw [huber_real e.robustStddev_pos.le, real_one, mul_assoc, ← pow_two]
  rfl

theorem mad_update (e : Ewma ℝ) (x : ℝ) :
    (e.update x).mad = mix e.alpha e.mad |x - e.mean| := by
  unfold update mix
  dsimp only
  rw [real_one]
  rfl

theorem tryUpdate_real (e : Ewma ℝ) (x : ℝ) : e.tryUpdate x = some (e.update x) := by
  rw [tryUpdate_eq, if_pos (real_le.mpr ?_)]
  have hwindow : 0 < (3.0 : ℝ) * e.robustStddev := mul_pos (by norm_num) e.robustStddev_pos
  linarith

theorem tryFeed_real (e : Ewma ℝ) (xs : List ℝ) : xs.foldlM tryUpdate e = some (e.feed xs) := by
  induction xs generalizing e with
  | nil => rfl
  | cons x xs ih => rw [List.foldlM_cons, tryUpdate_real]; exact ih (e.update x)

namespace Regular

variable {e : Ewma ℝ}

theorem new {α : ℝ} (h : 0 < α) (h' : α ≤ 1) : (Ewma.new α).Regular where
  alpha_pos := h
  alpha_le_one := h'
  variance_nonneg := real_zero.ge
  mad_nonneg := real_zero.ge

protected theorem update (h : e.Regular) (x : ℝ) : (e.update x).Regular where
  alpha_pos := h.alpha_pos
  alpha_le_one := h.alpha_le_one
  variance_nonneg := by
    rw [variance_update]
    exact le_mix h.alpha_pos.le h.alpha_le_one h.variance_nonneg (sq_nonneg _)
  mad_nonneg := by
    rw [mad_update]
    exact le_mix h.alpha_pos.le h.alpha_le_one h.mad_nonneg (abs_nonneg _)

protected theorem feed (h : e.Regular) (xs : List ℝ) : (e.feed xs).Regular :=
  List.foldlRecOn xs update h fun _ he x _ => he.update x

theorem mean_between (h : e.Regular) (x : ℝ) :
    min e.mean x ≤ (e.update x).mean ∧ (e.update x).mean ≤ max e.mean x := by
  rw [mean_update]
  exact approach_mem h.alpha_pos.le h.alpha_le_one e.window_pos.le

end Regular

/-! ## Samples of a range -/

/-- What holds of an EWMA whose samples lie between `lo` and `hi`. -/
structure InRange (lo hi : ℝ) (e : Ewma ℝ) : Prop where
  le_mean : lo ≤ e.mean
  mean_le : e.mean ≤ hi
  variance_nonneg : 0 ≤ e.variance
  variance_le : e.variance ≤ (hi - lo) ^ 2
  mad_nonneg : 0 ≤ e.mad
  mad_le : e.mad ≤ hi - lo

section Range

variable {e : Ewma ℝ} {lo hi x : ℝ}

theorem InRange.new {α : ℝ} (hlo : lo ≤ 0) (hhi : 0 ≤ hi) : InRange lo hi (Ewma.new α) := by
  refine ⟨?_, ?_, ?_, ?_, ?_, ?_⟩ <;> dsimp only [Ewma.new] <;> rw [real_zero]
  · exact hlo
  · exact hhi
  · exact sq_nonneg _
  · linarith

theorem Regular.mean_mem (h : e.Regular) (hmean : lo ≤ e.mean ∧ e.mean ≤ hi)
    (hx : lo ≤ x ∧ x ≤ hi) : lo ≤ (e.update x).mean ∧ (e.update x).mean ≤ hi :=
  ⟨(le_min hmean.1 hx.1).trans (h.mean_between x).1,
    (h.mean_between x).2.trans (max_le hmean.2 hx.2)⟩

theorem sq_clip_le (hmean : lo ≤ e.mean ∧ e.mean ≤ hi) (hx : lo ≤ x ∧ x ≤ hi) :
    clip e.window (x - e.mean) ^ 2 ≤ (hi - lo) ^ 2 := by
  have hwidth : |x - e.mean| ≤ hi - lo :=
    abs_le.mpr ⟨by linarith [hx.1, hmean.2], by linarith [hx.2, hmean.1]⟩
  refine sq_le_sq' ?_ ?_ <;> have hclip := abs_clip (d := x - e.mean) e.window_pos.le
  · exact (abs_le.mp ((hclip.le.trans (min_le_left ..)).trans hwidth)).1
  · exact (abs_le.mp ((hclip.le.trans (min_le_left ..)).trans hwidth)).2

theorem InRange.update (h : e.Regular) (hr : InRange lo hi e) (hx : lo ≤ x ∧ x ≤ hi) :
    InRange lo hi (e.update x) where
  le_mean := (h.mean_mem ⟨hr.le_mean, hr.mean_le⟩ hx).1
  mean_le := (h.mean_mem ⟨hr.le_mean, hr.mean_le⟩ hx).2
  variance_nonneg := (h.update x).variance_nonneg
  variance_le := by
    rw [variance_update]
    exact mix_le h.alpha_pos.le h.alpha_le_one hr.variance_le
      (sq_clip_le ⟨hr.le_mean, hr.mean_le⟩ hx)
  mad_nonneg := (h.update x).mad_nonneg
  mad_le := by
    rw [mad_update]
    refine mix_le h.alpha_pos.le h.alpha_le_one hr.mad_le (abs_le.mpr ⟨?_, ?_⟩)
    · linarith [hx.1, hr.mean_le]
    · linarith [hx.2, hr.le_mean]

theorem InRange.feed (h : e.Regular) (hr : InRange lo hi e) {xs : List ℝ}
    (hxs : ∀ x ∈ xs, lo ≤ x ∧ x ≤ hi) : InRange lo hi (e.feed xs) := by
  induction xs generalizing e with
  | nil => exact hr
  | cons x xs ih =>
    exact ih (h.update x) (hr.update h (hxs x List.mem_cons_self))
      fun y hy => hxs y (List.mem_cons_of_mem x hy)

end Range

/-- From `Ewma::new` on, samples of a range keep the EWMA in the range: no update panics, and each
keeps the bounds and moves the mean towards its sample. -/
theorem samples_stay_in_range {α lo hi : ℝ} (hα : 0 < α) (hα' : α ≤ 1) (hlo : lo ≤ 0)
    (hhi : 0 ≤ hi) (xs : List ℝ) (hxs : ∀ x ∈ xs, lo ≤ x ∧ x ≤ hi) :
    xs.foldlM tryUpdate (Ewma.new α) = some ((Ewma.new α).feed xs) ∧
    ∀ before x after, xs = before ++ x :: after →
      let e := (Ewma.new α).feed before
      0 ≤ e.variance ∧ 1e-9 ≤ e.robustStddev ∧ e.tryUpdate x = some (e.update x) ∧
      InRange lo hi (e.update x) ∧ 1e-9 ≤ (e.update x).robustStddev ∧
      min e.mean x ≤ (e.update x).mean ∧ (e.update x).mean ≤ max e.mean x := by
  refine ⟨tryFeed_real _ xs, ?_⟩
  rintro before x after rfl
  have hnew : (Ewma.new α).Regular := .new hα hα'
  have hregular := hnew.feed before
  have hrange : InRange lo hi ((Ewma.new α).feed before) :=
    (InRange.new hlo hhi).feed hnew fun y hy => hxs y (List.mem_append_left _ hy)
  have hx := hxs x (List.mem_append_right _ List.mem_cons_self)
  exact ⟨hrange.variance_nonneg, epsilon_le_robustStddev _, tryUpdate_real _ x,
    hrange.update hregular hx, epsilon_le_robustStddev _, hregular.mean_between x⟩

theorem samples_stay_in_range_zero_two :
    [0, 2].foldlM tryUpdate (Ewma.new (0.4 : ℝ)) = some ((Ewma.new 0.4).feed [0, 2]) ∧
      InRange 0 2 ((Ewma.new 0.4).feed [0, 2]) := by
  have h := samples_stay_in_range (by norm_num : (0 : ℝ) < 0.4) (by norm_num) (le_refl (0 : ℝ))
    (by norm_num : (0 : ℝ) ≤ 2) [0, 2] (by simp)
  exact ⟨h.1, (h.2 [0] 2 [] rfl).2.2.2.1⟩

/-! ## One outlier -/

section Outlier

variable {e : Ewma ℝ} {lo hi M : ℝ}

theorem Regular.feed_bounded (h : e.Regular) (hmean : lo ≤ e.mean ∧ e.mean ≤ hi)
    (hvar : e.variance ≤ M) (hM : (hi - lo) ^ 2 ≤ M) {xs : List ℝ}
    (hxs : ∀ x ∈ xs, lo ≤ x ∧ x ≤ hi) :
    (lo ≤ (e.feed xs).mean ∧ (e.feed xs).mean ≤ hi) ∧ (e.feed xs).variance ≤ M := by
  induction xs generalizing e with
  | nil => exact ⟨hmean, hvar⟩
  | cons x xs ih =>
    have hx := hxs x List.mem_cons_self
    refine ih (h.update x) (h.mean_mem hmean hx) ?_ fun y hy => hxs y (List.mem_cons_of_mem x hy)
    rw [variance_update]
    exact mix_le h.alpha_pos.le h.alpha_le_one hvar ((sq_clip_le hmean hx).trans hM)

theorem Regular.mean_update_le (h : e.Regular) (x : ℝ) :
    e.mean - 3 * e.alpha * e.robustStddev ≤ (e.update x).mean ∧
      (e.update x).mean ≤ e.mean + 3 * e.alpha * e.robustStddev := by
  have hstep := abs_approach_sub_le (x := e.mean) (c := x) h.alpha_pos.le e.window_pos.le
  rw [← mean_update, window] at hstep
  obtain ⟨hneg, hpos⟩ := abs_le.mp hstep
  constructor <;> linarith

theorem Regular.variance_update_le (h : e.Regular) (x : ℝ) :
    (e.update x).variance ≤
      (1 - e.alpha) * e.variance + 9 * e.alpha * e.robustStddev ^ 2 := by
  have hclip : clip e.window (x - e.mean) ^ 2 ≤ e.window ^ 2 := by
    rw [← sq_abs, abs_clip e.window_pos.le]
    exact pow_le_pow_left₀ (le_min (abs_nonneg _) e.window_pos.le) (min_le_right ..) 2
  have := mul_le_mul_of_nonneg_left hclip h.alpha_pos.le
  rw [variance_update, mix]
  rw [window] at this ⊢
  linarith

end Outlier

/-- After any one sample, samples of an interval keep the mean near the interval and the mean
before, and the variance below a bound in which that one sample does not occur. -/
theorem outlier_bounded {e : Ewma ℝ} (h : e.Regular) (x a b : ℝ) (xs : List ℝ)
    (hxs : ∀ y ∈ xs, a ≤ y ∧ y ≤ b) :
    let lo := min a (e.mean - 3 * e.alpha * e.robustStddev)
    let hi := max b (e.mean + 3 * e.alpha * e.robustStddev)
    lo ≤ ((e.update x).feed xs).mean ∧ ((e.update x).feed xs).mean ≤ hi ∧
      ((e.update x).feed xs).variance ≤
        max ((1 - e.alpha) * e.variance + 9 * e.alpha * e.robustStddev ^ 2) ((hi - lo) ^ 2) := by
  intro lo hi
  have hmean := h.mean_update_le x
  have hmean : lo ≤ (e.update x).mean ∧ (e.update x).mean ≤ hi :=
    ⟨(min_le_right ..).trans hmean.1, hmean.2.trans (le_max_right ..)⟩
  obtain ⟨hmean, hvar⟩ := (h.update x).feed_bounded hmean
    ((h.variance_update_le x).trans (le_max_left _ ((hi - lo) ^ 2))) (le_max_right ..)
    fun y hy => ⟨(min_le_left ..).trans (hxs y hy).1, (hxs y hy).2.trans (le_max_left ..)⟩
  exact ⟨hmean.1, hmean.2, hvar⟩

theorem robustStddev_new (α : ℝ) : (Ewma.new α).robustStddev = 1e-9 := by
  unfold robustStddev Ewma.new epsilon
  dsimp only [F64.sqrt]
  rw [real_zero, Real.sqrt_zero, mul_zero, zero_mul, max_self]
  exact max_eq_right (by norm_num)

theorem outlier_bounded_thousand :
    -1.2e-9 ≤ (((Ewma.new (0.4 : ℝ)).update 1000).feed [0, 1]).mean ∧
      (((Ewma.new (0.4 : ℝ)).update 1000).feed [0, 1]).mean ≤ 1 := by
  have hnew : (Ewma.new (0.4 : ℝ)).Regular := .new (by norm_num) (by norm_num)
  have h := outlier_bounded hnew 1000 0 1 [0, 1] (by simp)
  simp only [robustStddev_new] at h
  refine ⟨(le_min ?_ ?_).trans h.1, h.2.1.trans (max_le le_rfl ?_)⟩ <;>
    norm_num [Ewma.new]

/-! ## Bursts -/

section Burst

variable {e : Ewma ℝ}

theorem mean_feed_replicate (e : Ewma ℝ) (n : ℕ) :
    (e.feed (List.replicate n e.mean)).mean = e.mean := by
  induction n generalizing e with
  | zero => rfl
  | succ n ih =>
    have hmean : (e.update e.mean).mean = e.mean := by
      rw [mean_update, approach_self e.window_pos.le]
    have := ih (e.update e.mean)
    rwa [hmean] at this

/-- The MAD takes its share of the whole deviation, and the clipping window follows. -/
theorem Regular.le_robustStddev_update (h : e.Regular) (x : ℝ) :
    e.alpha * |x - e.mean| ≤ (e.update x).robustStddev := by
  have hmad : e.alpha * |x - e.mean| ≤ (e.update x).mad := by
    rw [mad_update]
    exact mul_le_mix h.alpha_le_one h.mad_nonneg
  have := (e.update x).mad_le_robustStddev
  linarith [(h.update x).mad_nonneg]

theorem Regular.exists_robustStddev_gt (h : e.Regular) (B : ℝ) :
    ∃ x, B < (e.update x).robustStddev := by
  refine ⟨e.mean + (|B| + 1) / e.alpha, lt_of_lt_of_le ?_ (h.le_robustStddev_update _)⟩
  have hpos : 0 < (|B| + 1) / e.alpha := div_pos (by positivity) h.alpha_pos
  rw [add_sub_cancel_left, abs_of_pos hpos, mul_div_cancel₀ _ h.alpha_pos.ne']
  linarith [le_abs_self B]

/-- Two samples move the mean as far as one likes: the first opens the window for the second. -/
theorem Regular.exists_mean_gt (h : e.Regular) (B : ℝ) :
    ∃ x, B < ((e.update x).update x).mean - e.mean := by
  have hα := h.alpha_pos
  have hw := e.window_pos
  let d := e.window + (|B| + 1) / e.alpha
  have hd : 0 < d := add_pos hw (div_pos (by positivity) hα)
  let x := e.mean + (d / e.alpha + e.alpha * e.window)
  have hmean := (abs_le.mp (abs_approach_sub_le (x := e.mean) (c := x) hα.le hw.le)).1
  have hmean' := (abs_le.mp (abs_approach_sub_le (x := e.mean) (c := x) hα.le hw.le)).2
  rw [← mean_update] at hmean hmean'
  have hshare : d ≤ d / e.alpha := le_div_self hd.le hα h.alpha_le_one
  have hwindow : d ≤ (e.update x).window := by
    have hdev : |x - e.mean| = d / e.alpha + e.alpha * e.window := by
      rw [add_sub_cancel_left, abs_of_pos]
      positivity
    have hle := h.le_robustStddev_update x
    rw [hdev, mul_add, mul_div_cancel₀ _ hα.ne'] at hle
    have hrest : 0 ≤ e.alpha * (e.alpha * e.window) := by positivity
    have hscale := (e.update x).robustStddev_pos
    unfold window at hw ⊢
    linarith
  have hway : d ≤ x - (e.update x).mean := by
    show d ≤ e.mean + (d / e.alpha + e.alpha * e.window) - _
    linarith
  have hstep := mul_le_approach_sub hα.le hd.le hway hwindow
  rw [← alpha_update e x, ← mean_update] at hstep
  have hgain : e.alpha * d = e.alpha * e.window + (|B| + 1) := by
    show e.alpha * (e.window + (|B| + 1) / e.alpha) = _
    rw [mul_add, mul_div_cancel₀ _ hα.ne']
  rw [alpha_update] at hstep
  exact ⟨x, by linarith [le_abs_self B]⟩

theorem Regular.exists_burst_robustStddev_gt (h : e.Regular) (k : ℕ) (B : ℝ) :
    ∃ xs : List ℝ, xs.length = k + 1 ∧ B < (e.feed xs).robustStddev := by
  obtain ⟨x, hx⟩ := (h.feed (List.replicate k e.mean)).exists_robustStddev_gt B
  refine ⟨List.replicate k e.mean ++ [x], ?_, ?_⟩
  · rw [List.length_append, List.length_replicate, List.length_singleton]
  · rw [feed_append]
    exact hx

theorem Regular.exists_burst_mean_gt (h : e.Regular) (k : ℕ) (B : ℝ) :
    ∃ xs : List ℝ, xs.length = k + 2 ∧ B < (e.feed xs).mean - e.mean := by
  obtain ⟨x, hx⟩ := (h.feed (List.replicate k e.mean)).exists_mean_gt B
  rw [mean_feed_replicate] at hx
  refine ⟨List.replicate k e.mean ++ [x, x], ?_, ?_⟩
  · rw [List.length_append, List.length_replicate, List.length_cons, List.length_singleton]
  · rw [feed_append]
    exact hx

end Burst

/-- A burst of `k` samples of any size keeps mean and clipping window bounded only if it is empty,
and the mean alone only up to one sample. -/
theorem burst_bounded_iff {e : Ewma ℝ} (h : e.Regular) (k : ℕ) :
    ((∃ B, ∀ xs : List ℝ, xs.length = k →
      |(e.feed xs).mean - e.mean| ≤ B ∧ (e.feed xs).robustStddev ≤ B) ↔ k = 0) ∧
    ((∃ B, ∀ xs : List ℝ, xs.length = k → |(e.feed xs).mean - e.mean| ≤ B) ↔ k ≤ 1) := by
  refine ⟨⟨?_, ?_⟩, ⟨?_, ?_⟩⟩
  · rintro ⟨B, hB⟩
    by_contra hk
    obtain ⟨j, rfl⟩ := Nat.exists_eq_succ_of_ne_zero hk
    obtain ⟨xs, hlen, hgt⟩ := h.exists_burst_robustStddev_gt j B
    exact (hB xs hlen).2.not_gt hgt
  · rintro rfl
    refine ⟨e.robustStddev, fun xs hlen => ?_⟩
    rw [List.length_eq_zero_iff.mp hlen]
    refine ⟨?_, le_rfl⟩
    show |e.mean - e.mean| ≤ _
    rw [sub_self, abs_zero]
    exact e.robustStddev_pos.le
  · rintro ⟨B, hB⟩
    by_contra hk
    obtain ⟨j, rfl⟩ := Nat.exists_eq_add_of_lt (not_le.mp hk)
    obtain ⟨xs, hlen, hgt⟩ := h.exists_burst_mean_gt j B
    exact ((le_abs_self _).trans (hB xs (by omega))).not_gt hgt
  · intro hk
    refine ⟨e.alpha * e.window, fun xs hlen => ?_⟩
    rcases Nat.le_one_iff_eq_zero_or_eq_one.mp hk with rfl | rfl
    · rw [List.length_eq_zero_iff.mp hlen]
      show |e.mean - e.mean| ≤ _
      rw [sub_self, abs_zero]
      exact mul_nonneg h.alpha_pos.le e.window_pos.le
    · obtain ⟨x, rfl⟩ := List.length_eq_one_iff.mp hlen
      show |(e.update x).mean - e.mean| ≤ _
      rw [mean_update]
      exact abs_approach_sub_le h.alpha_pos.le e.window_pos.le

/-- From `Ewma::new(0.4)`: the empty burst, and for the mean alone one sample. -/
theorem burst_bounded_iff_one :
    (∃ B, ∀ xs : List ℝ, xs.length = 0 →
      |((Ewma.new 0.4).feed xs).mean - (Ewma.new 0.4).mean| ≤ B ∧
        ((Ewma.new 0.4).feed xs).robustStddev ≤ B) ∧
    ∃ B, ∀ xs : List ℝ, xs.length = 1 →
      |((Ewma.new 0.4).feed xs).mean - (Ewma.new 0.4).mean| ≤ B := by
  have hnew : (Ewma.new (0.4 : ℝ)).Regular := .new (by norm_num) (by norm_num)
  exact ⟨(burst_bounded_iff hnew 0).1.mpr rfl, (burst_bounded_iff hnew 1).2.mpr (le_refl 1)⟩

/-- From `Ewma::new(0.4)`, one sample: no bound holds for samples of every size. -/
theorem burst_unbounded_new :
    ¬∃ B, ∀ xs : List ℝ, xs.length = 1 →
      |((Ewma.new 0.4).feed xs).mean - (Ewma.new 0.4).mean| ≤ B ∧
        ((Ewma.new 0.4).feed xs).robustStddev ≤ B := by
  rintro ⟨B, hB⟩
  have hnew : (Ewma.new (0.4 : ℝ)).Regular := .new (by norm_num) (by norm_num)
  obtain ⟨x, hx⟩ := hnew.exists_robustStddev_gt B
  exact (hB [x] rfl).2.not_gt hx

end Ewma

end EbpfXdp
