import EbpfXdpProgram.Baseline.Bounds

/-!
# Constant traffic

Fed one sample again and again, an EWMA has its mean go to the sample and its variance to `0`: the
clipping window is never narrower than its floor, so that the mean always gains, and once it is near
the sample the variance is fed next to nothing. Below its floor the readiness gate stays shut
(`constant_traffic_warms`), whatever the estimator has seen before.
-/

namespace EbpfXdp

open F64 Smoothing Filter Topology

namespace Ewma

section Constant

variable {e : Ewma ℝ}

noncomputable def repeated (e : Ewma ℝ) (c : ℝ) (n : ℕ) : Ewma ℝ := e.feed (List.replicate n c)

theorem repeated_succ (e : Ewma ℝ) (c : ℝ) (n : ℕ) :
    e.repeated c (n + 1) = (e.repeated c n).update c := by
  unfold repeated
  rw [List.replicate_succ', feed_append]
  rfl

theorem repeated_add (e : Ewma ℝ) (c : ℝ) (m n : ℕ) :
    (e.repeated c m).repeated c n = e.repeated c (m + n) := by
  unfold repeated
  rw [List.replicate_add, feed_append]

theorem alpha_repeated (e : Ewma ℝ) (c : ℝ) (n : ℕ) : (e.repeated c n).alpha = e.alpha := by
  induction n with
  | zero => rfl
  | succ n ih => rw [repeated_succ, alpha_update, ih]

theorem Regular.repeated (h : e.Regular) (c : ℝ) (n : ℕ) : (e.repeated c n).Regular := h.feed _

/-- The mean nears the sample by the share of its distance, or of the window. -/
theorem Regular.distance_succ (h : e.Regular) (c : ℝ) (n : ℕ) :
    |c - (e.repeated c (n + 1)).mean| = |c - (e.repeated c n).mean| -
      e.alpha * min |c - (e.repeated c n).mean| (e.repeated c n).window := by
  rw [repeated_succ, mean_update, alpha_repeated]
  exact abs_sub_approach h.alpha_le_one (e.repeated c n).window_pos.le

theorem Regular.tendsto_distance (h : e.Regular) (c : ℝ) :
    Tendsto (fun n => |c - (e.repeated c n).mean|) atTop (𝓝 0) := by
  refine tendsto_of_descent (m := 3 * 1e-9) h.alpha_pos (by norm_num) (fun n => ?_)
    (fun n => abs_nonneg _) (h.distance_succ c)
  exact mul_le_mul_of_nonneg_left (epsilon_le_robustStddev _) (by norm_num)

theorem Regular.antitone_distance (h : e.Regular) (c : ℝ) :
    Antitone fun n => |c - (e.repeated c n).mean| := by
  refine antitone_nat_of_succ_le fun n => ?_
  rw [h.distance_succ]
  have hmin : 0 ≤ min |c - (e.repeated c n).mean| (e.repeated c n).window :=
    le_min (abs_nonneg _) (e.repeated c n).window_pos.le
  linarith [mul_nonneg h.alpha_pos.le hmin]

/-- The variance is fed clipped distances, and they vanish. -/
theorem Regular.tendsto_variance (h : e.Regular) (c : ℝ) :
    Tendsto (fun n => (e.repeated c n).variance) atTop (𝓝 0) := by
  refine tendsto_mix (w := fun n => clip (e.repeated c n).window (c - (e.repeated c n).mean) ^ 2)
    h.alpha_pos h.alpha_le_one (fun n => (h.repeated c n).variance_nonneg) (fun n => ?_) ?_
  · rw [repeated_succ, variance_update, alpha_repeated]
  · have hsq := (h.tendsto_distance c).pow 2
    rw [zero_pow two_ne_zero] at hsq
    refine squeeze_zero (fun n => sq_nonneg _) (fun n => ?_) hsq
    rw [← sq_abs, abs_clip (e.repeated c n).window_pos.le]
    exact pow_le_pow_left₀ (le_min (abs_nonneg _) (e.repeated c n).window_pos.le)
      (min_le_left ..) 2

/-- The standard deviation falls below anything above its floor. -/
theorem Regular.eventually_stddev_lt (h : e.Regular) (c : ℝ) {s : ℝ} (hs : 1e-9 < s) :
    ∀ᶠ n in atTop, (e.repeated c n).stddev < s := by
  have hpos : 0 < s := lt_trans (by norm_num) hs
  filter_upwards [(h.tendsto_variance c).eventually_lt_const (pow_pos hpos 2)] with n hn
  exact max_lt ((Real.sqrt_lt' hpos).mpr hn) hs

end Constant

end Ewma

/-! ## The estimator -/

namespace EwmaEstimator

/-- A call that changes the estimator. -/
inductive Call (F : Type)
  | advance
  | update (rates : List (ProtoRate F))

def Call.isUpdate {F : Type} : Call F → Bool
  | advance => false
  | update _ => true

noncomputable def apply (e : EwmaEstimator ℝ) : Call ℝ → EwmaEstimator ℝ
  | .advance => e.advance
  | .update rates => e.update rates

/-- Each update has rates of the protocol, all of them the same. -/
def Steady (p : ProtoIndex) (pps bps : ℝ) (calls : List (Call ℝ)) : Prop :=
  ∀ rates, Call.update rates ∈ calls →
    (∃ r ∈ rates, r.proto = p) ∧ ∀ r ∈ rates, r.proto = p → r.pps = pps ∧ r.bps = bps

section Steady

variable {p : ProtoIndex} {pps bps : ℝ}

theorem foldl_observe_repeated {rates : List (ProtoRate ℝ)}
    (h : ∀ r ∈ rates, r.pps = pps ∧ r.bps = bps) (w : Ewma ℝ × Ewma ℝ) :
    rates.foldl observe w = (w.1.repeated pps rates.length, w.2.repeated bps rates.length) := by
  induction rates generalizing w with
  | nil => rfl
  | cons r rates ih =>
    obtain ⟨hpps, hbps⟩ := h r List.mem_cons_self
    rw [List.foldl_cons, ih fun r' hr' => h r' (List.mem_cons_of_mem r hr'), observe, hpps, hbps]
    rfl

/-- Steady calls repeat the rates at least once an update. -/
theorem exists_repeated {calls : List (Call ℝ)} (h : Steady p pps bps calls)
    (e : EwmaEstimator ℝ) :
    ∃ n ≥ calls.countP (·.isUpdate), (calls.foldl apply e).ewmas p =
      ((e.ppsEwma p).repeated pps n, (e.bpsEwma p).repeated bps n) ∧
      (calls.foldl apply e).gates = e.gates := by
  induction calls generalizing e with
  | nil => exact ⟨0, le_rfl, rfl, rfl⟩
  | cons call calls ih =>
    have hcalls : Steady p pps bps calls := fun rates hr => h rates (List.mem_cons_of_mem call hr)
    obtain ⟨n, hn, hewmas, hgates⟩ := ih hcalls (e.apply call)
    cases call with
    | advance => exact ⟨n, by rwa [List.countP_cons_of_neg (by decide)], hewmas, hgates⟩
    | update rates =>
      obtain ⟨⟨r, hr, hrp⟩, hsame⟩ := h rates List.mem_cons_self
      have hfilter : ∀ r ∈ rates.filter (·.proto = p), r.pps = pps ∧ r.bps = bps := by
        intro r hr
        obtain ⟨hr, hrp⟩ := List.mem_filter.mp hr
        exact hsame r hr (of_decide_eq_true hrp)
      have hpos : 0 < (rates.filter (·.proto = p)).length :=
        List.length_pos_of_mem (List.mem_filter.mpr ⟨hr, decide_eq_true hrp⟩)
      have hfed := ewmas_update_filter e rates p
      rw [foldl_observe_repeated hfilter] at hfed
      obtain ⟨hpps, hbps⟩ := Prod.mk.inj hfed
      refine ⟨(rates.filter (·.proto = p)).length + n, ?_, ?_, ?_⟩
      · rw [List.countP_cons_of_pos rfl]
        omega
      · rw [List.foldl_cons, hewmas, apply, hpps, hbps, Ewma.repeated_add, Ewma.repeated_add]
        rfl
      · rw [List.foldl_cons, hgates, apply, gates_update]

end Steady

end EwmaEstimator

/-- Fed one sample, the mean nears it and reaches it in the limit, and the variance vanishes; fed
the same rates on every update, an estimator with a standard deviation to ask for reports `Warming`
from some number of updates on. -/
theorem constant_traffic_warms :
    (∀ (e : Ewma ℝ) (c : ℝ), e.Regular →
      Antitone (fun n => |(e.repeated c n).mean - c|) ∧
      Tendsto (fun n => |(e.repeated c n).mean - c|) atTop (𝓝 0) ∧
      Tendsto (fun n => (e.repeated c n).variance) atTop (𝓝 0)) ∧
    ∀ (est : EwmaEstimator ℝ) (p : ProtoIndex) (pps bps : ℝ), 1e-9 < est.minStddev →
      (est.ppsEwma p).Regular → ∃ N, ∀ calls, EwmaEstimator.Steady p pps bps calls →
        N ≤ calls.countP (·.isUpdate) →
        (calls.foldl EwmaEstimator.apply est).snapshot p = .warming := by
  constructor
  · intro e c h
    simp only [abs_sub_comm _ c]
    exact ⟨h.antitone_distance c, h.tendsto_distance c, h.tendsto_variance c⟩
  · intro est p pps bps hmin hpps
    obtain ⟨N, hN⟩ := eventually_atTop.mp (hpps.eventually_stddev_lt pps hmin)
    refine ⟨N, fun calls hsteady hcount => ?_⟩
    obtain ⟨n, hn, hewmas, hgates⟩ := EwmaEstimator.exists_repeated hsteady est
    have hstddev := hN n (hcount.trans hn)
    rw [← (Prod.mk.inj hewmas).1] at hstddev
    have hminStddev := (Prod.mk.inj (Prod.mk.inj hgates).2).1
    rw [← hminStddev] at hstddev
    exact if_pos (.inr (.inl (real_lt.mpr hstddev)))

theorem constant_traffic_warms_tcp :
    ∃ N, ∀ n ≥ N, ((List.replicate n (EwmaEstimator.Call.update [⟨.tcp, 5, 7⟩])).foldl
      EwmaEstimator.apply (EwmaEstimator.new (0.4 : ℝ) 5 1 0)).snapshot .tcp = .warming := by
  obtain ⟨N, hN⟩ := constant_traffic_warms.2 (.new 0.4 5 1 0) .tcp 5 7
    (show (1e-9 : ℝ) < 1 by norm_num) (.new (by norm_num) (by norm_num))
  refine ⟨N, fun n hn => hN _ (fun rates hr => ?_) ?_⟩
  · obtain rfl := EwmaEstimator.Call.update.inj (List.eq_of_mem_replicate hr)
    exact ⟨⟨_, List.mem_singleton_self _, rfl⟩, by simp⟩
  · rw [List.countP_replicate]
    exact hn

end EbpfXdp
