import EbpfXdpProgram.Anomaly.View

/-!
# What the EWMA detector signals

In exact arithmetic the detector signals the rates whose view is not normal, with what the view
says (`detect_reports_views`), and more traffic never turns a spike into something less
(`more_traffic_keeps_spike`): the larger of two z-scores grows with them, once it is not negative.
-/

namespace EbpfXdp

open F64

/-! ## The dominant z-score -/

/-- The z-score of larger absolute value, the first if they are equal. -/
noncomputable def dominant (x y : ℝ) : ℝ := if |y| ≤ |x| then x else y

theorem abs_dominant (x y : ℝ) : |dominant x y| = max |x| |y| := by
  unfold dominant
  split_ifs with h
  · rw [max_eq_left h]
  · rw [max_eq_right (not_le.mp h).le]

theorem dominant_mono {x y x' y' : ℝ} (hx : x ≤ x') (hy : y ≤ y') (h : 0 ≤ dominant x y) :
    dominant x y ≤ dominant x' y' := by
  -- a negative score that grows gets smaller, so that it does not come to dominate
  have hneg : ∀ {u u' : ℝ}, u ≤ u' → u' < 0 → |u'| ≤ |u| := fun huu hu => by
    rw [abs_of_neg hu, abs_of_neg (huu.trans_lt hu)]
    exact neg_le_neg huu
  unfold dominant at h ⊢
  split_ifs at h ⊢ with hxy hxy' hxy'
  · exact hx
  · have habs := not_le.mp hxy'
    rw [abs_of_nonneg h] at hxy
    rw [abs_of_nonneg (h.trans hx)] at habs
    rcases le_or_gt 0 y' with hy' | hy'
    · rw [abs_of_nonneg hy'] at habs
      exact hx.trans habs.le
    · exact absurd ((hneg hy hy').trans (hxy.trans hx)) habs.not_ge
  · have habs := not_le.mp hxy
    rw [abs_of_nonneg h] at habs
    rw [abs_of_nonneg (h.trans hy)] at hxy'
    rcases le_or_gt 0 x' with hx' | hx'
    · rw [abs_of_nonneg hx'] at hxy'
      exact hy.trans hxy'
    · exact absurd (hxy'.trans (hneg hx hx')) (habs.trans_le hy).not_ge
  · exact hy

/-! ## Signals and views -/

noncomputable def viewOf (snapshot : ProtoIndex → BaselineState ℝ) (rate : ProtoRate ℝ) :
    AnomalyView ℝ :=
  computeAnomalyView (snapshot rate.proto) rate.pps rate.bps

/-- The signal reports the view of the rate; its kind is the sign of the dominant z-score. -/
structure AlertSignal.Reports (s : AlertSignal ℝ) (rate : ProtoRate ℝ) (v : AnomalyView ℝ) :
    Prop where
  proto : s.proto = rate.proto
  level : s.level = v.level
  confidence : s.confidence = v.confidence
  kind : s.kind = if 0 ≤ dominant v.zPps v.zBps then .spike else .drop

namespace EwmaDetector

theorem kind_of_examine {state : BaselineState ℝ} {rate : ProtoRate ℝ} {s : AlertSignal ℝ}
    (h : examine state rate = some s) :
    s.kind = if 0 ≤ dominant (computeAnomalyView state rate.pps rate.bps).zPps
      (computeAnomalyView state rate.pps rate.bps).zBps then .spike else .drop := by
  cases state with
  | warming => exact absurd h (Option.some_ne_none s).symm
  | ready B =>
    unfold examine at h
    dsimp only at h
    obtain ⟨-, h⟩ := Option.ite_none_left_eq_some.mp h
    obtain rfl := Option.some.inj h
    simp only [real_le, real_abs, real_zero]
    rfl

theorem reports_of_examine {state : BaselineState ℝ} {rate : ProtoRate ℝ} {s : AlertSignal ℝ}
    (h : examine state rate = some s) :
    s.Reports rate (computeAnomalyView state rate.pps rate.bps) := by
  have hagrees := agrees_examine state rate
  rw [h] at hagrees
  exact ⟨proto_of_examine h, hagrees.1.symm, hagrees.2.symm, kind_of_examine h⟩

theorem examine_eq_none_iff {state : BaselineState ℝ} {rate : ProtoRate ℝ} :
    examine state rate = none ↔ (computeAnomalyView state rate.pps rate.bps).level = .normal := by
  have hagrees := agrees_examine state rate
  cases h : examine state rate with
  | none =>
    rw [h] at hagrees
    exact iff_of_true rfl hagrees
  | some s =>
    refine iff_of_false (Option.some_ne_none s) fun hnormal => (examine_spec h).2.1 ?_
    rw [(reports_of_examine h).level, hnormal]

end EwmaDetector

/-- Where a partial function is defined on the items of a kind, its values are those of these items,
in their order. -/
theorem forall₂_filterMap {α β : Type*} {g : α → Option β} {R : α → β → Prop} {q : α → Prop}
    [DecidablePred q] (hsome : ∀ a b, g a = some b → q a ∧ R a b) (hnone : ∀ a, g a = none → ¬q a)
    (xs : List α) : List.Forall₂ R (xs.filter q) (xs.filterMap g) := by
  induction xs with
  | nil => exact .nil
  | cons a xs ih =>
    cases h : g a with
    | none =>
      rw [List.filter_cons_of_neg (by simp [hnone a h]), List.filterMap_cons_none h]
      exact ih
    | some b =>
      obtain ⟨hq, hR⟩ := hsome a b h
      rw [List.filter_cons_of_pos (by simp [hq]), List.filterMap_cons_some h]
      exact .cons hR ih

theorem detect_reports_views (snapshot : ProtoIndex → BaselineState ℝ)
    (rates : List (ProtoRate ℝ)) :
    List.Forall₂ (fun rate s => AlertSignal.Reports s rate (viewOf snapshot rate))
      (rates.filter fun rate => (viewOf snapshot rate).level ≠ .normal)
      (EwmaDetector.detect snapshot rates) := by
  refine forall₂_filterMap (q := fun rate => (viewOf snapshot rate).level ≠ .normal)
    (fun rate s h => ⟨fun hnormal => ?_, ?_⟩) (fun rate h => ?_) rates
  · have hnone := EwmaDetector.examine_eq_none_iff.mpr hnormal
    rw [h] at hnone
    exact Option.some_ne_none s hnone
  · exact EwmaDetector.reports_of_examine h
  · exact not_not.mpr (EwmaDetector.examine_eq_none_iff.mp h)

/-! ## More traffic -/

theorem zScore_mono {value value' mean stddev : ℝ} (h : value ≤ value') :
    (zScore value mean stddev).getD 0.0 ≤ (zScore value' mean stddev).getD 0.0 := by
  unfold zScore
  split_ifs with hstddev
  · exact le_rfl
  · have hpos : 0 < stddev :=
      lt_trans (by norm_num [Ewma.epsilon]) (not_le.mp (mt real_le.mpr hstddev))
    exact div_le_div_of_nonneg_right (sub_le_sub_right h mean) hpos.le

theorem level_of_ready (B : ProtoBaseline ℝ) (pps bps : ℝ) :
    (computeAnomalyView (.ready B) pps bps).level =
      let v := computeAnomalyView (.ready B) pps bps
      if 6 ≤ |dominant v.zPps v.zBps| then .severe
      else if 3 ≤ |dominant v.zPps v.zBps| then .suspicious else .normal := by
  simp only [abs_dominant]
  unfold computeAnomalyView
  simp only [real_le, real_abs, real_six, real_three]

theorem confidence_of_ready (B : ProtoBaseline ℝ) (pps bps : ℝ) :
    (computeAnomalyView (.ready B) pps bps).confidence =
      let v := computeAnomalyView (.ready B) pps bps
      min (|dominant v.zPps v.zBps| / 10) 1 := by
  have h10 : (10.0 : ℝ) = 10 := by norm_num
  simp only [abs_dominant]
  unfold computeAnomalyView
  simp only [real_abs, h10, real_one]

section More

variable {B : ProtoBaseline ℝ} {pps pps' bps bps' : ℝ}

theorem dominant_view_mono (hpps : pps ≤ pps') (hbps : bps ≤ bps')
    (h : 0 ≤ dominant (computeAnomalyView (.ready B) pps bps).zPps
      (computeAnomalyView (.ready B) pps bps).zBps) :
    dominant (computeAnomalyView (.ready B) pps bps).zPps
        (computeAnomalyView (.ready B) pps bps).zBps ≤
      dominant (computeAnomalyView (.ready B) pps' bps').zPps
        (computeAnomalyView (.ready B) pps' bps').zBps :=
  dominant_mono (zScore_mono hpps) (zScore_mono hbps) h

theorem level_mono (h : |dominant (computeAnomalyView (.ready B) pps bps).zPps
      (computeAnomalyView (.ready B) pps bps).zBps| ≤
    |dominant (computeAnomalyView (.ready B) pps' bps').zPps
      (computeAnomalyView (.ready B) pps' bps').zBps|) :
    (computeAnomalyView (.ready B) pps bps).level ≤
      (computeAnomalyView (.ready B) pps' bps').level := by
  rw [level_of_ready, level_of_ready]
  dsimp only
  split_ifs <;> first | decide | (exfalso; linarith)

theorem confidence_mono (h : |dominant (computeAnomalyView (.ready B) pps bps).zPps
      (computeAnomalyView (.ready B) pps bps).zBps| ≤
    |dominant (computeAnomalyView (.ready B) pps' bps').zPps
      (computeAnomalyView (.ready B) pps' bps').zBps|) :
    (computeAnomalyView (.ready B) pps bps).confidence ≤
      (computeAnomalyView (.ready B) pps' bps').confidence := by
  rw [confidence_of_ready, confidence_of_ready]
  exact min_le_min_right 1 (div_le_div_of_nonneg_right h (by norm_num))

end More

theorem EwmaDetector.examine_spike_mono {state : BaselineState ℝ} {rate rate' : ProtoRate ℝ}
    {s : AlertSignal ℝ} (h : examine state rate = some s) (hspike : s.kind = .spike)
    (hproto : rate'.proto = rate.proto) (hpps : rate.pps ≤ rate'.pps)
    (hbps : rate.bps ≤ rate'.bps) :
    ∃ s', examine state rate' = some s' ∧ s'.proto = s.proto ∧ s'.kind = .spike ∧
      s.level ≤ s'.level ∧ s.confidence ≤ s'.confidence := by
  have hreports := reports_of_examine h
  obtain ⟨B, rfl⟩ : ∃ B, state = .ready B := by
    cases state with
    | warming => exact absurd h (Option.some_ne_none s).symm
    | ready B => exact ⟨B, rfl⟩
  have hdominant := hreports.kind
  rw [hspike] at hdominant
  have hnonneg := of_not_not fun hneg => absurd (hdominant.trans (if_neg hneg)) (by decide)
  have hle := dominant_view_mono hpps hbps hnonneg
  have habs := (abs_le_abs_of_nonneg hnonneg hle)
  have hlevel := level_mono habs
  rw [← hreports.level] at hlevel
  cases h' : examine (.ready B) rate' with
  | none =>
    rw [examine_eq_none_iff.mp h'] at hlevel
    exact absurd (le_antisymm hlevel (by cases s.level <;> decide)) (examine_spec h).2.1
  | some s' =>
    have hreports' := reports_of_examine h'
    refine ⟨s', rfl, ?_, ?_, ?_, ?_⟩
    · rw [hreports'.proto, hproto, hreports.proto]
    · rw [hreports'.kind, if_pos (hnonneg.trans hle)]
    · rwa [hreports'.level]
    · rw [hreports.confidence, hreports'.confidence]
      exact confidence_mono habs

/-- Where each rate of the protocol is matched by a larger one, a spike signal is matched by one
that is no less severe and no less certain. -/
theorem more_traffic_keeps_spike (snapshot : ProtoIndex → BaselineState ℝ)
    (rates rates' : List (ProtoRate ℝ)) (s : AlertSignal ℝ)
    (hs : s ∈ EwmaDetector.detect snapshot rates) (hspike : s.kind = .spike)
    (hmore : ∀ rate ∈ rates, rate.proto = s.proto →
      ∃ rate' ∈ rates', rate'.proto = rate.proto ∧ rate.pps ≤ rate'.pps ∧ rate.bps ≤ rate'.bps) :
    ∃ s' ∈ EwmaDetector.detect snapshot rates', s'.proto = s.proto ∧ s'.kind = .spike ∧
      s.level ≤ s'.level ∧ s.confidence ≤ s'.confidence := by
  obtain ⟨rate, hrate, h⟩ := List.mem_filterMap.mp hs
  obtain ⟨rate', hrate', hproto, hpps, hbps⟩ :=
    hmore rate hrate (EwmaDetector.proto_of_examine h).symm
  obtain ⟨s', h', hs'⟩ := EwmaDetector.examine_spike_mono h hspike hproto hpps hbps
  rw [← hproto] at h'
  exact ⟨s', List.mem_filterMap.mpr ⟨rate', hrate', h'⟩, hs'⟩

theorem more_traffic_keeps_spike_unit :
    ∃ s s', s ∈ EwmaDetector.detect (fun _ => .ready ⟨⟨0, 1⟩, ⟨0, 1⟩⟩) [⟨.tcp, 4, (-3 : ℝ)⟩] ∧
      s' ∈ EwmaDetector.detect (fun _ => .ready ⟨⟨0, 1⟩, ⟨0, 1⟩⟩) [⟨.tcp, 4, (9 : ℝ)⟩] ∧
      s'.kind = .spike ∧ s.level ≤ s'.level := by
  have hz : ∀ x : ℝ, zScore x 0 1 = some x := fun x => by
    unfold zScore
    rw [if_neg (mt real_le.mp (by norm_num [Ewma.epsilon])), sub_zero, div_one]
  have hdominant : dominant 4 (-3) = 4 := if_pos (by norm_num)
  have hpps : (computeAnomalyView (.ready ⟨⟨0, 1⟩, ⟨0, 1⟩⟩) 4 (-3 : ℝ)).zPps = 4 := by
    show (zScore 4 0 1).getD 0.0 = 4
    rw [hz, Option.getD_some]
  have hbps : (computeAnomalyView (.ready ⟨⟨0, 1⟩, ⟨0, 1⟩⟩) 4 (-3 : ℝ)).zBps = -3 := by
    show (zScore (-3) 0 1).getD 0.0 = -3
    rw [hz, Option.getD_some]
  cases h : EwmaDetector.examine (.ready ⟨⟨0, 1⟩, ⟨0, 1⟩⟩) (⟨.tcp, 4, -3⟩ : ProtoRate ℝ) with
  | none =>
    have hnormal := EwmaDetector.examine_eq_none_iff.mp h
    rw [level_of_ready] at hnormal
    dsimp only at hnormal
    rw [hpps, hbps, hdominant, if_neg (by norm_num), if_pos (by norm_num)] at hnormal
    cases hnormal
  | some s =>
    have hkind := EwmaDetector.kind_of_examine h
    rw [hpps, hbps, hdominant, if_pos (by norm_num)] at hkind
    have hs : s ∈ EwmaDetector.detect (fun _ => .ready ⟨⟨0, 1⟩, ⟨0, 1⟩⟩) [⟨.tcp, 4, (-3 : ℝ)⟩] :=
      List.mem_filterMap.mpr ⟨_, List.mem_singleton_self _, h⟩
    obtain ⟨s', hs', -, hkind', hlevel, -⟩ :=
      more_traffic_keeps_spike (fun _ => .ready ⟨⟨0, 1⟩, ⟨0, 1⟩⟩) _ [⟨.tcp, 4, 9⟩] s hs hkind
        (by intro rate hrate _
            obtain rfl := List.mem_singleton.mp hrate
            exact ⟨_, List.mem_singleton_self _, rfl, le_rfl, by norm_num⟩)
    exact ⟨s, s', hs, hs', hkind', hlevel⟩

end EbpfXdp
