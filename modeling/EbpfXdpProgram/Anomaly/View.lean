import EbpfXdpProgram.Anomaly.Detectors
import EbpfXdpProgram.Lib.Reals

/-!
# The anomaly view

`compute_anomaly_view` of `anomaly/view.rs` classifies a rate for metrics and API, apart from the
detector. In exact arithmetic the two agree on every rate and baseline: the worse of two levels is
the level of the larger z-score (`agrees_examine`).
-/

namespace EbpfXdp

open F64

section View

variable {F : Type} [F64 F]

structure AnomalyView (F : Type) where
  zPps : F
  zBps : F
  level : AnomalyLevel
  confidence : F

def computeAnomalyView (baseline : BaselineState F) (pps bps : F) : AnomalyView F :=
  match baseline with
  | .ready baseline =>
    let (zPps, zBps) := computeProtoZScores baseline pps bps
    let absZ := max (F64.abs zPps) (F64.abs zBps)
    let level : AnomalyLevel :=
      if le 6.0 absZ then .severe
      else if le 3.0 absZ then .suspicious
      else .normal
    { zPps := zPps, zBps := zBps, level := level, confidence := min (absZ / 10.0) 1.0 }
  | .warming => { zPps := 0.0, zBps := 0.0, level := .normal, confidence := 0.0 }

/-- The view has the level and the confidence of the signal, and is normal without one. -/
def AnomalyView.Agrees (v : AnomalyView F) : Option (AlertSignal F) → Prop
  | some s => v.level = s.level ∧ v.confidence = s.confidence
  | none => v.level = .normal

end View

/-! ## In exact arithmetic -/

theorem anomalyLevelFromZ_real (z : ℝ) :
    anomalyLevelFromZ z = if |z| < 3 then .normal else if |z| < 6 then .suspicious else .severe := by
  unfold anomalyLevelFromZ
  simp only [real_lt, real_abs]
  norm_num

theorem level_max_real (x y : ℝ) :
    (if le (6.0 : ℝ) (max (F64.abs x) (F64.abs y)) then AnomalyLevel.severe
      else if le (3.0 : ℝ) (max (F64.abs x) (F64.abs y)) then .suspicious else .normal) =
    match anomalyLevelFromZ x, anomalyLevelFromZ y with
    | .severe, _ | _, .severe => .severe
    | .suspicious, _ | _, .suspicious => .suspicious
    | _, _ => .normal := by
  have hlevel : ∀ z : ℝ, |z| < 3 ∧ anomalyLevelFromZ z = .normal ∨
      3 ≤ |z| ∧ |z| < 6 ∧ anomalyLevelFromZ z = .suspicious ∨
      6 ≤ |z| ∧ anomalyLevelFromZ z = .severe := by
    intro z
    rw [anomalyLevelFromZ_real]
    split_ifs with hz hz'
    · exact .inl ⟨hz, rfl⟩
    · exact .inr (.inl ⟨not_lt.mp hz, hz', rfl⟩)
    · exact .inr (.inr ⟨not_lt.mp hz', rfl⟩)
  simp only [real_le, real_abs, le_max_iff, real_six, real_three]
  rcases hlevel x with ⟨hx, hlx⟩ | ⟨hx, hx', hlx⟩ | ⟨hx, hlx⟩ <;>
    rcases hlevel y with ⟨hy, hly⟩ | ⟨hy, hy', hly⟩ | ⟨hy, hly⟩ <;> rw [hlx, hly]
  · rw [if_neg (by rintro (h | h) <;> linarith), if_neg (by rintro (h | h) <;> linarith)]
  · rw [if_neg (by rintro (h | h) <;> linarith), if_pos (.inr hy)]
  · rw [if_pos (.inr hy)]
  · rw [if_neg (by rintro (h | h) <;> linarith), if_pos (.inl hx)]
  · rw [if_neg (by rintro (h | h) <;> linarith), if_pos (.inl hx)]
  · rw [if_pos (.inr hy)]
  · rw [if_pos (.inl hx)]
  · rw [if_pos (.inl hx)]
  · rw [if_pos (.inl hx)]

/-- The view of a rate agrees with what the detector finds against the same baseline. -/
theorem agrees_examine (state : BaselineState ℝ) (rate : ProtoRate ℝ) :
    (computeAnomalyView state rate.pps rate.bps).Agrees (EwmaDetector.examine state rate) := by
  cases state with
  | warming => exact rfl
  | ready B =>
    have hlevel := level_max_real (computeProtoZScores B rate.pps rate.bps).1
      (computeProtoZScores B rate.pps rate.bps).2
    unfold computeAnomalyView EwmaDetector.examine
    dsimp only
    rw [hlevel]
    generalize anomalyLevelFromZ (computeProtoZScores B rate.pps rate.bps).1 = levelPps
    generalize anomalyLevelFromZ (computeProtoZScores B rate.pps rate.bps).2 = levelBps
    cases levelPps <;> cases levelBps <;> first | exact rfl | exact ⟨rfl, rfl⟩

end EbpfXdp
