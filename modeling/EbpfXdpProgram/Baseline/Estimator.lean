import EbpfXdpProgram.Model

/-!
# The EWMA baseline

`Ewma`, the readiness gate and the z-scores of the `ewma-detector` crate. A protocol has one EWMA
for packets and one for bytes; `EwmaEstimator.ewmas` is the pair, and everything that the estimator
says about a protocol depends on its pair and on the gates.
-/

namespace EbpfXdp

open F64

variable {F : Type} [F64 F]

structure Ewma (F : Type) where
  alpha : F
  mean : F
  variance : F
  mad : F
  samples : ℕ
deriving DecidableEq

/-- `huber`; its limit is positive, so that the clamp does not panic. -/
def huber (delta scale k : F) : F :=
  let limit := k * scale
  clamp delta (-limit) limit

namespace Ewma

def epsilon : F := 1e-9

def new (alpha : F) : Ewma F where
  alpha := alpha
  mean := 0.0
  variance := 0.0
  mad := 0.0
  samples := 0

def stddev (e : Ewma F) : F := max (F64.sqrt e.variance) epsilon

def robustStddev (e : Ewma F) : F :=
  let madSigma := 1.4826 * e.mad
  let varSigma := F64.sqrt e.variance
  max (max madSigma (varSigma * 0.25)) epsilon

def update (e : Ewma F) (sample : F) : Ewma F :=
  let prevMean := e.mean
  let delta := sample - prevMean
  let boundedDelta := huber delta e.robustStddev 3.0
  { alpha := e.alpha
    mean := prevMean + e.alpha * boundedDelta
    variance := (1.0 - e.alpha) * e.variance + e.alpha * boundedDelta * boundedDelta
    mad := (1.0 - e.alpha) * e.mad + e.alpha * F64.abs (sample - prevMean)
    samples := e.samples + 1 }

end Ewma

structure BaselineStats (F : Type) where
  mean : F
  stddev : F
deriving DecidableEq

structure ProtoBaseline (F : Type) where
  pps : BaselineStats F
  bps : BaselineStats F
deriving DecidableEq

inductive BaselineState (F : Type)
  | ready (baseline : ProtoBaseline F)
  | warming
deriving DecidableEq

def BaselineState.isReady : BaselineState F → Bool
  | ready _ => true
  | warming => false

/-! ## Z-scores -/

def zScore (value mean stddev : F) : Option F :=
  if le stddev Ewma.epsilon then none else some ((value - mean) / stddev)

def computeProtoZScores (baseline : ProtoBaseline F) (observedPps observedBps : F) : F × F :=
  ((zScore observedPps baseline.pps.mean baseline.pps.stddev).getD 0.0,
    (zScore observedBps baseline.bps.mean baseline.bps.stddev).getD 0.0)

/-! ## The estimator -/

/-- `EwmaEstimator`; its arrays are indexed by `proto as usize`. -/
structure EwmaEstimator (F : Type) where
  ppsEwma : ProtoIndex → Ewma F
  bpsEwma : ProtoIndex → Ewma F
  minSamples : ℕ
  minStddev : F
  minElapsedTicks : ℕ
  elapsedTicks : ℕ

namespace EwmaEstimator

def new (alpha : F) (minSamples : ℕ) (minStddev : F) (minElapsedTicks : ℕ) : EwmaEstimator F where
  ppsEwma := fun _ => .new alpha
  bpsEwma := fun _ => .new alpha
  minSamples := minSamples
  minStddev := minStddev
  minElapsedTicks := minElapsedTicks
  elapsedTicks := 0

def advance (e : EwmaEstimator F) : EwmaEstimator F := { e with elapsedTicks := e.elapsedTicks + 1 }

/-- The baseline statistics of the protocol, whether or not it is ready. -/
def stats (e : EwmaEstimator F) (proto : ProtoIndex) : ProtoBaseline F where
  pps := ⟨(e.ppsEwma proto).mean, (e.ppsEwma proto).stddev⟩
  bps := ⟨(e.bpsEwma proto).mean, (e.bpsEwma proto).stddev⟩

def snapshot (e : EwmaEstimator F) (proto : ProtoIndex) : BaselineState F :=
  let samples := min (e.ppsEwma proto).samples (e.bpsEwma proto).samples
  let baseline := e.stats proto
  if samples < e.minSamples ∨ lt baseline.pps.stddev e.minStddev = true ∨
      lt baseline.bps.stddev e.minStddev = true ∨ e.elapsedTicks < e.minElapsedTicks then
    .warming
  else
    .ready baseline

/-- The body of the loop of `update`. -/
def updateRate (e : EwmaEstimator F) (rate : ProtoRate F) : EwmaEstimator F :=
  { e with
    ppsEwma := Function.update e.ppsEwma rate.proto ((e.ppsEwma rate.proto).update rate.pps)
    bpsEwma := Function.update e.bpsEwma rate.proto ((e.bpsEwma rate.proto).update rate.bps) }

def update (e : EwmaEstimator F) (observedRates : List (ProtoRate F)) : EwmaEstimator F :=
  observedRates.foldl updateRate e

/-- The two EWMAs of the protocol. -/
def ewmas (e : EwmaEstimator F) (proto : ProtoIndex) : Ewma F × Ewma F :=
  (e.ppsEwma proto, e.bpsEwma proto)

/-- The EWMAs after the observed rate. -/
def observe (ewmas : Ewma F × Ewma F) (rate : ProtoRate F) : Ewma F × Ewma F :=
  (ewmas.1.update rate.pps, ewmas.2.update rate.bps)

/-- The thresholds of the readiness gate, which nothing changes. -/
def gates (e : EwmaEstimator F) : ℕ × F × ℕ := (e.minSamples, e.minStddev, e.minElapsedTicks)

omit [F64 F] in
@[simp] theorem ewmas_advance (e : EwmaEstimator F) (p : ProtoIndex) :
    e.advance.ewmas p = e.ewmas p := rfl

omit [F64 F] in
@[simp] theorem gates_advance (e : EwmaEstimator F) : e.advance.gates = e.gates := rfl

omit [F64 F] in
@[simp] theorem elapsedTicks_advance (e : EwmaEstimator F) :
    e.advance.elapsedTicks = e.elapsedTicks + 1 := rfl

theorem ewmas_updateRate_self (e : EwmaEstimator F) (rate : ProtoRate F) :
    (e.updateRate rate).ewmas rate.proto = observe (e.ewmas rate.proto) rate :=
  Prod.ext (Function.update_self ..) (Function.update_self ..)

theorem ewmas_updateRate_of_ne (e : EwmaEstimator F) {rate : ProtoRate F} {p : ProtoIndex}
    (h : rate.proto ≠ p) : (e.updateRate rate).ewmas p = e.ewmas p :=
  Prod.ext (Function.update_of_ne h.symm ..) (Function.update_of_ne h.symm ..)

/-- A protocol's EWMAs take in its own rates only. -/
theorem ewmas_update_filter (e : EwmaEstimator F) (rates : List (ProtoRate F)) (p : ProtoIndex) :
    (e.update rates).ewmas p = (rates.filter (·.proto = p)).foldl observe (e.ewmas p) := by
  unfold update
  induction rates generalizing e with
  | nil => rfl
  | cons rate rates ih =>
    rw [List.foldl_cons, ih]
    by_cases hp : rate.proto = p
    · subst hp
      rw [List.filter_cons_of_pos (by simp), List.foldl_cons, ewmas_updateRate_self]
    · rw [List.filter_cons_of_neg (by simpa using hp), ewmas_updateRate_of_ne e hp]

@[simp] theorem gates_update (e : EwmaEstimator F) (rates : List (ProtoRate F)) :
    (e.update rates).gates = e.gates := by
  unfold update
  induction rates generalizing e with
  | nil => rfl
  | cons rate rates ih => rw [List.foldl_cons, ih]; rfl

@[simp] theorem elapsedTicks_update (e : EwmaEstimator F) (rates : List (ProtoRate F)) :
    (e.update rates).elapsedTicks = e.elapsedTicks := by
  unfold update
  induction rates generalizing e with
  | nil => rfl
  | cons rate rates ih => rw [List.foldl_cons, ih]; rfl

/-- Each observed rate counts once in both EWMAs. -/
theorem samples_foldl_observe (rates : List (ProtoRate F)) (w : Ewma F × Ewma F) :
    (rates.foldl observe w).1.samples = w.1.samples + rates.length ∧
      (rates.foldl observe w).2.samples = w.2.samples + rates.length := by
  induction rates generalizing w with
  | nil => exact ⟨rfl, rfl⟩
  | cons rate rates ih =>
    obtain ⟨hpps, hbps⟩ := ih (observe w rate)
    rw [List.foldl_cons, hpps, hbps, List.length_cons]
    constructor
    · show w.1.samples + 1 + rates.length = _
      omega
    · show w.2.samples + 1 + rates.length = _
      omega

/-- When a baseline is ready: enough samples, enough deviation, enough ticks. -/
theorem isReady_snapshot_iff (e : EwmaEstimator F) (p : ProtoIndex) :
    (e.snapshot p).isReady = true ↔
      e.minSamples ≤ min (e.ppsEwma p).samples (e.bpsEwma p).samples ∧
      lt (e.stats p).pps.stddev e.minStddev = false ∧
      lt (e.stats p).bps.stddev e.minStddev = false ∧ e.minElapsedTicks ≤ e.elapsedTicks := by
  unfold snapshot
  dsimp only
  split_ifs with h
  · refine iff_of_false Bool.false_ne_true ?_
    rintro ⟨hsamples, hpps, hbps, helapsed⟩
    rw [hpps, hbps] at h
    simp only [Bool.false_eq_true, false_or] at h
    omega
  · simp only [not_or, not_lt, Bool.not_eq_true] at h
    exact iff_of_true rfl h

theorem snapshot_of_isReady {e : EwmaEstimator F} {p : ProtoIndex}
    (h : (e.snapshot p).isReady = true) : e.snapshot p = .ready (e.stats p) := by
  unfold snapshot at h ⊢
  dsimp only at h ⊢
  split_ifs at h ⊢
  · exact absurd h Bool.false_ne_true
  · rfl

/-- The baseline of a protocol is told by its EWMAs, the gates and the elapsed ticks. -/
theorem snapshot_congr {e e' : EwmaEstimator F} {p : ProtoIndex} (hewmas : e.ewmas p = e'.ewmas p)
    (hgates : e.gates = e'.gates) (hticks : e.elapsedTicks = e'.elapsedTicks) :
    e.snapshot p = e'.snapshot p := by
  obtain ⟨hpps, hbps⟩ := Prod.mk.inj hewmas
  obtain ⟨hsamples, hgates⟩ := Prod.mk.inj hgates
  obtain ⟨hstddev, hmin⟩ := Prod.mk.inj hgates
  unfold snapshot stats
  rw [hpps, hbps, hsamples, hstddev, hmin, hticks]

/-- A ready baseline stays as it is while its EWMAs do. -/
theorem snapshot_ready_of_ewmas {e e' : EwmaEstimator F} {p : ProtoIndex} {B : ProtoBaseline F}
    (h : e.snapshot p = .ready B) (hewmas : e'.ewmas p = e.ewmas p) (hgates : e'.gates = e.gates)
    (hticks : e.elapsedTicks ≤ e'.elapsedTicks) : e'.snapshot p = .ready B := by
  obtain ⟨hpps, hbps⟩ := Prod.mk.inj hewmas
  obtain ⟨hsamples, hgates⟩ := Prod.mk.inj hgates
  obtain ⟨hstddev, hmin⟩ := Prod.mk.inj hgates
  unfold snapshot stats at h ⊢
  dsimp only at h ⊢
  rw [hpps, hbps, hsamples, hstddev, hmin]
  split_ifs at h with hgate
  rw [if_neg]
  · exact h
  · simp only [not_or] at hgate ⊢
    exact ⟨hgate.1, hgate.2.1, hgate.2.2.1, by omega⟩

end EwmaEstimator

end EbpfXdp
