import EbpfXdpProgram.Config
import EbpfXdpProgram.Pipeline.WarmUp

/-!
# The wall-clock gate

The seconds that a baseline has to wait are rounded up to ticks, and the immediate first tick is
counted like the others: the gate opens in tick number `⌈s / 30⌉`, one interval before `s` seconds
have passed. `wallClock_honoured_iff` says that this tick is the only one in which it shows.
-/

namespace EbpfXdp

variable {F : Type} [F64 F]

namespace AnomalyRunner

/-- The runner that `main` builds from a configuration. -/
def configured (baseline : Option (BaselineConfig F)) (d : EmergencyDetector F)
    (rules : List (AlertRule F)) : AnomalyRunner F :=
  new (buildEstimator baseline).1 d (.new rules)

/-- Each tick comes when it is due: the first at the start, the others an interval apart. -/
def OnSchedule (start : Instant) (ticks : List RunnerTick) : Prop :=
  ∀ i (h : i < ticks.length), ticks[i].now = start + i * anomalyEvalInterval

/-- In every tick with a ready baseline, `s` seconds have passed since the start: one that is ready
when the tick judges its rates, or when the tick has updated and exports it. -/
def HonoursWallClock (s : ℕ) (start : Instant) (r : AnomalyRunner F) (ticks : List RunnerTick) :
    Prop :=
  ∀ past t rest, ticks = past ++ t :: rest → ∀ p,
    ((after r past).baseline.advance.snapshot p).isReady = true ∨
      ((after r (past ++ [t])).baseline.snapshot p).isReady = true →
    s * 1000000000 ≤ durationSince t.now start

theorem fresh_configured (baseline : Option (BaselineConfig F)) (d : EmergencyDetector F)
    (rules : List (AlertRule F)) : Fresh (configured baseline d rules) := fresh_new ..

theorem elapsed_iff {start : Instant} {ticks past rest : List RunnerTick} {t : RunnerTick} {s : ℕ}
    (h : OnSchedule start ticks) (hsplit : ticks = past ++ t :: rest) :
    s * 1000000000 ≤ durationSince t.now start ↔ s ≤ 30 * past.length := by
  have hnow : t.now = start + past.length * anomalyEvalInterval := by
    rw [← List.getElem_of_append hsplit rfl]
    exact h past.length _
  rw [hnow]
  unfold durationSince anomalyEvalInterval
  omega

/-- **The wall-clock gate**: on schedule, no baseline is ready before its seconds have passed
exactly if they are none, or the rates up to tick number `⌈s / 30⌉` suffice for no protocol, neither
with the rate that this tick feeds nor without it. -/
theorem wallClock_honoured_iff (baseline : Option (BaselineConfig F)) (d : EmergencyDetector F)
    (rules : List (AlertRule F)) {start : Instant} {ticks : List RunnerTick}
    (h : OnSchedule start ticks) :
    let s := (buildEstimator baseline).2.minElapsedSecs
    let r := configured baseline d rules
    HonoursWallClock s start r ticks ↔
      s = 0 ∨ ∀ past t rest, ticks = past ++ t :: rest → (past ++ [t]).length = divUp s 30 →
        ∀ p, ¬Suffices r.baseline p (fedRates p r past) ∧
          ¬Suffices r.baseline p (fedRates p r past ++ fed p (after r past) t) := by
  intro s r
  have hfresh : Fresh r := fresh_configured baseline d rules
  have hmin : r.baseline.minElapsedTicks = divUp s 30 :=
    congrArg (·.2.2) (gates_buildEstimator baseline)
  have hready : ∀ past t p, ((after r past).baseline.advance.snapshot p).isReady = true ∨
      ((after r (past ++ [t])).baseline.snapshot p).isReady = true ↔
      (Suffices r.baseline p (fedRates p r past) ∨
        Suffices r.baseline p (fedRates p r past ++ fed p (after r past) t)) ∧
      divUp s 30 ≤ (past ++ [t]).length := by
    intro past t p
    rw [isReady_iff_gate hfresh p past t, isReady_after_iff hfresh p (past ++ [t]), hmin,
      ← fedRates_concat, ← learned_iff_suffices, ← learned_iff_suffices, or_and_right]
    unfold Gate
    rw [hmin]
  unfold HonoursWallClock divUp at *
  constructor
  · intro hhonours
    by_cases hs : s = 0
    · exact .inl hs
    · right
      intro past t rest hsplit hcount p
      rw [← not_or]
      intro hlearned
      have helapsed := (elapsed_iff h hsplit).mp
        (hhonours past t rest hsplit p ((hready past t p).mpr ⟨hlearned, hcount.ge⟩))
      rw [List.length_append, List.length_singleton] at hcount
      omega
  · intro hcond past t rest hsplit p hr
    obtain ⟨hlearned, hcount⟩ := (hready past t p).mp hr
    rw [elapsed_iff h hsplit]
    rcases hcond with hs | hcond
    · omega
    · by_cases heq : (past ++ [t]).length = (s + 30 - 1) / 30
      · exact absurd hlearned (not_or.mpr (hcond past t rest hsplit heq p))
      · rw [List.length_append, List.length_singleton] at hcount heq
        omega

/-- With the defaults the gate is honoured: five samples take longer than 120 seconds. -/
theorem wallClock_honoured_iff_default :
    let tick : ℕ → RunnerTick := fun i =>
      ⟨some ⟨30000000000 * i, List.replicate 5 ⟨1000 * i, 64000 * i⟩⟩, 30000000000 * i,
        fun _ => AlertKey.order⟩
    HonoursWallClock 120 0 (configured none ⟨[]⟩ (defaultAlertRules : List (AlertRule ℚ)))
      [tick 0, tick 1, tick 2, tick 3, tick 4] := by
  intro tick
  have hsched : OnSchedule 0 [tick 0, tick 1, tick 2, tick 3, tick 4] := by
    unfold OnSchedule
    decide
  refine (wallClock_honoured_iff none ⟨[]⟩ (defaultAlertRules : List (AlertRule ℚ)) hsched).mpr ?_
  refine .inr fun past t rest _ hcount p => ?_
  have hcount : (past ++ [t]).length = 4 := hcount
  rw [← fedRates_concat]
  refine ⟨not_suffices p ?_, not_suffices p (hcount.trans_lt (show 4 < 5 by decide))⟩
  rw [List.length_append, List.length_singleton] at hcount
  show past.length < 5
  omega

/-- Two samples are enough to be ready in the fourth tick, 90 seconds after the start. -/
theorem wallClock_early :
    ¬∀ (baseline : Option (BaselineConfig ℚ)) (start : Instant) (ticks : List RunnerTick),
      OnSchedule start ticks →
      HonoursWallClock (buildEstimator baseline).2.minElapsedSecs start
        (configured baseline ⟨[]⟩ defaultAlertRules) ticks := by
  intro h
  let tick : ℕ → RunnerTick := fun i =>
    ⟨some ⟨30000000000 * i, List.replicate 5 ⟨1000 * i, 64000 * i⟩⟩, 30000000000 * i,
      fun _ => AlertKey.order⟩
  have hsched : OnSchedule 0 [tick 0, tick 1, tick 2, tick 3] := by
    unfold OnSchedule
    decide
  have hearly := h (some ⟨none, some 2, some 0, some 120⟩) 0 _ hsched [tick 0, tick 1, tick 2]
    (tick 3) [] rfl .icmp (.inl (by decide +kernel))
  exact absurd hearly (by decide)

end AnomalyRunner

end EbpfXdp
