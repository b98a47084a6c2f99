import EbpfXdpProgram.Lib.Run
import EbpfXdpProgram.Model

/-!
# The alert FSM

`AlertState` of `alert/state.rs`: the FSM `Inactive → Pending → Firing → Inactive` of one slot, its
two counters (`u32`, wrapping) and the time it last fired. `advance` is described once by one
equation for each phase and signal; what it emits and what it keeps follow from these equations.
-/

namespace EbpfXdp

inductive AlertPhase
  | inactive | pending | firing
deriving DecidableEq, Repr

structure AlertState where
  phase : AlertPhase
  consecutiveCount : UInt32
  resolveConsecutiveCount : UInt32
  lastFired : Option Instant
deriving DecidableEq, Repr

namespace AlertState

def new : AlertState where
  phase := .inactive
  consecutiveCount := 0
  resolveConsecutiveCount := 0
  lastFired := none

def cooldownPassed (s : AlertState) (now : Instant) (cooldown : Duration) : Bool :=
  match s.lastFired with
  | none => true
  | some t => decide (cooldown ≤ durationSince now t)

def tryFire (s : AlertState) (now : Instant) (cooldown : Duration)
    (consecutiveThreshold : UInt32) : AlertState × Bool :=
  if consecutiveThreshold ≤ s.consecutiveCount ∧ s.cooldownPassed now cooldown = true then
    ({ s with phase := .firing, lastFired := some now }, true)
  else
    (s, false)

def reset (s : AlertState) : AlertState :=
  { s with phase := .inactive, consecutiveCount := 0, resolveConsecutiveCount := 0 }

/-- One tick of the FSM and the event it emits. -/
def advance (s : AlertState) (signalActive : Bool) (now : Instant) (cooldown : Duration)
    (consecutiveThreshold resolveConsecutiveThreshold : UInt32) :
    AlertState × Option AlertLifecycle :=
  match s.phase with
  | .inactive =>
    if signalActive then
      match { s with consecutiveCount := 1 }.tryFire now cooldown consecutiveThreshold with
      | (s, true) => (s, some .fired)
      | (s, false) => ({ s with phase := .pending }, none)
    else
      (s, none)
  | .pending =>
    if !signalActive then
      (s.reset, none)
    else
      match { s with consecutiveCount := s.consecutiveCount + 1 }.tryFire now cooldown
        consecutiveThreshold with
      | (s, true) => (s, some .fired)
      | (s, false) => (s, none)
  | .firing =>
    if signalActive then
      ({ s with resolveConsecutiveCount := 0 }, none)
    else
      let s := { s with resolveConsecutiveCount := s.resolveConsecutiveCount + 1 }
      if resolveConsecutiveThreshold ≤ s.resolveConsecutiveCount then
        (s.reset, some .resolved)
      else
        (s, none)

def phaseValue (s : AlertState) : ℕ :=
  match s.phase with
  | .inactive => 0
  | .pending => 1
  | .firing => 2

def phaseLabel (s : AlertState) : String :=
  match s.phase with
  | .inactive => "inactive"
  | .pending => "pending"
  | .firing => "firing"

def isFiring (s : AlertState) : Bool := s.phase == .firing

/-- `Pending`, `Firing`, or within the cooldown of the last fire. -/
def isHot (s : AlertState) (now : Instant) (cooldown : Duration) : Bool :=
  match s.phase with
  | .pending | .firing => true
  | .inactive =>
    match s.lastFired with
    | none => false
    | some t => decide (durationSince now t < cooldown)

/-! ## What one tick does -/

/-- The count a signal brings the slot to while it is not firing. -/
def bump (s : AlertState) : UInt32 :=
  if s.phase = .inactive then 1 else s.consecutiveCount + 1

section Advance

variable (s : AlertState) (now : Instant) (C : Duration) (K R : UInt32)

theorem isFiring_iff : s.isFiring = true ↔ s.phase = .firing := beq_iff_eq

theorem not_isFiring_iff : s.isFiring = false ↔ s.phase ≠ .firing := by
  rw [← Bool.not_eq_true, isFiring_iff]

@[simp] theorem isFiring_reset : s.reset.isFiring = false := rfl

@[simp] theorem lastFired_reset : s.reset.lastFired = s.lastFired := rfl

@[simp] theorem phase_reset : s.reset.phase = .inactive := rfl

theorem cooldownPassed_iff :
    s.cooldownPassed now C = true ↔ ∀ t, s.lastFired = some t → C ≤ durationSince now t := by
  unfold cooldownPassed
  cases s.lastFired with
  | none => simp
  | some t => simp

/-- In the inactive phase, hot is the complement of the passed cooldown. -/
theorem isHot_of_inactive {s : AlertState} (h : s.phase = .inactive) :
    s.isHot now C = !s.cooldownPassed now C := by
  unfold isHot cooldownPassed
  rw [h]
  cases s.lastFired with
  | none => rfl
  | some t => simp only [← decide_not, not_le]

/-- An inactive state is hot within the cooldown of its last fire. -/
theorem exists_lastFired_of_isHot {s : AlertState} (hp : s.phase = .inactive)
    (h : s.isHot now C = true) : ∃ t, s.lastFired = some t ∧ durationSince now t < C := by
  unfold isHot at h
  rw [hp] at h
  cases hl : s.lastFired with
  | none => rw [hl] at h; exact Bool.noConfusion h
  | some t => rw [hl] at h; exact ⟨t, rfl, of_decide_eq_true h⟩

theorem isHot_of_not_inactive {s : AlertState} (h : s.phase ≠ .inactive) :
    s.isHot now C = true := by
  unfold isHot
  cases hp : s.phase with
  | inactive => exact absurd hp h
  | pending => rfl
  | firing => rfl

variable {s}

theorem tryFire_pos (h : K ≤ s.consecutiveCount ∧ s.cooldownPassed now C = true) :
    s.tryFire now C K = ({ s with phase := .firing, lastFired := some now }, true) := if_pos h

theorem tryFire_neg (h : ¬(K ≤ s.consecutiveCount ∧ s.cooldownPassed now C = true)) :
    s.tryFire now C K = (s, false) := if_neg h

/-- A signal while the slot is not firing fires it or leaves it pending. -/
theorem advance_active_of_not_firing (h : s.isFiring = false) :
    s.advance true now C K R =
      if K ≤ s.bump ∧ s.cooldownPassed now C = true then
        (⟨.firing, s.bump, s.resolveConsecutiveCount, some now⟩, some .fired)
      else
        (⟨.pending, s.bump, s.resolveConsecutiveCount, s.lastFired⟩, none) := by
  obtain ⟨phase, count, resolve, last⟩ := s
  cases phase with
  | inactive =>
    show AlertState.advance ⟨.inactive, count, resolve, last⟩ true now C K R =
      if K ≤ 1 ∧ (⟨.inactive, 1, resolve, last⟩ : AlertState).cooldownPassed now C = true then
        (⟨.firing, 1, resolve, some now⟩, some .fired) else (⟨.pending, 1, resolve, last⟩, none)
    simp only [advance, if_true]
    by_cases hf : K ≤ 1 ∧ (⟨.inactive, 1, resolve, last⟩ : AlertState).cooldownPassed now C = true
    · rw [if_pos hf, tryFire_pos now C K hf]
    · rw [if_neg hf, tryFire_neg now C K hf]
  | pending =>
    show AlertState.advance ⟨.pending, count, resolve, last⟩ true now C K R =
      if K ≤ count + 1 ∧
          (⟨.pending, count + 1, resolve, last⟩ : AlertState).cooldownPassed now C = true then
        (⟨.firing, count + 1, resolve, some now⟩, some .fired)
      else (⟨.pending, count + 1, resolve, last⟩, none)
    simp only [advance, Bool.not_true, Bool.false_eq_true, if_false]
    by_cases hf : K ≤ count + 1 ∧
        (⟨.pending, count + 1, resolve, last⟩ : AlertState).cooldownPassed now C = true
    · rw [if_pos hf, tryFire_pos now C K hf]
    · rw [if_neg hf, tryFire_neg now C K hf]
  | firing => exact absurd (show true = false from h) (by decide)

/-- A quiet tick while the slot is not firing leaves it inactive. -/
theorem advance_quiet_of_not_firing (h : s.isFiring = false) :
    s.advance false now C K R = (if s.phase = .inactive then s else s.reset, none) := by
  cases hp : s.phase with
  | inactive => simp only [advance, hp, Bool.false_eq_true, if_false, if_true]
  | pending => simp only [advance, hp, Bool.not_false, if_true, reduceCtorEq, if_false]
  | firing => exact absurd hp ((not_isFiring_iff s).mp h)

theorem advance_active_of_firing (h : s.isFiring = true) :
    s.advance true now C K R = ({ s with resolveConsecutiveCount := 0 }, none) := by
  simp only [advance, (isFiring_iff s).mp h, if_true]

theorem advance_quiet_of_firing (h : s.isFiring = true) :
    s.advance false now C K R =
      if R ≤ s.resolveConsecutiveCount + 1 then (s.reset, some .resolved)
      else ({ s with resolveConsecutiveCount := s.resolveConsecutiveCount + 1 }, none) := by
  simp only [advance, (isFiring_iff s).mp h, Bool.false_eq_true, if_false]
  split_ifs <;> rfl

/-! ## What a tick emits -/

variable (s) (a : Bool)

theorem fired_iff :
    (s.advance a now C K R).2 = some .fired ↔
      s.isFiring = false ∧ a = true ∧ K ≤ s.bump ∧ s.cooldownPassed now C = true := by
  rcases hs : s.isFiring with _ | _ <;> rcases a with _ | _
  · rw [advance_quiet_of_not_firing now C K R hs]; simp
  · rw [advance_active_of_not_firing now C K R hs]; split_ifs with hf <;> simp [hf]
  · rw [advance_quiet_of_firing now C K R hs]; split_ifs <;> simp
  · rw [advance_active_of_firing now C K R hs]; simp

theorem resolved_iff :
    (s.advance a now C K R).2 = some .resolved ↔
      s.isFiring = true ∧ a = false ∧ R ≤ s.resolveConsecutiveCount + 1 := by
  rcases hs : s.isFiring with _ | _ <;> rcases a with _ | _
  · rw [advance_quiet_of_not_firing now C K R hs]; simp
  · rw [advance_active_of_not_firing now C K R hs]; split_ifs <;> simp
  · rw [advance_quiet_of_firing now C K R hs]; split_ifs with hr <;> simp [hr]
  · rw [advance_active_of_firing now C K R hs]; simp

/-- A slot is firing after a tick if it fired there, or was firing and did not resolve. -/
theorem isFiring_advance :
    (s.advance a now C K R).1.isFiring = true ↔
      (s.advance a now C K R).2 = some .fired ∨
        s.isFiring = true ∧ (s.advance a now C K R).2 ≠ some .resolved := by
  rcases hs : s.isFiring with _ | _ <;> rcases a with _ | _
  · rw [advance_quiet_of_not_firing now C K R hs]; split_ifs <;> simp [hs]
  · rw [advance_active_of_not_firing now C K R hs]; split_ifs <;> simp [isFiring]
  · rw [advance_quiet_of_firing now C K R hs]; split_ifs <;> simp [isFiring, reset]
    exact (isFiring_iff s).mp hs
  · rw [advance_active_of_firing now C K R hs]; simpa [isFiring] using (isFiring_iff s).mp hs

/-- The time of the last fire changes exactly when the slot fires. -/
theorem lastFired_advance :
    (s.advance a now C K R).1.lastFired =
      if (s.advance a now C K R).2 = some .fired then some now else s.lastFired := by
  rcases hs : s.isFiring with _ | _ <;> rcases a with _ | _
  · rw [advance_quiet_of_not_firing now C K R hs]; split_ifs <;> simp_all
  · rw [advance_active_of_not_firing now C K R hs]; split_ifs <;> simp_all
  · rw [advance_quiet_of_firing now C K R hs]; split_ifs <;> simp_all
  · rw [advance_active_of_firing now C K R hs]; simp

/-- With a signal, no event and firing means firing before and after. -/
theorem heartbeat_iff :
    ((s.advance a now C K R).2 = none ∧ (s.advance a now C K R).1.isFiring = true ∧ a = true) ↔
      s.isFiring = true ∧ (s.advance a now C K R).1.isFiring = true ∧ a = true := by
  constructor
  · rintro ⟨he, hf, ha⟩
    refine ⟨?_, hf, ha⟩
    rcases (isFiring_advance ..).mp hf with h | ⟨h, -⟩
    · rw [he] at h; exact absurd h (by decide)
    · exact h
  · rintro ⟨hs, hf, rfl⟩
    exact ⟨by rw [advance_active_of_firing now C K R hs], hf, rfl⟩

theorem phase_advance_active : (s.advance true now C K R).1.phase ≠ .inactive := by
  cases hs : s.isFiring with
  | false => rw [advance_active_of_not_firing now C K R hs]; split_ifs <;> simp
  | true =>
    rw [advance_active_of_firing now C K R hs]
    intro h
    exact absurd (((isFiring_iff s).mp hs).symm.trans h) (by decide)

theorem phase_advance_quiet : (s.advance false now C K R).1.phase ≠ .pending := by
  cases hs : s.isFiring with
  | false =>
    rw [advance_quiet_of_not_firing now C K R hs]
    split_ifs with hp
    · rw [hp]; decide
    · rw [phase_reset]; decide
  | true =>
    rw [advance_quiet_of_firing now C K R hs]
    split_ifs
    · rw [phase_reset]; decide
    · show s.phase ≠ .pending
      rw [(isFiring_iff s).mp hs]; decide

end Advance

/-! ## Settled states -/

/-- What the counters are in the phases that do not use them. -/
structure Settled (s : AlertState) : Prop where
  count : s.phase = .inactive → s.consecutiveCount = 0
  resolve : s.isFiring = false → s.resolveConsecutiveCount = 0

theorem settled_new : Settled new := ⟨fun _ => rfl, fun _ => rfl⟩

theorem settled_reset (s : AlertState) : Settled s.reset := ⟨fun _ => rfl, fun _ => rfl⟩

namespace Settled

variable {s : AlertState} (h : Settled s)

include h in
theorem bump_eq : s.bump = s.consecutiveCount + 1 := by
  unfold bump
  split_ifs with hp
  · rw [h.count hp]; rfl
  · rfl

include h in
theorem reset_eq (hp : s.phase = .inactive) : s.reset = s := by
  obtain ⟨phase, count, resolve, last⟩ := s
  obtain rfl : phase = .inactive := hp
  obtain rfl : count = 0 := h.count rfl
  obtain rfl : resolve = 0 := h.resolve rfl
  rfl

include h in
theorem advance_quiet (now : Instant) (C : Duration) (K R : UInt32) (hs : s.isFiring = false) :
    s.advance false now C K R = (s.reset, none) := by
  rw [advance_quiet_of_not_firing now C K R hs]
  split_ifs with hp
  · rw [h.reset_eq hp]
  · rfl

include h in
theorem advance (a : Bool) (now : Instant) (C : Duration) (K R : UInt32) :
    Settled (s.advance a now C K R).1 := by
  rcases hs : s.isFiring with _ | _ <;> rcases a with _ | _
  · rw [h.advance_quiet now C K R hs]; exact settled_reset s
  · rw [advance_active_of_not_firing now C K R hs]
    split_ifs
    · exact ⟨fun hp => AlertPhase.noConfusion hp, fun _ => h.resolve hs⟩
    · exact ⟨fun hp => AlertPhase.noConfusion hp, fun _ => h.resolve hs⟩
  · rw [advance_quiet_of_firing now C K R hs]
    have hp := (isFiring_iff s).mp hs
    split_ifs
    · exact settled_reset s
    · exact ⟨fun hp' => absurd (hp.symm.trans hp') (by decide),
        fun hs' => absurd hp ((not_isFiring_iff _).mp hs')⟩
  · rw [advance_active_of_firing now C K R hs]
    exact ⟨fun hp => absurd (((isFiring_iff s).mp hs).symm.trans hp) (by decide), fun _ => rfl⟩

include h in
/-- A signal clears the resolve counter, and a quiet tick counts at most one more. -/
theorem resolve_advance_le (a : Bool) (now : Instant) (C : Duration) (K R : UInt32) :
    (s.advance a now C K R).1.resolveConsecutiveCount.toNat ≤
      if a = true then 0 else s.resolveConsecutiveCount.toNat + 1 := by
  rcases hs : s.isFiring with _ | _ <;> rcases a with _ | _
  · rw [h.advance_quiet now C K R hs]
    exact Nat.zero_le _
  · rw [advance_active_of_not_firing now C K R hs, if_pos (rfl : true = true)]
    split_ifs
    · exact (congrArg UInt32.toNat (h.resolve hs)).le
    · exact (congrArg UInt32.toNat (h.resolve hs)).le
  · rw [advance_quiet_of_firing now C K R hs, if_neg Bool.false_ne_true]
    split_ifs
    · exact Nat.zero_le _
    · exact (UInt32.toNat_add ..).trans_le (Nat.mod_le _ _)
  · rw [advance_active_of_firing now C K R hs]
    exact Nat.zero_le _

end Settled

end AlertState

end EbpfXdp
