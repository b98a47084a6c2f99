import EbpfXdpProgram.Lib.Simulation
import EbpfXdpProgram.Lib.Table

/-!
# Metric registries

A registry holds the value that each gauge was last set to and how often each counter was
incremented. A list of writes changes a gauge to the last value written to it, if there is one
(`gauge_record`), and adds to a counter the number of its increments (`count_record`); it registers
no series but those it names (`within_record`). `recorded_history` is the rule for the registry of a
run.
-/

namespace Metric

variable {κ α ι : Type} [DecidableEq κ]

/-- A write to one series. -/
inductive Op (κ α : Type)
  | set (series : κ) (value : α)
  | increment (series : κ)
deriving DecidableEq

namespace Op

def series : Op κ α → κ
  | set k _ => k
  | increment k => k

/-- The value that the write sets the gauge to. -/
def valueOf (k : κ) : Op κ α → Option α
  | set j value => if j = k then some value else none
  | increment _ => none

/-- The write increments the counter. -/
def increments (k : κ) : Op κ α → Bool
  | set _ _ => false
  | increment j => decide (j = k)

end Op

/-- The last value that the writes set the gauge to. -/
def written (ops : List (Op κ α)) (k : κ) : Option α := (ops.filterMap (Op.valueOf k)).getLast?

/-- How often the writes increment the counter. -/
def incremented (ops : List (Op κ α)) (k : κ) : ℕ := ops.countP (Op.increments k)

structure Registry (κ α : Type) where
  gauges : Table κ α
  counters : Table κ ℕ

namespace Registry

def empty : Registry κ α := ⟨∅, ∅⟩

/-- The value of a counter, zero if it is not registered. -/
def count (r : Registry κ α) (k : κ) : ℕ := (r.counters.lookup k).getD 0

def apply (r : Registry κ α) : Op κ α → Registry κ α
  | .set k value => { r with gauges := r.gauges.insert k value }
  | .increment k => { r with counters := r.counters.insert k (r.count k + 1) }

def record (r : Registry κ α) (ops : List (Op κ α)) : Registry κ α := ops.foldl apply r

end Registry

/-! ## What a list of writes says about a series -/

section Written

variable (ops ops' : List (Op κ α)) (k : κ)

@[simp] theorem written_nil : written ([] : List (Op κ α)) k = none := rfl

@[simp] theorem incremented_nil : incremented ([] : List (Op κ α)) k = 0 := rfl

@[simp] theorem written_append :
    written (ops ++ ops') k = (written ops' k).or (written ops k) := by
  unfold written
  rw [List.filterMap_append, List.getLast?_append]

@[simp] theorem incremented_append :
    incremented (ops ++ ops') k = incremented ops k + incremented ops' k := List.countP_append

@[simp] theorem written_cons (op : Op κ α) :
    written (op :: ops) k = (written ops k).or (op.valueOf k) := by
  rw [← List.singleton_append, written_append]
  unfold written
  cases h : op.valueOf k with
  | none => rw [List.filterMap_cons_none h]; rfl
  | some value => rw [List.filterMap_cons_some h]; rfl

@[simp] theorem incremented_cons (op : Op κ α) :
    incremented (op :: ops) k = incremented ops k + if op.increments k then 1 else 0 :=
  List.countP_cons

variable {ops k}

theorem written_eq_none (h : ∀ op ∈ ops, op.valueOf k = none) : written ops k = none := by
  unfold written
  rw [List.filterMap_eq_nil_iff.mpr h]
  rfl

theorem incremented_eq_zero (h : ∀ op ∈ ops, op.increments k = false) : incremented ops k = 0 :=
  List.countP_eq_zero.mpr fun op hop => by rw [h op hop]; exact Bool.false_ne_true

theorem untouched (h : ∀ op ∈ ops, op.series ≠ k) : written ops k = none ∧ incremented ops k = 0 := by
  refine ⟨written_eq_none fun op hop => ?_, incremented_eq_zero fun op hop => ?_⟩
  · cases op with
    | set j value => exact if_neg (h _ hop)
    | increment j => rfl
  · cases op with
    | set j value => rfl
    | increment j => exact decide_eq_false (h _ hop)

/-- In writes for one item after the other, a gauge that one item writes has its value. -/
theorem written_flatMap [DecidableEq ι] {xs : List ι} {f : ι → List (Op κ α)} {x : ι}
    (h : ∀ y ∈ xs, y ≠ x → written (f y) k = none) :
    written (xs.flatMap f) k = if x ∈ xs then written (f x) k else none := by
  induction xs with
  | nil => rfl
  | cons y xs ih =>
    rw [List.flatMap_cons, written_append, ih fun z hz => h z (List.mem_cons_of_mem y hz)]
    by_cases hy : y = x
    · subst hy
      rw [if_pos List.mem_cons_self]
      split_ifs
      · exact Option.or_self
      · rfl
    · rw [h y List.mem_cons_self hy, Option.or_none]
      refine if_congr ?_ rfl rfl
      rw [List.mem_cons, or_iff_right (Ne.symm hy)]

end Written

namespace Registry

variable (r : Registry κ α) (ops ops' : List (Op κ α)) (k : κ)

@[simp] theorem record_nil : r.record [] = r := rfl

theorem record_append : r.record (ops ++ ops') = (r.record ops).record ops' := List.foldl_append

theorem gauge_apply (op : Op κ α) :
    (r.apply op).gauges.lookup k = (op.valueOf k).or (r.gauges.lookup k) := by
  cases op with
  | increment j => rfl
  | set j value =>
    show (r.gauges.insert j value).lookup k = (if j = k then some value else none).or _
    by_cases hj : j = k
    · rw [if_pos hj, ← hj, Finmap.lookup_insert]
      rfl
    · rw [if_neg hj, Finmap.lookup_insert_of_ne _ (Ne.symm hj)]
      rfl

theorem count_apply (op : Op κ α) :
    (r.apply op).count k = r.count k + if op.increments k then 1 else 0 := by
  cases op with
  | set j value => rfl
  | increment j =>
    show ((r.counters.insert j (r.count j + 1)).lookup k).getD 0 = _ + if decide (j = k) then 1 else 0
    by_cases hj : j = k
    · subst hj
      simp only [Finmap.lookup_insert, Option.getD_some, decide_true, if_true]
    · simp only [Finmap.lookup_insert_of_ne _ (Ne.symm hj), hj, decide_false, Bool.false_eq_true,
        if_false, add_zero]
      rfl

theorem gauge_record :
    (r.record ops).gauges.lookup k = (written ops k).or (r.gauges.lookup k) := by
  induction ops generalizing r with
  | nil => rfl
  | cons op ops ih =>
    show ((r.apply op).record ops).gauges.lookup k = _
    rw [ih, gauge_apply, written_cons, Option.or_assoc]

theorem count_record : (r.record ops).count k = r.count k + incremented ops k := by
  induction ops generalizing r with
  | nil => rfl
  | cons op ops ih =>
    show ((r.apply op).record ops).count k = _
    rw [ih, count_apply, incremented_cons, Nat.add_assoc, Nat.add_comm (incremented ops k)]

@[simp] theorem count_empty : (empty : Registry κ α).count k = 0 := rfl

@[simp] theorem gauge_empty : (empty : Registry κ α).gauges.lookup k = none :=
  Finmap.lookup_empty k

/-! ## Registered series -/

/-- The gauges are among `G` and the counters among `C`. -/
structure Within (G C : Finset κ) (r : Registry κ α) : Prop where
  gauges : r.gauges.keys ⊆ G
  counters : r.counters.keys ⊆ C

end Registry

/-- The write is to a gauge in `G` or to a counter in `C`. -/
def Op.Within (G C : Finset κ) : Op κ α → Prop
  | set k _ => k ∈ G
  | increment k => k ∈ C

namespace Registry

omit [DecidableEq κ] in
theorem within_empty (G C : Finset κ) : Within G C (empty : Registry κ α) :=
  ⟨Finset.empty_subset _, Finset.empty_subset _⟩

theorem within_apply {G C : Finset κ} {r : Registry κ α} (h : Within G C r) {op : Op κ α}
    (hop : op.Within G C) : Within G C (r.apply op) := by
  cases op with
  | set k value =>
    refine ⟨fun j hj => ?_, h.counters⟩
    rcases Finmap.mem_insert.mp (Finmap.mem_keys.mp hj) with rfl | hj
    · exact hop
    · exact h.gauges (Finmap.mem_keys.mpr hj)
  | increment k =>
    refine ⟨h.gauges, fun j hj => ?_⟩
    rcases Finmap.mem_insert.mp (Finmap.mem_keys.mp hj) with rfl | hj
    · exact hop
    · exact h.counters (Finmap.mem_keys.mpr hj)

theorem within_record {G C : Finset κ} {r : Registry κ α} (h : Within G C r)
    {ops : List (Op κ α)} (hops : ∀ op ∈ ops, op.Within G C) : Within G C (r.record ops) := by
  induction ops generalizing r with
  | nil => exact h
  | cons op ops ih =>
    exact ih (within_apply h (hops op List.mem_cons_self)) fun op' hop' =>
      hops op' (List.mem_cons_of_mem op hop')

end Registry

/-! ## The registry of a run -/

section Recorded

variable {σ : Type} (step : σ → ι → σ × List (Op κ α)) (s : σ)

/-- The registry after a run whose steps record their outputs. -/
def recorded (xs : List ι) : Registry κ α := Registry.empty.record (Run.outs step s xs).flatten

theorem recorded_concat (xs : List ι) (x : ι) :
    recorded step s (xs ++ [x]) = (recorded step s xs).record (step (Run.exec step s xs) x).2 := by
  unfold recorded
  rw [Run.outs_concat, List.flatten_append, List.flatten_singleton, Registry.record_append]

variable {step s}

/-- What every step keeps, of its inputs, the state and the registry, holds after every run. -/
theorem recorded_history {R : List ι → σ → Registry κ α → Prop} (h0 : R [] s Registry.empty)
    (hstep : ∀ past x reg, R past (Run.exec step s past) reg →
      R (past ++ [x]) (step (Run.exec step s past) x).1
        (reg.record (step (Run.exec step s past) x).2)) (xs : List ι) :
    R xs (Run.exec step s xs) (recorded step s xs) := by
  induction xs using List.reverseRecOn with
  | nil => exact h0
  | append_singleton past x ih =>
    rw [Run.exec_concat, recorded_concat]
    exact hstep past x _ ih

/-- What every step keeps of the state and the registry holds after every run. -/
theorem recorded_invariant {R : σ → Registry κ α → Prop} (h0 : R s Registry.empty)
    (hstep : ∀ s x reg, R s reg → R (step s x).1 (reg.record (step s x).2)) (xs : List ι) :
    R (Run.exec step s xs) (recorded step s xs) :=
  recorded_history (R := fun _ => R) h0 (fun _ _ _ h => hstep _ _ _ h) xs

/-- If what a step writes to a gauge is read off what it passes on, the gauge has what was read off
last. -/
theorem gauge_of_passed {β : Type} {pass : σ → ι → Option β} {w : β → Option α} {k : κ}
    (hstep : ∀ s x, written (step s x).2 k = (pass s x).bind w) (xs : List ι) :
    (recorded step s xs).gauges.lookup k = ((Run.passedOn step pass s xs).filterMap w).getLast? := by
  induction xs using List.reverseRecOn with
  | nil => exact Registry.gauge_empty k
  | append_singleton past x ih =>
    rw [recorded_concat, Registry.gauge_record, ih, hstep, Run.passedOn_append, List.filterMap_append,
      List.getLast?_append]
    congr 1
    cases hpass : pass (Run.exec step s past) x with
    | none => simp [Run.passedOn, hpass]
    | some y =>
      cases hw : w y with
      | none => simp [Run.passedOn, hpass, hw]
      | some value => simp [Run.passedOn, hpass, hw]

end Recorded

end Metric
