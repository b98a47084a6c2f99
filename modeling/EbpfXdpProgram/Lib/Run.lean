import Mathlib.Data.List.DropRight
import Mathlib.Algebra.Order.BigOperators.Group.Finset
import Mathlib.Data.List.Chain
import Mathlib.Data.Nat.Basic
import Mathlib.Tactic.Common

/-!
# Runs of a step function with outputs

`exec step s xs` is the state after the inputs `xs` and `outs step s xs` lists what the steps
emitted. The rules of this module are inductions on the end of a run, so that an invariant may
speak of the whole past: `exec_history` relates each state to the inputs that led to it.
-/

namespace Run

variable {σ ι ω : Type*}

/-- The state after the inputs `xs`. -/
def exec (step : σ → ι → σ × ω) (s : σ) (xs : List ι) : σ :=
  xs.foldl (fun s x => (step s x).1) s

/-- The outputs of the steps on `xs`, in order. -/
def outs (step : σ → ι → σ × ω) : σ → List ι → List ω
  | _, [] => []
  | s, x :: xs => (step s x).2 :: outs step (step s x).1 xs

section Basic

variable (step : σ → ι → σ × ω) (s : σ)

@[simp] theorem exec_nil : exec step s [] = s := rfl

@[simp] theorem exec_cons (x : ι) (xs : List ι) :
    exec step s (x :: xs) = exec step (step s x).1 xs := rfl

theorem exec_append (xs ys : List ι) :
    exec step s (xs ++ ys) = exec step (exec step s xs) ys := List.foldl_append

@[simp] theorem exec_concat (xs : List ι) (x : ι) :
    exec step s (xs ++ [x]) = (step (exec step s xs) x).1 := by
  rw [exec_append]; rfl

theorem outs_append (xs ys : List ι) :
    outs step s (xs ++ ys) = outs step s xs ++ outs step (exec step s xs) ys := by
  induction xs generalizing s with
  | nil => rfl
  | cons x xs ih => simp only [List.cons_append, outs, ih, exec_cons]

@[simp] theorem outs_concat (xs : List ι) (x : ι) :
    outs step s (xs ++ [x]) = outs step s xs ++ [(step (exec step s xs) x).2] := by
  rw [outs_append]; rfl

@[simp] theorem length_outs (xs : List ι) : (outs step s xs).length = xs.length := by
  induction xs generalizing s with
  | nil => rfl
  | cons x xs ih => rw [outs, List.length_cons, ih, List.length_cons]

/-- The outputs of a step function that shows a part of what another one does. -/
theorem outs_map {ω' : Type*} (f : ω → ω') (xs : List ι) :
    outs (fun s x => ((step s x).1, f (step s x).2)) s xs = (outs step s xs).map f := by
  induction xs generalizing s with
  | nil => rfl
  | cons x xs ih => rw [outs, outs, List.map_cons, ih]

theorem exists_of_mem_outs {o : ω} {xs : List ι} (h : o ∈ outs step s xs) :
    ∃ pre x post, xs = pre ++ x :: post ∧ o = (step (exec step s pre) x).2 := by
  induction xs generalizing s with
  | nil => exact absurd h List.not_mem_nil
  | cons x xs ih =>
    rcases List.mem_cons.mp h with rfl | h
    · exact ⟨[], x, xs, rfl, rfl⟩
    · obtain ⟨pre, y, post, rfl, ho⟩ := ih _ h
      exact ⟨x :: pre, y, post, rfl, ho⟩

end Basic

/-! ## Invariants over runs -/

/-- A relation between the past and the state that every step extends holds after every run whose
inputs keep the prefix-closed condition `P`. -/
theorem exec_history {step : σ → ι → σ × ω} {s₀ : σ} {P : List ι → Prop}
    {R : List ι → σ → Prop} (hP : ∀ past x, P (past ++ [x]) → P past) (h0 : R [] s₀)
    (hstep : ∀ past x, P (past ++ [x]) → R past (exec step s₀ past) →
      R (past ++ [x]) (step (exec step s₀ past) x).1) :
    ∀ xs, P xs → R xs (exec step s₀ xs) := by
  intro xs
  induction xs using List.reverseRecOn with
  | nil => exact fun _ => h0
  | append_singleton past x ih =>
    intro hx
    rw [exec_concat]
    exact hstep past x hx (ih (hP past x hx))

/-- A state predicate that every step keeps holds after every run. -/
theorem exec_invariant {step : σ → ι → σ × ω} {I : σ → Prop}
    (hstep : ∀ s x, I s → I (step s x).1) {s₀ : σ} (h0 : I s₀) (xs : List ι) :
    I (exec step s₀ xs) :=
  exec_history (P := fun _ => True) (R := fun _ s => I s) (fun _ _ _ => trivial) h0
    (fun _ x _ h => hstep _ x h) xs trivial

/-- What the steps of a run cost, each in the state in which it is taken. -/
def cost (step : σ → ι → σ × ω) (c : σ → ι → ℕ) : σ → List ι → ℕ
  | _, [] => 0
  | s, x :: xs => c s x + cost step c (step s x).1 xs

/-- A run in which every step is paid for by the potential costs no more than that. -/
theorem cost_le_potential {step : σ → ι → σ × ω} {c : σ → ι → ℕ} {I : σ → Prop} {V : σ → ℕ}
    (hI : ∀ s x, I s → I (step s x).1) (hV : ∀ s x, I s → V (step s x).1 + c s x ≤ V s)
    {s : σ} (h : I s) (xs : List ι) : V (exec step s xs) + cost step c s xs ≤ V s := by
  induction xs generalizing s with
  | nil => exact Nat.le_refl _
  | cons x xs ih =>
    have hrest := ih (hI s x h)
    have hfirst := hV s x h
    rw [exec_cons, cost]
    omega

/-- What holds at the start of a run and not at its end was given up in some step. -/
theorem exists_step_of_lost {step : σ → ι → σ × ω} {I : σ → Prop} {s : σ} {xs : List ι} (h : I s)
    (hlost : ¬I (exec step s xs)) :
    ∃ pre x post, xs = pre ++ x :: post ∧ I (exec step s pre) ∧
      ¬I (step (exec step s pre) x).1 := by
  induction xs using List.reverseRecOn with
  | nil => exact absurd h hlost
  | append_singleton past x ih =>
    rw [exec_concat] at hlost
    by_cases hpast : I (exec step s past)
    · exact ⟨past, x, [], rfl, hpast, hlost⟩
    · obtain ⟨pre, y, post, rfl, hpre, hy⟩ := ih hpast
      exact ⟨pre, y, post ++ [x], by simp, hpre, hy⟩

/-- Two runs on related inputs stay related. -/
theorem exec_rel {step : σ → ι → σ × ω} {R : σ → σ → Prop} {Q : ι → ι → Prop}
    (hstep : ∀ s s' x x', R s s' → Q x x' → R (step s x).1 (step s' x').1) {s s' : σ} (h : R s s')
    {xs xs' : List ι} (hxs : List.Forall₂ Q xs xs') : R (exec step s xs) (exec step s' xs') := by
  induction hxs generalizing s s' with
  | nil => exact h
  | cons hx _ ih => exact ih (hstep _ _ _ _ h hx)

/-- What each step keeps of the state is kept by a run. -/
theorem exec_frame {α : Type*} {step : σ → ι → σ × ω} (f : σ → α)
    (hstep : ∀ s x, f (step s x).1 = f s) (s₀ : σ) (xs : List ι) :
    f (exec step s₀ xs) = f s₀ :=
  exec_invariant (I := fun s => f s = f s₀) (fun s x h => (hstep s x).trans h) rfl xs

end Run

/-! ## How long a condition has held -/

/-- The number of most recent inputs that satisfy `p` without a break. -/
def streak {α : Type*} (p : α → Bool) (xs : List α) : ℕ := (xs.rtakeWhile p).length

section Streak

variable {α : Type*} {p : α → Bool}

theorem streak_concat_pos {xs : List α} {x : α} (h : p x = true) :
    streak p (xs ++ [x]) = streak p xs + 1 := by
  unfold streak
  rw [List.rtakeWhile_concat_pos p xs x h, List.length_append, List.length_singleton]

theorem streak_concat_neg {xs : List α} {x : α} (h : p x = false) :
    streak p (xs ++ [x]) = 0 := by
  unfold streak
  rw [List.rtakeWhile_concat_neg p xs x (by rw [h]; decide), List.length_nil]

theorem streak_le_length (p : α → Bool) (xs : List α) : streak p xs ≤ xs.length :=
  (List.rtakeWhile_suffix p xs).length_le

theorem streak_map {β : Type*} (p : β → Bool) (f : α → β) (xs : List α) :
    streak p (xs.map f) = streak (fun x => p (f x)) xs := by
  induction xs using List.reverseRecOn with
  | nil => rfl
  | append_singleton past x ih =>
    rw [List.map_append, List.map_singleton]
    cases hx : p (f x) with
    | false =>
      rw [streak_concat_neg hx]
      exact (streak_concat_neg (p := fun x => p (f x)) hx).symm
    | true =>
      rw [streak_concat_pos hx, ih]
      exact (streak_concat_pos (p := fun x => p (f x)) hx).symm

/-- There have been `n` inputs, and each of the last `n` satisfies `p`. -/
def Lasted (p : α → Prop) (n : ℕ) (xs : List α) : Prop :=
  n ≤ xs.length ∧ ∀ x ∈ xs.rtake n, p x

theorem Lasted.mono {p q : α → Prop} {n : ℕ} {xs : List α} (h : Lasted p n xs)
    (hpq : ∀ x ∈ xs, p x → q x) : Lasted q n xs :=
  ⟨h.1, fun x hx => hpq x (List.mem_of_mem_drop hx) (h.2 x hx)⟩

theorem lasted_iff {n : ℕ} {xs : List α} :
    Lasted (fun x => p x = true) n xs ↔ n ≤ streak p xs := by
  induction xs using List.reverseRecOn generalizing n with
  | nil => simp [Lasted, streak]
  | append_singleton past x ih =>
    cases n with
    | zero => simp [Lasted]
    | succ n =>
      have hsplit : Lasted (fun x => p x = true) (n + 1) (past ++ [x]) ↔
          Lasted (fun x => p x = true) n past ∧ p x = true := by
        simp only [Lasted, List.length_append, List.length_singleton, List.rtake_concat_succ,
          List.mem_append, List.mem_singleton]
        constructor
        · exact fun h => ⟨⟨by omega, fun y hy => h.2 y (.inl hy)⟩, h.2 x (.inr rfl)⟩
        · rintro ⟨h, hx⟩
          refine ⟨by omega, ?_⟩
          rintro y (hy | rfl)
          · exact h.2 y hy
          · exact hx
      rw [hsplit, ih]
      cases hx : p x with
      | false => rw [streak_concat_neg hx]; simp
      | true => rw [streak_concat_pos hx]; simp

end Streak

/-! ## Consecutive inputs -/

section Consecutive

variable {α : Type*}

theorem consecutivePairs_concat (xs : List α) (x : α) :
    (xs ++ [x]).consecutivePairs = xs.consecutivePairs ++ xs.getLast?.toList.map (·, x) := by
  induction xs with
  | nil => rfl
  | cons a xs ih =>
    cases xs with
    | nil => rfl
    | cons b xs =>
      rw [List.getLast?_cons_cons]
      exact congrArg ((a, b) :: ·) ih

theorem rel_of_mem_consecutivePairs {R : α → α → Prop} {xs : List α} (h : xs.IsChain R)
    {p : α × α} (hp : p ∈ xs.consecutivePairs) : R p.1 p.2 := by
  induction xs with
  | nil => exact absurd hp List.not_mem_nil
  | cons a xs ih =>
    cases xs with
    | nil => exact absurd hp List.not_mem_nil
    | cons b xs =>
      obtain ⟨hab, h⟩ := List.isChain_cons_cons.mp h
      rcases List.mem_cons.mp hp with rfl | hp
      · exact hab
      · exact ih h hp

/-- What is gained from each input to the next sums to what is gained from the first to the last. -/
theorem sum_consecutivePairs {G : Type*} [AddCommGroup G] (f : α → G) (a : α) (xs : List α) :
    ((a :: xs).consecutivePairs.map fun p => f p.2 - f p.1).sum =
      f ((a :: xs).getLast (List.cons_ne_nil a xs)) - f a := by
  induction xs generalizing a with
  | nil => exact (sub_self (f a)).symm
  | cons b xs ih =>
    have hpairs : (a :: b :: xs).consecutivePairs = (a, b) :: (b :: xs).consecutivePairs := rfl
    rw [hpairs, List.map_cons, List.sum_cons, ih b, List.getLast_cons_cons]
    exact sub_add_sub_cancel' ..

/-- Where each list continues the ones before it, the pieces that come from one to the next make up
what comes after the first. -/
theorem flatMap_consecutivePairs {β : Type*} {f : α → List β} {a : α} {xs : List α}
    (h : (a :: xs).Pairwise fun x y => f x <+: f y) :
    ((a :: xs).consecutivePairs.flatMap fun p => (f p.2).drop (f p.1).length) =
      (f ((a :: xs).getLast (List.cons_ne_nil a xs))).drop (f a).length := by
  induction xs generalizing a with
  | nil => exact List.drop_length.symm
  | cons b xs ih =>
    obtain ⟨ha, h⟩ := List.pairwise_cons.mp h
    have hpairs : (a :: b :: xs).consecutivePairs = (a, b) :: (b :: xs).consecutivePairs := rfl
    have hlast : f b <+: f ((b :: xs).getLast (List.cons_ne_nil b xs)) := by
      rcases List.mem_cons.mp (List.getLast_mem (List.cons_ne_nil b xs)) with heq | hmem
      · rw [heq]
      · exact (List.pairwise_cons.mp h).1 _ hmem
    rw [hpairs, List.flatMap_cons, ih h, List.getLast_cons_cons]
    obtain ⟨rest, hrest⟩ := hlast
    rw [← hrest, List.drop_append_of_le_length (ha b List.mem_cons_self).length_le,
      List.drop_left]

end Consecutive

/-! ## The last inputs of a run -/

section Window

variable {α : Type*}

theorem length_rtake_le (n : ℕ) (xs : List α) : (xs.rtake n).length ≤ n := by
  unfold List.rtake
  rw [List.length_drop]
  omega

theorem mem_rtake_mono {m n : ℕ} (h : m ≤ n) {xs : List α} {x : α} (hx : x ∈ xs.rtake m) :
    x ∈ xs.rtake n := by
  unfold List.rtake at *
  exact (List.drop_sublist_drop_left xs (by omega)).subset hx

theorem mem_rtake_concat (n : ℕ) (xs : List α) (x : α) : x ∈ (xs ++ [x]).rtake (n + 1) := by
  rw [List.rtake_concat_succ]
  exact List.mem_append_right _ (List.mem_singleton_self x)

/-- In a run whose inputs are spaced by `d`, one whose stamp is `i * d` behind the last one is
among the last `i + 1`. -/
theorem exists_mem_rtake_of_spaced {f : α → ℕ} {d : ℕ} {xs : List α} {x : α}
    (h : (xs ++ [x]).IsChain fun a b => f a + d ≤ f b) {y : α} (hy : y ∈ xs ++ [x]) :
    ∃ i, y ∈ (xs ++ [x]).rtake (i + 1) ∧ f y + i * d ≤ f x := by
  induction xs using List.reverseRecOn generalizing x with
  | nil =>
    obtain rfl := List.mem_singleton.mp hy
    exact ⟨0, List.mem_singleton_self y, by omega⟩
  | append_singleton xs z ih =>
    obtain ⟨hz, -, hlast⟩ := List.isChain_append.mp h
    have hgap : f z + d ≤ f x := hlast z (by simp) x (by simp)
    rcases List.mem_append.mp hy with hy | hy
    · obtain ⟨i, hmem, hle⟩ := ih hz hy
      refine ⟨i + 1, ?_, by rw [Nat.succ_mul]; omega⟩
      rw [List.rtake_concat_succ]
      exact List.mem_append_left _ hmem
    · obtain rfl := List.mem_singleton.mp hy
      exact ⟨0, mem_rtake_concat 0 _ y, by omega⟩

/-- `⌈a / b⌉`. -/
def divUp (a b : ℕ) : ℕ := (a + b - 1) / b

theorem lt_divUp {a b i : ℕ} (hb : 0 < b) (h : i * b < a) : i < divUp a b := by
  unfold divUp
  rw [← Nat.succ_le_iff, Nat.le_div_iff_mul_le hb, Nat.succ_mul]
  omega

/-- Keys that all stem from the last `m` inputs, each of which has at most `n` keys, are at most
`n * m`. -/
theorem card_le_of_rtake {κ : Type*} [DecidableEq κ] {keys : α → Finset κ} {n m : ℕ} {xs : List α}
    (hn : ∀ x ∈ xs, (keys x).card ≤ n) {s : Finset κ}
    (hs : ∀ k ∈ s, ∃ x ∈ xs.rtake m, k ∈ keys x) : s.card ≤ n * m := by
  classical
  have hsub : s ⊆ (xs.rtake m).toFinset.biUnion keys := fun k hk => by
    obtain ⟨x, hx, hkx⟩ := hs k hk
    exact Finset.mem_biUnion.mpr ⟨x, List.mem_toFinset.mpr hx, hkx⟩
  calc s.card ≤ ((xs.rtake m).toFinset.biUnion keys).card := Finset.card_le_card hsub
    _ ≤ (xs.rtake m).toFinset.card * n := Finset.card_biUnion_le_card_mul _ _ _ fun x hx =>
        hn x (List.mem_of_mem_drop (List.mem_toFinset.mp hx))
    _ ≤ m * n := Nat.mul_le_mul_right n ((List.toFinset_card_le _).trans (length_rtake_le m xs))
    _ = n * m := Nat.mul_comm m n

end Window

/-! ## Inputs with their past -/

section Past

variable {α : Type*} {Q : List α → α → Prop}

/-- Some input among the last `n` satisfies `Q` with the inputs before it. -/
def Within (Q : List α → α → Prop) (n : ℕ) (xs : List α) : Prop :=
  ∃ pre x post, xs = pre ++ x :: post ∧ post.length < n ∧ Q pre x

theorem Within.mono {m n : ℕ} {xs : List α} (h : Within Q m xs) (hmn : m ≤ n) : Within Q n xs := by
  obtain ⟨pre, x, post, hsplit, hlen, hx⟩ := h
  exact ⟨pre, x, post, hsplit, hlen.trans_le hmn, hx⟩

theorem Within.self {xs : List α} {x : α} (h : Q xs x) : Within Q 1 (xs ++ [x]) :=
  ⟨xs, x, [], rfl, Nat.one_pos, h⟩

theorem Within.concat {n : ℕ} {xs : List α} (h : Within Q n xs) (x : α) :
    Within Q (n + 1) (xs ++ [x]) := by
  obtain ⟨pre, y, post, rfl, hlen, hy⟩ := h
  refine ⟨pre, y, post ++ [x], by simp, ?_, hy⟩
  rw [List.length_append, List.length_singleton]
  omega

/-- A condition that goes on without its cause only while a counter climbs below `R` has had its
cause among the last `R` inputs. -/
theorem within_of_counter (holds : List α → Prop) (count : List α → ℕ) {R : ℕ} (h0 : ¬holds [])
    (hstep : ∀ past x, holds (past ++ [x]) → Q past x ∨
      holds past ∧ count past < count (past ++ [x]) ∧ count past + 1 < R)
    (xs : List α) (h : holds xs) : Within Q (max 1 R) xs := by
  -- the cause lies no further back than the counter has climbed
  have hcount : ∃ j, Within Q (j + 1) xs ∧ j ≤ count xs ∧ (j = 0 ∨ j < R) := by
    induction xs using List.reverseRecOn with
    | nil => exact absurd h h0
    | append_singleton past x ih =>
      rcases hstep past x h with hx | ⟨hpast, hclimb, hR⟩
      · exact ⟨0, Within.self hx, Nat.zero_le _, .inl rfl⟩
      · obtain ⟨j, hwithin, hj, -⟩ := ih hpast
        exact ⟨j + 1, hwithin.concat x, by omega, .inr (by omega)⟩
  obtain ⟨j, hwithin, -, hj⟩ := hcount
  exact hwithin.mono (by omega)

/-- There have been `n` inputs, and each of the last `n` satisfies `Q` with the inputs before it. -/
def LastedAt (Q : List α → α → Prop) (n : ℕ) (xs : List α) : Prop :=
  n ≤ xs.length ∧ ∀ pre x post, xs = pre ++ x :: post → post.length < n → Q pre x

theorem LastedAt.zero (xs : List α) : LastedAt Q 0 xs :=
  ⟨Nat.zero_le _, fun _ _ _ _ h => absurd h (Nat.not_lt_zero _)⟩

theorem LastedAt.mono {m n : ℕ} {xs : List α} (h : LastedAt Q n xs) (hmn : m ≤ n) :
    LastedAt Q m xs :=
  ⟨hmn.trans h.1, fun pre x post hsplit hlen => h.2 pre x post hsplit (hlen.trans_le hmn)⟩

theorem LastedAt.concat {n : ℕ} {xs : List α} {x : α} (h : LastedAt Q n xs) (hx : Q xs x) :
    LastedAt Q (n + 1) (xs ++ [x]) := by
  refine ⟨?_, fun pre y post hsplit hlen => ?_⟩
  · have := h.1
    rw [List.length_append, List.length_singleton]
    omega
  · rcases List.eq_nil_or_concat post with rfl | ⟨post, z, rfl⟩
    · obtain ⟨rfl, hy⟩ := List.append_inj' hsplit rfl
      obtain rfl := (List.cons.inj hy).1
      exact hx
    · rw [List.concat_eq_append, ← List.cons_append, ← List.append_assoc] at hsplit
      obtain ⟨hxs, -⟩ := List.append_inj' hsplit rfl
      rw [List.concat_eq_append, List.length_append, List.length_singleton] at hlen
      exact h.2 pre y post hxs (by omega)

end Past
