import Mathlib.Data.List.Sort
import Mathlib.Data.Finset.Card
import Mathlib.Tactic.Common

/-!
# The first entries of a ranking

`(xs.insertionSort r).take n` are the `n` best entries of `xs`, for a relation `r x y` that says
that `x` may stand before `y`. The relation need be total and transitive only on the entries (`P`),
as comparisons of floats are on numbers. An entry with few entries that may stand before it is among
the first ones, whatever the order of `xs`. Where entries stand by a value in a linear order, the
first ones are the largest (`IsTop`), and which values they have is settled by the entries.
-/

namespace Ranking

variable {α : Type*} {r : α → α → Prop} [DecidableRel r]

/-- Sorting sorts if the relation is total and transitive on the entries. -/
theorem pairwise_insertionSort {P : α → Prop} (htotal : ∀ a b, P a → P b → r a b ∨ r b a)
    (htrans : ∀ a b c, P a → P b → P c → r a b → r b c → r a c) {xs : List α}
    (hP : ∀ x ∈ xs, P x) : (xs.insertionSort r).Pairwise r := by
  let s : Subtype P → Subtype P → Prop := fun a b => r a b
  have : DecidableRel s := fun a b => inferInstanceAs (Decidable (r a b))
  have : Std.Total s := ⟨fun a b => htotal a b a.2 b.2⟩
  have : IsTrans (Subtype P) s := ⟨fun a b c => htrans a b c a.2 b.2 c.2⟩
  have hmap : ((xs.attachWith P hP).insertionSort s).map Subtype.val = xs.insertionSort r := by
    rw [List.map_insertionSort s r Subtype.val _ fun _ _ _ _ => Iff.rfl,
      List.attachWith_map_subtype_val]
  rw [← hmap, List.pairwise_map]
  exact List.pairwise_insertionSort s _

theorem mem_take_of_countP_le {xs : List α} (hxs : xs.Pairwise r) {x : α} (hx : x ∈ xs)
    (hrefl : r x x) {n : ℕ} (hn : xs.countP (fun y => r y x) ≤ n) : x ∈ xs.take n := by
  induction xs generalizing n with
  | nil => exact absurd hx List.not_mem_nil
  | cons a xs ih =>
    obtain ⟨ha, hxs⟩ := List.pairwise_cons.mp hxs
    have hax : r a x := by
      rcases List.mem_cons.mp hx with rfl | hx
      · exact hrefl
      · exact ha x hx
    rw [List.countP_cons, if_pos (decide_eq_true hax)] at hn
    obtain ⟨n, rfl⟩ : ∃ k, n = k + 1 := ⟨n - 1, by omega⟩
    rw [List.take_succ_cons]
    rcases List.mem_cons.mp hx with rfl | hx
    · exact List.mem_cons_self
    · exact List.mem_cons_of_mem a (ih hxs hx (by omega))

/-- An entry is among the `n` best if at most `n` entries may stand before it. -/
theorem mem_best_of_countP_le {P : α → Prop} (htotal : ∀ a b, P a → P b → r a b ∨ r b a)
    (htrans : ∀ a b c, P a → P b → P c → r a b → r b c → r a c) {xs : List α}
    (hP : ∀ x ∈ xs, P x) {x : α} (hx : x ∈ xs) {n : ℕ} (hn : xs.countP (fun y => r y x) ≤ n) :
    x ∈ (xs.insertionSort r).take n := by
  refine mem_take_of_countP_le (pairwise_insertionSort htotal htrans hP)
    ((List.mem_insertionSort r).mpr hx) ?_ ?_
  · rcases htotal x x (hP x hx) (hP x hx) with h | h
    · exact h
    · exact h
  · rwa [(List.perm_insertionSort r xs).countP_eq]

theorem nodup_map_best {β : Type*} {key : α → β} {xs : List α} (h : (xs.map key).Nodup) (n : ℕ) :
    (((xs.insertionSort r).take n).map key).Nodup := by
  have hsorted : ((xs.insertionSort r).map key).Nodup :=
    ((List.perm_insertionSort r xs).map key).nodup_iff.mpr h
  exact hsorted.sublist ((List.take_sublist n _).map key)

/-! ## The largest entries by a value -/

/-- `best` are the `n` entries of `xs` with the largest values, in descending order. -/
structure IsTop {K : Type*} [LinearOrder K] (value : α → K) (n : ℕ) (xs best : List α) : Prop where
  sorted : best.Pairwise fun a b => value b ≤ value a
  length_eq : best.length = min n xs.length
  split : ∃ rest, (best ++ rest).Perm xs ∧ ∀ y ∈ best, ∀ x ∈ rest, value x ≤ value y

section Top

variable {K : Type*} [LinearOrder K] {value : α → K} {n : ℕ} {xs ys best best' : List α}

theorem isTop_take_insertionSort (hr : ∀ a b, r a b ↔ value b ≤ value a) (n : ℕ) (xs : List α) :
    IsTop value n xs ((xs.insertionSort r).take n) := by
  have : Std.Total r := ⟨fun a b => by rw [hr, hr]; exact le_total ..⟩
  have : IsTrans α r := ⟨fun a b c hab hbc => by rw [hr] at *; exact hbc.trans hab⟩
  have hsorted : (xs.insertionSort r).Pairwise fun a b => value b ≤ value a :=
    (List.pairwise_insertionSort r xs).imp fun h => (hr _ _).mp h
  rw [← List.take_append_drop n (xs.insertionSort r), List.pairwise_append] at hsorted
  refine ⟨hsorted.1, ?_, (xs.insertionSort r).drop n, ?_, hsorted.2.2⟩
  · rw [List.length_take, List.length_insertionSort]
  · rw [List.take_append_drop]
    exact List.perm_insertionSort r xs

namespace IsTop

theorem mem (h : IsTop value n xs best) {y : α} (hy : y ∈ best) : y ∈ xs := by
  obtain ⟨rest, hperm, -⟩ := h.split
  exact hperm.mem_iff.mp (List.mem_append_left rest hy)

theorem nodup_map {β : Type*} {key : α → β} (h : IsTop value n xs best)
    (hn : (xs.map key).Nodup) : (best.map key).Nodup := by
  obtain ⟨rest, hperm, -⟩ := h.split
  rw [← (hperm.map key).nodup_iff, List.map_append] at hn
  exact (List.nodup_append.mp hn).1

theorem le_of_not_mem (h : IsTop value n xs best) {x y : α} (hx : x ∈ xs) (hx' : x ∉ best)
    (hy : y ∈ best) : value x ≤ value y := by
  obtain ⟨rest, hperm, hle⟩ := h.split
  exact hle y hy x ((List.mem_append.mp (hperm.mem_iff.mpr hx)).resolve_left hx')

/-- Where at most `n` entries are above a limit, each of them is taken. -/
theorem mem_of_countP_le (h : IsTop value n xs best) {c : K}
    (hfew : xs.countP (fun x => c < value x) ≤ n) {x : α} (hx : x ∈ xs) (hc : c < value x) :
    x ∈ best := by
  obtain ⟨rest, hperm, hle⟩ := h.split
  by_contra hx'
  have hrest : x ∈ rest := (List.mem_append.mp (hperm.mem_iff.mpr hx)).resolve_left hx'
  -- all that is taken is above the limit too, and there is no room for the entry
  have hbest : best.countP (fun x => c < value x) = best.length :=
    List.countP_eq_length.mpr fun y hy => decide_eq_true (hc.trans_le (hle y hy x hrest))
  have hpos : 0 < rest.countP fun x => c < value x :=
    List.countP_pos_iff.mpr ⟨x, hrest, decide_eq_true hc⟩
  have hcount := hperm.countP_eq fun x => c < value x
  have hlength := hperm.length_eq
  have hlen := h.length_eq
  have := List.length_pos_of_mem hrest
  rw [List.countP_append] at hcount
  rw [List.length_append] at hlength
  omega

/-- Where at least `n` entries are above a limit, all that is taken is. -/
theorem lt_of_le_countP (h : IsTop value n xs best) {c : K}
    (hmany : n ≤ xs.countP fun x => c < value x) {y : α} (hy : y ∈ best) : c < value y := by
  obtain ⟨rest, hperm, hle⟩ := h.split
  by_contra hc
  have hrest : rest.countP (fun x => c < value x) = 0 :=
    List.countP_eq_zero.mpr fun x hx => by
      simpa using (hle y hy x hx).trans (not_lt.mp hc)
  have hbest : best.countP (fun x => c < value x) ≠ best.length := fun heq =>
    hc (of_decide_eq_true (List.countP_eq_length.mp heq y hy))
  have hcount := hperm.countP_eq fun x => c < value x
  have hlen := h.length_eq
  have := best.countP_le_length (p := fun x => c < value x)
  rw [List.countP_append] at hcount
  omega

/-- The values taken begin the values in descending order. -/
theorem exists_descending (h : IsTop value n xs best) :
    ∃ tail, (best.map value ++ tail).Pairwise (· ≥ ·) ∧
      (best.map value ++ tail).Perm (xs.map value) := by
  obtain ⟨rest, hperm, hle⟩ := h.split
  have htail := List.perm_insertionSort (· ≥ ·) (rest.map value)
  refine ⟨(rest.map value).insertionSort (· ≥ ·), List.pairwise_append.mpr ⟨?_, ?_, ?_⟩, ?_⟩
  · exact List.pairwise_map.mpr h.sorted
  · exact List.pairwise_insertionSort _ _
  · intro u hu v hv
    obtain ⟨y, hy, rfl⟩ := List.mem_map.mp hu
    obtain ⟨x, hx, rfl⟩ := List.mem_map.mp (htail.mem_iff.mp hv)
    exact hle y hy x hx
  · refine (htail.append_left _).trans ?_
    rw [← List.map_append]
    exact hperm.map value

/-- The values taken do not depend on the order of the entries. -/
theorem map_value_eq (h : IsTop value n xs best) (h' : IsTop value n ys best')
    (hperm : xs.Perm ys) : best.map value = best'.map value := by
  obtain ⟨tail, hsorted, htail⟩ := h.exists_descending
  obtain ⟨tail', hsorted', htail'⟩ := h'.exists_descending
  have heq : best.map value ++ tail = best'.map value ++ tail' :=
    List.Perm.eq_of_pairwise' hsorted hsorted' (htail.trans ((hperm.map value).trans htail'.symm))
  have hlength : (best.map value).length = (best'.map value).length := by
    rw [List.length_map, List.length_map, h.length_eq, h'.length_eq, hperm.length_eq]
  exact (List.append_inj heq hlength).1

end IsTop

end Top

end Ranking
