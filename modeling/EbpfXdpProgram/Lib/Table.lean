import Mathlib.Data.Finmap
import Mathlib.Data.List.Sort
import Mathlib.Tactic.Common

/-!
# Hash tables and their iteration order

A hash table is a `Finmap`, so that nothing can be read off its internal order. A loop over a
table or a set of keys runs over the list an `IterOrder` makes of them: any enumeration without
repetition. The rules for such loops (`foldl_sweep`, `foldlM_sweep`) look at one key at a time, and
so their conclusions do not depend on the order.
-/

/-- A hash table from `κ` to `ν`. -/
abbrev Table (κ ν : Type) := Finmap (fun _ : κ => ν)

namespace Table

variable {κ ν α : Type} [DecidableEq κ]

theorem mem_keys {t : Table κ ν} {k : κ} : k ∈ t.keys ↔ (t.lookup k).isSome = true := by
  rw [Finmap.mem_keys, ← Finmap.lookup_isSome]

/-! ## Retaining entries -/

/-- Keeps the entries that satisfy `p`: `HashMap::retain`. -/
def retain (p : κ → ν → Bool) (t : Table κ ν) : Table κ ν :=
  ⟨t.entries.filter fun e => p e.1 e.2, by
    obtain ⟨⟨l⟩, hl⟩ := t
    exact List.NodupKeys.sublist List.filter_sublist hl⟩

theorem dlookup_filter (p : κ → ν → Bool) (k : κ) {l : List (Σ _ : κ, ν)} (hl : l.NodupKeys) :
    (l.filter fun e => p e.1 e.2).dlookup k = (l.dlookup k).filter (p k) := by
  induction l with
  | nil => rfl
  | cons e l ih =>
    obtain ⟨j, v⟩ := e
    obtain ⟨hj, hl'⟩ := List.nodupKeys_cons.mp hl
    by_cases hk : k = j
    · subst hk
      have hnone : l.dlookup k = none := List.dlookup_eq_none.mpr hj
      rw [List.dlookup_cons_eq, List.filter_cons]
      by_cases hv : p k v = true
      · rw [if_pos hv, List.dlookup_cons_eq, Option.filter_some, if_pos hv]
      · rw [if_neg hv, ih hl', hnone, Option.filter_some, if_neg hv]; rfl
    · rw [List.dlookup_cons_ne l ⟨j, v⟩ hk, List.filter_cons]
      split_ifs
      · exact (List.dlookup_cons_ne _ (⟨j, v⟩ : Σ _ : κ, ν) hk).trans (ih hl')
      · exact ih hl'

@[simp] theorem lookup_retain (p : κ → ν → Bool) (t : Table κ ν) (k : κ) :
    (retain p t).lookup k = (t.lookup k).filter (p k) := by
  induction t using Finmap.induction_on with
  | H a =>
    have hmk : retain p a.toFinmap =
        AList.toFinmap ⟨a.entries.filter fun e => p e.1 e.2,
          a.nodupKeys.sublist List.filter_sublist⟩ := by
      apply Finmap.ext
      show Multiset.filter _ (a.entries : Multiset (Σ _ : κ, ν)) = _
      rw [Multiset.filter_coe]
      simp only [Bool.decide_eq_true, AList.toFinmap_entries]
    rw [hmk]
    exact dlookup_filter p k a.nodupKeys

/-! ## Collecting a list into a table -/

/-- `iter().map(|x| (key(x), x)).collect()`: the last item with a key is the one kept. -/
def collect (key : α → κ) (xs : List α) : Table κ α :=
  xs.foldl (fun t x => t.insert (key x) x) ∅

theorem collect_concat (key : α → κ) (xs : List α) (x : α) :
    collect key (xs ++ [x]) = (collect key xs).insert (key x) x := List.foldl_concat ..

theorem lookup_collect_some {key : α → κ} {xs : List α} {k : κ} {x : α}
    (h : (collect key xs).lookup k = some x) : x ∈ xs ∧ key x = k := by
  induction xs using List.reverseRecOn with
  | nil => exact absurd h (by simp [collect])
  | append_singleton past y ih =>
    rw [collect_concat] at h
    by_cases hk : k = key y
    · subst hk
      rw [Finmap.lookup_insert, Option.some.injEq] at h
      subst h
      exact ⟨by simp, rfl⟩
    · rw [Finmap.lookup_insert_of_ne _ hk] at h
      exact ⟨List.mem_append_left _ (ih h).1, (ih h).2⟩

theorem lookup_collect_isSome {key : α → κ} {xs : List α} {k : κ} :
    ((collect key xs).lookup k).isSome = true ↔ ∃ x ∈ xs, key x = k := by
  constructor
  · intro h
    obtain ⟨x, hx⟩ := Option.isSome_iff_exists.mp h
    exact ⟨x, lookup_collect_some hx⟩
  · induction xs using List.reverseRecOn with
    | nil => rintro ⟨x, hx, _⟩; exact absurd hx (by simp)
    | append_singleton past y ih =>
      rintro ⟨x, hx, rfl⟩
      rw [collect_concat]
      by_cases hk : key x = key y
      · rw [hk, Finmap.lookup_insert]; rfl
      · rw [Finmap.lookup_insert_of_ne _ hk]
        rcases List.mem_append.mp hx with hx | hx
        · exact ih ⟨x, hx, rfl⟩
        · exact absurd (congrArg key (List.mem_singleton.mp hx)) hk

theorem lookup_collect_filter (key : α → κ) (xs : List α) {q : α → Bool} {k : κ}
    (h : ∀ x ∈ xs, key x = k → q x = true) :
    (collect key (xs.filter q)).lookup k = (collect key xs).lookup k := by
  induction xs using List.reverseRecOn with
  | nil => rfl
  | append_singleton past y ih =>
    have ih := ih fun x hx => h x (List.mem_append_left _ hx)
    rw [List.filter_append, collect_concat]
    by_cases hk : k = key y
    · have hq : q y = true := h y (List.mem_append_right _ (List.mem_singleton_self y)) hk.symm
      rw [List.filter_cons_of_pos hq, List.filter_nil, collect_concat, hk, Finmap.lookup_insert,
        Finmap.lookup_insert]
    · rw [Finmap.lookup_insert_of_ne _ hk, ← ih]
      by_cases hq : q y = true
      · rw [List.filter_cons_of_pos hq, List.filter_nil, collect_concat,
          Finmap.lookup_insert_of_ne _ hk]
      · rw [List.filter_cons_of_neg hq, List.filter_nil, List.append_nil]

/-! ## Grouping a list into a table -/

section Group

variable [DecidableEq ν]

/-- The loop `groups.entry(key(x)).or_default().insert(val(x))`. -/
def groupBy (key : α → κ) (val : α → ν) (xs : List α) : Table κ (Finset ν) :=
  xs.foldl (fun t x => t.insert (key x) (insert (val x) ((t.lookup (key x)).getD ∅))) ∅

theorem groupBy_concat (key : α → κ) (val : α → ν) (xs : List α) (x : α) :
    groupBy key val (xs ++ [x]) = (groupBy key val xs).insert (key x)
      (insert (val x) (((groupBy key val xs).lookup (key x)).getD ∅)) := List.foldl_concat ..

theorem getD_groupBy (key : α → κ) (val : α → ν) (xs : List α) (k : κ) :
    ((groupBy key val xs).lookup k).getD ∅ =
      ((xs.filter fun x => key x = k).map val).toFinset := by
  induction xs using List.reverseRecOn with
  | nil => rfl
  | append_singleton past x ih =>
    rw [groupBy_concat, List.filter_append]
    by_cases hk : key x = k
    · subst hk
      rw [Finmap.lookup_insert, ih, List.filter_cons_of_pos (by simp), List.filter_nil,
        List.map_append, List.map_singleton]
      ext v
      simp only [Option.getD_some, Finset.mem_insert, List.mem_toFinset, List.mem_append,
        List.mem_singleton, or_comm]
    · rw [Finmap.lookup_insert_of_ne _ (Ne.symm hk), ih, List.filter_cons_of_neg (by simpa using hk),
        List.filter_nil, List.append_nil]

theorem mem_keys_groupBy {key : α → κ} {val : α → ν} {xs : List α} {k : κ} :
    k ∈ (groupBy key val xs).keys ↔ ∃ x ∈ xs, key x = k := by
  induction xs using List.reverseRecOn with
  | nil => simp [groupBy]
  | append_singleton past x ih =>
    rw [groupBy_concat, Finmap.mem_keys, Finmap.mem_insert, ← Finmap.mem_keys, ih]
    constructor
    · rintro (rfl | ⟨y, hy, rfl⟩)
      · exact ⟨x, by simp, rfl⟩
      · exact ⟨y, List.mem_append_left _ hy, rfl⟩
    · rintro ⟨y, hy, rfl⟩
      rcases List.mem_append.mp hy with hy | hy
      · exact .inr ⟨y, hy, rfl⟩
      · exact .inl (congrArg key (List.mem_singleton.mp hy))

end Group

end Table

/-! ## Iteration orders -/

/-- An order in which a loop may run over a set of keys. -/
structure IterOrder (κ : Type) where
  enum : Finset κ → List κ
  nodup : ∀ s, (enum s).Nodup
  mem_enum : ∀ s k, k ∈ enum s ↔ k ∈ s

namespace IterOrder

variable {κ : Type}

/-- The order of increasing rank. -/
def byRank (rank : κ → ℕ) (hrank : Function.Injective rank) : IterOrder κ where
  enum s := Quot.liftOn s.1 (fun l => l.insertionSort fun a b => rank a ≤ rank b) fun l₁ l₂ h => by
    have : IsTrans κ fun a b => rank a ≤ rank b := ⟨fun _ _ _ => le_trans⟩
    have : Std.Total fun a b : κ => rank a ≤ rank b := ⟨fun a b => le_total (rank a) (rank b)⟩
    have : Std.Antisymm fun a b : κ => rank a ≤ rank b := ⟨fun _ _ h h' => hrank (le_antisymm h h')⟩
    exact ((List.perm_insertionSort _ l₁).trans h |>.trans
      (List.perm_insertionSort _ l₂).symm).eq_of_pairwise'
        (List.pairwise_insertionSort _ l₁) (List.pairwise_insertionSort _ l₂)
  nodup s := by
    obtain ⟨⟨l⟩, hl⟩ := s
    exact (List.perm_insertionSort _ l).nodup_iff.mpr hl
  mem_enum s k := by
    obtain ⟨⟨l⟩, hl⟩ := s
    exact List.mem_insertionSort _

theorem perm_enum (o o' : IterOrder κ) (s : Finset κ) : (o.enum s).Perm (o'.enum s) :=
  (List.perm_ext_iff_of_nodup (o.nodup s) (o'.nodup s)).mpr fun k => by rw [o.mem_enum, o'.mem_enum]

theorem countP_enum [DecidableEq κ] (o : IterOrder κ) (s : Finset κ) (p : κ → Prop)
    [DecidablePred p] : (o.enum s).countP (fun k => p k) = (s.filter p).card := by
  have hs : (o.enum s).toFinset = s := by
    ext k
    rw [List.mem_toFinset, o.mem_enum]
  rw [List.countP_eq_length_filter, ← List.toFinset_card_of_nodup ((o.nodup s).filter _)]
  congr 1
  ext k
  simp only [List.mem_toFinset, List.mem_filter, o.mem_enum, Finset.mem_filter, decide_eq_true_eq]

theorem length_enum [DecidableEq κ] (o : IterOrder κ) (s : Finset κ) :
    (o.enum s).length = s.card := by
  have hall := o.countP_enum s fun _ => True
  rw [Finset.filter_true] at hall
  exact (List.countP_eq_length.mpr fun _ _ => decide_eq_true trivial).symm.trans hall

/-- The entries of a table, in the order of their keys. -/
def entries {ν : Type} [DecidableEq κ] (o : IterOrder κ) (t : Table κ ν) : List (κ × ν) :=
  (o.enum t.keys).filterMap fun k => (t.lookup k).map (k, ·)

theorem mem_entries {ν : Type} [DecidableEq κ] (o : IterOrder κ) {t : Table κ ν} {e : κ × ν} :
    e ∈ o.entries t ↔ t.lookup e.1 = some e.2 := by
  obtain ⟨k, v⟩ := e
  simp only [entries, List.mem_filterMap, o.mem_enum, Table.mem_keys, Option.map_eq_some_iff,
    Prod.mk.injEq]
  constructor
  · rintro ⟨k', -, v', hv, rfl, rfl⟩
    exact hv
  · intro hv
    exact ⟨k, by rw [hv]; rfl, v, hv, rfl, rfl⟩

/-- Inserting some of the entries of a table one after the other. -/
theorem lookup_foldl_insert {ν : Type} [DecidableEq κ] {t : Table κ ν} {es : List (κ × ν)}
    (h : ∀ e ∈ es, t.lookup e.1 = some e.2) (k : κ) (t' : Table κ ν) :
    (es.foldl (fun t' e => t'.insert e.1 e.2) t').lookup k =
      if ∃ e ∈ es, e.1 = k then t.lookup k else t'.lookup k := by
  induction es using List.reverseRecOn with
  | nil => simp
  | append_singleton past e ih =>
    rw [List.foldl_concat]
    by_cases hk : e.1 = k
    · subst hk
      rw [Finmap.lookup_insert, if_pos ⟨e, by simp, rfl⟩, h e (by simp)]
    · rw [Finmap.lookup_insert_of_ne _ (Ne.symm hk),
        ih fun e' he' => h e' (List.mem_append_left _ he')]
      refine if_congr ?_ rfl rfl
      constructor
      · rintro ⟨e', he', hk'⟩
        exact ⟨e', List.mem_append_left _ he', hk'⟩
      · rintro ⟨e', he', rfl⟩
        rcases List.mem_append.mp he' with he' | he'
        · exact ⟨e', he', rfl⟩
        · exact absurd (congrArg Prod.fst (List.mem_singleton.mp he').symm) hk

theorem foldl_insert_entries {ν : Type} [DecidableEq κ] (o : IterOrder κ) (t : Table κ ν) :
    (o.entries t).foldl (fun t' e => t'.insert e.1 e.2) ∅ = t := by
  apply Finmap.ext_lookup
  intro k
  rw [lookup_foldl_insert fun e he => (o.mem_entries).mp he]
  split_ifs with h
  · rfl
  · rw [Finmap.lookup_empty]
    refine (Option.eq_none_iff_forall_ne_some.mpr fun v hv => h ⟨(k, v), ?_, rfl⟩).symm
    exact o.mem_entries.mpr hv

theorem entries_eq_map {ν : Type} [DecidableEq κ] (o : IterOrder κ) (t : Table κ ν) (d : ν) :
    o.entries t = (o.enum t.keys).map fun k => (k, (t.lookup k).getD d) := by
  unfold entries
  rw [← List.filterMap_eq_map]
  apply List.filterMap_congr
  intro k hk
  rw [o.mem_enum, Table.mem_keys, Option.isSome_iff_exists] at hk
  obtain ⟨v, hv⟩ := hk
  rw [Function.comp_apply, hv]
  rfl

end IterOrder

/-! ## Loops over keys -/

section Sweep

variable {κ α V : Type} [DecidableEq κ] (view : κ → α → V) (upd : κ → V → V)

/-- A loop whose body at `j` changes only what is seen of `j` updates what is seen of each visited
key once. -/
theorem foldl_sweep (step : α → κ → α) (hself : ∀ a k, view k (step a k) = upd k (view k a))
    (hframe : ∀ a j k, k ≠ j → view k (step a j) = view k a) {keys : List κ} (hn : keys.Nodup)
    (a : α) (k : κ) :
    view k (keys.foldl step a) = if k ∈ keys then upd k (view k a) else view k a := by
  induction keys generalizing a with
  | nil => simp
  | cons j keys ih =>
    obtain ⟨hj, hn'⟩ := List.nodup_cons.mp hn
    rw [List.foldl_cons, ih hn']
    by_cases hk : k = j
    · subst hk
      rw [if_neg hj, if_pos List.mem_cons_self, hself]
    · rw [hframe a j k hk]
      simp only [List.mem_cons, hk, false_or]

/-- `foldl_sweep` for a loop whose body may panic and does not. -/
theorem foldlM_sweep {ε : Type} {step : α → κ → Except ε α}
    (hstep : ∀ a j, ∃ a', step a j = .ok a' ∧ view j a' = upd j (view j a) ∧
      ∀ k, k ≠ j → view k a' = view k a) {keys : List κ} (hn : keys.Nodup) (a : α) :
    ∃ a', keys.foldlM step a = .ok a' ∧
      ∀ k, view k a' = if k ∈ keys then upd k (view k a) else view k a := by
  induction keys generalizing a with
  | nil => exact ⟨a, rfl, fun k => by simp⟩
  | cons j keys ih =>
    obtain ⟨hj, hn'⟩ := List.nodup_cons.mp hn
    obtain ⟨a₁, h₁, hself, hframe⟩ := hstep a j
    obtain ⟨a₂, h₂, hview⟩ := ih hn' a₁
    refine ⟨a₂, by rw [List.foldlM_cons, h₁]; exact h₂, fun k => ?_⟩
    rw [hview]
    by_cases hk : k = j
    · subst hk
      rw [if_neg hj, if_pos List.mem_cons_self, hself]
    · rw [hframe k hk]
      simp only [List.mem_cons, hk, false_or]

omit [DecidableEq κ] in
/-- A loop over numbered items, each of which changes what is seen of every key whatever its number,
folds the changes. -/
theorem foldlM_views {ε β : Type} (upd : κ → V → β → V) {step : α → β × ℕ → Except ε α}
    (hstep : ∀ a b, ∃ a', step a b = .ok a' ∧ ∀ k, view k a' = upd k (view k a) b.1)
    (xs : List β) (i : ℕ) (a : α) :
    ∃ a', (xs.zipIdx i).foldlM step a = .ok a' ∧
      ∀ k, view k a' = xs.foldl (upd k) (view k a) := by
  induction xs generalizing i a with
  | nil => exact ⟨a, rfl, fun k => rfl⟩
  | cons b xs ih =>
    obtain ⟨a₁, h₁, hview₁⟩ := hstep a (b, i)
    obtain ⟨a₂, h₂, hview₂⟩ := ih (i + 1) a₁
    refine ⟨a₂, by rw [List.zipIdx_cons, List.foldlM_cons, h₁]; exact h₂, fun k => ?_⟩
    rw [hview₂, hview₁, List.foldl_cons]

end Sweep

/-! ## Lists of items with keys -/

section Keyed

variable {α κ : Type} [DecidableEq κ] {key : α → κ} {xs : List α}

theorem filter_of_key {k : κ} (h : ∀ x ∈ xs, key x = k) (j : κ) :
    xs.filter (fun x => key x = j) = if j = k then xs else [] := by
  split_ifs with hj
  · exact List.filter_eq_self.mpr fun x hx => decide_eq_true ((h x hx).trans hj.symm)
  · exact List.filter_eq_nil_iff.mpr fun x hx hk =>
      hj ((of_decide_eq_true hk).symm.trans (h x hx))

/-- In a list with distinct keys, an item is the only one with its key. -/
theorem filter_key_of_nodup (hn : (xs.map key).Nodup) {x : α} (hx : x ∈ xs) :
    xs.filter (fun y => key y = key x) = [x] := by
  induction xs with
  | nil => exact absurd hx List.not_mem_nil
  | cons y xs ih =>
    rw [List.map_cons, List.nodup_cons] at hn
    obtain ⟨hnot, hn⟩ := hn
    rcases List.mem_cons.mp hx with rfl | hx
    · rw [List.filter_cons_of_pos (by simp), List.filter_eq_nil_iff.mpr]
      exact fun y hy hk => hnot (List.mem_map.mpr ⟨y, hy, of_decide_eq_true hk⟩)
    · have hne : key y ≠ key x := fun h => hnot (List.mem_map.mpr ⟨x, hx, h.symm⟩)
      rw [List.filter_cons_of_neg (by simpa using hne), ih hn hx]

end Keyed
