import EbpfXdpProgram.Lib.Table

/-!
# Reading a map that changes

A program that reads a map key by key has no snapshot of it: others write to the map between two
lookups. A pass looks up every key that stays in the map from its beginning to its end, each at a
time of its own, and a key that comes or goes meanwhile at some time or never. `Along` is the
invariant of a pass: what holds of a key and its entry at the time of the lookup, and of a key
without an entry while it is not in the map, holds of what the pass ends with. In particular, what
it ends with is the entry of some time since its beginning (`During`).
-/

/-- A pass over the keys of a map. -/
structure MapRead (κ β : Type) where
  /-- The keys that were in the map all along and are still to be looked up. -/
  pending : Finset κ
  entries : Table κ β

namespace MapRead

variable {κ ν β : Type} [DecidableEq κ]

def start (m : Table κ ν) : MapRead κ β := ⟨m.keys, ∅⟩

/-- The lookup of a key. A key that is gone is skipped. -/
def visit (f : ν → β) (m : Table κ ν) (k : κ) (r : MapRead κ β) : MapRead κ β :=
  match m.lookup k with
  | some v => ⟨r.pending.erase k, r.entries.insert k (f v)⟩
  | none => r

def visits (f : ν → β) (m : Table κ ν) (ks : List κ) (r : MapRead κ β) : MapRead κ β :=
  ks.foldl (fun r k => r.visit f m k) r

def forget (k : κ) (r : MapRead κ β) : MapRead κ β := { r with pending := r.pending.erase k }

/-- What the pass ends with, once no key is left. -/
def result (r : MapRead κ β) : Option (Table κ β) := if r.pending = ∅ then some r.entries else none

/-- Every key that is not left to be looked up has what is made of it. -/
structure Along (P : κ → Option β → Prop) (r : MapRead κ β) : Prop where
  done : ∀ k ∉ r.pending, P k (r.entries.lookup k)
  unread : ∀ k ∈ r.pending, r.entries.lookup k = none

section Rules

variable {P Q : κ → Option β → Prop} {f : ν → β} {m : Table κ ν} {r : MapRead κ β} {k : κ}

theorem along_start (h : ∀ k ∉ m, P k none) : Along P (start m : MapRead κ β) where
  done k hk := h k (mt Finmap.mem_keys.mpr hk)
  unread _ _ := rfl

theorem Along.visit (h : r.Along P) (hnow : ∀ v, m.lookup k = some v → P k (some (f v))) :
    (r.visit f m k).Along P := by
  unfold MapRead.visit
  cases hlookup : m.lookup k with
  | none => exact h
  | some v =>
    refine ⟨fun j hj => ?_, fun j hj => ?_⟩
    · by_cases hjk : j = k
      · subst hjk
        rw [Finmap.lookup_insert]
        exact hnow v hlookup
      · rw [Finmap.lookup_insert_of_ne _ hjk]
        exact h.done j fun hmem => hj (Finset.mem_erase.mpr ⟨hjk, hmem⟩)
    · obtain ⟨hjk, hmem⟩ := Finset.mem_erase.mp hj
      rw [Finmap.lookup_insert_of_ne _ hjk]
      exact h.unread j hmem

theorem Along.forget (h : r.Along P) (hgone : P k none) : (r.forget k).Along P := by
  refine ⟨fun j hj => ?_, fun j hj => h.unread j (Finset.mem_of_mem_erase hj)⟩
  by_cases hmem : j ∈ r.pending
  · obtain rfl : j = k := by
      by_contra hjk
      exact hj (Finset.mem_erase.mpr ⟨hjk, hmem⟩)
    show P j (r.entries.lookup j)
    rw [h.unread j hmem]
    exact hgone
  · exact h.done j hmem

theorem Along.mono (h : r.Along P) (hPQ : ∀ k b, P k b → Q k b) : r.Along Q where
  done k hk := hPQ k _ (h.done k hk)
  unread := h.unread

theorem Along.result (h : r.Along P) {t : Table κ β} (ht : r.result = some t) (k : κ) :
    P k (t.lookup k) := by
  unfold MapRead.result at ht
  split_ifs at ht with hpending
  obtain rfl := Option.some.inj ht
  exact h.done k (hpending ▸ Finset.notMem_empty k)

end Rules

/-! ## Entries of some time -/

section During

variable {ε : Type} {look : List ε → κ → Option β} {began now : List ε} {k : κ} {b : Option β}

/-- The entry is that of the map at some time since the pass began. `look` has the entries after the
events, of which there were `began` then and are `now` now. -/
def During (look : List ε → κ → Option β) (began now : List ε) (k : κ) (b : Option β) : Prop :=
  ∃ past, began <+: past ∧ past <+: now ∧ b = look past k

omit [DecidableEq κ] in
theorem during_now (h : began <+: now) : During look began now k (look now k) :=
  ⟨now, h, List.prefix_rfl, rfl⟩

omit [DecidableEq κ] in
theorem During.grow {now' : List ε} (h : During look began now k b) (hgrow : now <+: now') :
    During look began now' k b := by
  obtain ⟨past, hbegan, hnow, hb⟩ := h
  exact ⟨past, hbegan, hnow.trans hgrow, hb⟩

end During

/-! ## Maps at rest -/

theorem pending_visits (f : ν → β) (m : Table κ ν) (ks : List κ) (r : MapRead κ β)
    (h : r.pending ⊆ m.keys) : (r.visits f m ks).pending = r.pending \ ks.toFinset := by
  unfold visits
  induction ks generalizing r with
  | nil => rw [List.foldl_nil, List.toFinset_nil, Finset.sdiff_empty]
  | cons k ks ih =>
    have hpending : (r.visit f m k).pending = r.pending.erase k := by
      unfold visit
      cases hlookup : m.lookup k with
      | some v => rfl
      | none =>
        refine (Finset.erase_eq_of_notMem fun hmem => ?_).symm
        have hsome := Table.mem_keys.mp (h hmem)
        rw [hlookup] at hsome
        exact Bool.noConfusion hsome
    rw [List.foldl_cons, ih _ (hpending ▸ (Finset.erase_subset k _).trans h), hpending]
    ext j
    simp only [Finset.mem_sdiff, Finset.mem_erase, List.mem_toFinset, List.mem_cons]
    tauto

/-- A pass over a map that does not change ends with all of its entries. -/
theorem result_visits (f : ν → β) (m : Table κ ν) {ks : List κ} (h : ∀ k ∈ m, k ∈ ks) :
    ∃ t, ((start m : MapRead κ β).visits f m ks).result = some t ∧
      ∀ k, t.lookup k = (m.lookup k).map f := by
  have halong : ((start m : MapRead κ β).visits f m ks).Along fun k b => b = (m.lookup k).map f := by
    refine List.foldlRecOn ks _ (along_start fun k hk => ?_) fun r hr k _ => hr.visit fun v hv => ?_
    · rw [Finmap.lookup_eq_none.mpr hk]
      rfl
    · rw [hv]
      rfl
  have hpending : ((start m : MapRead κ β).visits f m ks).pending = ∅ := by
    rw [pending_visits f m ks _ (Finset.Subset.refl _)]
    refine Finset.sdiff_eq_empty_iff_subset.mpr fun k hk => ?_
    exact List.mem_toFinset.mpr (h k (Finmap.mem_keys.mp hk))
  have hresult : ((start m : MapRead κ β).visits f m ks).result = some _ := if_pos hpending
  exact ⟨_, hresult, halong.result hresult⟩

end MapRead
