import EbpfXdpProgram.Rate.PortScan
import Mathlib.Data.List.DropRight

/-!
# Port scans from packets to signals

The kernel keeps the last touch of each source and port, and may evict it; the window speaks of all
touches. With a clock that does not go back the two agree: a touch in the window that was not
evicted is followed by a last one in the window (`mem_freshKeys_runPorts`). So the counts are those
of the packets, less what was evicted (`port_scan_exact`).
-/

namespace EbpfXdp

/-! ## Traces -/

inductive PortEvent
  | touch (srcAddr : UInt32) (dstPort : UInt16) (now : ℕ)
  | evict (key : PortScanKey)
deriving DecidableEq

namespace PortEvent

def clock : PortEvent → Option ℕ
  | touch _ _ now => some now
  | evict _ => none

/-- When the event touched the key. -/
def touched (key : PortScanKey) : PortEvent → Option ℕ
  | touch srcAddr dstPort now => if .new srcAddr dstPort = key then some now else none
  | evict _ => none

def touches (key : PortScanKey) (events : List PortEvent) : List ℕ := events.filterMap (touched key)

/-- The times at which the key was touched since it was last evicted. -/
def unevicted (key : PortScanKey) (events : List PortEvent) : List ℕ :=
  touches key (events.rtakeWhile (· ≠ evict key))

/-- The clock did not go back, and has not passed `now`. -/
structure Clocked (now : ℕ) (events : List PortEvent) : Prop where
  sorted : (events.filterMap clock).Pairwise (· ≤ ·)
  le_now : ∀ t ∈ events.filterMap clock, t ≤ now

/-- The time is in `[now - windowNs, now]`. -/
def InWindow (now windowNs t : ℕ) : Prop := now - windowNs ≤ t ∧ t ≤ now

instance (now windowNs t : ℕ) : Decidable (InWindow now windowNs t) :=
  inferInstanceAs (Decidable (_ ∧ _))

/-- The ports of the source that were touched in the window. -/
def windowPorts (events : List PortEvent) (now windowNs : ℕ) (ip : UInt32) : Finset UInt16 :=
  (events.filterMap fun
    | touch srcAddr dstPort t =>
      if srcAddr = ip ∧ InWindow now windowNs t then some dstPort else none
    | evict _ => none).toFinset

/-- The sources with a touch in the window that was not evicted. -/
def liveSources (events : List PortEvent) (now windowNs : ℕ) : Finset UInt32 :=
  (events.filterMap fun
    | touch srcAddr dstPort _ =>
      if ∃ t ∈ unevicted (.new srcAddr dstPort) events, InWindow now windowNs t then some srcAddr
      else none
    | evict _ => none).toFinset

theorem mem_touches {key : PortScanKey} {events : List PortEvent} {t : ℕ} :
    t ∈ touches key events ↔
      ∃ srcAddr dstPort, key = .new srcAddr dstPort ∧ touch srcAddr dstPort t ∈ events := by
  unfold touches
  rw [List.mem_filterMap]
  constructor
  · rintro ⟨e, he, ht⟩
    cases e with
    | evict k => cases ht
    | touch srcAddr dstPort now =>
      obtain ⟨hkey, ht⟩ := Option.ite_none_right_eq_some.mp ht
      obtain rfl := Option.some.inj ht
      exact ⟨srcAddr, dstPort, hkey.symm, he⟩
  · rintro ⟨srcAddr, dstPort, rfl, he⟩
    exact ⟨_, he, if_pos rfl⟩

theorem unevicted_sublist (key : PortScanKey) (events : List PortEvent) :
    (unevicted key events).Sublist (touches key events) :=
  (List.rtakeWhile_suffix _ events).sublist.filterMap _

theorem unevicted_eq_touches {key : PortScanKey} {events : List PortEvent}
    (h : evict key ∉ events) : unevicted key events = touches key events := by
  unfold unevicted
  rw [List.rtakeWhile_eq_self_iff.mpr]
  intro e he
  exact decide_eq_true fun heq => h (heq ▸ he)

theorem touches_sublist_clock (key : PortScanKey) (events : List PortEvent) :
    (touches key events).Sublist (events.filterMap clock) := by
  unfold touches
  induction events with
  | nil => exact .slnil
  | cons e events ih =>
    cases e with
    | evict k => exact ih
    | touch srcAddr dstPort now =>
      rw [List.filterMap_cons_some (f := clock) rfl]
      by_cases hkey : .new srcAddr dstPort = key
      · have hsome : touched key (touch srcAddr dstPort now) = some now := if_pos hkey
        rw [List.filterMap_cons_some hsome]
        exact ih.cons_cons now
      · have hnone : touched key (touch srcAddr dstPort now) = none := if_neg hkey
        rw [List.filterMap_cons_none hnone]
        exact ih.cons now

section Concat

variable (key : PortScanKey) (past : List PortEvent)

theorem unevicted_touch_self {srcAddr : UInt32} {dstPort : UInt16} (now : ℕ) :
    unevicted (.new srcAddr dstPort) (past ++ [touch srcAddr dstPort now]) =
      unevicted (.new srcAddr dstPort) past ++ [now] := by
  unfold unevicted touches
  rw [List.rtakeWhile_concat_pos _ past _ (by simp), List.filterMap_append]
  simp [touched]

theorem unevicted_touch_of_ne {srcAddr : UInt32} {dstPort : UInt16}
    (h : .new srcAddr dstPort ≠ key) (now : ℕ) :
    unevicted key (past ++ [touch srcAddr dstPort now]) = unevicted key past := by
  unfold unevicted touches
  rw [List.rtakeWhile_concat_pos _ past _ (by simp), List.filterMap_append]
  simp [touched, h]

theorem unevicted_evict_self : unevicted key (past ++ [evict key]) = [] := by
  unfold unevicted touches
  rw [List.rtakeWhile_concat_neg _ past _ (by simp)]
  rfl

theorem unevicted_evict_of_ne {key' : PortScanKey} (h : key' ≠ key) :
    unevicted key (past ++ [evict key']) = unevicted key past := by
  unfold unevicted touches
  rw [List.rtakeWhile_concat_pos _ past _ (by simpa using h), List.filterMap_append]
  simp [touched]

end Concat

end PortEvent

/-! ## The tracker after a trace -/

namespace KernelState

variable {n : ℕ}

def applyPort (s : KernelState n) : PortEvent → KernelState n
  | .touch srcAddr dstPort now => s.recordPortTouch (.new srcAddr dstPort) now
  | .evict key => { s with portScanTracker := s.portScanTracker.erase key }

def runPorts (s : KernelState n) (events : List PortEvent) : KernelState n :=
  events.foldl applyPort s

/-- The tracker has the last touch of each key that was not evicted since. -/
theorem lookup_runPorts (events : List PortEvent) (key : PortScanKey) :
    ((new : KernelState n).runPorts events).portScanTracker.lookup key =
      (PortEvent.unevicted key events).getLast?.map .mk := by
  induction events using List.reverseRecOn with
  | nil => rfl
  | append_singleton past e ih =>
    unfold runPorts at ih ⊢
    rw [List.foldl_concat]
    cases e with
    | touch srcAddr dstPort now =>
      refine (lookup_recordPortTouch _ _ now key).trans ?_
      split_ifs with hkey
      · rw [hkey, PortEvent.unevicted_touch_self, List.getLast?_concat]
        rfl
      · rw [PortEvent.unevicted_touch_of_ne key past (Ne.symm hkey), ih]
    | evict key' =>
      by_cases hkey : key' = key
      · subst hkey
        rw [PortEvent.unevicted_evict_self]
        exact Finmap.lookup_erase ..
      · rw [PortEvent.unevicted_evict_of_ne key past hkey, ← ih]
        exact Finmap.lookup_erase_ne (Ne.symm hkey)

end KernelState

/-! ## Counts -/

section Counts

open PortEvent

variable {n : ℕ} {events : List PortEvent} {now windowNs : ℕ}

def snapshotAfter (n : ℕ) (o : IterOrder PortScanKey) (events : List PortEvent) (now : ℕ) :
    PortScanCountersSnapshot :=
  readPortScanSnapshot o ((KernelState.new : KernelState n).runPorts events).portScanTracker now

theorem lookup_snapshotAfter (o : IterOrder PortScanKey) (key : PortScanKey) :
    (snapshotAfter n o events now).touches.lookup key =
      (unevicted key events).getLast?.map .mk := by
  unfold snapshotAfter
  rw [touches_readPortScanSnapshot, KernelState.lookup_runPorts]

/-- The last touch of a key is in the window if any touch since the eviction is. -/
theorem mem_freshKeys_snapshotAfter (h : Clocked now events) (o : IterOrder PortScanKey)
    {key : PortScanKey} :
    key ∈ freshKeys (snapshotAfter n o events now) windowNs ↔
      ∃ t ∈ unevicted key events, InWindow now windowNs t := by
  have hsublist := (unevicted_sublist key events).trans (touches_sublist_clock key events)
  have hsorted := h.sorted.sublist hsublist
  have hnow : ∀ t ∈ unevicted key events, t ≤ now := fun t ht => h.le_now t (hsublist.subset ht)
  rw [mem_freshKeys, lookup_snapshotAfter]
  show (∃ touch : PortTouch, _ ∧ now - touch.lastSeenNs ≤ windowNs) ↔ _
  constructor
  · rintro ⟨touch, hlast, hfresh⟩
    obtain ⟨t, ht, rfl⟩ := Option.map_eq_some_iff.mp hlast
    have hmem := List.mem_of_getLast? ht
    have hle := hnow t hmem
    dsimp only at hfresh
    exact ⟨t, hmem, by omega, hle⟩
  · rintro ⟨t, ht, hin, -⟩
    obtain ⟨last, hlast⟩ : ∃ last, (unevicted key events).getLast? = some last :=
      Option.ne_none_iff_exists'.mp fun hnone => by
        rw [List.getLast?_eq_none_iff.mp hnone] at ht
        exact absurd ht List.not_mem_nil
    have hle : t ≤ last := by
      obtain ⟨before, hbefore⟩ := List.getLast?_eq_some_iff.mp hlast
      rw [hbefore] at ht hsorted
      rcases List.mem_append.mp ht with ht | ht
      · exact (List.pairwise_append.mp hsorted).2.2 t ht last (List.mem_singleton_self _)
      · exact (List.mem_singleton.mp ht).le
    refine ⟨⟨last⟩, by rw [hlast]; rfl, ?_⟩
    dsimp only
    omega

theorem mem_windowPorts {ip : UInt32} {port : UInt16} :
    port ∈ windowPorts events now windowNs ip ↔
      ∃ t ∈ touches (.new ip port) events, InWindow now windowNs t := by
  unfold windowPorts
  rw [List.mem_toFinset, List.mem_filterMap]
  constructor
  · rintro ⟨e, he, hport⟩
    cases e with
    | evict k => cases hport
    | touch srcAddr dstPort t =>
      obtain ⟨⟨rfl, hin⟩, hsome⟩ := Option.ite_none_right_eq_some.mp hport
      obtain rfl := Option.some.inj hsome
      exact ⟨t, mem_touches.mpr ⟨_, _, rfl, he⟩, hin⟩
  · rintro ⟨t, ht, hin⟩
    obtain ⟨srcAddr, dstPort, hkey, he⟩ := mem_touches.mp ht
    obtain ⟨rfl, rfl, -⟩ := PortScanKey.mk.inj hkey
    exact ⟨_, he, if_pos ⟨rfl, hin⟩⟩

theorem mem_liveSources {ip : UInt32} :
    ip ∈ liveSources events now windowNs ↔
      ∃ port, ∃ t ∈ unevicted (.new ip port) events, InWindow now windowNs t := by
  unfold liveSources
  rw [List.mem_toFinset, List.mem_filterMap]
  constructor
  · rintro ⟨e, -, hip⟩
    cases e with
    | evict k => cases hip
    | touch srcAddr dstPort t =>
      obtain ⟨hlive, hip⟩ := Option.ite_none_right_eq_some.mp hip
      obtain rfl := Option.some.inj hip
      exact ⟨dstPort, hlive⟩
  · rintro ⟨port, t, ht, hin⟩
    obtain ⟨srcAddr, dstPort, hkey, he⟩ :=
      mem_touches.mp ((unevicted_sublist _ events).subset ht)
    obtain ⟨rfl, rfl, -⟩ := PortScanKey.mk.inj hkey
    exact ⟨_, he, if_pos ⟨t, ht, hin⟩⟩

theorem eq_new_of_mem_unevicted {key : PortScanKey} {t : ℕ} (h : t ∈ unevicted key events) :
    key = .new key.srcAddr key.dstPort := by
  obtain ⟨srcAddr, dstPort, rfl, -⟩ := mem_touches.mp ((unevicted_sublist key events).subset h)
  rfl

theorem mem_freshPorts_snapshotAfter (h : Clocked now events) (o : IterOrder PortScanKey)
    {ip : UInt32} {port : UInt16} :
    port ∈ freshPorts (snapshotAfter n o events now) windowNs ip ↔
      ∃ t ∈ unevicted (.new ip port) events, InWindow now windowNs t := by
  simp only [freshPorts, Finset.mem_image, Finset.mem_filter, mem_freshKeys_snapshotAfter h]
  constructor
  · rintro ⟨key, ⟨⟨t, ht, hin⟩, rfl⟩, rfl⟩
    rw [← eq_new_of_mem_unevicted ht]
    exact ⟨t, ht, hin⟩
  · rintro ⟨t, ht, hin⟩
    exact ⟨_, ⟨⟨t, ht, hin⟩, rfl⟩, rfl⟩

theorem freshSources_snapshotAfter (h : Clocked now events) (o : IterOrder PortScanKey) :
    freshSources (snapshotAfter n o events now) windowNs = liveSources events now windowNs := by
  ext ip
  simp only [freshSources, Finset.mem_image, mem_freshKeys_snapshotAfter h, mem_liveSources]
  constructor
  · rintro ⟨key, ⟨t, ht, hin⟩, rfl⟩
    refine ⟨key.dstPort, ?_⟩
    rw [← eq_new_of_mem_unevicted ht]
    exact ⟨t, ht, hin⟩
  · rintro ⟨port, t, ht, hin⟩
    exact ⟨_, ⟨t, ht, hin⟩, rfl⟩

/-- What is fresh was touched in the window. -/
theorem freshPorts_subset (h : Clocked now events) (o : IterOrder PortScanKey) (ip : UInt32) :
    freshPorts (snapshotAfter n o events now) windowNs ip ⊆ windowPorts events now windowNs ip := by
  intro port hport
  obtain ⟨t, ht, hin⟩ := (mem_freshPorts_snapshotAfter h o).mp hport
  exact mem_windowPorts.mpr ⟨t, (unevicted_sublist _ events).subset ht, hin⟩

/-- Without evictions, what was touched in the window is fresh. -/
theorem windowPorts_subset (h : Clocked now events) (o : IterOrder PortScanKey) {ip : UInt32}
    (hevict : ∀ port, evict (.new ip port) ∉ events) :
    windowPorts events now windowNs ip ⊆ freshPorts (snapshotAfter n o events now) windowNs ip := by
  intro port hport
  obtain ⟨t, ht, hin⟩ := mem_windowPorts.mp hport
  rw [← unevicted_eq_touches (hevict port)] at ht
  exact (mem_freshPorts_snapshotAfter h o).mpr ⟨t, ht, hin⟩

end Counts

/-- How many ports of the source `compute_port_scan_breadth` counts. -/
def portCount (o : IterOrder PortScanKey) (snapshot : PortScanCountersSnapshot) (windowNs : ℕ)
    (ip : UInt32) : ℕ :=
  (((portsByIp o snapshot windowNs).lookup ip).getD ∅).card

/-- After a trace with a clock that does not go back: the counts are the distinct ports touched in
the window, but for evictions; the result is the widest sources with an unevicted touch in the
window; the signals are sources whose count exceeds the limit, all of them if they fit. -/
theorem port_scan_exact {F : Type} [F64 F] (n : ℕ) (events : List PortEvent) (now : ℕ)
    (h : PortEvent.Clocked now events) (windowNs topN : ℕ) (d : PortScanDetector)
    (oRead o : IterOrder PortScanKey) (o' : IterOrder UInt32) :
    let snapshot := snapshotAfter n oRead events now
    let count := portCount o snapshot windowNs
    let breadths := computePortScanBreadth o o' snapshot windowNs topN
    (∀ ip, count ip ≤ (PortEvent.windowPorts events now windowNs ip).card) ∧
    (∀ ip, (∀ port, PortEvent.evict (.new ip port) ∉ events) →
      count ip = (PortEvent.windowPorts events now windowNs ip).card) ∧
    Widest count (PortEvent.liveSources events now windowNs) topN breadths ∧
    Signals (F := F) count d.maxDistinctPorts.toNat topN (d.detect breadths) := by
  intro snapshot count breadths
  have hcount : count = distinctPorts snapshot windowNs := by
    funext ip
    exact congrArg Finset.card (getD_portsByIp o ip)
  rw [hcount, ← freshSources_snapshotAfter h oRead]
  refine ⟨fun ip => ?_, fun ip hevict => ?_, ?_, ?_⟩
  · exact Finset.card_le_card (freshPorts_subset h oRead ip)
  · exact congrArg Finset.card
      ((freshPorts_subset h oRead ip).antisymm (windowPorts_subset h oRead hevict))
  · exact widest_computePortScanBreadth o o'
  · exact signals_detect o o' d

/-- The order of increasing source, port and padding. -/
def touchOrder : IterOrder PortScanKey :=
  .byRank (fun key => Nat.pair key.srcAddr.toNat (Nat.pair key.dstPort.toNat key.pad.toNat))
    fun ⟨_, _, _⟩ ⟨_, _, _⟩ h => by
      obtain ⟨hsrc, h⟩ := Nat.pair_eq_pair.mp h
      obtain ⟨hport, hpad⟩ := Nat.pair_eq_pair.mp h
      rw [PortScanKey.mk.injEq]
      exact ⟨UInt32.toNat.inj hsrc, UInt16.toNat.inj hport, UInt16.toNat.inj hpad⟩

/-- Of the two ports of source 7, one was evicted. -/
theorem port_scan_exact_evicted :
    portCount touchOrder (snapshotAfter 1 touchOrder
      [.touch 7 80 1, .touch 7 443 5, .evict (.new 7 80), .touch 9 22 6] 10) 100 7 ≤ 2 ∧
    (computePortScanBreadth touchOrder (.byRank UInt32.toNat fun _ _ => UInt32.toNat.inj)
      (snapshotAfter 1 touchOrder
        [.touch 7 80 1, .touch 7 443 5, .evict (.new 7 80), .touch 9 22 6] 10) 100 10).length =
      2 := by
  obtain ⟨hle, -, hwidest, -⟩ := port_scan_exact (F := ℚ) 1
    [.touch 7 80 1, .touch 7 443 5, .evict (.new 7 80), .touch 9 22 6] 10
    ⟨by decide, by decide⟩ 100 10 ⟨20, 10, 100⟩ touchOrder touchOrder
    (.byRank UInt32.toNat fun _ _ => UInt32.toNat.inj)
  exact ⟨(hle 7).trans (by decide +kernel), hwidest.length_eq.trans (by decide +kernel)⟩

end EbpfXdp
