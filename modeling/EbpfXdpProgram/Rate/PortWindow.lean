import EbpfXdpProgram.Config
import EbpfXdpProgram.Rate.PortScan

/-!
# The configured port-scan window

`build_port_scan` turns the seconds of the window into nanoseconds in 128 bits and keeps the low 64.
Up to `maxWindowSecs` these are the configured window; past it they are a shorter one, and
`compute_port_scan_breadth` leaves out the touches in between (`window_applied_iff`).
-/

namespace EbpfXdp

/-- The most seconds whose nanoseconds fit in 64 bits. -/
def maxWindowSecs : ℕ := 18446744073

theorem le_maxWindowSecs {secs : ℕ} : secs ≤ maxWindowSecs ↔ secs * 1000000000 < 2 ^ 64 := by
  unfold maxWindowSecs
  omega

/-- The nanoseconds since the touch, none if it is later than the snapshot. -/
def PortScanCountersSnapshot.age (snapshot : PortScanCountersSnapshot) (touch : PortTouch) : ℕ :=
  snapshot.nowNs - touch.lastSeenNs

/-- With `windowNs`, `compute_port_scan_breadth` counts the touches of the last `secs` seconds: they
pass its test, and the ports that it collects for a source are theirs. -/
structure AppliesWindow (snapshot : PortScanCountersSnapshot) (windowNs secs : ℕ) : Prop where
  counted : ∀ key touch, snapshot.touches.lookup key = some touch →
    (key ∈ freshKeys snapshot windowNs ↔ snapshot.age touch ≤ secs * 1000000000)
  ports : ∀ o ip port, port ∈ ((portsByIp o snapshot windowNs).lookup ip).getD ∅ ↔
    ∃ key touch, snapshot.touches.lookup key = some touch ∧
      snapshot.age touch ≤ secs * 1000000000 ∧ key.srcAddr = ip ∧ key.dstPort = port

def portsCounted (o : IterOrder PortScanKey) (snapshot : PortScanCountersSnapshot) (windowNs : ℕ)
    (ip : UInt32) : ℕ :=
  (((portsByIp o snapshot windowNs).lookup ip).getD ∅).card

section Window

variable {snapshot : PortScanCountersSnapshot} {windowNs windowNs' secs : ℕ}

theorem mem_freshKeys_of_lookup {key : PortScanKey} {touch : PortTouch}
    (h : snapshot.touches.lookup key = some touch) :
    key ∈ freshKeys snapshot windowNs ↔ snapshot.age touch ≤ windowNs := by
  rw [mem_freshKeys, h]
  simp [PortScanCountersSnapshot.age]

theorem mem_portsByIp {o : IterOrder PortScanKey} {ip : UInt32} {port : UInt16} :
    port ∈ ((portsByIp o snapshot windowNs).lookup ip).getD ∅ ↔
      ∃ key touch, snapshot.touches.lookup key = some touch ∧ snapshot.age touch ≤ windowNs ∧
        key.srcAddr = ip ∧ key.dstPort = port := by
  rw [getD_portsByIp]
  simp only [freshPorts, Finset.mem_image, Finset.mem_filter, mem_freshKeys]
  constructor
  · rintro ⟨key, ⟨⟨touch, hlookup, hage⟩, hip⟩, hport⟩
    exact ⟨key, touch, hlookup, hage, hip, hport⟩
  · rintro ⟨key, touch, hlookup, hage, hip, hport⟩
    exact ⟨key, ⟨⟨touch, hlookup, hage⟩, hip⟩, hport⟩

/-- Two windows that part no touch of the snapshot are the same to the loop. -/
theorem appliesWindow_iff : AppliesWindow snapshot windowNs secs ↔
    ∀ key touch, snapshot.touches.lookup key = some touch →
      (snapshot.age touch ≤ windowNs ↔ snapshot.age touch ≤ secs * 1000000000) := by
  constructor
  · intro h key touch hlookup
    rw [← mem_freshKeys_of_lookup hlookup]
    exact h.counted key touch hlookup
  · intro h
    refine ⟨fun key touch hlookup => ?_, fun o ip port => ?_⟩
    · rw [mem_freshKeys_of_lookup hlookup]
      exact h key touch hlookup
    · rw [mem_portsByIp]
      refine exists₂_congr fun key touch => and_congr_right fun hlookup => ?_
      rw [h key touch hlookup]

theorem portsCounted_mono (o : IterOrder PortScanKey) (h : windowNs ≤ windowNs') (ip : UInt32) :
    portsCounted o snapshot windowNs ip ≤ portsCounted o snapshot windowNs' ip := by
  refine Finset.card_le_card fun port hport => ?_
  rw [mem_portsByIp] at *
  obtain ⟨key, touch, hlookup, hage, hport⟩ := hport
  exact ⟨key, touch, hlookup, hage.trans h, hport⟩

end Window

def touchedSince (ageNs : ℕ) : PortScanCountersSnapshot where
  nowNs := ageNs
  touches := (∅ : Table PortScanKey PortTouch).insert ⟨0, 0, 0⟩ ⟨0⟩

theorem age_touchedSince {ageNs : ℕ} {key : PortScanKey} {touch : PortTouch}
    (h : (touchedSince ageNs).touches.lookup key = some touch) :
    (touchedSince ageNs).age touch = ageNs := by
  by_cases hkey : key = ⟨0, 0, 0⟩
  · subst hkey
    obtain rfl := Option.some.inj ((Finmap.lookup_insert _).symm.trans h)
    rfl
  · have hnone : (touchedSince ageNs).touches.lookup key = none :=
      (Finmap.lookup_insert_of_ne _ hkey).trans (Finmap.lookup_empty _)
    rw [hnone] at h
    exact absurd h (Option.some_ne_none touch).symm

theorem appliesWindow_touchedSince {ageNs windowNs secs : ℕ}
    (h : AppliesWindow (touchedSince ageNs) windowNs secs) :
    ageNs ≤ windowNs ↔ ageNs ≤ secs * 1000000000 :=
  appliesWindow_iff.mp h ⟨0, 0, 0⟩ ⟨0⟩ (Finmap.lookup_insert _)

variable {F : Type}

theorem windowNs_buildPortScan (cfg : Option PortScanConfig) :
    (buildPortScan (F := F) cfg).1.windowNs =
      (buildPortScan (F := F) cfg).2.2.windowSecs * 1000000000 % 2 ^ 64 := rfl

variable (F)

/-- **The configured window is the window applied, up to `maxWindowSecs`**: a snapshot is read with
the configured window exactly when none of its touches falls between the window that is left of it
in 64 bits and the configured one. This holds of all snapshots, and all shorter windows then count
no more ports, exactly when the window is at most `maxWindowSecs`. -/
theorem window_applied_iff (cfg : Option PortScanConfig) :
    let windowNs := (buildPortScan (F := F) cfg).1.windowNs
    let secs := (buildPortScan (F := F) cfg).2.2.windowSecs
    (∀ snapshot, AppliesWindow snapshot windowNs secs ↔
      ∀ key touch, snapshot.touches.lookup key = some touch →
        ¬ (secs * 1000000000 % 2 ^ 64 < snapshot.age touch ∧
          snapshot.age touch ≤ secs * 1000000000)) ∧
    (((∀ snapshot : PortScanCountersSnapshot, snapshot.nowNs < 2 ^ 64 →
        AppliesWindow snapshot windowNs secs) ∧
      ∀ cfg', (buildPortScan (F := F) cfg').2.2.windowSecs ≤ secs →
        ∀ o snapshot ip, portsCounted o snapshot (buildPortScan (F := F) cfg').1.windowNs ip ≤
          portsCounted o snapshot windowNs ip) ↔
      secs ≤ maxWindowSecs) := by
  intro windowNs secs
  have hwindow : windowNs = secs * 1000000000 % 2 ^ 64 := windowNs_buildPortScan cfg
  have hshorter : windowNs ≤ secs * 1000000000 := hwindow ▸ Nat.mod_le _ _
  refine ⟨fun snapshot => ?_, ?_, fun hsecs => ⟨fun snapshot _ => ?_, ?_⟩⟩
  · rw [appliesWindow_iff, hwindow]
    refine forall₃_congr fun key touch _ => ?_
    omega
  · -- the touch just past what is left of the window
    rintro ⟨happlies, -⟩
    rw [le_maxWindowSecs]
    by_contra hlong
    have hrange : windowNs + 1 < 2 ^ 64 := by omega
    have htouch := appliesWindow_touchedSince (happlies (touchedSince (windowNs + 1)) hrange)
    omega
  · have hwhole : windowNs = secs * 1000000000 :=
      hwindow.trans (Nat.mod_eq_of_lt (le_maxWindowSecs.mp hsecs))
    rw [appliesWindow_iff, hwhole]
    exact fun _ _ _ => Iff.rfl
  · intro cfg' hle o snapshot ip
    apply portsCounted_mono
    rw [hwindow, Nat.mod_eq_of_lt (le_maxWindowSecs.mp hsecs), windowNs_buildPortScan]
    exact (Nat.mod_le _ _).trans (Nat.mul_le_mul_right _ hle)

/-- The default window of 30 seconds applies to a touch of 29 seconds ago. -/
theorem window_applied_default :
    AppliesWindow (touchedSince 29000000000) (defaultPortScanDetector ℚ).windowNs 30 :=
  ((window_applied_iff ℚ none).2.mpr (by decide)).1 _ (by decide)

/-- With 18446744074 seconds, a touch of one second ago is not counted; with 30 it is. -/
theorem window_cut :
    let cfg : PortScanConfig := ⟨none, some 18446744074, none, none, none, none⟩
    let windowNs := (buildPortScan (F := ℚ) (some cfg)).1.windowNs
    ¬ AppliesWindow (touchedSince 1000000000) windowNs 18446744074 ∧
      ∀ o, portsCounted o (touchedSince 1000000000) windowNs 0 <
        portsCounted o (touchedSince 1000000000) (defaultPortScanDetector ℚ).windowNs 0 := by
  intro cfg windowNs
  have hwindow : windowNs = 18446744074 * 1000000000 % 2 ^ 64 :=
    windowNs_buildPortScan (F := ℚ) (some cfg)
  refine ⟨fun h => ?_, fun o => ?_⟩
  · have htouch := appliesWindow_touchedSince h
    omega
  · have hnone : portsCounted o (touchedSince 1000000000) windowNs 0 = 0 := by
      rw [portsCounted, Finset.card_eq_zero, Finset.eq_empty_iff_forall_notMem]
      intro port hport
      obtain ⟨key, touch, hlookup, hage, -⟩ := mem_portsByIp.mp hport
      rw [age_touchedSince hlookup] at hage
      omega
    rw [hnone, portsCounted, Finset.card_pos]
    exact ⟨0, mem_portsByIp.mpr ⟨⟨0, 0, 0⟩, ⟨0⟩, Finmap.lookup_insert _, by decide, rfl, rfl⟩⟩

end EbpfXdp
