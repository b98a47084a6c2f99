import EbpfXdpProgram.Alert.ProtoManager
import EbpfXdpProgram.Anomaly.Detectors
import EbpfXdpProgram.Rate.Compute

/-!
# The signals of a tick have distinct slots

`collect_active` keeps one signal a slot, the last one inserted. The two detectors give at most one
signal a rate, the rates name distinct protocols and the kinds of the detectors are disjoint, so the
signals of a tick name distinct slots (`nodup_key_detect`) and none overwrites another.
-/

namespace EbpfXdp

open F64

variable {F : Type} [F64 F]

omit [F64 F] in
/-- Where a signal has the protocol of its rate, the signals name protocols of the rates, in their
order. -/
theorem sublist_proto_filterMap {g : ProtoRate F → Option (AlertSignal F)}
    (hg : ∀ rate s, g rate = some s → s.proto = rate.proto) (rates : List (ProtoRate F)) :
    ((rates.filterMap g).map (·.proto)).Sublist (rates.map (·.proto)) := by
  induction rates with
  | nil => exact List.Sublist.slnil
  | cons rate rates ih =>
    rw [List.map_cons]
    cases hs : g rate with
    | none =>
      rw [List.filterMap_cons_none hs]
      exact ih.cons _
    | some s =>
      rw [List.filterMap_cons_some hs, List.map_cons, hg rate s hs]
      exact ih.cons_cons _

omit [F64 F] in
theorem nodup_key_of_nodup_proto {signals : List (AlertSignal F)}
    (h : (signals.map (·.proto)).Nodup) : (signals.map (·.key)).Nodup := by
  apply List.Nodup.of_map AlertKey.proto
  rw [List.map_map]
  exact h

section Signals

variable (snapshot : ProtoIndex → BaselineState F) (d : EmergencyDetector F)
  {rates : List (ProtoRate F)}

theorem nodup_key_detect (h : (rates.map (·.proto)).Nodup) :
    ((EwmaDetector.detect snapshot rates ++ d.detect rates).map (·.key)).Nodup := by
  have hewma : ((EwmaDetector.detect snapshot rates).map (·.key)).Nodup :=
    nodup_key_of_nodup_proto
      ((sublist_proto_filterMap (fun _ _ => EwmaDetector.proto_of_examine) rates).nodup h)
  have hemergency : ((d.detect rates).map (·.key)).Nodup :=
    nodup_key_of_nodup_proto
      ((sublist_proto_filterMap (fun _ _ => EmergencyDetector.proto_of_examine) rates).nodup h)
  rw [List.map_append]
  refine hewma.append hemergency fun key hkey hkey' => ?_
  obtain ⟨s, hs, rfl⟩ := List.mem_map.mp hkey
  obtain ⟨s', hs', hkeys⟩ := List.mem_map.mp hkey'
  obtain ⟨rate, -, hexamine⟩ := List.mem_filterMap.mp hs
  obtain ⟨rate', -, hexamine'⟩ := List.mem_filterMap.mp hs'
  have hkind : s'.kind = s.kind := congrArg AlertKey.kind hkeys
  exact (EwmaDetector.examine_spec hexamine).2.2
    (hkind.symm.trans (EmergencyDetector.kind_of_examine hexamine'))

end Signals

namespace AlertLifecycleManager

variable {m : AlertLifecycleManager F} {signals : List (AlertSignal F)}

theorem lookup_collectActive (h : (signals.map (·.key)).Nodup) {s : AlertSignal F}
    (hs : s ∈ signals) :
    (m.collectActive signals).lookup s.key = some s ↔ ∃ rule ∈ m.rules, rule.accepts s = true := by
  constructor
  · intro hlookup
    exact (collectActive_some hlookup).2.2
  · rintro ⟨rule, hrule, haccepts⟩
    obtain ⟨s', hlookup⟩ := Option.isSome_iff_exists.mp
      (collectActive_isSome.mpr ⟨rule, hrule, s, hs, rfl, haccepts⟩)
    obtain ⟨hs', hkey, -⟩ := collectActive_some hlookup
    rw [hlookup, List.inj_on_of_nodup_map h hs' hs hkey]

/-- **No signal is lost to another of its slot**: the rates of two snapshots name distinct
protocols, the signals that the detectors give for them name distinct slots, and in every order of
the signals `collect_active` keeps each signal, as it is, exactly when it meets the criteria of the
rule of its kind. -/
theorem collectActive_keeps (hd : (m.rules.map (·.kind)).Nodup)
    (prev curr : TrafficCountersSnapshot) (snapshot : ProtoIndex → BaselineState F)
    (d : EmergencyDetector F)
    (hperm : signals.Perm (EwmaDetector.detect snapshot (computeRates prev curr) ++
      d.detect (computeRates prev curr))) :
    ((computeRates prev curr : List (ProtoRate F)).map (·.proto)).Nodup ∧
    (signals.map (·.key)).Nodup ∧
    ∀ s ∈ signals,
      ((m.collectActive signals).lookup s.key = some s ↔
        ∃ rule ∈ m.rules, s.kind = rule.kind ∧ rule.minLevel ≤ s.level ∧
          lt s.confidence rule.minConfidence = false) ∧
      ∀ rule ∈ m.rules, s.kind = rule.kind →
        ((m.collectActive signals).lookup s.key = some s ↔
          rule.minLevel ≤ s.level ∧ lt s.confidence rule.minConfidence = false) := by
  have hrates := nodup_computeRates (F := F) prev curr
  have hkeys : (signals.map (·.key)).Nodup :=
    (hperm.map _).nodup_iff.mpr (nodup_key_detect snapshot d hrates)
  refine ⟨hrates, hkeys, fun s hs => ?_⟩
  have hkept : (m.collectActive signals).lookup s.key = some s ↔
      ∃ rule ∈ m.rules, s.kind = rule.kind ∧ rule.minLevel ≤ s.level ∧
        lt s.confidence rule.minConfidence = false := by
    rw [lookup_collectActive hkeys hs]
    simp only [AlertRule.accepts, Bool.and_eq_true, decide_eq_true_eq, Bool.not_eq_true', and_assoc]
  refine ⟨hkept, fun rule hrule hkind => ?_⟩
  rw [hkept]
  constructor
  · rintro ⟨rule', hrule', hkind', hcriteria⟩
    obtain rfl := List.inj_on_of_nodup_map hd hrule' hrule (hkind'.symm.trans hkind)
    exact hcriteria
  · intro hcriteria
    exact ⟨rule, hrule, hkind, hcriteria⟩

/-- ICMP and TCP at 10 packets a second against limits of 3, ICMP with a ready baseline as well: of
the signals in reverse, the two emergencies and the spike are kept. -/
theorem collectActive_keeps_reverse :
    let prev : TrafficCountersSnapshot := ⟨0, List.replicate 5 ⟨0, 0⟩⟩
    let curr : TrafficCountersSnapshot :=
      ⟨30000000000, [⟨300, 0⟩, ⟨300, 0⟩, ⟨0, 0⟩, ⟨0, 0⟩, ⟨0, 0⟩]⟩
    let snapshot (p : ProtoIndex) : BaselineState ℚ :=
      if p = .icmp then .ready ⟨⟨1, 1⟩, ⟨0, 1⟩⟩ else .warming
    let d : EmergencyDetector ℚ := ⟨[⟨.icmp, some 3, none⟩, ⟨.tcp, some 3, none⟩]⟩
    let signals := (EwmaDetector.detect snapshot (computeRates prev curr) ++
      d.detect (computeRates prev curr)).reverse
    let active := (new defaultAlertRules).collectActive signals
    signals.map (·.key) = [⟨.tcp, .emergency⟩, ⟨.icmp, .emergency⟩, ⟨.icmp, .spike⟩] ∧
      ∀ s ∈ signals, active.lookup s.key = some s := by
  intro prev curr snapshot d signals active
  obtain ⟨-, -, hkeeps⟩ := collectActive_keeps (m := new defaultAlertRules)
    kinds_defaultAlertRules prev curr snapshot d (List.reverse_perm _)
  have hmeets : ∀ s ∈ signals, ∃ rule ∈ (defaultAlertRules : List (AlertRule ℚ)),
      s.kind = rule.kind ∧ rule.minLevel ≤ s.level ∧
        lt s.confidence rule.minConfidence = false := by decide +kernel
  exact ⟨by decide +kernel, fun s hs => (hkeeps s hs).1.mpr (hmeets s hs)⟩

end AlertLifecycleManager

end EbpfXdp
