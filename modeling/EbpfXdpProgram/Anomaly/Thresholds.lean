import EbpfXdpProgram.Config.Reload

/-!
# Emergency thresholds

Which rates the emergency detector reports, in terms of the entries of the file that
`build_emergency_detector` accepted. Several entries may name one protocol, and `detect` looks at
the first of them: `alarms_build` says what it reports, `detect_honours_iff` when that is every rate
that exceeds an entry.
-/

namespace EbpfXdp

open F64

variable {F : Type} [F64 F]

def ProtoRate.exceeds (rate : ProtoRate F) (maxPps maxBps : Option F) : Bool :=
  (maxPps.any fun l => lt l rate.pps) || maxBps.any fun l => lt l rate.bps

def EmergencyThresholdConfig.isFor (debug : String → String) (t : EmergencyThresholdConfig F)
    (p : ProtoIndex) : Bool :=
  (parseProtoIndex debug t.proto).toOption = some p

namespace EmergencyDetector

/-- `detect` gives an emergency for the rate. -/
def Alarms (d : EmergencyDetector F) (rate : ProtoRate F) : Prop :=
  ∃ s ∈ d.detect [rate], s.proto = rate.proto ∧ s.kind = .emergency ∧ s.level = .severe

theorem detect_flatMap (d : EmergencyDetector F) (rates : List (ProtoRate F)) :
    d.detect rates = rates.flatMap fun rate => d.detect [rate] := by
  induction rates with
  | nil => rfl
  | cons rate rates ih =>
    rw [List.flatMap_cons, ← ih]
    exact List.filterMap_append (l := [rate])

theorem alarms_iff_examine {d : EmergencyDetector F} {rate : ProtoRate F} :
    d.Alarms rate ↔ (d.examine rate).isSome = true := by
  unfold Alarms detect
  cases hexamine : d.examine rate with
  | none =>
    rw [List.filterMap_cons_none hexamine]
    exact iff_of_false (fun ⟨s, hs, _⟩ => absurd hs List.not_mem_nil) Bool.false_ne_true
  | some s =>
    obtain ⟨hproto, hlevel, hkind⟩ := examine_spec hexamine
    rw [List.filterMap_cons_some hexamine]
    exact iff_of_true ⟨s, List.mem_cons_self, hproto, hkind, hlevel⟩ rfl

theorem alarms_iff {d : EmergencyDetector F} {rate : ProtoRate F} :
    d.Alarms rate ↔ ∃ t, d.thresholds.find? (·.proto = rate.proto) = some t ∧
      rate.exceeds t.maxPps t.maxBps = true := by
  rw [alarms_iff_examine]
  unfold examine
  cases hfind : d.thresholds.find? fun t => t.proto = rate.proto with
  | none => simp
  | some t =>
    simp only [Option.some.injEq, exists_eq_left']
    split_ifs with hexceeds
    · exact iff_of_true rfl hexceeds
    · exact iff_of_false Bool.false_ne_true hexceeds

end EmergencyDetector

section Build

variable (debug : String → String)

omit [F64 F] in
theorem thresholds_build {configs : List (EmergencyThresholdConfig F)} {d : EmergencyDetector F}
    {resolved : List (ResolvedEmergencyThresholdConfig F)}
    (h : buildEmergencyDetector debug configs = .ok (d, resolved)) :
    List.Forall₂ (fun c t => parseProtoIndex debug c.proto = .ok t.proto ∧ t.maxPps = c.maxPps ∧
      t.maxBps = c.maxBps) configs d.thresholds := by
  unfold buildEmergencyDetector at h
  obtain ⟨ts, hts, hbuilt⟩ := bind_ok h
  obtain ⟨rfl, -⟩ := Prod.mk.inj (Except.ok.inj hbuilt)
  refine (mapM_zipIdx_ok hts).imp fun c t hstep => ?_
  obtain ⟨i, hstep⟩ := hstep
  obtain ⟨p, hp, hstep⟩ := bind_ok hstep
  obtain rfl := Except.ok.inj hstep
  cases hparse : parseProtoIndex debug c.proto with
  | error e =>
    rw [hparse] at hp
    cases hp
  | ok q =>
    rw [hparse] at hp
    exact ⟨hp, rfl, rfl⟩

theorem alarms_build {configs : List (EmergencyThresholdConfig F)} {d : EmergencyDetector F}
    {resolved : List (ResolvedEmergencyThresholdConfig F)}
    (h : buildEmergencyDetector debug configs = .ok (d, resolved)) (rate : ProtoRate F) :
    d.Alarms rate ↔ ∃ t, configs.find? (·.isFor debug rate.proto) = some t ∧
      rate.exceeds t.maxPps t.maxBps = true := by
  rw [EmergencyDetector.alarms_iff]
  have hts := thresholds_build debug h
  clear h
  generalize d.thresholds = ts at hts
  induction hts with
  | nil => simp
  | @cons c t configs ts hct _ ih =>
    obtain ⟨hparse, hpps, hbps⟩ := hct
    have hfor : c.isFor debug rate.proto = decide (t.proto = rate.proto) := by
      unfold EmergencyThresholdConfig.isFor
      rw [hparse]
      simp [Except.toOption]
    by_cases hproto : t.proto = rate.proto
    · rw [List.find?_cons_of_pos (by simpa using hproto),
        List.find?_cons_of_pos (by simpa [hfor] using hproto)]
      simp [hpps, hbps]
    · rw [List.find?_cons_of_neg (by simpa using hproto),
        List.find?_cons_of_neg (by simpa [hfor] using hproto)]
      exact ih

/-- **Emergency detection honours the entries that are not behind another of their protocol**: a
rate is reported exactly when it exceeds some entry for its protocol, for every rate of the list,
just in case every rate that exceeds an entry exceeds the first entry of its protocol. -/
theorem detect_honours_iff {configs : List (EmergencyThresholdConfig F)} {d : EmergencyDetector F}
    {resolved : List (ResolvedEmergencyThresholdConfig F)}
    (h : buildEmergencyDetector debug configs = .ok (d, resolved)) (rates : List (ProtoRate F)) :
    d.detect rates = (rates.flatMap fun rate => d.detect [rate]) ∧
    ((∀ rate ∈ rates, d.Alarms rate ↔ ∃ t ∈ configs, t.isFor debug rate.proto = true ∧
        rate.exceeds t.maxPps t.maxBps = true) ↔
      ∀ rate ∈ rates, ∀ first, configs.find? (·.isFor debug rate.proto) = some first →
        ∀ t ∈ configs, t.isFor debug rate.proto = true → rate.exceeds t.maxPps t.maxBps = true →
          rate.exceeds first.maxPps first.maxBps = true) := by
  refine ⟨d.detect_flatMap rates, forall₂_congr fun rate _ => ?_⟩
  rw [alarms_build debug h]
  constructor
  · intro hiff first hfirst t ht hfor hexceeds
    obtain ⟨t', ht', hexceeds'⟩ := hiff.mpr ⟨t, ht, hfor, hexceeds⟩
    obtain rfl := Option.some.inj (hfirst.symm.trans ht')
    exact hexceeds'
  · intro hfirst
    constructor
    · rintro ⟨t, ht, hexceeds⟩
      have hfor : t.isFor debug rate.proto = true :=
        List.find?_some (p := fun t : EmergencyThresholdConfig F => t.isFor debug rate.proto) ht
      exact ⟨t, List.mem_of_find?_eq_some ht, hfor, hexceeds⟩
    · rintro ⟨t, ht, hfor, hexceeds⟩
      have hsome : (configs.find? (·.isFor debug rate.proto)).isSome = true :=
        List.find?_isSome.mpr ⟨t, ht, hfor⟩
      obtain ⟨first, hfind⟩ := Option.isSome_iff_exists.mp hsome
      exact ⟨first, hfind, hfirst first hfind t ht hfor hexceeds⟩

end Build

/-- Two entries for TCP, the stricter one behind. -/
def shadowedThresholds : List (EmergencyThresholdConfig ℚ) :=
  [⟨"tcp", some 1000, none⟩, ⟨"tcp", some 10, none⟩]

theorem parseProtoIndex_tcp (debug : String → String) : parseProtoIndex debug "tcp" = .ok .tcp := by
  unfold parseProtoIndex
  rw [show "tcp".toLower = "tcp" by decide +kernel]
  rfl

theorem build_shadowedThresholds (debug : String → String) : ∃ resolved,
    buildEmergencyDetector debug shadowedThresholds =
      .ok (⟨[⟨.tcp, some 1000, none⟩, ⟨.tcp, some 10, none⟩]⟩, resolved) := by
  refine ⟨resolveEmergencyThresholds [⟨.tcp, some 1000, none⟩, ⟨.tcp, some 10, none⟩], ?_⟩
  unfold buildEmergencyDetector shadowedThresholds
  simp only [List.zipIdx_cons, List.zipIdx_nil, List.mapM_cons, List.mapM_nil, parseProtoIndex_tcp]
  rfl

/-- At 1500 packets a second both entries are exceeded. -/
theorem detect_honours_shadowed : ∃ d resolved,
    buildEmergencyDetector String.quote shadowedThresholds = .ok (d, resolved) ∧
      ∀ rate ∈ [(⟨.tcp, 1500, 0⟩ : ProtoRate ℚ)], d.Alarms rate ↔
        ∃ t ∈ shadowedThresholds, t.isFor String.quote rate.proto = true ∧
          rate.exceeds t.maxPps t.maxBps = true := by
  obtain ⟨resolved, hbuild⟩ := build_shadowedThresholds String.quote
  refine ⟨_, resolved, hbuild, (detect_honours_iff String.quote hbuild _).2.mpr ?_⟩
  intro rate hrate first hfirst t _ _ _
  obtain rfl := List.mem_singleton.mp hrate
  have hmem := List.mem_of_find?_eq_some hfirst
  rw [shadowedThresholds, List.mem_pair] at hmem
  rcases hmem with rfl | rfl
  · decide +kernel
  · decide +kernel

/-- At 500 packets a second the second entry is exceeded, and there is no signal. -/
theorem detect_shadowed : ∃ d resolved,
    buildEmergencyDetector String.quote shadowedThresholds = .ok (d, resolved) ∧
      ¬ ∀ rate ∈ [(⟨.tcp, 500, 0⟩ : ProtoRate ℚ)], d.Alarms rate ↔
        ∃ t ∈ shadowedThresholds, t.isFor String.quote rate.proto = true ∧
          rate.exceeds t.maxPps t.maxBps = true := by
  obtain ⟨resolved, hbuild⟩ := build_shadowedThresholds String.quote
  refine ⟨_, resolved, hbuild, fun h => ?_⟩
  have hfor : EmergencyThresholdConfig.isFor String.quote
      (⟨"tcp", some 10, none⟩ : EmergencyThresholdConfig ℚ) .tcp = true := by
    unfold EmergencyThresholdConfig.isFor
    rw [parseProtoIndex_tcp]
    rfl
  obtain ⟨s, hs, -⟩ := (h _ (List.mem_singleton_self _)).mpr
    ⟨⟨"tcp", some 10, none⟩, by simp [shadowedThresholds], hfor, by decide +kernel⟩
  have hnone : EmergencyDetector.detect
      (⟨[⟨.tcp, some 1000, none⟩, ⟨.tcp, some 10, none⟩]⟩ : EmergencyDetector ℚ)
      [⟨.tcp, 500, 0⟩] = [] := by decide +kernel
  rw [hnone] at hs
  exact absurd hs List.not_mem_nil

end EbpfXdp
