import EbpfXdpProgram.Alert.ProtoRuns

/-!
# A tick of the manager, protocol by protocol

The slots of one protocol, and the events and heartbeats for it, in the order in which they are
emitted, depend on nothing else than these slots before the tick, the rules and the pooled signals
for the protocol (`tick_proto`). A rule visits at most one slot of a protocol, and so the iteration
orders do not show either.
-/

namespace EbpfXdp

variable {F : Type} [F64 F]

/-- What one protocol has in the manager: its slots, its events and its heartbeats. -/
structure ProtoView (F : Type) where
  slots : AlertKind → Option AlertState
  events : List (AlertEvent F)
  heartbeats : List (Alert F)

namespace ProtoView

def visit (proto : ProtoIndex) (signal : Option (AlertSignal F)) (now : Instant) (v : ProtoView F)
    (rule : AlertRule F) : ProtoView F :=
  let r := Slot.step signal now ((v.slots rule.kind).getD .new) rule
  { slots := Function.update v.slots rule.kind (some r.1)
    events := v.events ++ Slot.emitted ⟨proto, rule.kind⟩ signal rule r.2
    heartbeats := v.heartbeats ++ Slot.reaffirmed signal r }

/-- A rule visits the protocol's slot of its kind if it is tracked or has a signal. -/
def advance (proto : ProtoIndex) (active : AlertKind → Option (AlertSignal F)) (now : Instant)
    (v : ProtoView F) (rule : AlertRule F) : ProtoView F :=
  if (v.slots rule.kind).isSome = true ∨ (active rule.kind).isSome = true then
    v.visit proto (active rule.kind) now rule
  else v

end ProtoView

namespace AlertLifecycleManager

def Sweep.view (proto : ProtoIndex) (acc : Sweep F) : ProtoView F where
  slots kind := acc.states.lookup ⟨proto, kind⟩
  events := acc.events.filter (·.alert.proto = proto)
  heartbeats := acc.heartbeats.filter (·.proto = proto)

section Loops

variable {active : Table AlertKey (AlertSignal F)} (now : Instant)
  (hactive : ∀ key s, active.lookup key = some s → s.key = key)

include hactive in
theorem filter_emitted (rule : AlertRule F) (key : AlertKey) (event : Option AlertLifecycle)
    (proto : ProtoIndex) :
    (Slot.emitted key (active.lookup key) rule event).filter (·.alert.proto = proto) =
      if proto = key.proto then Slot.emitted key (active.lookup key) rule event else [] := by
  apply filter_of_key
  intro e he
  exact congrArg AlertKey.proto (Slot.key_emitted (hactive key) he)

omit [F64 F] in
include hactive in
theorem filter_reaffirmed (key : AlertKey) (r : AlertState × Option AlertLifecycle)
    (proto : ProtoIndex) :
    (Slot.reaffirmed (active.lookup key) r).filter (·.proto = proto) =
      if proto = key.proto then Slot.reaffirmed (active.lookup key) r else [] := by
  apply filter_of_key
  intro a ha
  exact congrArg AlertKey.proto (Slot.key_reaffirmed (hactive key) ha)

include hactive in
/-- One body of the key loop is seen by the protocol of its key only. -/
theorem advanceKey_view (rule : AlertRule F) (acc : Sweep F) (proto : ProtoIndex) :
    ∃ acc', advanceKey rule active now acc ⟨proto, rule.kind⟩ = .ok acc' ∧
      acc'.view proto =
        (acc.view proto).visit proto (active.lookup ⟨proto, rule.kind⟩) now rule ∧
      ∀ p, p ≠ proto → acc'.view p = acc.view p := by
  refine ⟨_, advanceKey_eq now rule acc _, ?_, fun p hp => ?_⟩
  · simp only [Sweep.view, ProtoView.visit, List.filter_append, filter_emitted hactive,
      filter_reaffirmed hactive, if_true, ProtoView.mk.injEq, Sweep.slot, and_true]
    funext kind
    by_cases hk : kind = rule.kind
    · rw [hk, Finmap.lookup_insert, Function.update_self]
    · rw [Finmap.lookup_insert_of_ne _ fun h => hk (congrArg AlertKey.kind h),
        Function.update_of_ne hk]
  · simp only [Sweep.view, List.filter_append, filter_emitted hactive, filter_reaffirmed hactive,
      if_neg hp, List.append_nil, ProtoView.mk.injEq, and_true]
    funext kind
    exact Finmap.lookup_insert_of_ne _ fun h => hp (congrArg AlertKey.proto h)

omit [F64 F] in
/-- Keys of one kind are one a protocol. -/
theorem enum_of_kind (o : IterOrder AlertKey) {keys : Finset AlertKey} {kind : AlertKind}
    (hkind : ∀ key ∈ keys, key.kind = kind) :
    o.enum keys = ((o.enum keys).map (·.proto)).map (⟨·, kind⟩) ∧
      ((o.enum keys).map (·.proto)).Nodup := by
  have hkey : ∀ key ∈ o.enum keys, (⟨key.proto, kind⟩ : AlertKey) = key := by
    intro key hkey
    rw [← hkind key ((o.mem_enum _ _).mp hkey)]
  refine ⟨?_, (o.nodup keys).map_on fun key hk key' hk' hproto => ?_⟩
  · rw [List.map_map]
    exact (List.map_id _).symm.trans (List.map_congr_left fun key hk => (hkey key hk).symm)
  · rw [← hkey key hk, ← hkey key' hk', hproto]

include hactive in
theorem advanceRule_view (rule : AlertRule F) (o : IterOrder AlertKey) (acc : Sweep F) :
    ∃ acc', advanceRule active now acc o rule = .ok acc' ∧ ∀ proto,
      acc'.view proto =
        (acc.view proto).advance proto (fun kind => active.lookup ⟨proto, kind⟩) now rule := by
  let keys := acc.states.keys.filter (·.kind = rule.kind) ∪
    active.keys.filter (·.kind = rule.kind)
  have hkind : ∀ key ∈ keys, key.kind = rule.kind := by
    intro key hkey
    rcases Finset.mem_union.mp hkey with h | h
    · exact (Finset.mem_filter.mp h).2
    · exact (Finset.mem_filter.mp h).2
  -- the keys that a rule visits have one kind, so that a protocol is visited once
  obtain ⟨hkeys, hn⟩ := enum_of_kind o hkind
  obtain ⟨acc', hok, hview⟩ := foldlM_sweep (fun proto (acc : Sweep F) => acc.view proto)
    (fun proto v => v.visit proto (active.lookup ⟨proto, rule.kind⟩) now rule)
    (fun acc proto => advanceKey_view now hactive rule acc proto) hn acc
  refine ⟨acc', ?_, fun proto => ?_⟩
  · unfold advanceRule
    dsimp only
    show (o.enum keys).foldlM (advanceKey rule active now) acc = _
    rw [hkeys, List.foldlM_map]
    exact hok
  · rw [hview]
    unfold ProtoView.advance
    have hmem : proto ∈ (o.enum keys).map (·.proto) ↔
        ((acc.view proto).slots rule.kind).isSome = true ∨
          (active.lookup ⟨proto, rule.kind⟩).isSome = true := by
      have hkey : proto ∈ (o.enum keys).map (·.proto) ↔ ⟨proto, rule.kind⟩ ∈ keys := by
        rw [← o.mem_enum, List.mem_map]
        constructor
        · rintro ⟨key, hkey, rfl⟩
          rw [← hkind key ((o.mem_enum _ _).mp hkey)]
          exact hkey
        · exact fun h => ⟨_, h, rfl⟩
      rw [hkey, Finset.mem_union, Finset.mem_filter, Finset.mem_filter, Table.mem_keys,
        Table.mem_keys]
      simp [Sweep.view]
    exact if_congr hmem rfl rfl

include hactive in
theorem foldlM_advanceRule_view (o : ℕ → IterOrder AlertKey) (rules : List (AlertRule F)) (i : ℕ)
    (acc : Sweep F) :
    ∃ acc', (rules.zipIdx i).foldlM (fun acc r => advanceRule active now acc (o r.2) r.1) acc =
        .ok acc' ∧
      ∀ proto, acc'.view proto = rules.foldl
        (ProtoView.advance proto (fun kind => active.lookup ⟨proto, kind⟩) now)
        (acc.view proto) := by
  exact foldlM_views (fun proto (acc : Sweep F) => acc.view proto)
    (fun proto => ProtoView.advance proto (fun kind => active.lookup ⟨proto, kind⟩) now)
    (fun acc r => advanceRule_view now hactive r.1 (o r.2) acc) rules i acc

end Loops

def protoSlots (m : AlertLifecycleManager F) (proto : ProtoIndex) (kind : AlertKind) :
    Option AlertState :=
  m.states.lookup ⟨proto, kind⟩

/-- What a tick makes of the manager and emits, as the protocol sees it. -/
def protoView (out : AlertLifecycleManager F × List (AlertEvent F) × List (Alert F))
    (proto : ProtoIndex) : ProtoView F where
  slots := out.1.protoSlots proto
  events := out.2.1.filter (·.alert.proto = proto)
  heartbeats := out.2.2.filter (·.proto = proto)

/-- **A tick, protocol by protocol**: the rules in their order, each on the protocol's slot of its
kind. -/
theorem tick_proto (o : ℕ → IterOrder AlertKey) (m : AlertLifecycleManager F)
    (signals : List (AlertSignal F)) (now : Instant) (proto : ProtoIndex) :
    protoView (tick o m signals now) proto = m.rules.foldl
      (ProtoView.advance proto (fun kind => (m.collectActive signals).lookup ⟨proto, kind⟩) now)
      ⟨m.protoSlots proto, [], []⟩ := by
  have hactive : ∀ key s, (m.collectActive signals).lookup key = some s → s.key = key :=
    fun key s h => (collectActive_some h).2.1
  obtain ⟨acc, hok, hview⟩ := foldlM_advanceRule_view now hactive o m.rules 0 ⟨m.states, [], []⟩
  have htick : tick o m signals now = (⟨m.rules, acc.states⟩, acc.events, acc.heartbeats) := by
    unfold tick tryTick advanceStates
    rw [hok]
    rfl
  rw [htick]
  exact hview proto

/-! ## What a protocol depends on -/

theorem lookup_collectActive_proto (m : AlertLifecycleManager F) (signals : List (AlertSignal F))
    (proto : ProtoIndex) (kind : AlertKind) :
    (m.collectActive signals).lookup ⟨proto, kind⟩ =
      (m.collectActive (signals.filter (·.proto = proto))).lookup ⟨proto, kind⟩ := by
  have hfilter : accepted m.rules (signals.filter (·.proto = proto)) =
      (accepted m.rules signals).filter (·.proto = proto) := by
    unfold accepted
    rw [List.filter_flatMap]
    refine List.flatMap_congr fun rule _ => ?_
    rw [List.filter_filter, List.filter_filter]
    exact List.filter_congr fun s _ => Bool.and_comm ..
  rw [collectActive_eq, collectActive_eq, hfilter]
  refine (Table.lookup_collect_filter _ _ fun s _ hs => ?_).symm
  exact decide_eq_true (congrArg AlertKey.proto hs)

end AlertLifecycleManager

end EbpfXdp
