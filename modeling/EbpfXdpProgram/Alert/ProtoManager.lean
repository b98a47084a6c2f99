import EbpfXdpProgram.Alert.State

/-!
# The per-protocol alert manager

`AlertLifecycleManager` of `alert/proto_manager.rs`. A tick pools the signals that some rule accepts
into one table and then runs every rule against the FSM of every slot of its kind, creating the
slots as they are first named. `advanceStates_slot` reads this per slot: what happens to one slot is
a fold over the rules of its kind, whatever the other slots and the iteration orders.
-/

namespace EbpfXdp

open F64

variable {F : Type} [F64 F]

structure AlertRule (F : Type) where
  kind : AlertKind
  minLevel : AnomalyLevel
  minConfidence : F
  cooldown : Duration
  consecutiveThreshold : UInt32
  resolveConsecutiveThreshold : UInt32
  freezesBaseline : Bool

/-- `config::default_alert_rules`. -/
def defaultAlertRules : List (AlertRule F) :=
  [{ kind := .spike
     minLevel := .suspicious
     minConfidence := 0.6
     cooldown := 120000000000
     consecutiveThreshold := 5
     resolveConsecutiveThreshold := 3
     freezesBaseline := true },
   { kind := .emergency
     minLevel := .severe
     minConfidence := 0.0
     cooldown := 60000000000
     consecutiveThreshold := 1
     resolveConsecutiveThreshold := 1
     freezesBaseline := false }]

theorem kinds_defaultAlertRules :
    ((defaultAlertRules : List (AlertRule F)).map (·.kind)).Nodup := by
  show [AlertKind.spike, AlertKind.emergency].Nodup
  decide

structure AlertLifecycleManager (F : Type) where
  rules : List (AlertRule F)
  states : Table AlertKey AlertState

namespace AlertLifecycleManager

def new (rules : List (AlertRule F)) : AlertLifecycleManager F := ⟨rules, ∅⟩

/-- One entry a tracked slot, in the iteration order `o`. -/
def snapshot (o : IterOrder AlertKey) (m : AlertLifecycleManager F) : List AlertMetricsSnapshot :=
  (o.enum m.states.keys).filterMap fun key => (m.states.lookup key).map fun state =>
    { proto := key.proto
      kind := key.kind
      phaseValue := state.phaseValue
      phaseLabel := state.phaseLabel
      consecutiveCount := state.consecutiveCount }

/-- The signals that some rule accepts; where several name one slot, the last one inserted. -/
def collectActive (m : AlertLifecycleManager F) (signals : List (AlertSignal F)) :
    Table AlertKey (AlertSignal F) :=
  m.rules.foldl (fun active rule =>
    signals.foldl (fun active signal =>
      if signal.kind ≠ rule.kind then active
      else if signal.level < rule.minLevel then active
      else if lt signal.confidence rule.minConfidence then active
      else active.insert ⟨signal.proto, signal.kind⟩ signal) active) ∅

/-- What the loops of `advance_states` work on. -/
structure Sweep (F : Type) where
  states : Table AlertKey AlertState
  events : List (AlertEvent F)
  heartbeats : List (Alert F)

/-- The body of the loop over the keys of a rule; it panics where `expect` does. -/
def advanceKey (rule : AlertRule F) (active : Table AlertKey (AlertSignal F)) (now : Instant)
    (acc : Sweep F) (key : AlertKey) : Except String (Sweep F) :=
  let signal := active.lookup key
  let (state, event) := ((acc.states.lookup key).getD .new).advance signal.isSome now
    rule.cooldown rule.consecutiveThreshold rule.resolveConsecutiveThreshold
  let states := acc.states.insert key state
  match event with
  | some .fired =>
    match signal with
    | some s => .ok ⟨states, acc.events ++ [⟨⟨s.proto, s.kind, s.level, s.confidence⟩, .fired⟩],
        acc.heartbeats⟩
    | none => .error "signal present when alert fired"
  | some .resolved =>
    .ok ⟨states, acc.events ++ [⟨⟨key.proto, key.kind, rule.minLevel, 0.0⟩, .resolved⟩],
      acc.heartbeats⟩
  | none =>
    if state.isFiring then
      match signal with
      | some s => .ok ⟨states, acc.events,
          acc.heartbeats ++ [⟨s.proto, s.kind, s.level, s.confidence⟩]⟩
      | none => .ok ⟨states, acc.events, acc.heartbeats⟩
    else
      .ok ⟨states, acc.events, acc.heartbeats⟩

/-- The body of the loop over the rules: every tracked or active slot of the rule's kind. -/
def advanceRule (active : Table AlertKey (AlertSignal F)) (now : Instant) (acc : Sweep F)
    (o : IterOrder AlertKey) (rule : AlertRule F) : Except String (Sweep F) :=
  let keys := acc.states.keys.filter (·.kind = rule.kind) ∪ active.keys.filter (·.kind = rule.kind)
  (o.enum keys).foldlM (advanceKey rule active now) acc

/-- `advance_states`; `o i` is the order in which the keys of rule `i` are visited. -/
def advanceStates (o : ℕ → IterOrder AlertKey) (m : AlertLifecycleManager F)
    (active : Table AlertKey (AlertSignal F)) (now : Instant) : Except String (Sweep F) :=
  m.rules.zipIdx.foldlM (fun acc r => advanceRule active now acc (o r.2) r.1) ⟨m.states, [], []⟩

/-- `tick`, as it may panic. -/
def tryTick (o : ℕ → IterOrder AlertKey) (m : AlertLifecycleManager F)
    (signals : List (AlertSignal F)) (now : Instant) :
    Except String (AlertLifecycleManager F × List (AlertEvent F) × List (Alert F)) :=
  (advanceStates o m (m.collectActive signals) now).map fun acc =>
    (⟨m.rules, acc.states⟩, acc.events, acc.heartbeats)

/-- `tick`: `tryTick` never panics (`tryTick_eq_ok`). -/
def tick (o : ℕ → IterOrder AlertKey) (m : AlertLifecycleManager F)
    (signals : List (AlertSignal F)) (now : Instant) :
    AlertLifecycleManager F × List (AlertEvent F) × List (Alert F) :=
  match tryTick o m signals now with
  | .ok r => r
  | .error _ => (m, [], [])

/-- The body of the `filter_map` of `frozen_protos`: the first rule of the slot's kind freezes the
baseline and the slot is hot. -/
def freezes (m : AlertLifecycleManager F) (now : Instant) (key : AlertKey) : Bool :=
  match m.states.lookup key, m.rules.find? fun r => r.kind = key.kind with
  | some state, some rule => rule.freezesBaseline && state.isHot now rule.cooldown
  | _, _ => false

def frozenProtos (m : AlertLifecycleManager F) (now : Instant) : Finset ProtoIndex :=
  (m.states.keys.filter fun key => freezes m now key = true).image AlertKey.proto

end AlertLifecycleManager

/-! ## The pooled signals -/

/-- The signal passes the three checks of `collect_active`. -/
def AlertRule.accepts (rule : AlertRule F) (signal : AlertSignal F) : Bool :=
  decide (signal.kind = rule.kind) && decide (rule.minLevel ≤ signal.level) &&
    !lt signal.confidence rule.minConfidence

namespace AlertLifecycleManager

def accepted (rules : List (AlertRule F)) (signals : List (AlertSignal F)) :
    List (AlertSignal F) :=
  rules.flatMap fun rule => signals.filter rule.accepts

theorem collectActive_eq (m : AlertLifecycleManager F) (signals : List (AlertSignal F)) :
    m.collectActive signals = Table.collect AlertSignal.key (accepted m.rules signals) := by
  unfold collectActive accepted Table.collect
  rw [List.foldl_flatMap]
  congr 1
  funext active rule
  rw [List.foldl_filter]
  congr 1
  funext active signal
  unfold AlertRule.accepts
  by_cases hk : signal.kind = rule.kind
  · by_cases hl : signal.level < rule.minLevel
    · simp [hk, hl]
    · cases hc : lt signal.confidence rule.minConfidence with
      | false =>
        simp only [hk, hl, not_lt.mp hl, ne_eq, not_true_eq_false, if_false, Bool.false_eq_true,
          decide_true, Bool.not_false, Bool.and_self, if_true]
        rw [← hk]; rfl
      | true => simp [hk, hl]
  · simp [hk]

theorem collectActive_some {m : AlertLifecycleManager F} {signals : List (AlertSignal F)}
    {key : AlertKey} {s : AlertSignal F} (h : (m.collectActive signals).lookup key = some s) :
    s ∈ signals ∧ s.key = key ∧ ∃ rule ∈ m.rules, rule.accepts s = true := by
  rw [collectActive_eq] at h
  obtain ⟨hmem, hkey⟩ := Table.lookup_collect_some h
  obtain ⟨rule, hrule, hs⟩ := List.mem_flatMap.mp hmem
  obtain ⟨hs, hacc⟩ := List.mem_filter.mp hs
  exact ⟨hs, hkey, rule, hrule, hacc⟩

theorem collectActive_isSome {m : AlertLifecycleManager F} {signals : List (AlertSignal F)}
    {key : AlertKey} :
    ((m.collectActive signals).lookup key).isSome = true ↔
      ∃ rule ∈ m.rules, ∃ s ∈ signals, s.key = key ∧ rule.accepts s = true := by
  rw [collectActive_eq, Table.lookup_collect_isSome]
  simp only [accepted, List.mem_flatMap, List.mem_filter]
  constructor
  · rintro ⟨s, ⟨rule, hrule, hs, hacc⟩, hkey⟩
    exact ⟨rule, hrule, s, hs, hkey, hacc⟩
  · rintro ⟨rule, hrule, s, hs, hkey, hacc⟩
    exact ⟨s, ⟨rule, hrule, hs, hacc⟩, hkey⟩

end AlertLifecycleManager

theorem AlertRule.kind_of_accepts {rule : AlertRule F} {s : AlertSignal F}
    (h : rule.accepts s = true) : s.kind = rule.kind := by
  unfold AlertRule.accepts at h
  simp only [Bool.and_eq_true, decide_eq_true_eq] at h
  exact h.1.1

/-! ## One slot -/

/-- What the loops do to one slot: whether it is tracked, its FSM (new if untracked), and its part
of the events and heartbeats. -/
structure Slot (F : Type) where
  tracked : Bool
  state : AlertState
  events : List (AlertEvent F)
  heartbeats : List (Alert F)

namespace Slot

def emitted (key : AlertKey) (signal : Option (AlertSignal F)) (rule : AlertRule F) :
    Option AlertLifecycle → List (AlertEvent F)
  | some .fired => signal.toList.map fun s => ⟨s.toAlert, .fired⟩
  | some .resolved => [⟨⟨key.proto, key.kind, rule.minLevel, 0.0⟩, .resolved⟩]
  | none => []

def reaffirmed (signal : Option (AlertSignal F)) (r : AlertState × Option AlertLifecycle) :
    List (Alert F) :=
  if r.2 = none ∧ r.1.isFiring = true then signal.toList.map AlertSignal.toAlert else []

def step (signal : Option (AlertSignal F)) (now : Instant) (state : AlertState)
    (rule : AlertRule F) : AlertState × Option AlertLifecycle :=
  state.advance signal.isSome now rule.cooldown rule.consecutiveThreshold
    rule.resolveConsecutiveThreshold

def advance (key : AlertKey) (signal : Option (AlertSignal F)) (now : Instant) (v : Slot F)
    (rule : AlertRule F) : Slot F where
  tracked := v.tracked || signal.isSome
  state := (step signal now v.state rule).1
  events := v.events ++ emitted key signal rule (step signal now v.state rule).2
  heartbeats := v.heartbeats ++ reaffirmed signal (step signal now v.state rule)

section Keys

variable {key : AlertKey} {signal : Option (AlertSignal F)}
  (hsig : ∀ s, signal = some s → s.key = key)

include hsig in
theorem key_emitted {rule : AlertRule F} {event : Option AlertLifecycle} {e : AlertEvent F}
    (he : e ∈ emitted key signal rule event) : e.alert.key = key := by
  rcases event with _ | _ | _
  · exact absurd he List.not_mem_nil
  · obtain ⟨s, hs, rfl⟩ := List.mem_map.mp he
    exact hsig s (Option.mem_toList.mp hs)
  · rw [List.mem_singleton.mp he]; rfl

omit [F64 F] in
include hsig in
theorem key_reaffirmed {r : AlertState × Option AlertLifecycle} {a : Alert F}
    (ha : a ∈ reaffirmed signal r) : a.key = key := by
  unfold reaffirmed at ha
  split_ifs at ha
  · obtain ⟨s, hs, rfl⟩ := List.mem_map.mp ha
    exact hsig s (Option.mem_toList.mp hs)
  · exact absurd ha List.not_mem_nil

end Keys

theorem advance_inactive (key : AlertKey) (now : Instant) (v : Slot F) (rule : AlertRule F)
    (h : v.state.phase = .inactive) : v.advance key none now rule = v := by
  obtain ⟨tracked, state, events, heartbeats⟩ := v
  have hstep : step (none : Option (AlertSignal F)) now state rule = (state, none) := by
    have hquiet := AlertState.advance_quiet_of_not_firing now rule.cooldown
      rule.consecutiveThreshold rule.resolveConsecutiveThreshold
      ((AlertState.not_isFiring_iff state).mpr (by rw [h]; decide))
    rwa [if_pos h] at hquiet
  simp [advance, hstep, emitted, reaffirmed]

end Slot

namespace AlertLifecycleManager

def Sweep.slot (key : AlertKey) (acc : Sweep F) : Slot F where
  tracked := (acc.states.lookup key).isSome
  state := (acc.states.lookup key).getD .new
  events := acc.events.filter (·.alert.key = key)
  heartbeats := acc.heartbeats.filter (·.key = key)

section Loops

variable {active : Table AlertKey (AlertSignal F)} (now : Instant)

/-- `advanceKey` does not panic: an FSM fires only on a signal. -/
theorem advanceKey_eq (rule : AlertRule F) (acc : Sweep F) (key : AlertKey) :
    advanceKey rule active now acc key = .ok
      ⟨acc.states.insert key (Slot.step (active.lookup key) now (acc.slot key).state rule).1,
        acc.events ++ Slot.emitted key (active.lookup key) rule
          (Slot.step (active.lookup key) now (acc.slot key).state rule).2,
        acc.heartbeats ++ Slot.reaffirmed (active.lookup key)
          (Slot.step (active.lookup key) now (acc.slot key).state rule)⟩ := by
  have hfire : (Slot.step (active.lookup key) now (acc.slot key).state rule).2 = some .fired →
      (active.lookup key).isSome = true := fun h => ((AlertState.fired_iff ..).mp h).2.1
  unfold advanceKey
  unfold Slot.step Sweep.slot at *
  dsimp only at *
  generalize AlertState.advance _ _ _ _ _ _ = r at *
  obtain ⟨state, event⟩ := r
  rcases event with _ | _ | _
  · rcases hsig : active.lookup key with _ | s <;> rcases hf : state.isFiring with _ | _ <;>
      simp [Slot.emitted, Slot.reaffirmed, hf, AlertSignal.toAlert]
  · obtain ⟨s, hs⟩ := Option.isSome_iff_exists.mp (hfire rfl)
    simp [hs, Slot.emitted, Slot.reaffirmed, AlertSignal.toAlert]
  · simp [Slot.emitted, Slot.reaffirmed]

variable (hactive : ∀ key s, active.lookup key = some s → s.key = key)

include hactive in
theorem advanceKey_slot (rule : AlertRule F) (acc : Sweep F) (key : AlertKey) :
    ∃ acc', advanceKey rule active now acc key = .ok acc' ∧
      acc'.slot key =
        { Slot.advance key (active.lookup key) now (acc.slot key) rule with tracked := true } ∧
      ∀ k, k ≠ key → acc'.slot k = acc.slot k := by
  have hev : ∀ event k, (Slot.emitted key (active.lookup key) rule event).filter
      (·.alert.key = k) = if k = key then Slot.emitted key (active.lookup key) rule event else [] :=
    fun event => filter_of_key fun e he => Slot.key_emitted (hactive key) he
  have hhb : ∀ r k, (Slot.reaffirmed (active.lookup key) r).filter (·.key = k) =
      if k = key then Slot.reaffirmed (active.lookup key) r else [] :=
    fun r => filter_of_key fun a ha => Slot.key_reaffirmed (hactive key) ha
  refine ⟨_, advanceKey_eq now rule acc key, ?_, fun k hk => ?_⟩
  · simp only [Sweep.slot, Slot.advance, Finmap.lookup_insert, Option.isSome_some,
      Option.getD_some, List.filter_append, hev, hhb, if_true]
  · simp only [Sweep.slot, Finmap.lookup_insert_of_ne _ hk, List.filter_append, hev, hhb,
      if_neg hk, List.append_nil]

include hactive in
theorem advanceRule_slot (rule : AlertRule F) (o : IterOrder AlertKey) (acc : Sweep F) :
    ∃ acc', advanceRule active now acc o rule = .ok acc' ∧
      ∀ key, acc'.slot key =
        if key.kind = rule.kind then
          Slot.advance key (active.lookup key) now (acc.slot key) rule
        else acc.slot key := by
  obtain ⟨acc', hok, hslot⟩ := foldlM_sweep (fun key (acc : Sweep F) => acc.slot key)
    (fun key v => { Slot.advance key (active.lookup key) now v rule with tracked := true })
    (advanceKey_slot now hactive rule) (o.nodup _) acc
  refine ⟨acc', hok, fun key => ?_⟩
  rw [hslot key]
  simp only [o.mem_enum, Finset.mem_union, Finset.mem_filter, Table.mem_keys, ← or_and_right]
  by_cases hkind : key.kind = rule.kind
  · rw [if_pos hkind]
    by_cases hkey : (acc.states.lookup key).isSome = true ∨ (active.lookup key).isSome = true
    · -- a visited slot is tracked or active, and so tracked afterwards
      rw [if_pos ⟨hkey, hkind⟩]
      have htracked : ((acc.slot key).tracked || (active.lookup key).isSome) = true :=
        Bool.or_eq_true_iff.mpr hkey
      simp only [Slot.advance, htracked]
    · rw [if_neg fun h => hkey h.1]
      obtain ⟨hst, hsig⟩ := not_or.mp hkey
      rw [Option.not_isSome_iff_eq_none] at hst hsig
      rw [hsig]
      exact (Slot.advance_inactive key now _ rule (by rw [Sweep.slot, hst]; rfl)).symm
  · rw [if_neg hkind, if_neg fun h => hkind h.2]

include hactive in
/-- All rules together: each slot is advanced by the rules of its kind, in their order. -/
theorem foldlM_advanceRule (o : ℕ → IterOrder AlertKey) (rules : List (AlertRule F)) (i : ℕ)
    (acc : Sweep F) :
    ∃ acc', (rules.zipIdx i).foldlM (fun acc r => advanceRule active now acc (o r.2) r.1) acc =
        .ok acc' ∧
      ∀ key, acc'.slot key = (rules.filter (·.kind = key.kind)).foldl
        (Slot.advance key (active.lookup key) now) (acc.slot key) := by
  obtain ⟨acc', hok, hslot⟩ := foldlM_views (fun key (acc : Sweep F) => acc.slot key)
    (fun key v rule =>
      if key.kind = rule.kind then Slot.advance key (active.lookup key) now v rule else v)
    (fun acc r => advanceRule_slot now hactive r.1 (o r.2) acc) rules i acc
  refine ⟨acc', hok, fun key => ?_⟩
  simp only [hslot, List.foldl_filter, decide_eq_true_eq, eq_comm (a := key.kind)]

end Loops

/-! ## The tick of the manager -/

/-- The slot between ticks. -/
def slotState (m : AlertLifecycleManager F) (key : AlertKey) : AlertState :=
  (m.states.lookup key).getD .new

def slotRules (m : AlertLifecycleManager F) (key : AlertKey) : List (AlertRule F) :=
  m.rules.filter (·.kind = key.kind)

/-- What a tick with the pooled signal `signal` does to the slot. -/
def slotTick (m : AlertLifecycleManager F) (key : AlertKey) (signal : Option (AlertSignal F))
    (now : Instant) : Slot F :=
  (m.slotRules key).foldl (Slot.advance key signal now)
    ⟨(m.states.lookup key).isSome, m.slotState key, [], []⟩

theorem tryTick_slot (o : ℕ → IterOrder AlertKey) (m : AlertLifecycleManager F)
    (signals : List (AlertSignal F)) (now : Instant) :
    ∃ acc : Sweep F, tryTick o m signals now =
        .ok (⟨m.rules, acc.states⟩, acc.events, acc.heartbeats) ∧
      ∀ key, acc.slot key = m.slotTick key ((m.collectActive signals).lookup key) now := by
  have hactive : ∀ key s, (m.collectActive signals).lookup key = some s → s.key = key :=
    fun key s h => (collectActive_some h).2.1
  obtain ⟨acc, hok, hslot⟩ := foldlM_advanceRule now hactive o m.rules 0 ⟨m.states, [], []⟩
  refine ⟨acc, ?_, hslot⟩
  unfold tryTick advanceStates
  rw [hok]
  rfl

theorem tryTick_eq_ok (o : ℕ → IterOrder AlertKey) (m : AlertLifecycleManager F)
    (signals : List (AlertSignal F)) (now : Instant) :
    tryTick o m signals now = .ok (tick o m signals now) := by
  obtain ⟨acc, hok, -⟩ := tryTick_slot o m signals now
  unfold tick
  rw [hok]

/-- **A tick, slot by slot**: what a tick keeps, emits and re-affirms for a slot is `slotTick`,
for every order of its loops. -/
theorem tick_slot (o : ℕ → IterOrder AlertKey) (m : AlertLifecycleManager F)
    (signals : List (AlertSignal F)) (now : Instant) (key : AlertKey) :
    let r := tick o m signals now
    let v := m.slotTick key ((m.collectActive signals).lookup key) now
    (r.1.states.lookup key).isSome = v.tracked ∧ r.1.slotState key = v.state ∧
      r.2.1.filter (·.alert.key = key) = v.events ∧ r.2.2.filter (·.key = key) = v.heartbeats := by
  obtain ⟨acc, hok, hslot⟩ := tryTick_slot o m signals now
  have htick : tick o m signals now = (⟨m.rules, acc.states⟩, acc.events, acc.heartbeats) := by
    unfold tick; rw [hok]
  intro r v
  simp only [r, v, htick, ← hslot key]
  exact ⟨rfl, rfl, rfl, rfl⟩

@[simp] theorem rules_tick (o : ℕ → IterOrder AlertKey) (m : AlertLifecycleManager F)
    (signals : List (AlertSignal F)) (now : Instant) :
    (tick o m signals now).1.rules = m.rules := by
  obtain ⟨acc, hok, -⟩ := tryTick_slot o m signals now
  unfold tick
  rw [hok]

end AlertLifecycleManager

end EbpfXdp
