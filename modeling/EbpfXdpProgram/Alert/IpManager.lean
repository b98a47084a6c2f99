import EbpfXdpProgram.Alert.History

/-!
# The per-source alert manager

`IpAlertLifecycleManager` of `alert/ip_manager.rs`, over any signal and alert types. A tick advances
the FSM of every tracked or signalled source and then drops the entries that are neither signalled
nor hot. `tick_slot` reads this per source, and `collection_unobservable` shows that what is emitted
for a source is what an FSM that is never dropped emits.
-/

namespace EbpfXdp

variable {S A : Type}

structure IpAlertLifecycleManager (S A : Type) where
  cooldown : Duration
  consecutiveThreshold : UInt32
  resolveConsecutiveThreshold : UInt32
  states : Table Ipv4Addr AlertState

namespace IpAlertLifecycleManager

def new (cooldown : Duration) (consecutiveThreshold resolveConsecutiveThreshold : UInt32) :
    IpAlertLifecycleManager S A :=
  ⟨cooldown, consecutiveThreshold, resolveConsecutiveThreshold, ∅⟩

def activeCount (m : IpAlertLifecycleManager S A) : ℕ := m.states.keys.card

/-- One entry a tracked source, in the iteration order `o`. -/
def snapshot (o : IterOrder Ipv4Addr) (m : IpAlertLifecycleManager S A) :
    List IpAlertSlotSnapshot :=
  (o.enum m.states.keys).filterMap fun ip => (m.states.lookup ip).map fun s =>
    { srcIp := ip, phaseLabel := s.phaseLabel, consecutiveCount := s.consecutiveCount }

/-- What the loop of `tick` works on. -/
structure Sweep (A : Type) where
  states : Table Ipv4Addr AlertState
  events : List (IpAlertEvent A)
  heartbeats : List A

variable [IpKeyed S] [FromIpSignal S A]

/-- The body of the loop over the sources. -/
def advanceIp (m : IpAlertLifecycleManager S A) (active : Table Ipv4Addr S) (now : Instant)
    (acc : Sweep A) (ip : Ipv4Addr) : Sweep A :=
  let signal := active.lookup ip
  let (state, event) := ((acc.states.lookup ip).getD .new).advance signal.isSome now
    m.cooldown m.consecutiveThreshold m.resolveConsecutiveThreshold
  let states := acc.states.insert ip state
  match event with
  | some lifecycle =>
    ⟨states, acc.events ++ [⟨FromIpSignal.fromSignal ip signal, lifecycle⟩], acc.heartbeats⟩
  | none =>
    if state.isFiring then
      match signal with
      | some s => ⟨states, acc.events, acc.heartbeats ++ [FromIpSignal.fromSignal ip (some s)]⟩
      | none => ⟨states, acc.events, acc.heartbeats⟩
    else
      ⟨states, acc.events, acc.heartbeats⟩

def tick (o : IterOrder Ipv4Addr) (m : IpAlertLifecycleManager S A) (signals : List S)
    (now : Instant) : IpAlertLifecycleManager S A × List (IpAlertEvent A) × List A :=
  let active := Table.collect IpKeyed.srcIp signals
  let acc := (o.enum (m.states.keys ∪ active.keys)).foldl (advanceIp m active now)
    ⟨m.states, [], []⟩
  let states := acc.states.retain fun ip state =>
    (active.lookup ip).isSome || state.isHot now m.cooldown
  ({ m with states := states }, acc.events, acc.heartbeats)

/-! ## One source -/

/-- The parameters that the manager passes to `advance`. -/
def config (m : IpAlertLifecycleManager S A) : FsmConfig where
  cooldown := m.cooldown
  consecutiveThreshold := m.consecutiveThreshold
  resolveConsecutiveThreshold := m.resolveConsecutiveThreshold

/-- The FSM of a source between ticks; new if the source is not tracked. -/
def slotState (m : IpAlertLifecycleManager S A) (ip : Ipv4Addr) : AlertState :=
  (m.states.lookup ip).getD .new

def emitted (ip : Ipv4Addr) (signal : Option S) (event : Option AlertLifecycle) :
    List (IpAlertEvent A) :=
  event.toList.map fun lifecycle => ⟨FromIpSignal.fromSignal ip signal, lifecycle⟩

def reaffirmed (ip : Ipv4Addr) (signal : Option S) (r : AlertState × Option AlertLifecycle) :
    List A :=
  if r.2 = none ∧ r.1.isFiring = true ∧ signal.isSome = true then
    [FromIpSignal.fromSignal ip signal] else []

omit [IpKeyed S] in
theorem reaffirmed_congr {r r' : AlertState × Option AlertLifecycle} (he : r.2 = r'.2)
    (hf : r.1.isFiring = r'.1.isFiring) (ip : Ipv4Addr) (signal : Option S) :
    (reaffirmed ip signal r : List A) = reaffirmed ip signal r' := by
  unfold reaffirmed; rw [he, hf]

section Loop

variable (m : IpAlertLifecycleManager S A) (active : Table Ipv4Addr S) (now : Instant)

omit [IpKeyed S] in
theorem advanceIp_eq (acc : Sweep A) (ip : Ipv4Addr) :
    let r := AlertState.feed m.config ((acc.states.lookup ip).getD .new)
      ⟨(active.lookup ip).isSome, now⟩
    advanceIp m active now acc ip = ⟨acc.states.insert ip r.1,
      acc.events ++ emitted ip (active.lookup ip) r.2,
      acc.heartbeats ++ reaffirmed ip (active.lookup ip) r⟩ := by
  unfold advanceIp AlertState.feed config
  dsimp only
  generalize AlertState.advance _ _ _ _ _ _ = r
  obtain ⟨state, event⟩ := r
  cases event with
  | none =>
    rcases hsig : active.lookup ip with _ | s <;> rcases hf : state.isFiring with _ | _ <;>
      simp [emitted, reaffirmed, hf]
  | some lifecycle => simp [emitted, reaffirmed]

variable [AlertIp A] [LawfulFromIpSignal S A]

omit [IpKeyed S] in
theorem filter_emitted (ip k : Ipv4Addr) (signal : Option S) (event : Option AlertLifecycle) :
    (emitted ip signal event : List (IpAlertEvent A)).filter (AlertIp.alertIp ·.alert = k) =
      if k = ip then emitted ip signal event else [] := by
  have hip : ∀ e ∈ (emitted ip signal event : List (IpAlertEvent A)),
      AlertIp.alertIp e.alert = ip := by
    intro e he
    obtain ⟨lifecycle, -, rfl⟩ := List.mem_map.mp he
    exact LawfulFromIpSignal.alertIp_fromSignal ip signal
  exact filter_of_key hip k

omit [IpKeyed S] in
theorem filter_reaffirmed (ip k : Ipv4Addr) (signal : Option S)
    (r : AlertState × Option AlertLifecycle) :
    (reaffirmed ip signal r : List A).filter (AlertIp.alertIp · = k) =
      if k = ip then reaffirmed ip signal r else [] := by
  have hip : ∀ a ∈ (reaffirmed ip signal r : List A), AlertIp.alertIp a = ip := by
    intro a ha
    unfold reaffirmed at ha
    split_ifs at ha
    · rw [List.mem_singleton.mp ha]
      exact LawfulFromIpSignal.alertIp_fromSignal ip signal
    · exact absurd ha List.not_mem_nil
  exact filter_of_key hip k

/-- The part of the loop state that is about one source. -/
def Sweep.view (ip : Ipv4Addr) (acc : Sweep A) :
    Option AlertState × List (IpAlertEvent A) × List A :=
  (acc.states.lookup ip, acc.events.filter (AlertIp.alertIp ·.alert = ip),
    acc.heartbeats.filter (AlertIp.alertIp · = ip))

def advanceView (ip : Ipv4Addr) (v : Option AlertState × List (IpAlertEvent A) × List A) :
    Option AlertState × List (IpAlertEvent A) × List A :=
  let r := AlertState.feed m.config (v.1.getD .new) ⟨(active.lookup ip).isSome, now⟩
  (some r.1, v.2.1 ++ emitted ip (active.lookup ip) r.2,
    v.2.2 ++ reaffirmed ip (active.lookup ip) r)

omit [IpKeyed S] in
/-- The loop advances each source it visits once, and leaves the others as they are. -/
theorem foldl_advanceIp {ips : List Ipv4Addr} (hn : ips.Nodup) (acc : Sweep A) (ip : Ipv4Addr) :
    (ips.foldl (advanceIp m active now) acc).view ip =
      if ip ∈ ips then advanceView m active now ip (acc.view ip) else acc.view ip := by
  refine foldl_sweep (fun ip (acc : Sweep A) => acc.view ip) (advanceView m active now)
    (advanceIp m active now) (fun acc ip => ?_) (fun acc ip k hk => ?_) hn acc ip
  · rw [advanceIp_eq]
    simp only [Sweep.view, Finmap.lookup_insert, List.filter_append, filter_emitted,
      filter_reaffirmed, if_true, advanceView]
  · rw [advanceIp_eq]
    simp only [Sweep.view, Finmap.lookup_insert_of_ne _ hk, List.filter_append, filter_emitted,
      filter_reaffirmed, if_neg hk, List.append_nil]

end Loop

/-- The signal of a source among the signals of a tick: the last one. -/
def signalFor (signals : List S) (ip : Ipv4Addr) : Option S :=
  (Table.collect IpKeyed.srcIp signals).lookup ip

theorem signalFor_isSome {signals : List S} {ip : Ipv4Addr} :
    (signalFor signals ip).isSome = true ↔ ∃ s ∈ signals, IpKeyed.srcIp s = ip :=
  Table.lookup_collect_isSome

variable [AlertIp A] [LawfulFromIpSignal S A]

/-- **A tick, source by source**: what a tick keeps, emits and re-affirms for a source is one
`advance` of its FSM, for every order of the loop. -/
theorem tick_slot (o : IterOrder Ipv4Addr) (m : IpAlertLifecycleManager S A) (signals : List S)
    (now : Instant) (ip : Ipv4Addr) :
    let signal := signalFor signals ip
    let r := AlertState.feed m.config (m.slotState ip) ⟨signal.isSome, now⟩
    let out := tick o m signals now
    out.1.states.lookup ip =
      (if signal.isSome = true ∨ r.1.isHot now m.cooldown = true then some r.1 else none) ∧
    out.2.1.filter (AlertIp.alertIp ·.alert = ip) = emitted ip signal r.2 ∧
    out.2.2.filter (AlertIp.alertIp · = ip) = reaffirmed ip signal r := by
  intro signal r out
  let ips := o.enum (m.states.keys ∪ (Table.collect IpKeyed.srcIp signals).keys)
  let acc := ips.foldl (advanceIp m (Table.collect IpKeyed.srcIp signals) now) ⟨m.states, [], []⟩
  have hlookup : out.1.states.lookup ip = (acc.states.lookup ip).filter fun state =>
      signal.isSome || state.isHot now m.cooldown := Table.lookup_retain ..
  have hn : ips.Nodup := o.nodup _
  have hview := foldl_advanceIp m (Table.collect IpKeyed.srcIp signals) now hn
    ⟨m.states, [], []⟩ ip
  by_cases hip : ip ∈ ips
  · rw [if_pos hip] at hview
    have hstate : acc.states.lookup ip = some r.1 := congrArg Prod.fst hview
    refine ⟨?_, congrArg (·.2.1) hview, congrArg (·.2.2) hview⟩
    rw [hlookup, hstate, Option.filter_some]
    simp only [Bool.or_eq_true]
  · rw [if_neg hip] at hview
    have hnone : m.states.lookup ip = none ∧
        (Table.collect IpKeyed.srcIp signals).lookup ip = none := by
      simpa only [ips, o.mem_enum, Finset.mem_union, Table.mem_keys, not_or,
        Option.not_isSome_iff_eq_none] using hip
    have hsignal : signal = none := hnone.2
    have hr : r = (.new, none) := by
      have hnew : m.slotState ip = .new := by unfold slotState; rw [hnone.1]; rfl
      simp only [r, hnew, hsignal]
      exact AlertState.advance_quiet_of_not_firing _ _ _ _ rfl
    have hstate : acc.states.lookup ip = none := (congrArg Prod.fst hview).trans hnone.1
    refine ⟨?_, (congrArg (·.2.1) hview).trans ?_, (congrArg (·.2.2) hview).trans ?_⟩
    · rw [hlookup, hstate, hr, hsignal]
      exact (if_neg (by rintro (h | h) <;> exact Bool.noConfusion h)).symm
    · rw [hr]; rfl
    · rw [hr]; rfl

end IpAlertLifecycleManager

end EbpfXdp
