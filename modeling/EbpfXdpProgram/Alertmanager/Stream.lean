import EbpfXdpProgram.Lib.Session
import EbpfXdpProgram.Alert.IpRuns
import EbpfXdpProgram.Alert.ProtoRuns
import EbpfXdpProgram.Alertmanager.Wire

/-!
# The stream pushed to Alertmanager

The ticks of the three managers, each dispatched with its converter, push one stream of alerts. For
each label set the stream consists of sessions: an alert is opened by `Fired`, re-affirmed by
heartbeats and closed by `Resolved`. The open flag of a label set is the firing flag of its slot.
-/

namespace EbpfXdp

open Session

/-- A pushed alert, with the slot it is about and what it does to the alert open for the slot. -/
structure Push where
  subject : Subject
  signal : Signal
  alert : AlertmanagerAlert

def AlertLifecycle.signal : AlertLifecycle → Signal
  | fired => .opens
  | resolved => .closes

section TickPushes

variable {T : Type} (subject : T → Subject) (now : SystemTime) (generatorUrl : Option String)
  (transitions : List (T × AlertLifecycle)) (heartbeats : List T)
  (toWire : T → SystemTime → Option SystemTime → Option String → AlertmanagerAlert)

def tickPushes : List Push :=
  transitions.map (fun (alert, lifecycle) => ⟨subject alert, lifecycle.signal,
    toWire alert now (if lifecycle = .resolved then some now else none) generatorUrl⟩) ++
  heartbeats.map fun hb => ⟨subject hb, .beats, toWire hb now none generatorUrl⟩

theorem alert_tickPushes :
    (tickPushes subject now generatorUrl transitions heartbeats toWire).map (·.alert) =
      dispatchTickAlerts true now generatorUrl transitions heartbeats toWire := by
  unfold tickPushes dispatchTickAlerts
  rw [List.map_append, List.map_map, List.map_map]
  rfl

/-- A converter that gives an alert the labels of its subject, and an end exactly if it is given
one. -/
structure Faithful : Prop where
  labels : ∀ a now endsAt url, (toWire a now endsAt url).labels = (subject a).labels
  endsAt : ∀ a now endsAt url, (toWire a now endsAt url).endsAt.isSome = endsAt.isSome

variable {subject now generatorUrl transitions heartbeats toWire}

/-- What is pushed for one slot, from the events and heartbeats of the slot. -/
theorem filter_tickPushes {E : Type} {events : List E} {alert : E → T}
    {lifecycle : E → AlertLifecycle} {x : Subject} (p : T → Bool)
    (hp : ∀ a, p a = true ↔ subject a = x) :
    ((tickPushes subject now generatorUrl (events.map fun e => (alert e, lifecycle e)) heartbeats
        toWire).filter (·.subject = x)).map (·.signal) =
      (events.filter fun e => p (alert e)).map (fun e => (lifecycle e).signal) ++
        (heartbeats.filter p).map fun _ => .beats := by
  have hdecide : ∀ a, decide (subject a = x) = p a := fun a => by
    rw [Bool.eq_iff_iff, decide_eq_true_iff]
    exact (hp a).symm
  unfold tickPushes
  rw [List.map_map, List.filter_append, List.map_append, List.filter_map, List.filter_map,
    List.map_map, List.map_map]
  congr 1
  · congr 1
    exact List.filter_congr fun e _ => hdecide (alert e)
  · congr 1
    exact List.filter_congr fun a _ => hdecide a

theorem filter_tickPushes_other {E : Type} {events : List E} {alert : E → T}
    {lifecycle : E → AlertLifecycle} {x : Subject} (hne : ∀ a, subject a ≠ x) :
    ((tickPushes subject now generatorUrl (events.map fun e => (alert e, lifecycle e)) heartbeats
        toWire).filter (·.subject = x)).map (·.signal) = [] := by
  rw [filter_tickPushes (fun _ => false) fun a =>
    ⟨fun h => Bool.noConfusion h, fun h => absurd h (hne a)⟩]
  simp

theorem Faithful.of_mem (h : Faithful subject toWire) {p : Push}
    (hp : p ∈ tickPushes subject now generatorUrl transitions heartbeats toWire) :
    p.alert.labels = p.subject.labels ∧ (p.alert.endsAt.isSome = true ↔ p.signal = .closes) := by
  rcases List.mem_append.mp hp with hp | hp
  · obtain ⟨⟨alert, lifecycle⟩, -, rfl⟩ := List.mem_map.mp hp
    refine ⟨h.labels .., ?_⟩
    rw [h.endsAt]
    cases lifecycle with
    | fired => exact ⟨fun h => Bool.noConfusion h, fun h => Signal.noConfusion h⟩
    | resolved => exact ⟨fun _ => rfl, fun _ => rfl⟩
  · obtain ⟨hb, -, rfl⟩ := List.mem_map.mp hp
    refine ⟨h.labels .., ?_⟩
    rw [h.endsAt]
    exact ⟨fun h => Bool.noConfusion h, fun h => Signal.noConfusion h⟩

end TickPushes

theorem faithful_alertToWire {F : Type} (fmt : WireFormat F) :
    Faithful (fun a : Alert F => .anomaly a.key) (alertToWire fmt) :=
  ⟨fun _ _ _ _ => rfl, fun _ _ _ _ => Option.isSome_map⟩

theorem faithful_synfloodAlertToWire {F : Type} (fmt : WireFormat F) :
    Faithful (fun a : SynFloodAlert F => .synFlood a.srcIp) (synfloodAlertToWire fmt) :=
  ⟨fun _ _ _ _ => rfl, fun _ _ _ _ => Option.isSome_map⟩

theorem faithful_portScanAlertToWire {F : Type} (fmt : WireFormat F) :
    Faithful (fun a : PortScanAlert F => .portScan a.srcIp) (portScanAlertToWire fmt) :=
  ⟨fun _ _ _ _ => rfl, fun _ _ _ _ => Option.isSome_map⟩

/-! ## One slot of a manager -/

def AlertState.pushes (active : Bool) (r : AlertState × Option AlertLifecycle) : List Signal :=
  r.2.toList.map AlertLifecycle.signal ++
    if r.2 = none ∧ r.1.isFiring = true ∧ active = true then [.beats] else []

theorem AlertState.follow_advance (s : AlertState) (active : Bool) (now : Instant) (C : Duration)
    (K R : UInt32) :
    follow s.isFiring (pushes active (s.advance active now C K R)) =
      some (s.advance active now C K R).1.isFiring := by
  have hfires := fired_iff s now C K R active
  have hresolves := resolved_iff s now C K R active
  have hfiring := isFiring_advance s now C K R active
  generalize s.advance active now C K R = r at *
  obtain ⟨s', event⟩ := r
  unfold pushes
  dsimp only at *
  rcases event with _ | _ | _
  · have hsame : s'.isFiring = s.isFiring := by
      rw [Bool.eq_iff_iff, hfiring]
      simp
    rw [← hsame]
    split_ifs with hbeat
    · rw [hbeat.2.1]; rfl
    · rfl
  · rw [(hfires.mp rfl).1, hfiring.mpr (.inl rfl)]
    rfl
  · have hs' : s'.isFiring = false := by
      rw [← Bool.not_eq_true, hfiring]
      simp
    rw [(hresolves.mp rfl).1, hs']
    rfl

section Proto

variable {F : Type} [F64 F]

def Slot.pushes (v : Slot F) : List Signal :=
  v.events.map (·.lifecycle.signal) ++ v.heartbeats.map fun _ => .beats

/-- What is pushed for a slot follows on: heartbeats come last, and only with a signal. -/
structure Slot.Follows (isOpen : Bool) (signal : Option (AlertSignal F)) (v : Slot F) : Prop where
  follow : follow isOpen v.pushes = some v.state.isFiring
  heartbeats : v.heartbeats ≠ [] → v.state.isFiring = true ∧ signal.isSome = true

theorem Slot.pushes_emitted (key : AlertKey) (signal : Option (AlertSignal F)) (rule : AlertRule F)
    {r : AlertState × Option AlertLifecycle} (h : r.2 = some .fired → signal.isSome = true) :
    (emitted key signal rule r.2).map (·.lifecycle.signal) ++
      ((reaffirmed signal r).map fun _ => .beats) = AlertState.pushes signal.isSome r := by
  unfold AlertState.pushes reaffirmed
  congr 1
  · have hevent : (emitted key signal rule r.2).map (·.lifecycle) = r.2.toList :=
      lifecycle_emitted h
    rw [← hevent, List.map_map]
    rfl
  · cases signal with
    | none => simp
    | some s =>
      simp only [Option.toList_some, List.map_cons, List.map_nil, Option.isSome_some, and_true]
      split_ifs <;> rfl

theorem Slot.Follows.advance {isOpen : Bool} {signal : Option (AlertSignal F)} {v : Slot F}
    (h : v.Follows isOpen signal) (key : AlertKey) (now : Instant) (rule : AlertRule F) :
    (v.advance key signal now rule).Follows isOpen signal := by
  obtain ⟨hfollow, hbeats⟩ := h
  have hpushes := Slot.pushes_emitted key signal rule
    (r := Slot.step signal now v.state rule) Slot.signal_of_fired
  have hstep : Session.follow v.state.isFiring
      (AlertState.pushes signal.isSome (Slot.step signal now v.state rule)) =
        some (Slot.step signal now v.state rule).1.isFiring := AlertState.follow_advance ..
  by_cases hnone : v.heartbeats = []
  · refine ⟨?_, fun hne => ?_⟩
    · unfold Slot.pushes at hfollow ⊢
      unfold Slot.advance
      rw [hnone, List.map_nil, List.append_nil] at hfollow
      rw [hnone, List.nil_append, List.map_append, List.append_assoc, hpushes, follow_append,
        hfollow]
      exact hstep
    · unfold Slot.advance Slot.reaffirmed at hne
      rw [hnone, List.nil_append] at hne
      split_ifs at hne with hfiring
      · refine ⟨hfiring.2, ?_⟩
        cases signal with
        | none => exact absurd rfl hne
        | some s => rfl
      · exact absurd rfl hne
  · -- a slot with a heartbeat is firing on a signal, and gets another heartbeat
    obtain ⟨hs, hsig⟩ := hbeats hnone
    obtain ⟨s, rfl⟩ := Option.isSome_iff_exists.mp hsig
    have hr : Slot.step (some s) now v.state rule =
        ({ v.state with resolveConsecutiveCount := 0 }, none) :=
      AlertState.advance_active_of_firing _ _ _ _ hs
    have hfiring : (Slot.step (some s) now v.state rule).1.isFiring = true := by rw [hr]; exact hs
    refine ⟨?_, fun _ => ⟨hfiring, rfl⟩⟩
    unfold Slot.pushes at hfollow ⊢
    unfold Slot.advance
    rw [hfiring]
    rw [hr] at hpushes ⊢
    rw [hs] at hfollow
    unfold Slot.reaffirmed
    rw [if_pos ⟨rfl, hs⟩]
    simp only [Slot.emitted, List.append_nil, List.map_append, Option.toList_some, List.map_cons,
      List.map_nil, ← List.append_assoc]
    rw [follow_concat, hfollow]
    rfl

theorem Slot.Follows.foldl {isOpen : Bool} {signal : Option (AlertSignal F)} (key : AlertKey)
    (now : Instant) (rules : List (AlertRule F)) {v : Slot F} (h : v.Follows isOpen signal) :
    (rules.foldl (Slot.advance key signal now) v).Follows isOpen signal := by
  induction rules generalizing v with
  | nil => exact h
  | cons rule rules ih => exact ih (h.advance key now rule)

theorem AlertLifecycleManager.follow_slot (m : AlertLifecycleManager F) (t : ProtoTick F)
    (key : AlertKey) :
    follow (m.slotState key).isFiring
      (((step m t).2.1.filter (·.alert.key = key)).map (·.lifecycle.signal) ++
        ((step m t).2.2.filter (·.key = key)).map fun _ => .beats) =
      some ((step m t).1.slotState key).isFiring := by
  obtain ⟨-, hstate, hev, hhb⟩ := tick_slot t.order m t.signals t.now key
  unfold step
  rw [hstate, hev, hhb]
  refine (Slot.Follows.foldl key t.now (m.slotRules key) ⟨?_, fun h => absurd rfl h⟩).follow
  rfl

end Proto

section Ip

variable {S A : Type} [IpKeyed S] [FromIpSignal S A] [AlertIp A] [LawfulFromIpSignal S A]

theorem IpAlertLifecycleManager.follow_slot (m : IpAlertLifecycleManager S A) (t : IpTick S)
    (ip : Ipv4Addr) :
    follow (m.slotState ip).isFiring
      (((step m t).2.1.filter (AlertIp.alertIp ·.alert = ip)).map (·.lifecycle.signal) ++
        ((step m t).2.2.filter (AlertIp.alertIp · = ip)).map fun _ => .beats) =
      some ((step m t).1.slotState ip).isFiring := by
  obtain ⟨hlookup, hev, hhb⟩ := tick_slot t.order m t.signals t.now ip
  have hstep : follow (m.slotState ip).isFiring (AlertState.pushes (t.sees ip).active
      (AlertState.feed m.config (m.slotState ip) (t.sees ip))) =
        some (AlertState.feed m.config (m.slotState ip) (t.sees ip)).1.isFiring :=
    AlertState.follow_advance ..
  have hstate : ((step m t).1.slotState ip).isFiring =
      (AlertState.feed m.config (m.slotState ip) (t.sees ip)).1.isFiring := by
    have hslot : (step m t).1.slotState ip = _ :=
      congrArg (fun state => Option.getD state AlertState.new) hlookup
    rw [hslot]
    split_ifs with hkept
    · rfl
    · -- a dropped state is cold, and so not firing
      obtain ⟨-, hcold⟩ := not_or.mp hkept
      symm
      apply (AlertState.not_isFiring_iff _).mpr
      intro hp
      apply hcold
      apply AlertState.isHot_of_not_inactive
      exact fun hp' => absurd (hp.symm.trans hp') (by decide)
  unfold step
  rw [hev, hhb]
  refine Eq.trans (congrArg _ ?_) (hstep.trans (congrArg some hstate.symm))
  unfold emitted reaffirmed AlertState.pushes
  rw [List.map_map]
  congr 1
  unfold IpTick.sees
  split_ifs <;> rfl

end Ip

/-! ## The stream of a run -/

section Stream

variable {F : Type} [F64 F]

/-- The three managers whose alerts are pushed. -/
structure Managers (F : Type) where
  proto : AlertLifecycleManager F
  synFlood : IpAlertLifecycleManager (SynFloodSignal F) (SynFloodAlert F)
  portScan : IpAlertLifecycleManager (PortScanSignal F) (PortScanAlert F)

/-- A tick of one of the managers, and the wall-clock time of its dispatch. -/
inductive ManagerTick (F : Type)
  | proto (t : ProtoTick F) (wall : SystemTime)
  | synFlood (t : IpTick (SynFloodSignal F)) (wall : SystemTime)
  | portScan (t : IpTick (PortScanSignal F)) (wall : SystemTime)

namespace Managers

def new (rules : List (AlertRule F)) (synFlood portScan : FsmConfig) : Managers F where
  proto := .new rules
  synFlood := IpAlertLifecycleManager.after synFlood []
  portScan := IpAlertLifecycleManager.after portScan []

variable (fmt : WireFormat F) (generatorUrl : Option String)

/-- A tick passed through `dispatch_tick_alerts` with the matching converter. -/
def dispatch (m : Managers F) : ManagerTick F → Managers F × List AlertmanagerAlert
  | .proto t wall =>
    let r := m.proto.step t
    ({ m with proto := r.1 }, dispatchTickAlerts true wall generatorUrl
      (r.2.1.map fun e => (e.alert, e.lifecycle)) r.2.2 (alertToWire fmt))
  | .synFlood t wall =>
    let r := m.synFlood.step t
    ({ m with synFlood := r.1 }, dispatchTickAlerts true wall generatorUrl
      (r.2.1.map fun e => (e.alert, e.lifecycle)) r.2.2 (synfloodAlertToWire fmt))
  | .portScan t wall =>
    let r := m.portScan.step t
    ({ m with portScan := r.1 }, dispatchTickAlerts true wall generatorUrl
      (r.2.1.map fun e => (e.alert, e.lifecycle)) r.2.2 (portScanAlertToWire fmt))

/-- `dispatch`, with what each pushed alert is about. -/
def step (m : Managers F) : ManagerTick F → Managers F × List Push
  | .proto t wall =>
    let r := m.proto.step t
    ({ m with proto := r.1 }, tickPushes (fun a => .anomaly a.key) wall generatorUrl
      (r.2.1.map fun e => (e.alert, e.lifecycle)) r.2.2 (alertToWire fmt))
  | .synFlood t wall =>
    let r := m.synFlood.step t
    ({ m with synFlood := r.1 }, tickPushes (fun a => .synFlood a.srcIp) wall generatorUrl
      (r.2.1.map fun e => (e.alert, e.lifecycle)) r.2.2 (synfloodAlertToWire fmt))
  | .portScan t wall =>
    let r := m.portScan.step t
    ({ m with portScan := r.1 }, tickPushes (fun a => .portScan a.srcIp) wall generatorUrl
      (r.2.1.map fun e => (e.alert, e.lifecycle)) r.2.2 (portScanAlertToWire fmt))

def stream (m : Managers F) (ticks : List (ManagerTick F)) : List Push :=
  (Run.outs (step fmt generatorUrl) m ticks).flatten

def isOpen (m : Managers F) : Subject → Bool
  | .anomaly key => (m.proto.slotState key).isFiring
  | .synFlood ip => (m.synFlood.slotState ip).isFiring
  | .portScan ip => (m.portScan.slotState ip).isFiring

theorem alert_step (m : Managers F) (t : ManagerTick F) :
    (m.step fmt generatorUrl t).1 = (m.dispatch fmt generatorUrl t).1 ∧
      (m.step fmt generatorUrl t).2.map (·.alert) = (m.dispatch fmt generatorUrl t).2 := by
  rcases t with ⟨t, wall⟩ | ⟨t, wall⟩ | ⟨t, wall⟩
  all_goals
    refine ⟨rfl, ?_⟩
    unfold step dispatch
    dsimp only
    exact alert_tickPushes ..

theorem alert_stream (m : Managers F) (ticks : List (ManagerTick F)) :
    (stream fmt generatorUrl m ticks).map (·.alert) =
      (Run.outs (dispatch fmt generatorUrl) m ticks).flatten := by
  unfold stream
  induction ticks generalizing m with
  | nil => rfl
  | cons t ticks ih =>
    obtain ⟨hstate, halerts⟩ := alert_step fmt generatorUrl m t
    rw [Run.outs, Run.outs, List.flatten_cons, List.flatten_cons, List.map_append, halerts, ih,
      hstate]

theorem faithful_stream (m : Managers F) (ticks : List (ManagerTick F)) :
    ∀ p ∈ stream fmt generatorUrl m ticks,
      p.alert.labels = p.subject.labels ∧ (p.alert.endsAt.isSome = true ↔ p.signal = .closes) := by
  intro p hp
  obtain ⟨out, hout, hp⟩ := List.mem_flatten.mp hp
  obtain ⟨pre, t, -, -, rfl⟩ := Run.exists_of_mem_outs _ _ hout
  rcases t with ⟨t, wall⟩ | ⟨t, wall⟩ | ⟨t, wall⟩
  · exact (faithful_alertToWire fmt).of_mem hp
  · exact (faithful_synfloodAlertToWire fmt).of_mem hp
  · exact (faithful_portScanAlertToWire fmt).of_mem hp

theorem follow_step (m : Managers F) (t : ManagerTick F) (x : Subject) :
    follow (m.isOpen x) (((m.step fmt generatorUrl t).2.filter (·.subject = x)).map (·.signal)) =
      some ((m.step fmt generatorUrl t).1.isOpen x) := by
  unfold step
  rcases t with ⟨t, wall⟩ | ⟨t, wall⟩ | ⟨t, wall⟩
  · rcases x with key | ip | ip <;> dsimp only
    · rw [filter_tickPushes (fun a => decide (a.key = key)) fun a => by simp]
      exact m.proto.follow_slot t key
    · rw [filter_tickPushes_other fun _ h => Subject.noConfusion h]; rfl
    · rw [filter_tickPushes_other fun _ h => Subject.noConfusion h]; rfl
  · rcases x with key | ip | ip <;> dsimp only
    · rw [filter_tickPushes_other fun _ h => Subject.noConfusion h]; rfl
    · rw [filter_tickPushes (fun a => decide (a.srcIp = ip)) fun a => by simp]
      exact m.synFlood.follow_slot t ip
    · rw [filter_tickPushes_other fun _ h => Subject.noConfusion h]; rfl
  · rcases x with key | ip | ip <;> dsimp only
    · rw [filter_tickPushes_other fun _ h => Subject.noConfusion h]; rfl
    · rw [filter_tickPushes_other fun _ h => Subject.noConfusion h]; rfl
    · rw [filter_tickPushes (fun a => decide (a.srcIp = ip)) fun a => by simp]
      exact m.portScan.follow_slot t ip

theorem follow_stream (m : Managers F) (ticks : List (ManagerTick F)) (x : Subject) :
    follow (m.isOpen x)
        (((stream fmt generatorUrl m ticks).filter (·.subject = x)).map (·.signal)) =
      some ((Run.exec (step fmt generatorUrl) m ticks).isOpen x) := by
  unfold stream
  induction ticks generalizing m with
  | nil => rfl
  | cons t ticks ih =>
    rw [Run.outs, List.flatten_cons, List.filter_append, List.map_append, follow_append,
      follow_step, Option.bind_some, ih, Run.exec_cons]

theorem isOpen_new (rules : List (AlertRule F)) (synFlood portScan : FsmConfig) (x : Subject) :
    (new rules synFlood portScan).isOpen x = false := by
  rcases x with key | ip | ip <;> rfl

theorem labels_eq_iff (m : Managers F) (ticks : List (ManagerTick F)) {p q : Push}
    (hp : p ∈ stream fmt generatorUrl m ticks) (hq : q ∈ stream fmt generatorUrl m ticks) :
    p.alert.labels = q.alert.labels ↔ p.subject = q.subject := by
  rw [(faithful_stream fmt generatorUrl m ticks p hp).1,
    (faithful_stream fmt generatorUrl m ticks q hq).1]
  exact Subject.labels_injective.eq_iff

theorem filter_labels (m : Managers F) (ticks : List (ManagerTick F)) {p : Push}
    (hp : p ∈ stream fmt generatorUrl m ticks) {part : List Push}
    (hpart : ∀ q ∈ part, q ∈ stream fmt generatorUrl m ticks) :
    part.filter (·.alert.labels = p.alert.labels) = part.filter (·.subject = p.subject) := by
  apply List.filter_congr
  intro q hq
  exact decide_eq_decide.mpr (labels_eq_iff fmt generatorUrl m ticks (hpart q hq) hp)

end Managers

/-- **The pushed stream is well formed**: under each label set it consists of sessions, exactly the
alerts with an end close one, nothing but a fire is pushed where none is open, and labels tell
families and slots apart. -/
theorem stream_well_formed (fmt : WireFormat F) (generatorUrl : Option String)
    (rules : List (AlertRule F)) (synFlood portScan : FsmConfig) (ticks : List (ManagerTick F)) :
    let m := Managers.new rules synFlood portScan
    let stream := Managers.stream fmt generatorUrl m ticks
    stream.map (·.alert) = (Run.outs (Managers.dispatch fmt generatorUrl) m ticks).flatten ∧
    (∀ labels, (stream.filter (·.alert.labels = labels)).map (·.signal) ∈ Session.streams) ∧
    (∀ p ∈ stream, p.alert.endsAt.isSome = true ↔ p.signal = .closes) ∧
    (∀ past p rest, stream = past ++ p :: rest →
      follow false ((past.filter (·.alert.labels = p.alert.labels)).map (·.signal)) =
        some (decide (p.signal ≠ .opens))) ∧
    ∀ p ∈ stream, ∀ q ∈ stream, p.alert.labels = q.alert.labels ↔ p.subject = q.subject := by
  intro m stream
  have hfollow : ∀ x, ∃ isOpen,
      follow false ((stream.filter (·.subject = x)).map (·.signal)) = some isOpen := fun x => by
    have h := Managers.follow_stream fmt generatorUrl m ticks x
    rw [Managers.isOpen_new] at h
    exact ⟨_, h⟩
  refine ⟨Managers.alert_stream fmt generatorUrl m ticks, fun labels => ?_, fun p hp => ?_,
    fun past p rest h => ?_, fun p hp q hq => ?_⟩
  · by_cases hp : ∃ p ∈ stream, p.alert.labels = labels
    · obtain ⟨p, hp, rfl⟩ := hp
      obtain ⟨isOpen, hopen⟩ := hfollow p.subject
      rw [Managers.filter_labels fmt generatorUrl m ticks hp fun q hq => hq]
      exact mem_streams_of_follow hopen
    · have hnone : stream.filter (·.alert.labels = labels) = [] :=
        List.filter_eq_nil_iff.mpr fun p hmem hl => hp ⟨p, hmem, of_decide_eq_true hl⟩
      rw [hnone]
      exact mem_streams_of_follow (follow_nil false)
  · exact (Managers.faithful_stream fmt generatorUrl m ticks p hp).2
  · have hp : p ∈ stream := by rw [h]; simp
    obtain ⟨isOpen, hopen⟩ := hfollow p.subject
    rw [h, List.filter_append, List.filter_cons_of_pos (by simp), List.map_append,
      List.map_cons] at hopen
    rw [Managers.filter_labels fmt generatorUrl m ticks hp fun q hq => by
      show q ∈ stream
      rw [h]
      exact List.mem_append_left _ hq]
    exact follow_before hopen
  · exact Managers.labels_eq_iff fmt generatorUrl m ticks hp hq

end Stream

end EbpfXdp
