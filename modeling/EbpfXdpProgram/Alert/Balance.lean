import EbpfXdpProgram.Alert.ActiveCount
import EbpfXdpProgram.Alertmanager.Stream
import EbpfXdpProgram.Lib.Tally

/-!
# Fires and resolves

Every alert that has fired and is not firing any more has been resolved: the fires of a tick exceed
its resolves by as many alerts as the tick adds to the firing ones.
-/

namespace EbpfXdp

open Session

/-- Before an advance and after it, the FSM is firing, or not, as the events say. -/
theorem balance_of_follow {E B : Type} {wasOpen isOpen : Bool} {lifecycle : E → AlertLifecycle}
    {events : List E} {beats : List B}
    (h : follow wasOpen ((events.map fun e => (lifecycle e).signal) ++ beats.map fun _ => .beats) =
      some isOpen) :
    wasOpen.toNat + (events.map lifecycle).count .fired =
      (events.map lifecycle).count .resolved + isOpen.toNat := by
  have hbeats : ∀ a : Signal, a ≠ .beats →
      (beats.map fun _ => Signal.beats).count a = 0 := fun a ha =>
    List.count_eq_zero.mpr fun hmem => by
      obtain ⟨_, -, rfl⟩ := List.mem_map.mp hmem
      exact ha rfl
  have hsignal : Function.Injective AlertLifecycle.signal := by
    intro a b hab
    cases a <;> cases b <;> first | rfl | exact Signal.noConfusion hab
  have hcount : ∀ l : AlertLifecycle,
      (events.map fun e => (lifecycle e).signal).count l.signal = (events.map lifecycle).count l :=
    fun l => by
      rw [← List.count_map_of_injective _ _ hsignal, List.map_map]
      rfl
  have hbalance := count_of_follow h
  rw [List.count_append, List.count_append, hbeats _ (by decide), hbeats _ (by decide)] at hbalance
  exact (congrArg (_ + ·) (hcount .fired).symm).trans
    (hbalance.trans (congrArg (· + _) (hcount .resolved)))

/-! ## Per slot -/

section Proto

variable {F : Type} [F64 F]

theorem AlertLifecycleManager.balance_slot (m : AlertLifecycleManager F) (t : ProtoTick F)
    (key : AlertKey) :
    (m.slotState key).isFiring.toNat + (slotEvents (step m t) key).count .fired =
      (slotEvents (step m t) key).count .resolved + ((step m t).1.slotState key).isFiring.toNat :=
  balance_of_follow (m.follow_slot t key)

end Proto

/-! ## Over the sources -/

namespace IpAlertLifecycleManager

variable {S A : Type}

def firingSources (m : IpAlertLifecycleManager S A) : Finset Ipv4Addr :=
  m.states.keys.filter fun ip => (m.slotState ip).isFiring = true

theorem mem_firingSources {m : IpAlertLifecycleManager S A} {ip : Ipv4Addr} :
    ip ∈ m.firingSources ↔ (m.slotState ip).isFiring = true := by
  unfold firingSources
  rw [Finset.mem_filter, and_iff_right_iff_imp, Table.mem_keys]
  intro hfiring
  rw [lookup_of_not_inactive ip fun hp => by
    rw [(AlertState.isFiring_iff _).mp hfiring] at hp
    cases hp]
  rfl

/-- The firing sources are counted over any set that has them all. -/
theorem sum_firing {m : IpAlertLifecycleManager S A} {sources : Finset Ipv4Addr}
    (h : m.firingSources ⊆ sources) :
    ∑ ip ∈ sources, (m.slotState ip).isFiring.toNat = m.firingSources.card := by
  have hfilter : m.firingSources = sources.filter fun ip => (m.slotState ip).isFiring = true := by
    ext ip
    rw [Finset.mem_filter, mem_firingSources]
    exact ⟨fun hfiring => ⟨h (mem_firingSources.mpr hfiring), hfiring⟩, And.right⟩
  rw [hfilter, Finset.card_filter]
  exact Finset.sum_congr rfl fun ip _ => by cases (m.slotState ip).isFiring <;> rfl

variable [IpKeyed S] [FromIpSignal S A] [AlertIp A] [LawfulFromIpSignal S A]

theorem balance_slot (m : IpAlertLifecycleManager S A) (t : IpTick S) (ip : Ipv4Addr) :
    (m.slotState ip).isFiring.toNat + ((slotEvents (step m t) ip).map (·.lifecycle)).count .fired =
      ((slotEvents (step m t) ip).map (·.lifecycle)).count .resolved +
        ((step m t).1.slotState ip).isFiring.toNat :=
  balance_of_follow (m.follow_slot t ip)

omit [IpKeyed S] [FromIpSignal S A] [LawfulFromIpSignal S A] in
theorem sum_count_slotEvents (out : IpAlertLifecycleManager S A × List (IpAlertEvent A) × List A)
    {sources : Finset Ipv4Addr} (h : ∀ e ∈ out.2.1, AlertIp.alertIp e.alert ∈ sources)
    (l : AlertLifecycle) :
    ∑ ip ∈ sources, ((slotEvents out ip).map (·.lifecycle)).count l =
      (out.2.1.map (·.lifecycle)).count l := by
  have htally : ∀ p : IpAlertEvent A → Prop, [DecidablePred p] → ∀ events : List (IpAlertEvent A),
      tally (fun _ => 1) p events = events.countP fun e => p e := fun p _ events => by
    rw [tally_one, List.countP_eq_length_filter]
  have hsum := sum_tally_key (w := fun _ => 1) (p := fun e : IpAlertEvent A => e.lifecycle = l)
    (fun e => AlertIp.alertIp e.alert) sources out.2.1
  simp only [htally] at hsum
  rw [List.count_eq_countP, List.countP_map]
  refine (Finset.sum_congr rfl fun ip _ => ?_).trans (hsum.trans ?_)
  · unfold slotEvents
    rw [List.count_eq_countP, List.countP_map, List.countP_filter]
    apply List.countP_congr
    intro e _
    simp only [Function.comp_apply, Bool.and_eq_true, beq_iff_eq, decide_eq_true_eq]
    exact and_comm
  · apply List.countP_congr
    intro e he
    simp only [h e he, true_and, Function.comp_apply, beq_iff_eq, decide_eq_true_eq]

/-- The fires of a tick and the sources that were firing, against its resolves and those that
are. -/
theorem balance (m : IpAlertLifecycleManager S A) (t : IpTick S) :
    m.firingSources.card + ((step m t).2.1.map (·.lifecycle)).count .fired =
      ((step m t).2.1.map (·.lifecycle)).count .resolved + (step m t).1.firingSources.card := by
  let sources := m.firingSources ∪ (step m t).1.firingSources ∪
    ((step m t).2.1.map fun e => AlertIp.alertIp e.alert).toFinset
  have hevents : ∀ e ∈ (step m t).2.1, AlertIp.alertIp e.alert ∈ sources := fun e he =>
    Finset.mem_union_right _ (List.mem_toFinset.mpr (List.mem_map_of_mem he))
  have hbefore : m.firingSources ⊆ sources :=
    Finset.subset_union_left.trans Finset.subset_union_left
  have hafter : (step m t).1.firingSources ⊆ sources :=
    Finset.subset_union_right.trans Finset.subset_union_left
  rw [← sum_firing hbefore, ← sum_firing hafter, ← sum_count_slotEvents _ hevents,
    ← sum_count_slotEvents _ hevents, ← Finset.sum_add_distrib, ← Finset.sum_add_distrib]
  exact Finset.sum_congr rfl fun ip _ => m.balance_slot t ip

end IpAlertLifecycleManager

end EbpfXdp
