import EbpfXdpProgram.Alert.State
import Mathlib.Data.List.ReduceOption

/-!
# The alert FSM against its history

What an FSM fed from `AlertState.new` emits, said in terms of the signals and events so far and of
nothing the FSM stores: `Tracks` ties each field of the state to a suffix of the history.
-/

namespace EbpfXdp

/-- The parameters that `advance` is called with. -/
structure FsmConfig where
  cooldown : Duration
  consecutiveThreshold : UInt32
  resolveConsecutiveThreshold : UInt32

/-- A tick as one slot sees it. -/
structure SlotTick where
  active : Bool
  now : Instant
deriving DecidableEq

namespace AlertState

variable (P : FsmConfig)

/-- `advance` with the parameters `P`. -/
def feed (s : AlertState) (t : SlotTick) : AlertState × Option AlertLifecycle :=
  s.advance t.active t.now P.cooldown P.consecutiveThreshold P.resolveConsecutiveThreshold

/-- The state after `ticks`, from `AlertState::new()`. -/
def after (ticks : List SlotTick) : AlertState := Run.exec (feed P) new ticks

/-- What the ticks emitted, one entry a tick. -/
def events (ticks : List SlotTick) : List (Option AlertLifecycle) := Run.outs (feed P) new ticks

def eventAt (past : List SlotTick) (t : SlotTick) : Option AlertLifecycle :=
  (feed P (after P past) t).2

theorem after_concat (past : List SlotTick) (t : SlotTick) :
    after P (past ++ [t]) = (feed P (after P past) t).1 := Run.exec_concat ..

theorem events_concat (past : List SlotTick) (t : SlotTick) :
    events P (past ++ [t]) = events P past ++ [eventAt P past t] := Run.outs_concat ..

theorem length_events (ticks : List SlotTick) : (events P ticks).length = ticks.length :=
  Run.length_outs ..

end AlertState

/-! ## The history specification -/

def openAfter (events : List (Option AlertLifecycle)) : Bool :=
  events.reduceOption.getLast? == some .fired

def firedTimes (ticks : List SlotTick) (events : List (Option AlertLifecycle)) : List Instant :=
  ((ticks.zip events).filter (·.2 == some .fired)).map (·.1.now)

def lastFiredAt (ticks : List SlotTick) (events : List (Option AlertLifecycle)) :
    Option Instant :=
  (firedTimes ticks events).getLast?

/-- `Fired` and `Resolved` in turn, starting with `Fired`. -/
def Alternates (emitted : List AlertLifecycle) : Prop :=
  emitted.IsChain (· ≠ ·) ∧ emitted.head? ≠ some .resolved

theorem reduceOption_cons (e : Option AlertLifecycle) (events : List (Option AlertLifecycle)) :
    (e :: events).reduceOption = e.toList ++ events.reduceOption := by cases e <;> rfl

theorem reduceOption_concat (events : List (Option AlertLifecycle)) (e : Option AlertLifecycle) :
    (events ++ [e]).reduceOption = events.reduceOption ++ e.toList := by
  rw [List.reduceOption_append]
  cases e <;> rfl

theorem openAfter_concat (events : List (Option AlertLifecycle)) (e : Option AlertLifecycle) :
    openAfter (events ++ [e]) =
      (e == some .fired || openAfter events && e != some .resolved) := by
  unfold openAfter
  rw [reduceOption_concat]
  rcases e with _ | _ | _
  · simp
  · simp
  · simp

theorem firedTimes_concat {ticks : List SlotTick} {events : List (Option AlertLifecycle)}
    (h : events.length = ticks.length) (t : SlotTick) (e : Option AlertLifecycle) :
    firedTimes (ticks ++ [t]) (events ++ [e]) =
      firedTimes ticks events ++ if e = some .fired then [t.now] else [] := by
  unfold firedTimes
  rw [List.zip_append h.symm, List.filter_append, List.map_append]
  congr 1
  split_ifs with he
  · rw [he]; rfl
  · simp [he]

theorem lastFiredAt_concat {ticks : List SlotTick} {events : List (Option AlertLifecycle)}
    (h : events.length = ticks.length) (t : SlotTick) (e : Option AlertLifecycle) :
    lastFiredAt (ticks ++ [t]) (events ++ [e]) =
      if e = some .fired then some t.now else lastFiredAt ticks events := by
  unfold lastFiredAt
  rw [firedTimes_concat h]
  split_ifs
  · rw [List.getLast?_concat]
  · rw [List.append_nil]

theorem Alternates.concat {events : List (Option AlertLifecycle)} {e : Option AlertLifecycle}
    (h : Alternates events.reduceOption) (hf : e = some .fired → openAfter events = false)
    (hr : e = some .resolved → openAfter events = true) :
    Alternates (events ++ [e]).reduceOption := by
  rw [reduceOption_concat]
  rcases e with _ | e
  · simpa using h
  obtain ⟨hchain, hhead⟩ := h
  have hlast : ∀ x ∈ events.reduceOption.getLast?, x ≠ e := by
    intro x hx
    rcases e with _ | _
    · have hclosed := hf rfl
      rintro rfl
      rw [openAfter, Option.mem_def.mp hx] at hclosed
      exact absurd hclosed (by decide)
    · have hopen : events.reduceOption.getLast? = some .fired := by simpa [openAfter] using hr rfl
      rw [hopen] at hx
      obtain rfl := Option.some.inj hx
      decide
  refine ⟨hchain.append (List.isChain_singleton e) fun x hx y hy => ?_, ?_⟩
  · obtain rfl : e = y := Option.some.inj hy
    exact hlast x hx
  · rw [List.head?_append]
    cases hev : events.reduceOption with
    | nil =>
      rcases e with _ | _
      · decide
      · have hopen := hr rfl
        rw [openAfter, hev] at hopen
        exact absurd hopen (by decide)
    | cons x xs => rwa [hev] at hhead

/-! ## The state tracks the history -/

namespace AlertState

variable (P : FsmConfig)

/-- What each field of the state says about the ticks and events so far. -/
structure Tracks (past : List SlotTick) (s : AlertState) : Prop where
  settled : s.Settled
  isFiring : s.isFiring = openAfter (events P past)
  lastFired : s.lastFired = lastFiredAt past (events P past)
  count : s.isFiring = false → s.consecutiveCount.toNat = streak (·.active) past
  resolve : s.isFiring = true → s.resolveConsecutiveCount.toNat = streak (!·.active) past

theorem toNat_add_one {x : UInt32} {n : ℕ} (h : x.toNat = n) (hn : n + 1 < 2 ^ 32) :
    (x + 1).toNat = n + 1 := by
  rw [UInt32.toNat_add, h]
  exact Nat.mod_eq_of_lt hn

/-- The firing flag is the open flag of the events, whatever the length of the run. -/
theorem isFiring_feed (past : List SlotTick) (t : SlotTick)
    (h : (after P past).isFiring = openAfter (events P past)) :
    (feed P (after P past) t).1.isFiring = openAfter (events P (past ++ [t])) := by
  rw [events_concat, openAfter_concat, ← h, Bool.eq_iff_iff]
  unfold feed
  rw [isFiring_advance]
  simp [eventAt, feed]

theorem lastFired_feed (past : List SlotTick) (t : SlotTick)
    (h : (after P past).lastFired = lastFiredAt past (events P past)) :
    (feed P (after P past) t).1.lastFired = lastFiredAt (past ++ [t]) (events P (past ++ [t])) := by
  rw [events_concat, lastFiredAt_concat (length_events P past), ← h]
  exact lastFired_advance ..

theorem tracks_step (past : List SlotTick) (t : SlotTick) (hlen : (past ++ [t]).length < 2 ^ 32)
    (h : Tracks P past (after P past)) : Tracks P (past ++ [t]) (feed P (after P past) t).1 := by
  have hbound : ∀ p : SlotTick → Bool, streak p past + 1 < 2 ^ 32 := fun p => by
    have := streak_le_length p past
    rw [List.length_append, List.length_singleton] at hlen
    omega
  refine ⟨h.settled.advance .., isFiring_feed P past t h.isFiring,
    lastFired_feed P past t h.lastFired, ?_, ?_⟩
  all_goals
    unfold feed
    rcases ht : t.active with _ | _ <;> rcases hs : (after P past).isFiring with _ | _
  · rw [h.settled.advance_quiet _ _ _ _ hs, streak_concat_neg ht]
    exact fun _ => rfl
  · rw [advance_quiet_of_firing _ _ _ _ hs, streak_concat_neg ht]
    split_ifs
    · exact fun _ => rfl
    · exact fun hs' => absurd ((isFiring_iff _).mp hs) ((not_isFiring_iff _).mp hs')
  · rw [advance_active_of_not_firing _ _ _ _ hs, streak_concat_pos ht, h.settled.bump_eq]
    split_ifs
    · exact fun _ => toNat_add_one (h.count hs) (hbound _)
    · exact fun _ => toNat_add_one (h.count hs) (hbound _)
  · rw [advance_active_of_firing _ _ _ _ hs]
    exact fun hs' => absurd ((isFiring_iff _).mp hs) ((not_isFiring_iff _).mp hs')
  · rw [h.settled.advance_quiet _ _ _ _ hs]
    exact fun hs' => Bool.noConfusion hs'
  · rw [advance_quiet_of_firing _ _ _ _ hs, streak_concat_pos (by rw [ht]; rfl)]
    split_ifs
    · exact fun hs' => Bool.noConfusion hs'
    · exact fun _ => toNat_add_one (h.resolve hs) (hbound _)
  · rw [advance_active_of_not_firing _ _ _ _ hs, streak_concat_neg (by rw [ht]; rfl)]
    split_ifs
    · exact fun _ => by rw [h.settled.resolve hs]; rfl
    · exact fun hs' => Bool.noConfusion hs'
  · rw [advance_active_of_firing _ _ _ _ hs, streak_concat_neg (by rw [ht]; rfl)]
    exact fun _ => rfl

theorem tracks_new : Tracks P [] new :=
  ⟨settled_new, rfl, rfl, fun _ => rfl, fun h => Bool.noConfusion h⟩

theorem tracks (ticks : List SlotTick) (h : ticks.length < 2 ^ 32) :
    Tracks P ticks (after P ticks) :=
  Run.exec_history (P := fun ticks => ticks.length < 2 ^ 32) (R := Tracks P)
    (fun past t hlen => by rw [List.length_append] at hlen; omega) (tracks_new P)
    (tracks_step P) ticks h

/-! ## The events against the specification -/

theorem isFiring_after (ticks : List SlotTick) :
    (after P ticks).isFiring = openAfter (events P ticks) :=
  Run.exec_history (P := fun _ => True)
    (R := fun past (s : AlertState) => s.isFiring = openAfter (events P past))
    (fun _ _ _ => trivial) rfl
    (fun past t _ => isFiring_feed P past t) ticks trivial

theorem lastFired_after (ticks : List SlotTick) :
    (after P ticks).lastFired = lastFiredAt ticks (events P ticks) :=
  Run.exec_history (P := fun _ => True)
    (R := fun past (s : AlertState) => s.lastFired = lastFiredAt past (events P past))
    (fun _ _ _ => trivial) rfl
    (fun past t _ => lastFired_feed P past t) ticks trivial

theorem alternates_events (ticks : List SlotTick) :
    Alternates (events P ticks).reduceOption := by
  induction ticks using List.reverseRecOn with
  | nil => exact ⟨List.isChain_nil, nofun⟩
  | append_singleton past t ih =>
    rw [events_concat]
    refine ih.concat (fun h => ?_) (fun h => ?_)
    · rw [← isFiring_after]
      exact ((fired_iff ..).mp h).1
    · rw [← isFiring_after]
      exact ((resolved_iff ..).mp h).1

/-- Each fire waits for the cooldown of the one before it, and so of all before it. -/
theorem pairwise_firedTimes (ticks : List SlotTick) :
    (firedTimes ticks (events P ticks)).Pairwise fun a b => P.cooldown ≤ durationSince b a := by
  have : IsTrans Instant fun a b => P.cooldown ≤ durationSince b a :=
    ⟨fun a b c hab hbc => by rw [le_durationSince] at *; omega⟩
  rw [← List.isChain_iff_pairwise]
  induction ticks using List.reverseRecOn with
  | nil => exact List.isChain_nil
  | append_singleton past t ih =>
    rw [events_concat, firedTimes_concat (length_events P past)]
    split_ifs with he
    · refine ih.append (List.isChain_singleton _) fun a ha b hb => ?_
      obtain rfl : t.now = b := Option.some.inj hb
      have hpassed := ((fired_iff ..).mp he).2.2.2
      rw [cooldownPassed_iff, lastFired_after] at hpassed
      exact hpassed a ha
    · rwa [List.append_nil]

theorem fired_iff_history (past : List SlotTick) (t : SlotTick)
    (hlen : (past ++ [t]).length < 2 ^ 32) :
    eventAt P past t = some .fired ↔
      openAfter (events P past) = false ∧ t.active = true ∧
        P.consecutiveThreshold.toNat ≤ streak (·.active) (past ++ [t]) ∧
        ∀ t₀, lastFiredAt past (events P past) = some t₀ →
          P.cooldown ≤ durationSince t.now t₀ := by
  have hlen' : past.length + 1 < 2 ^ 32 := by rwa [List.length_append] at hlen
  have h := tracks P past (by omega)
  have hcount : openAfter (events P past) = false → t.active = true →
      (P.consecutiveThreshold ≤ (after P past).bump ↔
        P.consecutiveThreshold.toNat ≤ streak (·.active) (past ++ [t])) := fun ho ht => by
    have hs := streak_le_length (·.active) past
    rw [UInt32.le_iff_toNat_le, h.settled.bump_eq, streak_concat_pos ht,
      toNat_add_one (h.count (h.isFiring.trans ho)) (by omega)]
  unfold eventAt feed
  rw [fired_iff, h.isFiring, cooldownPassed_iff, h.lastFired]
  constructor
  · rintro ⟨ho, ht, hk, hc⟩
    exact ⟨ho, ht, (hcount ho ht).mp hk, hc⟩
  · rintro ⟨ho, ht, hk, hc⟩
    exact ⟨ho, ht, (hcount ho ht).mpr hk, hc⟩

theorem resolved_iff_history (past : List SlotTick) (t : SlotTick)
    (hlen : (past ++ [t]).length < 2 ^ 32) :
    eventAt P past t = some .resolved ↔
      openAfter (events P past) = true ∧ t.active = false ∧
        P.resolveConsecutiveThreshold.toNat ≤ streak (!·.active) (past ++ [t]) := by
  have hlen' : past.length + 1 < 2 ^ 32 := by rwa [List.length_append] at hlen
  have h := tracks P past (by omega)
  have hcount : openAfter (events P past) = true → t.active = false →
      (P.resolveConsecutiveThreshold ≤ (after P past).resolveConsecutiveCount + 1 ↔
        P.resolveConsecutiveThreshold.toNat ≤ streak (!·.active) (past ++ [t])) := fun ho ht => by
    have hs := streak_le_length (!·.active) past
    rw [UInt32.le_iff_toNat_le, streak_concat_pos (by rw [ht]; rfl),
      toNat_add_one (h.resolve (h.isFiring.trans ho)) (by omega)]
  unfold eventAt feed
  rw [resolved_iff, h.isFiring]
  constructor
  · rintro ⟨ho, ht, hr⟩
    exact ⟨ho, ht, (hcount ho ht).mp hr⟩
  · rintro ⟨ho, ht, hr⟩
    exact ⟨ho, ht, (hcount ho ht).mpr hr⟩

/-- **The FSM refines its history specification**: when an alert fires and resolves is told by the
signals and events so far; the events alternate, and the fires are a cooldown apart. -/
theorem advance_refines_history (ticks : List SlotTick) (hlen : ticks.length < 2 ^ 32) :
    (∀ past t rest, ticks = past ++ t :: rest →
      (eventAt P past t = some .fired ↔
        openAfter (events P past) = false ∧ t.active = true ∧
          P.consecutiveThreshold.toNat ≤ streak (·.active) (past ++ [t]) ∧
          ∀ t₀, lastFiredAt past (events P past) = some t₀ →
            P.cooldown ≤ durationSince t.now t₀) ∧
      (eventAt P past t = some .resolved ↔
        openAfter (events P past) = true ∧ t.active = false ∧
          P.resolveConsecutiveThreshold.toNat ≤ streak (!·.active) (past ++ [t]))) ∧
    Alternates (events P ticks).reduceOption ∧
    (firedTimes ticks (events P ticks)).Pairwise fun a b => P.cooldown ≤ durationSince b a := by
  refine ⟨fun past t rest h => ?_, alternates_events P ticks, pairwise_firedTimes P ticks⟩
  have hpast : (past ++ [t]).length < 2 ^ 32 := by
    rw [h] at hlen
    simp only [List.length_append, List.length_cons, List.length_nil] at hlen ⊢
    omega
  exact ⟨fired_iff_history P past t hpast, resolved_iff_history P past t hpast⟩

/-- One fire, one resolve, and a second fire that waits for the cooldown. -/
theorem advance_refines_history_short :
    Alternates (events ⟨5, 1, 1⟩ [⟨true, 0⟩, ⟨false, 1⟩, ⟨true, 2⟩, ⟨true, 6⟩]).reduceOption ∧
      events ⟨5, 1, 1⟩ [⟨true, 0⟩, ⟨false, 1⟩, ⟨true, 2⟩, ⟨true, 6⟩] =
        [some .fired, some .resolved, none, some .fired] :=
  ⟨(advance_refines_history ⟨5, 1, 1⟩ [⟨true, 0⟩, ⟨false, 1⟩, ⟨true, 2⟩, ⟨true, 6⟩]
    (by decide)).2.1, by decide⟩

end AlertState

end EbpfXdp
