import EbpfXdpProgram.Ebpf.Program

/-!
# The frames that the XDP program counts

The grammar of the frames in the words of the protocols: which frames are IPv4 and IPv6, which IPv4
headers are well formed, and which frames are bare SYNs. `ebpfXdpProgram_eq` says that the program
does what the grammar says, and so `accepts_grammar` reads each map off the grammar. Two frames that
differ past the IP datagram only look alike to the grammar (`padding_irrelevant`).
-/

namespace EbpfXdp

abbrev Frame := List UInt8

/-! ## The grammar -/

namespace Frame

variable (f : Frame)

/-- The byte at an offset, zero past the end. -/
def byteAt (i : ℕ) : ℕ := (f.getD i 0).toNat

/-- The big-endian 16-bit number at an offset. -/
def be16 (i : ℕ) : ℕ := 256 * f.byteAt i + f.byteAt (i + 1)

/-- The big-endian 32-bit number at an offset. -/
def be32 (i : ℕ) : ℕ :=
  256 * (256 * (256 * f.byteAt i + f.byteAt (i + 1)) + f.byteAt (i + 2)) + f.byteAt (i + 3)

def IsIpv4 : Prop := f.be16 12 = 0x0800 ∧ 34 ≤ f.length

def IsIpv6 : Prop := f.be16 12 = 0x86DD ∧ 54 ≤ f.length

def version : ℕ := f.byteAt 14 / 16

/-- The length of the IPv4 header in words. -/
def ihl : ℕ := f.byteAt 14 % 16

/-- The length of the IPv4 datagram. -/
def totalLength : ℕ := f.be16 16

def fragmentOffset : ℕ := f.be16 20 % 8192

def protocol : ℕ := f.byteAt 23

def source : UInt32 := .ofNat (f.be32 26)

/-- The IPv4 header has version 4, at least five words, and fits its datagram. -/
def WellFormed : Prop := f.version = 4 ∧ 5 ≤ f.ihl ∧ 4 * f.ihl ≤ f.totalLength

/-- Offset of the TCP header. -/
def tcpOffset : ℕ := 14 + 4 * f.ihl

def destPort : UInt16 := .ofNat (f.be16 (f.tcpOffset + 2))

def synFlag : ℕ := f.byteAt (f.tcpOffset + 13) / 2 % 2

def ackFlag : ℕ := f.byteAt (f.tcpOffset + 13) / 16 % 2

/-- A well-formed first fragment whose TCP header lies in the datagram and in the frame, with SYN
set and ACK clear. -/
def BareSyn : Prop :=
  f.IsIpv4 ∧ f.WellFormed ∧ f.protocol = 6 ∧ f.fragmentOffset = 0 ∧
    4 * f.ihl + 20 ≤ f.totalLength ∧ f.tcpOffset + 20 ≤ f.length ∧ f.synFlag = 1 ∧ f.ackFlag = 0

instance : Decidable f.IsIpv4 := inferInstanceAs (Decidable (_ ∧ _))
instance : Decidable f.IsIpv6 := inferInstanceAs (Decidable (_ ∧ _))
instance : Decidable f.WellFormed := inferInstanceAs (Decidable (_ ∧ _ ∧ _))
instance : Decidable f.BareSyn := inferInstanceAs (Decidable (_ ∧ _ ∧ _ ∧ _ ∧ _ ∧ _ ∧ _ ∧ _))

/-- The bucket of an IPv4 protocol number. -/
def ipv4Bucket (protocol : ℕ) : ProtoIndex :=
  if protocol = 1 then .icmp
  else if protocol = 6 then .tcp
  else if protocol = 17 then .udp
  else .other

/-- The bucket that the frame is counted in, if any. -/
def bucket : Option ProtoIndex :=
  if f.IsIpv4 then some (if f.WellFormed then ipv4Bucket f.protocol else .other)
  else if f.IsIpv6 then some .ipv6
  else none

theorem bucket_isSome : f.bucket.isSome = true ↔ f.IsIpv4 ∨ f.IsIpv6 := by
  unfold bucket
  split_ifs with h₄ h₆ h₆
  · simp [h₄]
  · simp [h₄]
  · simp [h₆]
  · simp [h₄, h₆]

/-- A bare SYN is counted in the TCP bucket. -/
theorem bucket_of_bareSyn {f : Frame} (h : f.BareSyn) : f.bucket = some .tcp := by
  obtain ⟨h₄, hwf, hproto, -⟩ := h
  unfold bucket
  rw [if_pos h₄, if_pos hwf, hproto]
  rfl

end Frame

/-! ## Bytes and bits -/

theorem toNat_u16FromBeBytes (b₁ b₀ : UInt8) :
    (u16FromBeBytes b₁ b₀).toNat = 256 * b₁.toNat + b₀.toNat := by
  have h₁ := b₁.toNat_lt
  have h₀ := b₀.toNat_lt
  exact UInt16.toNat_ofNat_of_lt (by show _ < 65536; omega)

theorem toNat_highNibble (b : UInt8) : (b >>> 4).toNat = b.toNat / 16 := by
  rw [UInt8.toNat_shiftRight, Nat.shiftRight_eq_div_pow]
  rfl

theorem toNat_lowNibble (b : UInt8) : (b &&& 0x0F).toNat = b.toNat % 16 := by
  rw [UInt8.toNat_and]
  exact Nat.and_two_pow_sub_one_eq_mod b.toNat 4

theorem toNat_fragmentOffset (w : UInt16) : (w &&& 0x1FFF).toNat = w.toNat % 8192 := by
  rw [UInt16.toNat_and]
  exact Nat.and_two_pow_sub_one_eq_mod w.toNat 13

theorem toNat_syn (b : UInt8) : (TcpHdr.syn b).toNat = b.toNat / 2 % 2 := by
  unfold TcpHdr.syn
  rw [UInt8.toNat_and, UInt8.toNat_shiftRight, Nat.shiftRight_eq_div_pow]
  exact Nat.and_one_is_mod _

theorem toNat_ack (b : UInt8) : (TcpHdr.ack b).toNat = b.toNat / 16 % 2 := by
  unfold TcpHdr.ack
  rw [UInt8.toNat_and, UInt8.toNat_shiftRight, Nat.shiftRight_eq_div_pow]
  exact Nat.and_one_is_mod _

theorem Frame.toNat_be16 (f : Frame) (i : ℕ) : (UInt16.ofNat (f.be16 i)).toNat = f.be16 i :=
  toNat_u16FromBeBytes (f.getD i 0) (f.getD (i + 1) 0)

/-! ## Reads inside the frame -/

namespace XdpContext

variable {f : Frame} {p len offset : ℕ}

theorem ptrAt_eq_some (h : offset + len ≤ f.length) :
    (⟨f⟩ : XdpContext).ptrAt len offset = some offset := if_neg (Nat.not_lt.mpr h)

theorem ptrAt_eq_none (h : f.length < offset + len) :
    (⟨f⟩ : XdpContext).ptrAt len offset = none := if_pos h

theorem read_eq (h : p < f.length) : (⟨f⟩ : XdpContext).read p = .ok (f.getD p 0) := by
  unfold read
  rw [List.getD_eq_getElem?_getD, List.getElem?_eq_getElem h]
  rfl

theorem readU16_eq (h : p + 1 < f.length) :
    (⟨f⟩ : XdpContext).readU16 p = .ok (.ofNat (f.be16 p)) := by
  unfold readU16
  rw [read_eq (by omega), read_eq h]
  rfl

theorem readU32_eq (h : p + 3 < f.length) :
    (⟨f⟩ : XdpContext).readU32 p = .ok (.ofNat (f.be32 p)) := by
  unfold readU32
  rw [read_eq (by omega), read_eq (by omega), read_eq (by omega), read_eq h]
  rfl

end XdpContext

/-! ## What a frame parses to -/

open XdpContext

namespace Frame

/-- What the Ethernet and IP layers of the frame parse to. -/
def l3Info (f : Frame) : Option L3Info :=
  if f.IsIpv4 then
    some (if f.WellFormed then
      .v4 (f.getD 23 0) f.source (4 * f.ihl) f.totalLength (f.fragmentOffset = 0)
    else .malformed)
  else if f.IsIpv6 then some .v6
  else none

end Frame

variable (f : Frame)

theorem parseEthhdr_eq :
    parseEthhdr ⟨f⟩ = .ok (if 14 ≤ f.length then some (.ofNat (f.be16 12)) else none) := by
  unfold parseEthhdr
  split_ifs with h
  · rw [ptrAt_eq_some (show 0 + EthHdr.len ≤ f.length from h)]
    dsimp only
    rw [readU16_eq (show 0 + EthHdr.etherType + 1 < f.length from Nat.lt_of_succ_le h)]
    rfl
  · rw [ptrAt_eq_none (show f.length < 0 + EthHdr.len from Nat.lt_of_not_le h)]
    rfl

/-- The checks of the header, one after the other. -/
theorem checks_eq {α : Type} (f : Frame) (rejected accepted : α) :
    (if ¬f.version = 4 then rejected
      else if 4 * f.ihl < 20 then rejected
      else if f.totalLength < 4 * f.ihl then rejected
      else accepted) = if f.WellFormed then accepted else rejected := by
  by_cases hwf : f.WellFormed
  · obtain ⟨hversion, hihl, hlength⟩ := hwf
    rw [if_neg (not_not_intro hversion), if_neg (by omega), if_neg hlength.not_gt,
      if_pos ⟨hversion, hihl, hlength⟩]
  · rw [if_neg hwf]
    split_ifs with hversion hihl hlength
    · rfl
    · rfl
    · exact absurd ⟨hversion, by omega, Nat.le_of_not_lt hlength⟩ hwf
    · rfl

theorem parseIpv4hdr_eq (f : Frame) :
    parseIpv4hdr ⟨f⟩ = .ok (if 34 ≤ f.length then
      some (if f.WellFormed then
        .v4 (f.getD 23 0) f.source (4 * f.ihl) f.totalLength (f.fragmentOffset = 0)
      else .malformed) else none) := by
  unfold parseIpv4hdr
  by_cases h : 34 ≤ f.length
  swap
  · rw [if_neg h, ptrAt_eq_none (show f.length < EthHdr.len + Ipv4Hdr.len from Nat.lt_of_not_le h)]
    rfl
  have hvihl : (⟨f⟩ : XdpContext).read (EthHdr.len + Ipv4Hdr.vihl) = .ok (f.getD 14 0) :=
    read_eq (show 14 + 0 < f.length by omega)
  have htotLen : (⟨f⟩ : XdpContext).readU16 (EthHdr.len + Ipv4Hdr.totLen) =
      .ok (.ofNat f.totalLength) := readU16_eq (show 14 + 2 + 1 < f.length by omega)
  have hfragBytes : (⟨f⟩ : XdpContext).readU16 (EthHdr.len + Ipv4Hdr.frags) =
      .ok (.ofNat (f.be16 20)) := readU16_eq (show 14 + 6 + 1 < f.length by omega)
  have hsrc : (⟨f⟩ : XdpContext).readU32 (EthHdr.len + Ipv4Hdr.srcAddr) = .ok f.source :=
    readU32_eq (show 14 + 12 + 3 < f.length by omega)
  have hproto : (⟨f⟩ : XdpContext).read (EthHdr.len + Ipv4Hdr.proto) = .ok (f.getD 23 0) :=
    read_eq (show 14 + 9 < f.length by omega)
  have hversion : f.getD 14 0 >>> 4 = 4 ↔ f.version = 4 := by
    rw [← UInt8.toNat_inj, toNat_highNibble]
    rfl
  have hihl : (f.getD 14 0 &&& 0x0F).toNat * 4 = 4 * f.ihl := by
    rw [toNat_lowNibble, Nat.mul_comm]
    rfl
  have hfrags : UInt16.ofNat (f.be16 20) &&& 0x1FFF = 0 ↔ f.fragmentOffset = 0 := by
    rw [← UInt16.toNat_inj, toNat_fragmentOffset, f.toNat_be16]
    rfl
  rw [if_pos h, ptrAt_eq_some (show EthHdr.len + Ipv4Hdr.len ≤ f.length from h)]
  dsimp only
  rw [hvihl, htotLen, hfragBytes, hsrc, hproto]
  show (if ¬f.getD 14 0 >>> 4 = 4 then .ok (some .malformed)
    else if (f.getD 14 0 &&& 0x0F).toNat * 4 < 20 then .ok (some .malformed)
    else if (UInt16.ofNat f.totalLength).toNat < (f.getD 14 0 &&& 0x0F).toNat * 4 then
      .ok (some .malformed)
    else .ok (some (.v4 (f.getD 23 0) f.source ((f.getD 14 0 &&& 0x0F).toNat * 4)
      (UInt16.ofNat f.totalLength).toNat (UInt16.ofNat (f.be16 20) &&& 0x1FFF = 0)))) =
    (.ok _ : Except Fault (Option L3Info))
  rw [hihl, show (UInt16.ofNat f.totalLength).toNat = f.totalLength from f.toNat_be16 16]
  simp only [hfrags, hversion]
  rw [checks_eq]
  split_ifs <;> rfl

theorem parseL4Protocol_eq : parseL4Protocol ⟨f⟩ = .ok f.l3Info := by
  have hipv4 : UInt16.ofNat (f.be16 12) = etherTypeIpv4 ↔ f.be16 12 = 0x0800 := by
    rw [← UInt16.toNat_inj, f.toNat_be16]
    rfl
  have hipv6 : UInt16.ofNat (f.be16 12) = etherTypeIpv6 ↔ f.be16 12 = 0x86DD := by
    rw [← UInt16.toNat_inj, f.toNat_be16]
    rfl
  unfold parseL4Protocol Frame.l3Info
  rw [parseEthhdr_eq]
  by_cases hlen : 14 ≤ f.length
  · rw [if_pos hlen]
    show (if _ then _ else if _ then _ else _) = _
    rw [if_congr hipv4 rfl (if_congr hipv6 rfl rfl), parseIpv4hdr_eq]
    by_cases h₄ : f.be16 12 = 0x0800
    · have h₆ : ¬f.IsIpv6 := fun h => absurd (h₄.symm.trans h.1) (by decide)
      rw [if_pos h₄, if_neg h₆, if_congr (show f.IsIpv4 ↔ _ from and_iff_right h₄) rfl rfl]
    · rw [if_neg h₄, if_neg (show ¬f.IsIpv4 from fun h => h₄ h.1)]
      by_cases h₆ : f.be16 12 = 0x86DD
      · rw [if_pos h₆, if_congr (show f.IsIpv6 ↔ _ from and_iff_right h₆) rfl rfl]
        by_cases hip : 54 ≤ f.length
        · rw [if_pos hip, ptrAt_eq_some (show EthHdr.len + Ipv6Hdr.len ≤ f.length from hip)]
          rfl
        · rw [if_neg hip,
            ptrAt_eq_none (show f.length < EthHdr.len + Ipv6Hdr.len from Nat.lt_of_not_le hip)]
          rfl
      · rw [if_neg h₆, if_neg (show ¬f.IsIpv6 from fun h => h₆ h.1)]
        rfl
  · rw [if_neg hlen, if_neg (show ¬f.IsIpv4 from fun h => absurd h.2 (by omega)),
      if_neg (show ¬f.IsIpv6 from fun h => absurd h.2 (by omega))]
    rfl

theorem parseTcpInfo_eq :
    parseTcpInfo ⟨f⟩ (4 * f.ihl) = .ok (if f.tcpOffset + 20 ≤ f.length then
      some { isSyn := f.synFlag = 1 ∧ f.ackFlag = 0, dstPort := f.destPort } else none) := by
  unfold parseTcpInfo
  split_ifs with h
  · have hflags : (⟨f⟩ : XdpContext).read (EthHdr.len + 4 * f.ihl + TcpHdr.flags) =
        .ok (f.getD (f.tcpOffset + 13) 0) := read_eq (show f.tcpOffset + 13 < f.length by omega)
    have hdest : (⟨f⟩ : XdpContext).readU16 (EthHdr.len + 4 * f.ihl + TcpHdr.dest) =
        .ok f.destPort := readU16_eq (show f.tcpOffset + 2 + 1 < f.length by omega)
    have hsyn : TcpHdr.syn (f.getD (f.tcpOffset + 13) 0) ≠ 0 ↔ f.synFlag = 1 := by
      rw [Ne, ← UInt8.toNat_inj, toNat_syn]
      show ¬f.synFlag = 0 ↔ _
      unfold Frame.synFlag
      omega
    have hack : TcpHdr.ack (f.getD (f.tcpOffset + 13) 0) = 0 ↔ f.ackFlag = 0 := by
      rw [← UInt8.toNat_inj, toNat_ack]
      rfl
    rw [ptrAt_eq_some (show EthHdr.len + 4 * f.ihl + TcpHdr.len ≤ f.length from h)]
    dsimp only
    rw [hflags, hdest]
    simp only [← hsyn, ← hack]
    rfl
  · rw [ptrAt_eq_none
      (show f.length < EthHdr.len + 4 * f.ihl + TcpHdr.len from Nat.lt_of_not_le h)]
    rfl

/-- The program records the bare SYNs. -/
theorem bareSyn_eq {l3 : L3Info} (h : f.l3Info = some l3) :
    bareSyn ⟨f⟩ l3 = .ok (if f.BareSyn then some (f.source, f.destPort) else none) := by
  have hproto : f.getD 23 0 = ipprotoTcp ↔ f.protocol = 6 := by
    rw [← UInt8.toNat_inj]
    rfl
  unfold Frame.l3Info at h
  split_ifs at h with h₄ hwf h₆
  · obtain rfl := Option.some.inj h
    by_cases hfrag : f.fragmentOffset = 0
    · rw [decide_eq_true hfrag]
      unfold bareSyn
      dsimp only
      by_cases htcp : f.getD 23 0 = ipprotoTcp ∧ 4 * f.ihl + TcpHdr.len ≤ f.totalLength
      · rw [if_pos htcp, parseTcpInfo_eq]
        have hiff : f.BareSyn ↔ f.tcpOffset + 20 ≤ f.length ∧ f.synFlag = 1 ∧ f.ackFlag = 0 :=
          ⟨fun hs => hs.2.2.2.2.2, fun hs => ⟨h₄, hwf, hproto.mp htcp.1, hfrag, htcp.2, hs⟩⟩
        by_cases hin : f.tcpOffset + 20 ≤ f.length
        · rw [if_pos hin, if_congr (hiff.trans (and_iff_right hin)) rfl rfl]
          by_cases hflags : f.synFlag = 1 ∧ f.ackFlag = 0
          · rw [if_pos hflags, decide_eq_true hflags]
            rfl
          · rw [if_neg hflags, decide_eq_false hflags]
            rfl
        · rw [if_neg hin, if_neg fun hs => hin (hiff.mp hs).1]
          rfl
      · rw [if_neg htcp, if_neg]
        · rfl
        · exact fun hs => htcp ⟨hproto.mpr hs.2.2.1, hs.2.2.2.2.1⟩
    · rw [decide_eq_false hfrag, if_neg fun hs : f.BareSyn => hfrag hs.2.2.2.1]
      rfl
  · obtain rfl := Option.some.inj h
    rw [if_neg fun hs : f.BareSyn => hwf hs.2.1]
    rfl
  · obtain rfl := Option.some.inj h
    rw [if_neg fun hs : f.BareSyn => h₄ hs.1]
    rfl

theorem protoToIndex_v4 (proto : UInt8) (srcAddr : UInt32) (ipHdrLen totLen : ℕ)
    (isFirstFragment : Bool) :
    protoToIndex (.v4 proto srcAddr ipHdrLen totLen isFirstFragment) =
      (Frame.ipv4Bucket proto.toNat).toUsize := by
  have hproto : ∀ b : UInt8, proto = b ↔ proto.toNat = b.toNat := fun b => UInt8.toNat_inj.symm
  unfold protoToIndex Frame.ipv4Bucket
  dsimp only
  rw [if_congr (hproto ipprotoIcmp) rfl (if_congr (hproto ipprotoTcp) rfl
    (if_congr (hproto ipprotoUdp) rfl rfl)), apply_ite ProtoIndex.toUsize,
    apply_ite ProtoIndex.toUsize, apply_ite ProtoIndex.toUsize]
  rfl

/-- The bucket index that the program computes is that of the grammar. -/
theorem protoToIndex_eq : f.l3Info.map protoToIndex = f.bucket.map ProtoIndex.toUsize := by
  unfold Frame.l3Info Frame.bucket
  split_ifs with h₄ hwf h₆
  · exact congrArg some (protoToIndex_v4 ..)
  · rfl
  · rfl
  · rfl

/-! ## The program -/

section Program

variable {n : ℕ} (s : KernelState n) (cpu : Fin n) (now : ℕ)

/-- Counts the frame in its bucket. -/
def KernelState.countFrame : KernelState n :=
  match f.bucket with
  | some p => s.countProto cpu p.toUsize f.length
  | none => s

/-- Records the frame if it is a bare SYN. -/
def KernelState.recordFrame : KernelState n :=
  if f.BareSyn then
    (s.recordSyn cpu f.source f.length).recordPortTouch (.new f.source f.destPort) now
  else s

/-- What the program does to the maps on a frame, in terms of the grammar. -/
def KernelState.handle : KernelState n := (s.countFrame f cpu).recordFrame f cpu now

theorem countPacket_eq : countPacket s cpu ⟨f⟩ = .ok (s.countFrame f cpu,
    if f.BareSyn then some (f.source, f.destPort) else none) := by
  have hindex := protoToIndex_eq f
  have hparse : parseL4Protocol ⟨f⟩ = pure f.l3Info := parseL4Protocol_eq f
  unfold countPacket KernelState.countFrame
  rw [hparse, pure_bind]
  cases hl3 : f.l3Info with
  | none =>
    rw [hl3] at hindex
    have hbucket : f.bucket = none := Option.map_eq_none_iff.mp hindex.symm
    have hsyn : ¬f.BareSyn := fun h => by
      rw [Frame.bucket_of_bareSyn h] at hbucket
      exact Option.some_ne_none _ hbucket
    rw [hbucket, if_neg hsyn]
    rfl
  | some l3 =>
    rw [hl3] at hindex
    obtain ⟨p, hbucket, hp⟩ := Option.map_eq_some_iff.mp hindex.symm
    have hsyn : bareSyn ⟨f⟩ l3 = pure (if f.BareSyn then some (f.source, f.destPort) else none) :=
      bareSyn_eq f hl3
    dsimp only
    rw [hbucket, hsyn, pure_bind, ← hp]
    rfl

theorem tryEbpfXdpProgram_eq :
    tryEbpfXdpProgram s cpu now ⟨f⟩ = .ok (s.handle f cpu now, .ok xdpPass) := by
  have hcount : countPacket s cpu ⟨f⟩ = pure _ := countPacket_eq f s cpu
  unfold tryEbpfXdpProgram KernelState.handle KernelState.recordFrame
  rw [hcount, pure_bind]
  split_ifs
  · rfl
  · rfl

/-- The program reads the frame only, passes it, and does to the maps what the grammar says. -/
theorem ebpfXdpProgram_eq : ebpfXdpProgram s cpu now ⟨f⟩ = .ok (s.handle f cpu now, xdpPass) := by
  unfold ebpfXdpProgram
  rw [tryEbpfXdpProgram_eq]
  rfl

namespace KernelState

theorem countFrame_eq : s.countFrame f cpu =
    { s with
      protoStats := fun c i =>
        if c = cpu ∧ f.bucket.map ProtoIndex.toUsize = some i.val then
          ⟨(s.protoStats c i).packets + 1, (s.protoStats c i).bytes + f.length⟩
        else s.protoStats c i } := by
  unfold countFrame
  cases f.bucket with
  | none => simp
  | some p =>
    simp only [countProto_eq, Option.map_some, Option.some.injEq, @eq_comm ℕ p.toUsize]

theorem slots_recordFrame (x : UInt32) (c : Fin n) :
    (s.recordFrame f cpu now).synTracker.slots x c =
      if f.BareSyn ∧ x = f.source ∧ c = cpu then
        ⟨(s.synTracker.slots x c).packets + 1, (s.synTracker.slots x c).bytes + f.length⟩
      else s.synTracker.slots x c := by
  unfold recordFrame
  by_cases h : f.BareSyn
  · rw [if_pos h, synTracker_recordPortTouch, slots_recordSyn, if_congr (and_iff_right h).symm]
    · rfl
    · rfl
  · rw [if_neg h, if_neg fun hs => h hs.1]

theorem mem_recordFrame (x : UInt32) :
    x ∈ (s.recordFrame f cpu now).synTracker ↔
      x ∈ s.synTracker ∨ f.BareSyn ∧ x = f.source := by
  unfold recordFrame
  by_cases h : f.BareSyn
  · rw [if_pos h, synTracker_recordPortTouch, mem_recordSyn, or_comm, and_iff_right h]
  · rw [if_neg h]
    exact (or_iff_left fun hs => h hs.1).symm

theorem lookup_recordFrame (k : PortScanKey) :
    (s.recordFrame f cpu now).portScanTracker.lookup k =
      if f.BareSyn ∧ k = .new f.source f.destPort then some ⟨now⟩
      else s.portScanTracker.lookup k := by
  unfold recordFrame
  by_cases h : f.BareSyn
  · rw [if_pos h, lookup_recordPortTouch, if_congr (and_iff_right h).symm]
    · rfl
    · rfl
  · rw [if_neg h, if_neg fun hs => h hs.1]

theorem protoStats_recordFrame : (s.recordFrame f cpu now).protoStats = s.protoStats := by
  unfold recordFrame
  split_ifs <;> rfl

theorem log_recordFrame : (s.recordFrame f cpu now).log = s.log := by
  unfold recordFrame
  split_ifs <;> rfl

theorem protoStats_handle (c : Fin n) (i : Fin ProtoIndex.count) :
    (s.handle f cpu now).protoStats c i =
      if c = cpu ∧ f.bucket.map ProtoIndex.toUsize = some i.val then
        ⟨(s.protoStats c i).packets + 1, (s.protoStats c i).bytes + f.length⟩
      else s.protoStats c i := by
  unfold handle
  rw [protoStats_recordFrame, countFrame_eq]

theorem slots_handle (x : UInt32) (c : Fin n) :
    (s.handle f cpu now).synTracker.slots x c =
      if f.BareSyn ∧ x = f.source ∧ c = cpu then
        ⟨(s.synTracker.slots x c).packets + 1, (s.synTracker.slots x c).bytes + f.length⟩
      else s.synTracker.slots x c := by
  unfold handle
  rw [slots_recordFrame, countFrame_eq]

/-- The protocol counters change on the frames of a bucket. -/
theorem protoStats_handle_ne_iff :
    (s.handle f cpu now).protoStats ≠ s.protoStats ↔ f.IsIpv4 ∨ f.IsIpv6 := by
  rw [← f.bucket_isSome]
  constructor
  · intro h
    by_contra hnot
    have hnone := Option.not_isSome_iff_eq_none.mp hnot
    apply h
    funext c i
    rw [protoStats_handle, hnone, if_neg fun h => Option.some_ne_none _ h.2.symm]
  · intro h heq
    obtain ⟨p, hp⟩ := Option.isSome_iff_exists.mp h
    have hi := s.protoStats_handle f cpu now cpu ⟨p.toUsize, p.toUsize_lt⟩
    rw [heq, hp, if_pos ⟨rfl, rfl⟩] at hi
    have := congrArg ProtoStats.packets hi
    dsimp only at this
    omega

/-- The SYN counters change on bare SYNs. -/
theorem synTracker_handle_ne_iff :
    (s.handle f cpu now).synTracker ≠ s.synTracker ↔ f.BareSyn := by
  constructor
  · intro h
    by_contra hnot
    apply h
    unfold handle recordFrame
    rw [if_neg hnot, countFrame_eq]
  · intro h heq
    have hi := s.slots_handle f cpu now f.source cpu
    rw [heq, if_pos ⟨h, rfl, rfl⟩] at hi
    have := congrArg SynCounter.packets hi
    dsimp only at this
    omega

end KernelState

/-- **The program accepts exactly its grammar**: it reads bytes of the frame only and passes it. Of
the buckets, the CPU's own slot of the frame's bucket gains the frame and no other slot changes. A
bare SYN is counted in the CPU's own slot of its source, and stamps its source and port; another
frame is not. No lookup of a bucket misses. -/
theorem accepts_grammar :
    ∃ s', ebpfXdpProgram s cpu now ⟨f⟩ = .ok (s', xdpPass) ∧
      (s'.protoStats ≠ s.protoStats ↔ f.IsIpv4 ∨ f.IsIpv6) ∧
      (∀ c i, s'.protoStats c i =
        if c = cpu ∧ f.bucket.map ProtoIndex.toUsize = some i.val then
          ⟨(s.protoStats c i).packets + 1, (s.protoStats c i).bytes + f.length⟩
        else s.protoStats c i) ∧
      (s'.synTracker ≠ s.synTracker ↔ f.BareSyn) ∧
      (∀ x c, s'.synTracker.slots x c =
        if f.BareSyn ∧ x = f.source ∧ c = cpu then
          ⟨(s.synTracker.slots x c).packets + 1, (s.synTracker.slots x c).bytes + f.length⟩
        else s.synTracker.slots x c) ∧
      (∀ x, x ∈ s'.synTracker ↔ x ∈ s.synTracker ∨ f.BareSyn ∧ x = f.source) ∧
      (∀ k, s'.portScanTracker.lookup k =
        if f.BareSyn ∧ k = .new f.source f.destPort then some ⟨now⟩
        else s.portScanTracker.lookup k) ∧
      s'.log = s.log := by
  have hcount := s.countFrame_eq f cpu
  refine ⟨s.handle f cpu now, ebpfXdpProgram_eq f s cpu now, s.protoStats_handle_ne_iff f cpu now,
    s.protoStats_handle f cpu now, s.synTracker_handle_ne_iff f cpu now, s.slots_handle f cpu now,
    fun x => ?_, fun k => ?_, ?_⟩
  · unfold KernelState.handle
    rw [KernelState.mem_recordFrame, hcount]
  · unfold KernelState.handle
    rw [KernelState.lookup_recordFrame, hcount]
  · unfold KernelState.handle
    rw [KernelState.log_recordFrame, hcount]

/-! ## Padding -/

namespace Frame

/-- The frames agree on the bytes before `n`, as far as they reach. -/
def Agree (n : ℕ) (f g : Frame) : Prop := ∀ i < n, f[i]? = g[i]?

variable {n : ℕ} {f g : Frame}

theorem Agree.byteAt (h : Agree n f g) {i : ℕ} (hi : i < n) : f.byteAt i = g.byteAt i := by
  unfold Frame.byteAt
  rw [List.getD_eq_getElem?_getD, List.getD_eq_getElem?_getD, h i hi]

theorem Agree.be16 (h : Agree n f g) {i : ℕ} (hi : i + 1 < n) : f.be16 i = g.be16 i := by
  unfold Frame.be16
  rw [h.byteAt hi, h.byteAt (by omega)]

theorem Agree.be32 (h : Agree n f g) {i : ℕ} (hi : i + 3 < n) : f.be32 i = g.be32 i := by
  unfold Frame.be32
  rw [h.byteAt hi, h.byteAt (i := i + 2) (by omega), h.byteAt (i := i + 1) (by omega),
    h.byteAt (by omega)]

/-- Frames that agree on the Ethernet and IPv4 headers are counted alike. -/
theorem Agree.bucket (h : Agree n f g) (hlen : f.length = g.length) (hn : 34 ≤ n) :
    f.bucket = g.bucket := by
  have h₄ : f.IsIpv4 ↔ g.IsIpv4 := by
    unfold Frame.IsIpv4
    rw [h.be16 (by omega), hlen]
  have h₆ : f.IsIpv6 ↔ g.IsIpv6 := by
    unfold Frame.IsIpv6
    rw [h.be16 (by omega), hlen]
  have hwf : f.WellFormed ↔ g.WellFormed := by
    unfold Frame.WellFormed Frame.version Frame.ihl Frame.totalLength
    rw [h.byteAt (show 14 < n by omega), h.be16 (by omega)]
  have hproto : f.protocol = g.protocol := h.byteAt (by omega)
  unfold Frame.bucket
  rw [if_congr h₄ (congrArg some (if_congr hwf (congrArg ipv4Bucket hproto) rfl))
    (if_congr h₆ rfl rfl)]

theorem Agree.symm (h : Agree n f g) : Agree n g f := fun i hi => (h i hi).symm

/-- Frames that agree up to the end of the datagram hold the same bare SYN. -/
theorem Agree.bareSyn (h : Agree (14 + f.totalLength) f g) (hlen : f.length = g.length)
    (ht : 20 ≤ f.totalLength) (hs : f.BareSyn) :
    g.BareSyn ∧ g.source = f.source ∧ g.destPort = f.destPort := by
  obtain ⟨h₄, hwf, hproto, hfrag, htcp, hin, hsyn, hack⟩ := hs
  have hlow : ∀ i < 34, f.byteAt i = g.byteAt i := fun i hi => h.byteAt (by omega)
  have hihl : g.ihl = f.ihl := congrArg (· % 16) (hlow 14 (by omega)).symm
  have htot : g.totalLength = f.totalLength := (h.be16 (by omega)).symm
  have hoff : g.tcpOffset = f.tcpOffset := congrArg (14 + 4 * ·) hihl
  have hoff' : f.tcpOffset = 14 + 4 * f.ihl := rfl
  have hflags : g.byteAt (g.tcpOffset + 13) = f.byteAt (f.tcpOffset + 13) := by
    rw [hoff]
    exact (h.byteAt (by omega)).symm
  refine ⟨⟨⟨?_, ?_⟩, ⟨?_, ?_, ?_⟩, ?_, ?_, ?_, ?_, ?_, ?_⟩, ?_, ?_⟩
  · exact (h.be16 (by omega)).symm.trans h₄.1
  · exact hlen ▸ h₄.2
  · exact (congrArg (· / 16) (hlow 14 (by omega)).symm).trans hwf.1
  · rw [hihl]
    exact hwf.2.1
  · rw [hihl, htot]
    exact hwf.2.2
  · exact (hlow 23 (by omega)).symm.trans hproto
  · exact (congrArg (· % 8192) (h.be16 (by omega)).symm).trans hfrag
  · rw [hihl, htot]
    exact htcp
  · rw [hoff, ← hlen]
    exact hin
  · unfold Frame.synFlag
    rw [hflags]
    exact hsyn
  · unfold Frame.ackFlag
    rw [hflags]
    exact hack
  · exact congrArg UInt32.ofNat (h.be32 (by omega)).symm
  · unfold Frame.destPort
    rw [hoff, ← h.be16 (by omega)]

end Frame

/-- **Padding is irrelevant**: frames of one length that agree up to the end of the first one's IPv4
datagram are handled alike, whatever the bytes after it. This needs no assumption on the EtherType
or the version. -/
theorem padding_irrelevant {f g : Frame} (hlen : f.length = g.length)
    (hihl : 20 ≤ 4 * f.ihl) (ht : 4 * f.ihl ≤ f.totalLength)
    (hagree : ∀ i < 14 + f.totalLength, f[i]? = g[i]?) :
    ebpfXdpProgram s cpu now ⟨f⟩ = ebpfXdpProgram s cpu now ⟨g⟩ := by
  have h : Frame.Agree (14 + f.totalLength) f g := hagree
  have htot : f.totalLength = g.totalLength := h.be16 (by omega)
  have hbucket := h.bucket hlen (by omega)
  have hcount : s.countFrame f cpu = s.countFrame g cpu := by
    unfold KernelState.countFrame
    rw [hbucket, hlen]
  rw [ebpfXdpProgram_eq, ebpfXdpProgram_eq]
  unfold KernelState.handle KernelState.recordFrame
  rw [hcount]
  by_cases hs : f.BareSyn
  · obtain ⟨hg, hsource, hport⟩ := h.bareSyn hlen (by omega) hs
    rw [if_pos hs, if_pos hg, hlen, hsource, hport]
  · have hg : ¬g.BareSyn := fun hg => by
      have h' : Frame.Agree (14 + g.totalLength) g f := by
        rw [← htot]
        exact h.symm
      exact hs (h'.bareSyn hlen.symm (by omega) hg).1
    rw [if_neg hs, if_neg hg]

end Program

/-- A TCP frame from 10.0.0.1 with an IPv4 header of five words and what follows it. -/
def Frame.tcp (totalLength : UInt8) (rest : List UInt8) : Frame :=
  List.replicate 12 0 ++ [8, 0, 0x45, 0, 0, totalLength, 0, 0, 0, 0, 64, 6, 0, 0, 10, 0, 0, 1,
    10, 0, 0, 2] ++ rest

/-- A TCP header to port 443 with SYN set. -/
def Frame.synHeader : List UInt8 :=
  [0, 80, 1, 187, 0, 0, 0, 0, 0, 0, 0, 0, 0x50, 2, 0, 0, 0, 0, 0, 0]

example : (Frame.tcp 40 Frame.synHeader).BareSyn := by decide

/-- A SYN header in the padding of an empty datagram is not seen. -/
theorem padding_irrelevant_synHeader :
    ebpfXdpProgram (KernelState.new : KernelState 1) 0 0 ⟨Frame.tcp 20 (List.replicate 20 0)⟩ =
      ebpfXdpProgram (KernelState.new : KernelState 1) 0 0 ⟨Frame.tcp 20 Frame.synHeader⟩ :=
  padding_irrelevant .new 0 0 (f := Frame.tcp 20 (List.replicate 20 0))
    (g := Frame.tcp 20 Frame.synHeader) (by decide) (by decide) (by decide) (by decide)

end EbpfXdp
