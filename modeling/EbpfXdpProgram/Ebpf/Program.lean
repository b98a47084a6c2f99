import EbpfXdpProgram.Lib.PerCpu
import EbpfXdpProgram.Model

/-!
# The XDP program

`ebpf-xdp-program-ebpf/src/main.rs`: a frame is parsed through bounds-checked pointers, counted in
its protocol bucket, and, if it is a bare SYN, recorded for its source and for its destination
port. Reading a byte that is not in the frame is a fault, so a run without a fault reads the frame
only. The headers have the packed layouts of the wire; inserts into the LRU maps succeed.
-/

namespace EbpfXdp

/-! ## Frames and headers -/

/-- The frame between `data` and `data_end`. -/
structure XdpContext where
  data : List UInt8
deriving DecidableEq, Repr

/-- A read outside the frame. -/
inductive Fault
  | outOfFrame (offset : ℕ)
deriving DecidableEq, Repr

namespace EthHdr

def len : ℕ := 14
/-- Offset of `ether_type`. -/
def etherType : ℕ := 12

end EthHdr

namespace Ipv4Hdr

def len : ℕ := 20
/-- Offset of `vihl`. -/
def vihl : ℕ := 0
/-- Offset of `tot_len`. -/
def totLen : ℕ := 2
/-- Offset of `frags`. -/
def frags : ℕ := 6
/-- Offset of `proto`. -/
def proto : ℕ := 9
/-- Offset of `src_addr`. -/
def srcAddr : ℕ := 12

end Ipv4Hdr

namespace Ipv6Hdr

def len : ℕ := 40

end Ipv6Hdr

namespace TcpHdr

def len : ℕ := 20
/-- Offset of `dest`. -/
def dest : ℕ := 2
/-- Offset of the byte with the flags, FIN being its lowest bit. -/
def flags : ℕ := 13

/-- `syn()`. -/
def syn (flags : UInt8) : UInt8 := (flags >>> 1) &&& 1

/-- `ack()`. -/
def ack (flags : UInt8) : UInt8 := (flags >>> 4) &&& 1

end TcpHdr

/-- `EtherType::Ipv4`, in the byte order of the wire. -/
def etherTypeIpv4 : UInt16 := 0x0800
/-- `EtherType::Ipv6`, in the byte order of the wire. -/
def etherTypeIpv6 : UInt16 := 0x86DD

def ipprotoIcmp : UInt8 := 1
def ipprotoTcp : UInt8 := 6
def ipprotoUdp : UInt8 := 17

def xdpAborted : UInt32 := 0
def xdpPass : UInt32 := 2

/-- `u16::from_be_bytes`. -/
def u16FromBeBytes (b₁ b₀ : UInt8) : UInt16 := .ofNat (256 * b₁.toNat + b₀.toNat)

/-- `u32::from_be_bytes`. -/
def u32FromBeBytes (b₃ b₂ b₁ b₀ : UInt8) : UInt32 :=
  .ofNat (256 * (256 * (256 * b₃.toNat + b₂.toNat) + b₁.toNat) + b₀.toNat)

namespace XdpContext

def packetLen (ctx : XdpContext) : ℕ := ctx.data.length

/-- `ptr_at`, for a type of `len` bytes; a pointer is an offset into the frame. -/
def ptrAt (ctx : XdpContext) (len offset : ℕ) : Option ℕ :=
  if ctx.data.length < offset + len then none else some offset

/-- Reads the byte at a pointer. -/
def read (ctx : XdpContext) (p : ℕ) : Except Fault UInt8 :=
  match ctx.data[p]? with
  | some b => .ok b
  | none => .error (.outOfFrame p)

def readU16 (ctx : XdpContext) (p : ℕ) : Except Fault UInt16 := do
  let b₁ ← ctx.read p
  let b₀ ← ctx.read (p + 1)
  return u16FromBeBytes b₁ b₀

def readU32 (ctx : XdpContext) (p : ℕ) : Except Fault UInt32 := do
  let b₃ ← ctx.read p
  let b₂ ← ctx.read (p + 1)
  let b₁ ← ctx.read (p + 2)
  let b₀ ← ctx.read (p + 3)
  return u32FromBeBytes b₃ b₂ b₁ b₀

end XdpContext

/-! ## Parsing -/

/-- Result of parsing the Ethernet and IP layers of a frame. -/
inductive L3Info
  | v4 (proto : UInt8) (srcAddr : UInt32) (ipHdrLen totLen : ℕ) (isFirstFragment : Bool)
  | v6
  | malformed
deriving DecidableEq, Repr

structure TcpInfo where
  isSyn : Bool
  dstPort : UInt16
deriving DecidableEq, Repr

def parseEthhdr (ctx : XdpContext) : Except Fault (Option UInt16) :=
  match ctx.ptrAt EthHdr.len 0 with
  | none => return none
  | some eth => do
    let etherType ← ctx.readU16 (eth + EthHdr.etherType)
    return some etherType

def parseIpv4hdr (ctx : XdpContext) : Except Fault (Option L3Info) :=
  match ctx.ptrAt Ipv4Hdr.len EthHdr.len with
  | none => return none
  | some ip => do
    let vihl ← ctx.read (ip + Ipv4Hdr.vihl)
    let totLen ← ctx.readU16 (ip + Ipv4Hdr.totLen)
    let frags ← ctx.readU16 (ip + Ipv4Hdr.frags)
    let srcAddr ← ctx.readU32 (ip + Ipv4Hdr.srcAddr)
    let proto ← ctx.read (ip + Ipv4Hdr.proto)
    let ipHdrLen := (vihl &&& 0x0F).toNat * 4
    if vihl >>> 4 ≠ 4 then return some .malformed
    else if ipHdrLen < Ipv4Hdr.len then return some .malformed
    else if totLen.toNat < ipHdrLen then return some .malformed
    else return some (.v4 proto srcAddr ipHdrLen totLen.toNat (frags &&& 0x1FFF = 0))

def parseL4Protocol (ctx : XdpContext) : Except Fault (Option L3Info) := do
  match ← parseEthhdr ctx with
  | none => return none
  | some eth =>
    if eth = etherTypeIpv4 then parseIpv4hdr ctx
    else if eth = etherTypeIpv6 then
      match ctx.ptrAt Ipv6Hdr.len EthHdr.len with
      | none => return none
      | some _ => return some .v6
    else return none

def parseTcpInfo (ctx : XdpContext) (ipHdrLen : ℕ) : Except Fault (Option TcpInfo) :=
  match ctx.ptrAt TcpHdr.len (EthHdr.len + ipHdrLen) with
  | none => return none
  | some tcp => do
    let flags ← ctx.read (tcp + TcpHdr.flags)
    let dest ← ctx.readU16 (tcp + TcpHdr.dest)
    return some { isSyn := TcpHdr.syn flags ≠ 0 ∧ TcpHdr.ack flags = 0, dstPort := dest }

/-- The bucket index of the frame, `ProtoIndex as u32`. -/
def protoToIndex : L3Info → ℕ
  | .v6 => ProtoIndex.ipv6.toUsize
  | .malformed => ProtoIndex.other.toUsize
  | .v4 proto _ _ _ _ =>
    if proto = ipprotoIcmp then ProtoIndex.icmp.toUsize
    else if proto = ipprotoTcp then ProtoIndex.tcp.toUsize
    else if proto = ipprotoUdp then ProtoIndex.udp.toUsize
    else ProtoIndex.other.toUsize

/-- The last condition of `try_ebpf_xdp_program`: the source and the port of a bare SYN whose TCP
header lies in the first fragment of its datagram. -/
def bareSyn (ctx : XdpContext) : L3Info → Except Fault (Option (UInt32 × UInt16))
  | .v4 proto srcAddr ipHdrLen totLen true =>
    if proto = ipprotoTcp ∧ ipHdrLen + TcpHdr.len ≤ totLen then do
      match ← parseTcpInfo ctx ipHdrLen with
      | some tcp => return if tcp.isSyn then some (srcAddr, tcp.dstPort) else none
      | none => return none
    else return none
  | _ => return none

/-! ## The maps -/

structure ProtoStats where
  packets : ℕ
  bytes : ℕ
deriving DecidableEq, Repr

/-- Key of `PORT_SCAN_TRACKER`. -/
structure PortScanKey where
  srcAddr : UInt32
  dstPort : UInt16
  pad : UInt16
deriving DecidableEq, Repr

def PortScanKey.new (srcAddr : UInt32) (dstPort : UInt16) : PortScanKey := ⟨srcAddr, dstPort, 0⟩

structure PortTouch where
  lastSeenNs : ℕ
deriving DecidableEq, Repr

instance : Zero ProtoStats := ⟨⟨0, 0⟩⟩
instance : Zero SynCounter := ⟨⟨0, 0⟩⟩

/-- The maps that the program shares with user space, and what it warned of. -/
structure KernelState (n : ℕ) where
  protoStats : PerCpuArray n ProtoIndex.count ProtoStats
  synTracker : PerCpuHashMap n UInt32 SynCounter
  portScanTracker : Table PortScanKey PortTouch
  log : List String

namespace KernelState

variable {n : ℕ} (s : KernelState n) (cpu : Fin n)

def new : KernelState n := ⟨fun _ _ => 0, ∅, ∅, []⟩

def countProto (idx bytes : ℕ) : KernelState n :=
  match s.protoStats.get cpu idx with
  | some stat =>
    { s with protoStats := s.protoStats.set cpu idx ⟨stat.packets + 1, stat.bytes + bytes⟩ }
  | none => { s with log := s.log ++ [s!"PROTO_STATS lookup miss for index {idx}"] }

/-- `record_syn` after its lookup: the increment if the lookup found the counter, else the
insert. -/
def finishSyn (found : Bool) (srcAddr : UInt32) (bytes : ℕ) : KernelState n :=
  { s with
    synTracker :=
      if found then
        s.synTracker.modify cpu srcAddr fun c => ⟨c.packets + 1, c.bytes + bytes⟩
      else
        s.synTracker.insert cpu srcAddr ⟨1, bytes⟩ }

def recordSyn (srcAddr : UInt32) (bytes : ℕ) : KernelState n :=
  s.finishSyn cpu (s.synTracker.get cpu srcAddr).isSome srcAddr bytes

/-- `record_port_touch`; `now` is the time it reads. -/
def recordPortTouch (key : PortScanKey) (now : ℕ) : KernelState n :=
  { s with portScanTracker := s.portScanTracker.insert key ⟨now⟩ }

@[simp] theorem protoStats_finishSyn (found : Bool) (srcAddr : UInt32) (bytes : ℕ) :
    (s.finishSyn cpu found srcAddr bytes).protoStats = s.protoStats := rfl

@[simp] theorem log_finishSyn (found : Bool) (srcAddr : UInt32) (bytes : ℕ) :
    (s.finishSyn cpu found srcAddr bytes).log = s.log := rfl

@[simp] theorem portScanTracker_finishSyn (found : Bool) (srcAddr : UInt32) (bytes : ℕ) :
    (s.finishSyn cpu found srcAddr bytes).portScanTracker = s.portScanTracker := rfl

@[simp] theorem protoStats_recordPortTouch (key : PortScanKey) (now : ℕ) :
    (s.recordPortTouch key now).protoStats = s.protoStats := rfl

@[simp] theorem synTracker_recordPortTouch (key : PortScanKey) (now : ℕ) :
    (s.recordPortTouch key now).synTracker = s.synTracker := rfl

@[simp] theorem log_recordPortTouch (key : PortScanKey) (now : ℕ) :
    (s.recordPortTouch key now).log = s.log := rfl

theorem countProto_eq (p : ProtoIndex) (bytes : ℕ) :
    s.countProto cpu p.toUsize bytes =
      { s with
        protoStats := fun c i =>
          if c = cpu ∧ i.val = p.toUsize then
            ⟨(s.protoStats c i).packets + 1, (s.protoStats c i).bytes + bytes⟩
          else s.protoStats c i } := by
  unfold countProto PerCpuArray.get
  rw [dif_pos p.toUsize_lt]
  dsimp only
  congr 1
  funext c i
  unfold PerCpuArray.set
  split_ifs with h
  · obtain ⟨rfl, hi⟩ := h
    obtain rfl : i = ⟨p.toUsize, p.toUsize_lt⟩ := Fin.ext hi
    rfl
  · rfl

/-- An increment finds the CPU's slot as it is, and an insert starts it from zero. -/
theorem slots_finishSyn {found : Bool} {srcAddr : UInt32}
    (hfound : found = true → srcAddr ∈ s.synTracker) (bytes : ℕ) (x : UInt32) (c : Fin n) :
    (s.finishSyn cpu found srcAddr bytes).synTracker.slots x c =
      if x = srcAddr ∧ c = cpu then
        if found = true then
          ⟨(s.synTracker.slots x c).packets + 1, (s.synTracker.slots x c).bytes + bytes⟩
        else ⟨1, bytes⟩
      else s.synTracker.slots x c := by
  unfold finishSyn
  cases found with
  | false => exact PerCpuHashMap.slots_insert ..
  | true =>
    simp only [if_true]
    rw [PerCpuHashMap.modify_eq_insert (hfound rfl), PerCpuHashMap.slots_insert]
    split_ifs with h
    · rw [h.1, h.2]
    · rfl

theorem mem_finishSyn {found : Bool} {srcAddr : UInt32}
    (hfound : found = true → srcAddr ∈ s.synTracker) (bytes : ℕ) (x : UInt32) :
    x ∈ (s.finishSyn cpu found srcAddr bytes).synTracker ↔ x = srcAddr ∨ x ∈ s.synTracker := by
  unfold finishSyn
  cases found with
  | false => exact PerCpuHashMap.mem_insert
  | true =>
    simp only [if_true]
    rw [PerCpuHashMap.modify_eq_insert (hfound rfl), PerCpuHashMap.mem_insert]

/-- The lookup and the step after it, with nothing in between, count one packet. -/
theorem slots_recordSyn (srcAddr : UInt32) (bytes : ℕ) (x : UInt32) (c : Fin n) :
    (s.recordSyn cpu srcAddr bytes).synTracker.slots x c =
      if x = srcAddr ∧ c = cpu then
        ⟨(s.synTracker.slots x c).packets + 1, (s.synTracker.slots x c).bytes + bytes⟩
      else s.synTracker.slots x c := by
  unfold recordSyn
  rw [slots_finishSyn s cpu PerCpuHashMap.get_isSome.mp]
  split_ifs with h hfound
  · rfl
  · rw [PerCpuHashMap.slots_of_not_mem (by rw [h.1]; exact mt PerCpuHashMap.get_isSome.mpr hfound)]
    show _ = (⟨0 + 1, 0 + bytes⟩ : SynCounter)
    rw [Nat.zero_add, Nat.zero_add]
  · rfl

theorem mem_recordSyn (srcAddr : UInt32) (bytes : ℕ) (x : UInt32) :
    x ∈ (s.recordSyn cpu srcAddr bytes).synTracker ↔ x = srcAddr ∨ x ∈ s.synTracker :=
  mem_finishSyn s cpu PerCpuHashMap.get_isSome.mp bytes x

theorem lookup_recordPortTouch (key : PortScanKey) (now : ℕ) (k : PortScanKey) :
    (s.recordPortTouch key now).portScanTracker.lookup k =
      if k = key then some ⟨now⟩ else s.portScanTracker.lookup k := by
  unfold recordPortTouch
  split_ifs with h
  · rw [h, Finmap.lookup_insert]
  · rw [Finmap.lookup_insert_of_ne _ h]

end KernelState

/-! ## The program -/

section Program

variable {n : ℕ} (s : KernelState n) (cpu : Fin n) (now : ℕ) (ctx : XdpContext)

/-- `try_ebpf_xdp_program` up to `record_syn`: counts the frame, and gives the source and the port
of the SYN to record. -/
def countPacket : Except Fault (KernelState n × Option (UInt32 × UInt16)) := do
  match ← parseL4Protocol ctx with
  | none => return (s, none)
  | some l3 =>
    let syn ← bareSyn ctx l3
    return (s.countProto cpu (protoToIndex l3) ctx.packetLen, syn)

def tryEbpfXdpProgram : Except Fault (KernelState n × Except UInt32 UInt32) := do
  match ← countPacket s cpu ctx with
  | (s, some (srcAddr, dstPort)) =>
    let s := s.recordSyn cpu srcAddr ctx.packetLen
    return (s.recordPortTouch (.new srcAddr dstPort) now, .ok xdpPass)
  | (s, none) => return (s, .ok xdpPass)

/-- `ebpf_xdp_program`: an error aborts. -/
def ebpfXdpProgram : Except Fault (KernelState n × UInt32) := do
  let (s, verdict) ← tryEbpfXdpProgram s cpu now ctx
  match verdict with
  | .ok ret => return (s, ret)
  | .error _ => return (s, xdpAborted)

end Program

end EbpfXdp
