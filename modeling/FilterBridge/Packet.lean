import FilterBridge.Address
import FilterBridge.Bytes

/-!
# Frames and packets

The filter reads a few fields of an Ethernet frame, of the IPv4 header in it and
of the transport header after that.  Every reader takes the bytes apart by
pattern, so it cannot look past the end.

## Main definitions

* `HeaderError` — why a header cannot be read.
* `Protocol`, `splitFrame` — what a frame carries, and the packet in it.
* `Ip4Header`, `Ip4Header.parse`, `Ip4Header.payload` — the IPv4 header.
* `ports?` — the ports at the front of a transport header.
-/

namespace FilterBridge

/-- Why a header cannot be read. -/
inductive HeaderError
  /-- There are fewer bytes than the header has. -/
  | truncated (need present : Nat)
  /-- The header says that it is shorter than a header can be. -/
  | badLength (length : Nat)
  deriving DecidableEq, Repr, Inhabited

/-- The text of a header error. -/
def HeaderError.message : HeaderError → String
  | truncated need present => s!"truncated header: need {need} bytes, have {present}"
  | badLength length => s!"bad IPv4 header length {length}"

/-! ### Ethernet -/

/-- The protocol of the packet in a frame. -/
inductive Protocol
  /-- IPv4. -/
  | ip
  /-- Address resolution. -/
  | arp
  /-- Reverse address resolution. -/
  | rarp
  /-- Anything else. -/
  | other
  deriving DecidableEq, Repr, Inhabited

/-- The protocol with the given Ethernet type. -/
def Protocol.ofEtherType (t : UInt16) : Protocol :=
  if t = 0x0800 then .ip else if t = 0x0806 then .arp else if t = 0x8035 then .rarp else .other

/-- The length of an Ethernet header. -/
def etherHeaderLen : Nat := 14

/-- The protocol of a frame and the packet in it. -/
def splitFrame (frame : Bytes) : Except HeaderError (Protocol × Bytes) :=
  match frame.drop 12 with
  | hi :: lo :: packet => .ok (.ofEtherType (Bytes.u16 hi lo), packet)
  | _ => .error (.truncated etherHeaderLen frame.length)

/-! ### IPv4 -/

/-- The fields of an IPv4 header that the filter reads. -/
structure Ip4Header where
  /-- The length of the header in bytes. -/
  headerLen : Nat
  /-- The length of the packet according to its header. -/
  totalLen : Nat
  /-- The place of a fragment in its datagram, in units of 8 bytes. -/
  fragmentOffset : Nat
  /-- The protocol number of the payload. -/
  protocol : UInt8
  /-- The source. -/
  src : Address
  /-- The destination. -/
  dst : Address
  deriving DecidableEq, Repr, Inhabited

namespace Ip4Header

/-- The shortest header. -/
def minLen : Nat := 20

/-- The header at the front of a packet. -/
def parse (packet : Bytes) : Except HeaderError Ip4Header :=
  match packet with
  | ver :: _ :: len₁ :: len₀ :: _ :: _ :: off₁ :: off₀ :: _ :: proto :: _ :: _ ::
      s₃ :: s₂ :: s₁ :: s₀ :: d₃ :: d₂ :: d₁ :: d₀ :: _ =>
    let headerLen := ver.toNat % 16 * 4
    if headerLen < minLen then .error (.badLength headerLen)
    else if packet.length < headerLen then .error (.truncated headerLen packet.length)
    else .ok {
      headerLen
      totalLen := (Bytes.u16 len₁ len₀).toNat
      fragmentOffset := (Bytes.u16 off₁ off₀).toNat % 8192
      protocol := proto
      src := Bytes.u32 s₃ s₂ s₁ s₀
      dst := Bytes.u32 d₃ d₂ d₁ d₀ }
  | _ => .error (.truncated minLen packet.length)

/-- The bytes after the header, up to the length that the header gives. -/
def payload (h : Ip4Header) (packet : Bytes) : Bytes :=
  (packet.take h.totalLen).drop h.headerLen

end Ip4Header

/-! ### Transport -/

/-- The protocol number of ICMP. -/
def icmp : UInt8 := 1

/-- The protocol number of TCP. -/
def tcp : UInt8 := 6

/-- The protocol number of UDP. -/
def udp : UInt8 := 17

/-- The source and the destination port at the front of a transport header. -/
def ports? : Bytes → Option (UInt16 × UInt16)
  | s₁ :: s₀ :: d₁ :: d₀ :: _ => some (Bytes.u16 s₁ s₀, Bytes.u16 d₁ d₀)
  | _ => none

/-- The place of the flags in a TCP header. -/
def tcpFlagsOffset : Nat := 13

/-- Whether TCP flags open a connection: SYN without ACK. -/
def opensConnection (flags : UInt8) : Bool := flags &&& 0x12 = 0x02

end FilterBridge
