import FilterBridge.Firewall
import FilterBridge.Packet

/-!
# Verdicts on packets

A packet is judged by its own bytes, by the options and by the policy.  Only the
last step of TCP and UDP rules needs to know the class of the host on the
protected side, so a judgement is either settled or a function of the class of
one host.

## Main definitions

* `Options` — how strict the filter is.
* `DenyReason`, `DenyEvent`, `Verdict` — the outcomes.
* `Judgement`, `judge` — a verdict up to the class of one host.
* `Firewall.filter` — the verdict on a packet, and the state after it.
-/

namespace FilterBridge

/-! ### Options -/

/-- Which TCP segments are judged by ports. -/
inductive TcpScope
  /-- Those that open a connection; all others pass. -/
  | synOnly
  /-- All of them. -/
  | everySegment
  deriving DecidableEq, Repr, Inhabited

/-- How outbound UDP is judged. -/
inductive UdpScope
  /-- All of it passes. -/
  | allowAll
  /-- By the outbound list of the sending host. -/
  | checkOutList
  deriving DecidableEq, Repr, Inhabited

/-- How strict the filter is. -/
structure Options where
  /-- Which TCP segments are judged by ports. -/
  tcpAdmission : TcpScope := .synOnly
  /-- How outbound UDP is judged. -/
  outboundUdp : UdpScope := .allowAll
  /-- Discard frames that are not IP, ARP or RARP. -/
  discardOther : Bool := false
  /-- Discard multicast. -/
  denyMulticast : Bool := false
  /-- Discard TCP fragments that could overwrite the flags of the first one. -/
  discardSuspectOffset : Bool := true
  /-- Discard IP protocols other than TCP, UDP and ICMP. -/
  discardOtherIp : Bool := false
  deriving DecidableEq, Repr, Inhabited

/-! ### Outcomes -/

/-- Why a packet was denied. -/
inductive DenyReason
  /-- It is not IP, ARP or RARP. -/
  | otherProtocol
  /-- It goes to a multicast group. -/
  | multicast
  /-- It is a TCP fragment at offset 1. -/
  | suspectFragment
  /-- It comes from a rejected network. -/
  | rejectedNetwork
  /-- A header is too short to judge. -/
  | headerTruncated
  /-- Its ports are not admitted inbound for TCP. -/
  | tcpInbound
  /-- Its ports are not admitted outbound for TCP. -/
  | tcpOutbound
  /-- Its ports are not admitted inbound for UDP. -/
  | udpInbound
  /-- Its ports are not admitted outbound for UDP. -/
  | udpOutbound
  /-- It is of another IP protocol. -/
  | otherIpProtocol
  deriving DecidableEq, Repr, Inhabited

/-- The name of a reason in log records. -/
def DenyReason.name : DenyReason → String
  | otherProtocol => "other_protocol"
  | multicast => "multicast"
  | suspectFragment => "suspect_fragment"
  | rejectedNetwork => "rejected_network"
  | headerTruncated => "header_truncated"
  | tcpInbound => "tcp_inbound"
  | tcpOutbound => "tcp_outbound"
  | udpInbound => "udp_inbound"
  | udpOutbound => "udp_outbound"
  | otherIpProtocol => "other_ip_protocol"

/-- A denied packet, with the header fields that could be read. -/
structure DenyEvent where
  /-- Why it was denied. -/
  reason : DenyReason
  /-- The way it travelled. -/
  direction : Direction
  /-- Its IP protocol, 0 when unknown. -/
  protocol : UInt8 := 0
  /-- Its source, 0 when unknown. -/
  src : Address := 0
  /-- Its destination, 0 when unknown. -/
  dst : Address := 0
  /-- Its source and destination ports, if it was judged by them. -/
  ports : Option (UInt16 × UInt16) := none
  deriving DecidableEq, Repr, Inhabited

/-- The text of a port that may be missing, in log records. -/
def portText : Option UInt16 → String
  | some p => s!"Some({p.toNat})"
  | none => "None"

/-- The log record of a denied packet, as names and texts. -/
def DenyEvent.record (e : DenyEvent) : List (String × String) :=
  [("level", "WARN"), ("message", "packet denied"), ("reason", e.reason.name),
    ("direction", e.direction.label), ("protocol", toString e.protocol.toNat),
    ("src", e.src.dotted), ("dst", e.dst.dotted), ("sport", portText (e.ports.map (·.1))),
    ("dport", portText (e.ports.map (·.2)))]

/-- What becomes of a packet. -/
inductive Verdict
  /-- It passes. -/
  | allow
  /-- It is dropped, counted and logged. -/
  | deny (event : DenyEvent)
  deriving DecidableEq, Repr, Inhabited

namespace Verdict

/-- Pass if the test holds, else drop. -/
def allowIf (b : Bool) (event : DenyEvent) : Verdict := if b then allow else deny event

/-- Drop if the test holds, else pass. -/
def denyIf (b : Bool) (event : DenyEvent) : Verdict := if b then deny event else allow

/-- Whether a packet passes. -/
def isAllow : Verdict → Bool
  | allow => true
  | deny _ => false

/-- The record of a dropped packet. -/
def event? : Verdict → Option DenyEvent
  | allow => none
  | deny event => some event

end Verdict

/-! ### Judging -/

/-- A verdict, which may depend on the class of one host. -/
inductive Judgement
  /-- The verdict depends on no class. -/
  | settled (v : Verdict)
  /-- The verdict depends on the class of `host`. -/
  | byClass (host : Address) (v : PolicyClass → Verdict)

/-- The highest destination port to which no source port opens the way. -/
def lastReservedPort : UInt16 := 900

/-- Judge a TCP segment with a readable header by its ports. -/
def judgeTcpPorts (p : Policy) (d : Direction) (ip : Ip4Header) (sport dport : UInt16) :
    Judgement :=
  let event := fun reason : DenyReason =>
    { reason, direction := d, protocol := ip.protocol, src := ip.src, dst := ip.dst,
      ports := some (sport, dport) : DenyEvent }
  match d with
  | .inbound => .byClass ip.dst fun k =>
    .allowIf ((p.rules k).inbound.admits dport ||
      (lastReservedPort < dport && (p.rules k).source.admits sport)) (event .tcpInbound)
  | .outbound => .byClass ip.src fun k =>
    .allowIf ((p.rules k).outbound.admits dport ||
      (allows? p.allow ip.dst).any (·.ports.admits dport)) (event .tcpOutbound)

/-- Judge a TCP segment. -/
def judgeTcp (o : Options) (p : Policy) (d : Direction) (ip : Ip4Header) (packet : Bytes) :
    Judgement :=
  let segment := ip.payload packet
  match ports? segment, segment[tcpFlagsOffset]? with
  | some (sport, dport), some flags =>
    if packet.length < ip.totalLen then .settled (.deny (truncated ip))
    else if o.tcpAdmission = .synOnly && !opensConnection flags then .settled .allow
    else judgeTcpPorts p d ip sport dport
  | _, _ => .settled (.deny (truncated ip))
where
  /-- The record of a segment too short to judge. -/
  truncated (ip : Ip4Header) : DenyEvent :=
    { reason := .headerTruncated, direction := d, protocol := ip.protocol, src := ip.src,
      dst := ip.dst }

/-- Judge a UDP datagram. -/
def judgeUdp (o : Options) (p : Policy) (d : Direction) (ip : Ip4Header) (packet : Bytes) :
    Judgement :=
  let event := fun (reason : DenyReason) (ports : Option (UInt16 × UInt16)) =>
    { reason, direction := d, protocol := ip.protocol, src := ip.src, dst := ip.dst, ports :
      DenyEvent }
  match ports? (ip.payload packet) with
  | none => .settled (.deny (event .headerTruncated none))
  | some (sport, dport) =>
    match d, o.outboundUdp with
    | .inbound, _ => .byClass ip.dst fun k =>
      .allowIf ((p.rules k).udp.admits dport) (event .udpInbound (some (sport, dport)))
    | .outbound, .allowAll => .settled .allow
    | .outbound, .checkOutList => .byClass ip.src fun k =>
      .allowIf ((p.rules k).outbound.admits dport) (event .udpOutbound (some (sport, dport)))

/-- Judge an IPv4 packet with a readable header.  Multicast comes first, then
fragments other than the first, then rejected sources, then the rules of its
protocol. -/
def judgeIp (o : Options) (p : Policy) (d : Direction) (ip : Ip4Header) (packet : Bytes) :
    Judgement :=
  let event := fun reason : DenyReason =>
    { reason, direction := d, protocol := ip.protocol, src := ip.src, dst := ip.dst : DenyEvent }
  if ip.dst.classOf = .d then .settled (.denyIf o.denyMulticast (event .multicast))
  else if ip.fragmentOffset ≠ 0 then
    .settled (.denyIf (o.discardSuspectOffset && ip.fragmentOffset = 1 && ip.protocol = tcp)
      (event .suspectFragment))
  else if d = .inbound && (rejects? p.reject ip.src).isSome then
    .settled (.deny (event .rejectedNetwork))
  else if ip.protocol = tcp then judgeTcp o p d ip packet
  else if ip.protocol = udp then judgeUdp o p d ip packet
  else .settled (.denyIf (ip.protocol ≠ icmp && o.discardOtherIp) (event .otherIpProtocol))

/-- Judge a packet. -/
def judge (o : Options) (p : Policy) (d : Direction) (protocol : Protocol) (packet : Bytes) :
    Judgement :=
  match protocol with
  | .arp | .rarp => .settled .allow
  | .other => .settled (.denyIf o.discardOther { reason := .otherProtocol, direction := d })
  | .ip =>
    match Ip4Header.parse packet with
    | .error _ => .settled (.deny { reason := .headerTruncated, direction := d })
    | .ok ip => judgeIp o p d ip packet

/-- The verdict of a judgement when hosts have the classes that `classOf` says. -/
def Judgement.verdict (classOf : Address → PolicyClass) : Judgement → Verdict
  | settled v => v
  | byClass host v => v (classOf host)

/-! ### Filtering -/

namespace Firewall

/-- The verdict of a judgement, with the class looked up if it is needed. -/
def settle (f : Firewall) : Judgement → Firewall × Verdict
  | .settled v => (f, v)
  | .byClass host v =>
    match f.lookup host with
    | (f, k) => (f, v k)

/-- Count a verdict: only a denied packet counts. -/
def count (f : Firewall) : Verdict → Firewall
  | .allow => f
  | .deny event => { f with counters := f.counters.filtered event.direction }

/-- The verdict on a packet, and the state after it. -/
def filter (f : Firewall) (o : Options) (d : Direction) (protocol : Protocol) (packet : Bytes) :
    Firewall × Verdict :=
  match f.settle (judge o f.policy d protocol packet) with
  | (f, v) => (f.count v, v)

end Firewall

end FilterBridge
