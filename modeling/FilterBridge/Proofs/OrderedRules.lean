import FilterBridge.Verdict
import FilterBridge.Proofs.CachedClasses

/-!
# The rules in order

A verdict can be read off a list of rules: the first that applies decides.  The rules
read the packet at fixed positions and know the tables and the map from networks to
host tables, but neither a cache nor the place of anything.

## Main definitions

* `Grounds` — the tables that packets are judged by.
* `firstVerdict` — the verdict of the first rule that applies.
* `tcpRules`, `udpRules`, `ipRules` — the rules.
* `ruling` — the verdict by the rules.

## Main results

* `judge_verdict_eq` — a judgement comes to the verdict by the rules.
-/

namespace FilterBridge

/-! ### Positions in a packet -/

namespace Bytes

/-- The byte at a position, 0 past the end. -/
def byteAt (bs : Bytes) (i : Nat) : UInt8 := bs.getD i 0

/-- The 16-bit word at a position. -/
def wordAt (bs : Bytes) (i : Nat) : UInt16 := u16 (bs.byteAt i) (bs.byteAt (i + 1))

/-- The address at a position. -/
def addressAt (bs : Bytes) (i : Nat) : Address :=
  u32 (bs.byteAt i) (bs.byteAt (i + 1)) (bs.byteAt (i + 2)) (bs.byteAt (i + 3))

theorem drop_eq_byteAt_cons {bs : Bytes} {i : Nat} (h : i < bs.length) :
    bs.drop i = bs.byteAt i :: bs.drop (i + 1) := by
  rw [List.drop_eq_getElem_cons h, byteAt, List.getD_eq_getElem?_getD,
    List.getElem?_eq_getElem h, Option.getD_some]

end Bytes

namespace Packet

/-- The length of the IP header, from the low half of the first byte. -/
def headerLen (packet : Bytes) : Nat := (packet.byteAt 0).toNat % 16 * 4

/-- The length of the packet, according to its header. -/
def totalLen (packet : Bytes) : Nat := (packet.wordAt 2).toNat

/-- The place of a fragment in its datagram. -/
def fragment (packet : Bytes) : Nat := (packet.wordAt 6).toNat % 8192

/-- The protocol number. -/
def protocol (packet : Bytes) : UInt8 := packet.byteAt 9

/-- The source. -/
def src (packet : Bytes) : Address := packet.addressAt 12

/-- The destination. -/
def dst (packet : Bytes) : Address := packet.addressAt 16

/-- How many bytes there are after the IP header, as far as it says. -/
def payloadLen (packet : Bytes) : Nat := min (totalLen packet) packet.length - headerLen packet

/-- The source port. -/
def sport (packet : Bytes) : UInt16 := packet.wordAt (headerLen packet)

/-- The destination port. -/
def dport (packet : Bytes) : UInt16 := packet.wordAt (headerLen packet + 2)

/-- The flags of a TCP segment. -/
def flags (packet : Bytes) : UInt8 := packet.byteAt (headerLen packet + 13)

end Packet

/-! ### Lists of ports and networks -/

/-- Whether the first row that ends at or above a port, of those before the final row,
begins at or below it. -/
def PortList.grants (l : PortList) (port : UInt16) : Bool :=
  ((l.rows.takeWhile (!·.isFinal)).find? (port ≤ ·.last)).any (·.first ≤ port)

/-- The first rule whose network covers an address, of those before a rule for
network 0. -/
def covering {α : Type} (subnet : α → Subnet) (ip : Address) (rules : List α) : Option α :=
  (rules.takeWhile fun r => (subnet r).network ≠ 0).find? fun r =>
    (subnet r).network &&& (subnet r).mask = ip &&& (subnet r).mask

theorem PortList.admits_eq_grants (l : PortList) (port : UInt16) :
    l.admits port = l.grants port := by
  obtain ⟨rows⟩ := l
  unfold admits grants
  simp only
  induction rows with
  | nil => rfl
  | cons r rows ih =>
    rw [admitsRow]
    by_cases hf : r.isFinal
    · simp [hf]
    · by_cases hl : port ≤ r.last
      · simp [hf, hl]
      · simpa [hf, hl] using ih

theorem firstMatch?_eq_covering {α : Type} (subnet : α → Subnet) (ip : Address)
    (rules : List α) : firstMatch? subnet ip rules = covering subnet ip rules := by
  unfold covering
  induction rules with
  | nil => rfl
  | cons r rules ih =>
    rw [firstMatch?]
    by_cases hn : (subnet r).network = 0
    · simp [hn]
    · by_cases hc : (subnet r).contains ip
      · have hc' := hc
        simp only [Subnet.contains, decide_eq_true_eq] at hc'
        simp [hn, hc, hc']
      · have hc' := hc
        simp only [Subnet.contains, decide_eq_true_eq] at hc'
        simpa [hn, hc, hc'] using ih

/-! ### Rules -/

/-- The tables that packets are judged by. -/
structure Grounds where
  /-- The rules of each class. -/
  rules : PolicyClass → ClassRules
  /-- The allow list. -/
  allow : List AllowRule
  /-- The reject list. -/
  reject : List Subnet
  /-- The host tables by network. -/
  hosts : Address → Option Bytes

/-- The verdict of the first rule that applies; a packet to which none applies
passes. -/
def firstVerdict : List (Bool × Verdict) → Verdict
  | [] => .allow
  | (applies, v) :: rules => if applies then v else firstVerdict rules

section Rules

variable (o : Options) (g : Grounds) (d : Direction) (packet : Bytes)

/-- The record of a denied packet with a readable header. -/
def denial (reason : DenyReason) (ports : Option (UInt16 × UInt16)) : Verdict :=
  .deny { reason, direction := d, protocol := Packet.protocol packet, src := Packet.src packet,
          dst := Packet.dst packet, ports }

/-- The rules of the class of the host on the protected side. -/
def hostRules : ClassRules :=
  match d with
  | .inbound => g.rules (hostClass g.hosts (Packet.dst packet))
  | .outbound => g.rules (hostClass g.hosts (Packet.src packet))

/-- The rules for TCP. -/
def tcpRules : List (Bool × Verdict) :=
  let ports := some (Packet.sport packet, Packet.dport packet)
  [(Packet.payloadLen packet < 14 || packet.length < Packet.totalLen packet,
      denial d packet .headerTruncated none),
    (o.tcpAdmission = .synOnly && Packet.flags packet &&& 0x12 ≠ 0x02, .allow)] ++
  match d with
  | .inbound =>
    [((hostRules g d packet).inbound.grants (Packet.dport packet), .allow),
      (900 < Packet.dport packet && (hostRules g d packet).source.grants (Packet.sport packet),
        .allow),
      (true, denial d packet .tcpInbound ports)]
  | .outbound =>
    [((hostRules g d packet).outbound.grants (Packet.dport packet), .allow),
      ((covering (·.subnet) (Packet.dst packet) g.allow).any
        (·.ports.grants (Packet.dport packet)), .allow),
      (true, denial d packet .tcpOutbound ports)]

/-- The rules for UDP. -/
def udpRules : List (Bool × Verdict) :=
  let ports := some (Packet.sport packet, Packet.dport packet)
  (Packet.payloadLen packet < 4, denial d packet .headerTruncated none) ::
  match d with
  | .inbound =>
    [((hostRules g d packet).udp.grants (Packet.dport packet), .allow),
      (true, denial d packet .udpInbound ports)]
  | .outbound =>
    [(o.outboundUdp = .allowAll, .allow),
      ((hostRules g d packet).outbound.grants (Packet.dport packet), .allow),
      (true, denial d packet .udpOutbound ports)]

/-- The rules for IPv4. -/
def ipRules : List (Bool × Verdict) :=
  [(packet.length < 20 || Packet.headerLen packet < 20 || packet.length < Packet.headerLen packet,
      .deny { reason := .headerTruncated, direction := d }),
    ((Packet.dst packet).toNat / 268435456 = 14 && o.denyMulticast,
      denial d packet .multicast none),
    ((Packet.dst packet).toNat / 268435456 = 14, .allow),
    (o.discardSuspectOffset && Packet.fragment packet = 1 && Packet.protocol packet = 6,
      denial d packet .suspectFragment none),
    (Packet.fragment packet ≠ 0, .allow),
    (d = .inbound && (covering id (Packet.src packet) g.reject).isSome,
      denial d packet .rejectedNetwork none)] ++
  if Packet.protocol packet = 6 then tcpRules o g d packet
  else if Packet.protocol packet = 17 then udpRules o g d packet
  else [(Packet.protocol packet = 1, .allow),
    (o.discardOtherIp, denial d packet .otherIpProtocol none)]

/-- The verdict by the rules. -/
def ruling (protocol : Protocol) : Verdict :=
  match protocol with
  | .arp | .rarp => .allow
  | .other => if o.discardOther then .deny { reason := .otherProtocol, direction := d } else .allow
  | .ip => firstVerdict (ipRules o g d packet)

end Rules

/-! ### Reading a header -/

variable {packet : Bytes}

/-- The fields of an IP header, read at their positions. -/
def headerOf (packet : Bytes) : Ip4Header where
  headerLen := Packet.headerLen packet
  totalLen := Packet.totalLen packet
  fragmentOffset := Packet.fragment packet
  protocol := Packet.protocol packet
  src := Packet.src packet
  dst := Packet.dst packet

theorem parse_of_short (h : packet.length < 20) :
    Ip4Header.parse packet = .error (.truncated 20 packet.length) := by
  unfold Ip4Header.parse
  split
  · simp only [List.length_cons] at h
    omega
  · rfl

theorem parse_of_long (h : 20 ≤ packet.length) :
    Ip4Header.parse packet =
      if Packet.headerLen packet < 20 then .error (.badLength (Packet.headerLen packet))
      else if packet.length < Packet.headerLen packet then
        .error (.truncated (Packet.headerLen packet) packet.length)
      else .ok (headerOf packet) := by
  have hcons : packet.drop 0 = packet.drop 0 := rfl
  conv at hcons =>
    rhs
    simp (disch := omega) only [Bytes.drop_eq_byteAt_cons, Nat.zero_add, Nat.reduceAdd]
  rw [List.drop_zero] at hcons
  unfold Ip4Header.parse
  split
  · rfl
  · rename_i hne
    exact (hne _ _ _ _ _ _ _ _ _ _ _ _ _ _ _ _ _ _ _ _ _ hcons).elim

theorem length_payload (packet : Bytes) :
    ((headerOf packet).payload packet).length = Packet.payloadLen packet := by
  simp [Ip4Header.payload, headerOf, Packet.payloadLen]

theorem byteAt_payload (packet : Bytes) (i : Nat) (h : i < Packet.payloadLen packet) :
    ((headerOf packet).payload packet).byteAt i = packet.byteAt (Packet.headerLen packet + i) := by
  have hlt : Packet.headerLen packet + i < Packet.totalLen packet := by
    unfold Packet.payloadLen at h
    omega
  simp [Bytes.byteAt, Ip4Header.payload, headerOf, List.getElem?_drop, hlt]

theorem ports?_payload (packet : Bytes) :
    ports? ((headerOf packet).payload packet) =
      if Packet.payloadLen packet < 4 then none
      else some (Packet.sport packet, Packet.dport packet) := by
  have hlen := length_payload packet
  have hbyte := byteAt_payload packet
  generalize (headerOf packet).payload packet = segment at hlen hbyte
  split
  · rename_i hlt
    unfold ports?
    split
    · simp only [List.length_cons] at hlen
      omega
    · rfl
  · rename_i hle
    have hcons : segment.drop 0 = segment.drop 0 := rfl
    conv at hcons =>
      rhs
      rw [Bytes.drop_eq_byteAt_cons (by omega), Bytes.drop_eq_byteAt_cons (by omega),
        Bytes.drop_eq_byteAt_cons (by omega), Bytes.drop_eq_byteAt_cons (by omega)]
    rw [List.drop_zero, hbyte 0 (by omega), hbyte 1 (by omega), hbyte 2 (by omega),
      hbyte 3 (by omega)] at hcons
    rw [hcons]
    rfl

theorem flags_payload (packet : Bytes) :
    ((headerOf packet).payload packet)[tcpFlagsOffset]? =
      if Packet.payloadLen packet < 14 then none else some (Packet.flags packet) := by
  have hlen := length_payload packet
  have hbyte := byteAt_payload packet
  generalize (headerOf packet).payload packet = segment at hlen hbyte
  split
  · rename_i hlt
    exact List.getElem?_eq_none (by rw [hlen, tcpFlagsOffset]; omega)
  · rename_i hle
    have hb := hbyte 13 (by omega)
    rw [Bytes.byteAt, List.getD_eq_getElem?_getD] at hb
    have hlt : 13 < segment.length := by omega
    rw [tcpFlagsOffset, List.getElem?_eq_getElem hlt, Packet.flags, ← hb,
      List.getElem?_eq_getElem hlt, Option.getD_some]

/-! ### A judgement comes to the ruling -/

theorem Address.classOf_eq_d_iff (ip : Address) :
    ip.classOf = .d ↔ ip.toNat / 268435456 = 14 := by
  grind [Address.classOf]

section Agreement

variable (o : Options) (p : Policy) (hosts : Address → Option Bytes) (d : Direction)
  (packet : Bytes)

/-- The grounds that a policy and host tables give. -/
def Policy.grounds (p : Policy) (hosts : Address → Option Bytes) : Grounds :=
  ⟨p.rules, p.allow, p.reject, hosts⟩

@[simp] theorem firstVerdict_nil : firstVerdict [] = .allow := rfl

@[simp] theorem firstVerdict_cons (applies : Bool) (v : Verdict) (rules : List (Bool × Verdict)) :
    firstVerdict ((applies, v) :: rules) = if applies then v else firstVerdict rules := rfl

/-- Two rules with one verdict are one rule. -/
theorem firstVerdict_or (a b : Bool) (v : Verdict) (rules : List (Bool × Verdict)) :
    firstVerdict ((a, v) :: (b, v) :: rules) = if a || b then v else firstVerdict rules := by
  cases a <;> rfl

theorem judgeTcpPorts_verdict_eq :
    (judgeTcpPorts p d (headerOf packet) (Packet.sport packet) (Packet.dport packet)).verdict
      (hostClass hosts) =
    firstVerdict ((tcpRules o (p.grounds hosts) d packet).drop 2) := by
  unfold judgeTcpPorts tcpRules
  cases d with
  | inbound =>
    simp only [List.cons_append, List.nil_append, List.drop_succ_cons, List.drop_zero]
    rw [firstVerdict_or]
    simp only [Judgement.verdict, Verdict.allowIf, PortList.admits_eq_grants, firstVerdict_cons]
    rfl
  | outbound =>
    simp only [List.cons_append, List.nil_append, List.drop_succ_cons, List.drop_zero]
    rw [firstVerdict_or]
    simp only [Judgement.verdict, Verdict.allowIf, PortList.admits_eq_grants, allows?,
      firstMatch?_eq_covering, firstVerdict_cons]
    rfl

theorem judgeTcp_verdict_eq :
    (judgeTcp o p d (headerOf packet) packet).verdict (hostClass hosts) =
      firstVerdict (tcpRules o (p.grounds hosts) d packet) := by
  have hports := judgeTcpPorts_verdict_eq o p hosts d packet
  -- the first two rules are tested before the ports are looked at
  have hrules : ∃ rest, tcpRules o (p.grounds hosts) d packet =
      (Packet.payloadLen packet < 14 || packet.length < Packet.totalLen packet,
        denial d packet .headerTruncated none) ::
      (o.tcpAdmission = .synOnly && Packet.flags packet &&& 0x12 ≠ 0x02, .allow) :: rest :=
    ⟨_, rfl⟩
  obtain ⟨rest, hrest⟩ := hrules
  rw [hrest] at hports ⊢
  simp only [List.drop_succ_cons, List.drop_zero] at hports
  unfold judgeTcp
  simp only [ports?_payload, flags_payload, firstVerdict_cons, ← hports]
  by_cases hshort : Packet.payloadLen packet < 14
  · -- either the ports or the flags are missing
    have hdeny : denial d packet .headerTruncated none =
        .deny (judgeTcp.truncated d (headerOf packet)) := rfl
    simp only [hshort, decide_true, Bool.true_or, if_true, hdeny]
    split
    · rename_i h
      simp at h
    · rfl
  · have hlong : ¬ Packet.payloadLen packet < 4 := by omega
    simp only [hshort, hlong, if_false, decide_false, Bool.false_or]
    by_cases htotal : packet.length < Packet.totalLen packet
    · simp only [headerOf, htotal, decide_true, if_true]
      rfl
    · have hle : ¬ packet.length < (headerOf packet).totalLen := htotal
      have hopen : (!opensConnection (Packet.flags packet)) =
          decide (Packet.flags packet &&& 0x12 ≠ 0x02) := by
        simp [opensConnection]
      simp only [hle, htotal, hopen, decide_false, if_false, Bool.false_eq_true]
      split <;> rfl

theorem judgeUdp_verdict_eq :
    (judgeUdp o p d (headerOf packet) packet).verdict (hostClass hosts) =
      firstVerdict (udpRules o (p.grounds hosts) d packet) := by
  unfold judgeUdp udpRules
  simp only [ports?_payload, firstVerdict_cons]
  by_cases hshort : Packet.payloadLen packet < 4
  · simp only [hshort, decide_true, if_true]
    rfl
  · simp only [hshort, decide_false, if_false, Bool.false_eq_true]
    cases d with
    | inbound =>
      simp only [Judgement.verdict, Verdict.allowIf, PortList.admits_eq_grants, firstVerdict_cons]
      rfl
    | outbound =>
      cases ho : o.outboundUdp with
      | allowAll => rfl
      | checkOutList =>
        simp only [Judgement.verdict, Verdict.allowIf, PortList.admits_eq_grants, firstVerdict_cons]
        rfl

theorem judgeIp_verdict_eq (hread : ¬ (packet.length < 20 ∨ Packet.headerLen packet < 20 ∨
      packet.length < Packet.headerLen packet)) :
    (judgeIp o p d (headerOf packet) packet).verdict (hostClass hosts) =
      firstVerdict (ipRules o (p.grounds hosts) d packet) := by
  have htcp := judgeTcp_verdict_eq o p hosts d packet
  have hudp := judgeUdp_verdict_eq o p hosts d packet
  have hcut : (decide (packet.length < 20) || decide (Packet.headerLen packet < 20) ||
      decide (packet.length < Packet.headerLen packet)) = false := by
    simpa [not_or, and_assoc] using hread
  unfold judgeIp ipRules
  simp only [List.cons_append, List.nil_append, firstVerdict_cons, hcut, Bool.false_eq_true,
    if_false]
  -- from here on the tests come in the order of the rules
  by_cases hmulti : (Packet.dst packet).toNat / 268435456 = 14
  · have hd : (headerOf packet).dst.classOf = .d := (Address.classOf_eq_d_iff _).mpr hmulti
    simp only [hd, hmulti, if_true, decide_true, Bool.true_and]
    rfl
  have hd : (headerOf packet).dst.classOf ≠ .d := mt (Address.classOf_eq_d_iff _).mp hmulti
  simp only [hd, hmulti, if_false, decide_false, Bool.false_and, Bool.false_eq_true]
  by_cases hfrag : Packet.fragment packet ≠ 0
  · have hf : (headerOf packet).fragmentOffset ≠ 0 := hfrag
    have hpass : decide (Packet.fragment packet ≠ 0) = true := by simpa using hfrag
    rw [if_pos hf, if_pos hpass]
    rfl
  have hf : ¬ (headerOf packet).fragmentOffset ≠ 0 := hfrag
  have hone : Packet.fragment packet ≠ 1 := by omega
  simp only [if_neg hf, hfrag, hone, decide_false, Bool.false_and, Bool.and_false,
    Bool.false_eq_true, if_false]
  have hreject : rejects? p.reject (headerOf packet).src =
      covering id (Packet.src packet) (p.grounds hosts).reject :=
    firstMatch?_eq_covering id (Packet.src packet) p.reject
  rw [hreject]
  by_cases hin : (d = .inbound && (covering id (Packet.src packet)
      (p.grounds hosts).reject).isSome) = true
  · simp only [hin, if_true]
    rfl
  rw [if_neg hin, if_neg hin]
  by_cases h6 : Packet.protocol packet = 6
  · have htcp' : (headerOf packet).protocol = tcp := h6
    rw [if_pos htcp', if_pos h6]
    exact htcp
  have htcp' : (headerOf packet).protocol ≠ tcp := h6
  rw [if_neg htcp', if_neg h6]
  by_cases h17 : Packet.protocol packet = 17
  · have hudp' : (headerOf packet).protocol = udp := h17
    rw [if_pos hudp', if_pos h17]
    exact hudp
  have hudp' : (headerOf packet).protocol ≠ udp := h17
  rw [if_neg hudp', if_neg h17]
  by_cases h1 : Packet.protocol packet = 1
  · have hicmp : (headerOf packet).protocol = icmp := h1
    simp only [hicmp, h1, firstVerdict_cons, ne_eq, not_true_eq_false, decide_false,
      Bool.false_and, decide_true, if_true]
    rfl
  · have hicmp : (headerOf packet).protocol ≠ icmp := h1
    simp only [hicmp, h1, firstVerdict_cons, ne_eq, not_false_eq_true, decide_true,
      Bool.true_and, decide_false, Bool.false_eq_true, if_false]
    rfl

/-- A judgement comes to the verdict by the rules. -/
theorem judge_verdict_eq (protocol : Protocol) :
    (judge o p d protocol packet).verdict (hostClass hosts) =
      ruling o (p.grounds hosts) d packet protocol := by
  cases protocol with
  | arp => rfl
  | rarp => rfl
  | other => rfl
  | ip =>
    unfold judge ruling
    simp only
    by_cases hread : packet.length < 20 ∨ Packet.headerLen packet < 20 ∨
      packet.length < Packet.headerLen packet
    · have hfirst : firstVerdict (ipRules o (p.grounds hosts) d packet) =
          .deny { reason := .headerTruncated, direction := d } := by
        unfold ipRules
        simp [hread, or_assoc]
      rw [hfirst]
      by_cases hshort : packet.length < 20
      · rw [parse_of_short hshort]
        rfl
      · rw [parse_of_long (by omega)]
        by_cases hmin : Packet.headerLen packet < 20
        · rw [if_pos hmin]
          rfl
        · have hcut : packet.length < Packet.headerLen packet := by omega
          rw [if_neg hmin, if_pos hcut]
          rfl
    · rw [← judgeIp_verdict_eq o p hosts d packet hread]
      rw [not_or, not_or] at hread
      rw [parse_of_long (by omega), if_neg hread.2.1, if_neg hread.2.2]

end Agreement

end FilterBridge
