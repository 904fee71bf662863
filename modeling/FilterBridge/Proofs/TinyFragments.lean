import FilterBridge.Proofs.OrderedRules

/-!
# Fragments do not evade the rules for TCP

A datagram may travel in fragments, and whoever sends it chooses where they begin, how long
they are and what their headers say about it.  With suspect offsets discarded, a fragment of
a TCP segment passes if it begins behind the flags, or if it holds ports and flags itself
and passes the rules.  So however the fragments that pass are put together again, ports and
flags were judged.

## Main definitions

* `Firewall.AdmitsPorts` — the ports of a segment are admitted by the policy.
* `Inspected` — a fragment passed the rules for TCP.
* `Packet.carried`, `Reassembles` — the bytes of a datagram that a fragment carries, and a
  datagram that fragments make up.
* `Passage` — a packet that meets a filter.

## Main results

* `Firewall.filter_tcp_iff` — which fragments of a TCP segment pass.
* `Inspected.carries_header` — a fragment that passed the rules holds ports and flags.
* `no_tiny_fragments` — the ports and flags of a datagram were judged.
-/

namespace FilterBridge

/-! ### One fragment -/

/-- The policy admits the ports of a TCP segment: inbound, the class of the destination takes
connections to the destination port, or takes those to unreserved ports from the source
port; outbound, the class of the source may connect to the destination port, or anyone may
at that destination. -/
def Firewall.AdmitsPorts (f : Firewall) (d : Direction) (packet : Bytes) : Prop :=
  match d with
  | .inbound =>
    let rules := f.policy.rules (f.lookup (Packet.dst packet)).2
    rules.inbound.grants (Packet.dport packet) = true ∨
      900 < Packet.dport packet ∧ rules.source.grants (Packet.sport packet) = true
  | .outbound =>
    (f.policy.rules (f.lookup (Packet.src packet)).2).outbound.grants (Packet.dport packet) =
        true ∨
      ∃ rule, covering (·.subnet) (Packet.dst packet) f.policy.allow = some rule ∧
        rule.ports.grants (Packet.dport packet) = true

/-- All that the rules for TCP ask of a packet that passes them. -/
structure Inspected (f : Firewall) (o : Options) (d : Direction) (packet : Bytes) : Prop where
  /-- It is the first fragment, or the only one. -/
  first : Packet.fragment packet = 0
  /-- It does not come from a rejected network. -/
  source : d = .inbound → covering id (Packet.src packet) f.policy.reject = none
  /-- It is as long as it says. -/
  whole : Packet.totalLen packet ≤ packet.length
  /-- It holds ports and flags. -/
  header : 14 ≤ Packet.payloadLen packet
  /-- If its ports matter, they are admitted. -/
  ports : o.tcpAdmission = .everySegment ∨ opensConnection (Packet.flags packet) = true →
    f.AdmitsPorts d packet

variable {f : Firewall} {o : Options} {d : Direction} {packet : Bytes} {ip : Ip4Header}

/-- A header that can be read holds what stands at the fixed positions. -/
theorem eq_headerOf (h : Ip4Header.parse packet = .ok ip) : ip = headerOf packet := by
  by_cases hshort : packet.length < 20
  · rw [parse_of_short hshort] at h
    cases h
  · rw [parse_of_long (by omega)] at h
    split at h
    · cases h
    split at h
    · cases h
    · exact (Except.ok.inj h).symm

@[simp] theorem Verdict.allowIf_eq_allow {b : Bool} {event : DenyEvent} :
    Verdict.allowIf b event = .allow ↔ b = true := by
  cases b <;> simp [Verdict.allowIf]

@[simp] theorem Verdict.denyIf_eq_allow {b : Bool} {event : DenyEvent} :
    Verdict.denyIf b event = .allow ↔ b = false := by
  cases b <;> simp [Verdict.denyIf]

namespace Firewall

/-- A packet gets the verdict that the classes of hosts give it, as the filter looks them
up. -/
theorem filter_verdict (f : Firewall) (o : Options) (d : Direction) (protocol : Protocol)
    (packet : Bytes) :
    (f.filter o d protocol packet).2 =
      (judge o f.policy d protocol packet).verdict fun host => (f.lookup host).2 := by
  unfold filter
  cases judge o f.policy d protocol packet <;> rfl

theorem judgeTcpPorts_eq_allow :
    (judgeTcpPorts f.policy d (headerOf packet) (Packet.sport packet)
        (Packet.dport packet)).verdict (fun host => (f.lookup host).2) = .allow ↔
      f.AdmitsPorts d packet := by
  cases d with
  | inbound =>
    simp only [judgeTcpPorts, Judgement.verdict, Verdict.allowIf_eq_allow, Bool.or_eq_true,
      Bool.and_eq_true, decide_eq_true_eq, PortList.admits_eq_grants]
    rfl
  | outbound =>
    simp only [judgeTcpPorts, Judgement.verdict, Verdict.allowIf_eq_allow, Bool.or_eq_true,
      Option.any_eq_true, PortList.admits_eq_grants, allows?, firstMatch?_eq_covering]
    rfl

/-- A segment passes the rules for TCP if it holds ports and flags, is as long as it says,
and its ports are admitted if they matter. -/
theorem judgeTcp_eq_allow :
    (judgeTcp o f.policy d (headerOf packet) packet).verdict (fun host => (f.lookup host).2) =
        .allow ↔
      14 ≤ Packet.payloadLen packet ∧ Packet.totalLen packet ≤ packet.length ∧
        (o.tcpAdmission = .everySegment ∨ opensConnection (Packet.flags packet) = true →
          f.AdmitsPorts d packet) := by
  unfold judgeTcp
  dsimp only
  rw [ports?_payload, flags_payload]
  by_cases hheader : Packet.payloadLen packet < 14
  · -- the flags are missing, if not the ports
    rw [if_pos hheader]
    refine iff_of_false ?_ fun h => absurd h.1 (by omega)
    split
    · rename_i h
      cases h
    · exact Verdict.noConfusion
  · have hlen : (headerOf packet).totalLen = Packet.totalLen packet := rfl
    rw [if_neg hheader, if_neg (by omega), hlen]
    dsimp only
    by_cases hwhole : packet.length < Packet.totalLen packet
    · rw [if_pos hwhole]
      exact iff_of_false Verdict.noConfusion fun h => absurd h.2.1 (by omega)
    · rw [if_neg hwhole]
      split
      · -- its ports do not matter
        rename_i hscope
        rw [Bool.and_eq_true, decide_eq_true_eq, Bool.not_eq_true'] at hscope
        refine iff_of_true rfl ⟨by omega, by omega, ?_⟩
        rintro (hevery | hopens)
        · exact absurd (hscope.1.symm.trans hevery) (by decide)
        · exact absurd (hscope.2.symm.trans hopens) Bool.false_ne_true
      · rename_i hscope
        rw [judgeTcpPorts_eq_allow]
        have hmatters : o.tcpAdmission = .everySegment ∨
            opensConnection (Packet.flags packet) = true := by
          cases hscope' : o.tcpAdmission <;> simp_all
        exact ⟨fun h => ⟨by omega, by omega, fun _ => h⟩, fun h => h.2.2 hmatters⟩

/-- With suspect offsets discarded, a fragment of a TCP segment passes if it begins behind
the flags, or if it passes the rules for TCP. -/
theorem filter_tcp_iff (hsuspect : o.discardSuspectOffset = true)
    (h : Ip4Header.parse packet = .ok ip) (hprotocol : ip.protocol = tcp)
    (hdst : ip.dst.classOf ≠ .d) :
    (f.filter o d .ip packet).2 = .allow ↔
      2 ≤ Packet.fragment packet ∨ Inspected f o d packet := by
  obtain rfl := eq_headerOf h
  have hjudge : judge o f.policy d .ip packet = judgeIp o f.policy d (headerOf packet) packet := by
    simp only [judge, h]
  rw [filter_verdict, hjudge]
  unfold judgeIp
  rw [if_neg hdst]
  by_cases hfirst : Packet.fragment packet = 0
  · have hzero : ¬ (headerOf packet).fragmentOffset ≠ 0 := not_not_intro hfirst
    have hbehind : ¬ 2 ≤ Packet.fragment packet := by omega
    rw [if_neg hzero, or_iff_right hbehind]
    have hsrc : (headerOf packet).src = Packet.src packet := rfl
    rw [hsrc, rejects?, firstMatch?_eq_covering, if_pos hprotocol]
    by_cases hsource : d = .inbound ∧ (covering id (Packet.src packet) f.policy.reject).isSome
    · rw [if_pos (by simpa using hsource)]
      refine iff_of_false Verdict.noConfusion fun hinspected => ?_
      rw [hinspected.source hsource.1] at hsource
      exact absurd hsource.2 Bool.false_ne_true
    · rw [if_neg (by simpa using hsource), judgeTcp_eq_allow]
      constructor
      · rintro ⟨hheader, hwhole, hports⟩
        exact ⟨hfirst, by simpa using hsource, hwhole, hheader, hports⟩
      · intro hinspected
        exact ⟨hinspected.header, hinspected.whole, hinspected.ports⟩
  · have hlater : (headerOf packet).fragmentOffset ≠ 0 := hfirst
    rw [if_pos hlater]
    have hone : (headerOf packet).fragmentOffset = Packet.fragment packet := rfl
    simp only [Judgement.verdict, Verdict.denyIf_eq_allow, hsuspect, hprotocol, hone,
      Bool.true_and, decide_true, Bool.and_true, decide_eq_false_iff_not]
    constructor
    · intro hne
      exact .inl (by omega)
    · rintro (hbehind | hinspected)
      · omega
      · exact absurd hinspected.first hfirst

/-- A packet without a readable header does not pass. -/
theorem exists_parse_of_allow (h : (f.filter o d .ip packet).2 = .allow) :
    ∃ ip, Ip4Header.parse packet = .ok ip := by
  rw [filter_verdict] at h
  cases hp : Ip4Header.parse packet with
  | error e =>
    simp only [judge, hp] at h
    cases h
  | ok ip => exact ⟨ip, rfl⟩

end Firewall

/-! ### All fragments of a datagram -/

/-- The byte that a fragment carries for a position of its datagram, if it reaches there. -/
def Packet.carried (packet : Bytes) (pos : Nat) : Option UInt8 :=
  let start := 8 * fragment packet
  if start ≤ pos ∧ pos < start + payloadLen packet then
    some (packet.byteAt (headerLen packet + (pos - start)))
  else none

/-- A datagram is put together from fragments: each of its bytes is carried by one of them.
Where fragments overlap, it may be any of those that do. -/
def Reassembles (fragments : List Bytes) (datagram : Bytes) : Prop :=
  ∀ pos b, datagram[pos]? = some b → ∃ packet ∈ fragments, Packet.carried packet pos = some b

/-- A packet that meets a filter. -/
structure Passage where
  /-- The filter. -/
  filter : Firewall
  /-- How strict it is. -/
  options : Options
  /-- The way the packet travels. -/
  direction : Direction
  /-- The packet. -/
  packet : Bytes

/-- The packet passes. -/
def Passage.Passes (p : Passage) : Prop :=
  (p.filter.filter p.options p.direction .ip p.packet).2 = .allow

/-- A fragment that passed the rules for TCP carries ports and flags. -/
theorem Inspected.carries_header (h : Inspected f o d packet) {i : Nat} (hi : i < 14) :
    (Packet.carried packet i).isSome := by
  have hheader := h.header
  rw [Packet.carried, h.first, Nat.mul_zero, Nat.zero_add, if_pos ⟨by omega, by omega⟩]
  rfl

/-- A fragment that passes and carries a part of ports and flags passed the rules for TCP. -/
theorem Passage.Passes.inspected {p : Passage} (h : p.Passes)
    (hsuspect : p.options.discardSuspectOffset = true) (hprotocol : Packet.protocol p.packet = tcp)
    (hdst : (Packet.dst p.packet).classOf ≠ .d) {pos : Nat} (hpos : pos < 14)
    (hcarried : (Packet.carried p.packet pos).isSome) :
    Inspected p.filter p.options p.direction p.packet := by
  obtain ⟨ip, hp⟩ := Firewall.exists_parse_of_allow h
  obtain rfl := eq_headerOf hp
  obtain hbehind | hinspected := (Firewall.filter_tcp_iff hsuspect hp hprotocol hdst).mp h
  · -- what begins there lies behind the flags
    rw [Packet.carried, if_neg (by omega)] at hcarried
    cases hcarried
  · exact hinspected

/-- Suspect offsets are discarded, in any state, for either direction and with any other
options.  Then a TCP packet with a readable header that does not go to a group passes exactly
if

* it is a fragment that begins behind the flags, or
* it is a first fragment, not from a rejected network if it comes in, as long as it says, it
  holds ports and flags, and, if it opens a connection or every segment is judged, its ports
  are admitted by the policy for the host on the protected side.

Any number of such packets to one destination pass, each on its own and each at its own time,
and a datagram is put together from them in any way.  Then each byte of its ports and flags
comes from one of them, and whichever of them carries such a byte is a first fragment that
passed the rules for TCP and carries all of ports and flags. -/
theorem no_tiny_fragments :
    (∀ (f : Firewall) (o : Options) (d : Direction) (packet : Bytes) (ip : Ip4Header),
      o.discardSuspectOffset = true → Ip4Header.parse packet = .ok ip → ip.protocol = tcp →
      ip.dst.classOf ≠ .d →
      ((f.filter o d .ip packet).2 = .allow ↔
        2 ≤ Packet.fragment packet ∨ Inspected f o d packet)) ∧
    ∀ (dst : Address) (passages : List Passage) (datagram : Bytes),
      dst.classOf ≠ .d →
      (∀ p ∈ passages, p.Passes ∧ p.options.discardSuspectOffset = true ∧
        Packet.protocol p.packet = tcp ∧ Packet.dst p.packet = dst) →
      Reassembles (passages.map (·.packet)) datagram →
      ∀ pos b, pos < 14 → datagram[pos]? = some b →
        (∃ p ∈ passages, Packet.carried p.packet pos = some b) ∧
        ∀ p ∈ passages, (Packet.carried p.packet pos).isSome →
          Inspected p.filter p.options p.direction p.packet ∧
          ∀ i < 14, (Packet.carried p.packet i).isSome := by
  refine ⟨fun f o d packet ip hsuspect h => Firewall.filter_tcp_iff hsuspect h, ?_⟩
  intro dst passages datagram hdst hpass hdatagram pos b hpos hb
  constructor
  · obtain ⟨packet, hmem, hcarried⟩ := hdatagram pos b hb
    obtain ⟨p, hp, rfl⟩ := List.mem_map.mp hmem
    exact ⟨p, hp, hcarried⟩
  · intro p hp hcarried
    obtain ⟨hpasses, hsuspect, hprotocol, rfl⟩ := hpass p hp
    have hinspected := hpasses.inspected hsuspect hprotocol hdst hpos hcarried
    exact ⟨hinspected, fun i hi => hinspected.carries_header hi⟩

/-- A segment that opens a connection comes in two fragments, of which the second overwrites
the end of the first.  Ports and flags stay what they were when they were judged. -/
theorem no_tiny_fragments_overlap :
    let f : Firewall := .withCapacity 512
    let segment : Bytes := [0x20, 0, 0, 80, 0, 0, 0, 0, 0, 0, 0, 0, 0x50, 0x02, 0, 0] ++
      List.replicate 8 1
    let head : Bytes :=
      [0x45, 0, 0, 44, 0, 0, 0x20, 0, 64, 6, 0, 0, 8, 8, 8, 8, 192, 0, 2, 2] ++ segment
    let tail : Bytes :=
      [0x45, 0, 0, 28, 0, 0, 0, 2, 64, 6, 0, 0, 8, 8, 8, 8, 192, 0, 2, 2] ++ List.replicate 8 2
    let passages : List Passage := [⟨f, {}, .inbound, head⟩, ⟨f, {}, .inbound, tail⟩]
    let datagram := segment.take 16 ++ List.replicate 8 2
    (∀ p ∈ passages, p.Passes ∧ p.options.discardSuspectOffset = true ∧
      Packet.protocol p.packet = tcp ∧ Packet.dst p.packet = 0xC0000202) ∧
    Reassembles (passages.map (·.packet)) datagram ∧
    Inspected f {} .inbound head ∧ ∀ i < 14, (Packet.carried head i).isSome := by
  intro f segment head tail passages datagram
  have hpasses : ∀ p ∈ passages, p.Passes ∧ p.options.discardSuspectOffset = true ∧
      Packet.protocol p.packet = tcp ∧ Packet.dst p.packet = 0xC0000202 := by
    have hhead : (f.filter {} .inbound .ip head).2 = .allow := by decide +kernel
    have htail : (f.filter {} .inbound .ip tail).2 = .allow := by decide +kernel
    intro p hp
    obtain rfl | rfl := List.mem_pair.mp hp
    · exact ⟨hhead, rfl, rfl, by decide +kernel⟩
    · exact ⟨htail, rfl, rfl, by decide +kernel⟩
  have hdatagram : Reassembles (passages.map (·.packet)) datagram := by
    have hcarried : ∀ pos < 24, ∃ packet ∈ [head, tail],
        Packet.carried packet pos = datagram[pos]? := by
      decide +kernel
    intro pos b hb
    obtain ⟨hlt, -⟩ := List.getElem?_eq_some_iff.mp hb
    rw [← hb]
    exact hcarried pos hlt
  obtain ⟨-, hjudged⟩ := no_tiny_fragments.2 0xC0000202 passages datagram (by decide) hpasses
    hdatagram 13 0x02 (by decide) rfl
  exact ⟨hpasses, hdatagram, hjudged ⟨f, {}, .inbound, head⟩ (List.mem_cons_self ..)
    (by decide +kernel)⟩

end FilterBridge
