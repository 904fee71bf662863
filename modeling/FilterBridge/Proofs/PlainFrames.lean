import FilterBridge.Proofs.BridgeRuns
import FilterBridge.Proofs.PlainTables
import FilterBridge.Proofs.Readers

/-!
# Frames judged by position

A program that judges a frame reads its fields by their positions, and the rules of a class by
its number.  It checks the length of a header once, before the first field is read.  That is
enough for every position, and the table of classes has a row for every class.  So no frame
makes it meet a fault, and it comes to the verdict of the filter.

## Main definitions

* `readFrame`, `Ip4Header.read`, `readPorts` — headers, read by position.
* `PlainPolicy`, `PlainFirewall` — the policy and the filter in plain arrays.
* `PlainFirewall.dispatch` — one frame is judged and handed over.

## Main results

* `readFrame_eq`, `Ip4Header.read_eq`, `readPorts_eq` — reading meets no fault.
* `PlainPolicy.install_plain` — neither does installing an image.
* `Firewall.dispatch_plain` — neither does any frame, from either interface.
-/

namespace FilterBridge

open Checked Fallible

/-! ### Fields by position -/

namespace Checked

variable {bs : Bytes} {i : Nat}

/-- The byte at a position. -/
def fetchU8 (bs : Bytes) (i : Nat) : Checked UInt8 := fetch bs i

/-- The 16-bit word at a position. -/
def fetchU16 (bs : Bytes) (i : Nat) : Checked UInt16 := do
  let high ← fetchU8 bs i
  let low ← fetchU8 bs (i + 1)
  return Bytes.u16 high low

/-- The 32-bit word at a position. -/
def fetchU32 (bs : Bytes) (i : Nat) : Checked UInt32 := do
  let b₃ ← fetchU8 bs i
  let b₂ ← fetchU8 bs (i + 1)
  let b₁ ← fetchU8 bs (i + 2)
  let b₀ ← fetchU8 bs (i + 3)
  return Bytes.u32 b₃ b₂ b₁ b₀

theorem fetchU8_of_lt (h : i < bs.length) : fetchU8 bs i = .ok (bs.byteAt i) := by
  refine fetch_of_getElem? ?_
  rw [Bytes.byteAt, List.getD_eq_getElem?_getD, List.getElem?_eq_getElem h, Option.getD_some]

theorem fetchU16_of_lt (h : i + 1 < bs.length) : fetchU16 bs i = .ok (bs.wordAt i) := by
  rw [fetchU16, fetchU8_of_lt (Nat.lt_of_succ_lt h), ok_bind, fetchU8_of_lt h]
  rfl

theorem fetchU32_of_lt (h : i + 3 < bs.length) : fetchU32 bs i = .ok (bs.addressAt i) := by
  rw [fetchU32, fetchU8_of_lt (by omega), ok_bind, fetchU8_of_lt (by omega), ok_bind,
    fetchU8_of_lt (by omega), ok_bind, fetchU8_of_lt h]
  rfl

end Checked

/-! ### Headers -/

/-- The protocol of a frame and the packet in it. -/
def readFrame (frame : Bytes) : Fallible HeaderError (Protocol × Bytes) := do
  if frame.length < etherHeaderLen then throw (.truncated etherHeaderLen frame.length)
  let type ← fetchU16 frame 12
  let packet ← cut frame etherHeaderLen frame.length
  return (.ofEtherType type, packet)

theorem readFrame_eq (frame : Bytes) : readFrame frame = whole (splitFrame frame) := by
  rw [readFrame]
  by_cases hshort : frame.length < etherHeaderLen
  · rw [if_pos hshort, splitFrame_of_short hshort]
    rfl
  · have hlen : 14 ≤ frame.length := Nat.not_lt.mp hshort
    rw [if_neg hshort, fetchU16_of_lt (by omega), etherHeaderLen, cut_length hlen,
      splitFrame_of_long hlen]
    rfl

/-- The header at the front of a packet. -/
def Ip4Header.read (packet : Bytes) : Fallible HeaderError Ip4Header := do
  if packet.length < minLen then throw (.truncated minLen packet.length)
  let first ← fetchU8 packet 0
  let headerLen := (first &&& 0x0F).toNat * 4
  if headerLen < minLen then throw (.badLength headerLen)
  if packet.length < headerLen then throw (.truncated headerLen packet.length)
  let totalLen ← fetchU16 packet 2
  let offset ← fetchU16 packet 6
  let protocol ← fetchU8 packet 9
  let src ← fetchU32 packet 12
  let dst ← fetchU32 packet 16
  return {
    headerLen, totalLen := totalLen.toNat, fragmentOffset := (offset &&& 0x1FFF).toNat, protocol,
    src, dst }

/-- The low half of a byte. -/
theorem toNat_and_lowHalf (b : UInt8) : (b &&& 0x0F).toNat = b.toNat % 16 := by
  rw [UInt8.toNat_and]
  exact Nat.and_two_pow_sub_one_eq_mod b.toNat 4

/-- The low thirteen bits of a word. -/
theorem toNat_and_offset (w : UInt16) : (w &&& 0x1FFF).toNat = w.toNat % 8192 := by
  rw [UInt16.toNat_and]
  exact Nat.and_two_pow_sub_one_eq_mod w.toNat 13

theorem Ip4Header.read_eq (packet : Bytes) : read packet = whole (parse packet) := by
  rw [read]
  by_cases hshort : packet.length < minLen
  · rw [if_pos hshort, parse_of_short hshort]
    rfl
  have hlen : 20 ≤ packet.length := Nat.not_lt.mp hshort
  rw [if_neg hshort, fetchU8_of_lt (by omega), parse_of_long hlen]
  simp only [lift_ok, pure_bind, toNat_and_lowHalf]
  -- the same two checks of the length that the header gives
  change (if Packet.headerLen packet < 20 then _ else _) = whole (if _ then _ else _)
  by_cases hbad : Packet.headerLen packet < 20
  · rw [if_pos hbad, if_pos hbad]
    rfl
  rw [if_neg hbad, if_neg hbad]
  change (if packet.length < Packet.headerLen packet then _ else _) = _
  by_cases hcut : packet.length < Packet.headerLen packet
  · rw [if_pos hcut, if_pos hcut]
    rfl
  · rw [if_neg hcut, if_neg hcut, fetchU16_of_lt (by omega), fetchU16_of_lt (by omega),
      fetchU8_of_lt (by omega), fetchU32_of_lt (by omega), fetchU32_of_lt (by omega)]
    simp only [lift_ok, pure_bind, toNat_and_offset]
    rfl

/-- Both ports at the front of a transport header. -/
def readPorts (segment : Bytes) : Checked (Option (UInt16 × UInt16)) := do
  if segment.length < 4 then return none
  let sport ← fetchU16 segment 0
  let dport ← fetchU16 segment 2
  return some (sport, dport)

theorem readPorts_eq (segment : Bytes) : readPorts segment = .ok (ports? segment) := by
  match segment with
  | [] | [_] | [_, _] | [_, _, _] => rfl
  | s₁ :: s₀ :: d₁ :: d₀ :: rest =>
    rw [readPorts, if_neg (by simp)]
    rfl

theorem ports?_isSome {segment : Bytes} (h : 4 ≤ segment.length) :
    ∃ ports, ports? segment = some ports :=
  match segment, h with
  | s₁ :: s₀ :: d₁ :: d₀ :: _, _ => ⟨(Bytes.u16 s₁ s₀, Bytes.u16 d₁ d₀), rfl⟩

/-! ### The policy -/

/-- The policy with its classes in a plain array. -/
structure PlainPolicy where
  /-- The rules of each class. -/
  classes : Array ClassRules
  /-- The allow list. -/
  allow : List AllowRule
  /-- The reject list. -/
  reject : List Subnet
  /-- Whether some class changed. -/
  classesDirty : Bool
  /-- Whether the allow list changed. -/
  allowDirty : Bool
  /-- Whether the reject list changed. -/
  rejectDirty : Bool

/-- The policy in a plain array. -/
def Policy.plain (p : Policy) : PlainPolicy where
  classes := p.classes.toArray
  allow := p.allow
  reject := p.reject
  classesDirty := p.classesDirty
  allowDirty := p.allowDirty
  rejectDirty := p.rejectDirty

namespace PlainPolicy

/-- The rules of a class. -/
def rules (p : PlainPolicy) (k : PolicyClass) : Checked ClassRules := fetch p.classes k.toNat

/-- Whether a table changed since it was last persisted. -/
def isDirty (p : PlainPolicy) : Table → Bool
  | .reject => p.rejectDirty
  | .allow => p.allowDirty
  | .classes => p.classesDirty

/-- Set the flag of a table. -/
def setDirty (p : PlainPolicy) (dirty : Bool) : Table → PlainPolicy
  | .reject => { p with rejectDirty := dirty }
  | .allow => { p with allowDirty := dirty }
  | .classes => { p with classesDirty := dirty }

/-- Replace the rules of a class. -/
def replaceClass (p : PlainPolicy) (k : PolicyClass) (rules : ClassRules) :
    Checked PlainPolicy := do
  let classes ← store p.classes k.toNat rules
  return { p with classes, classesDirty := true }

/-- Replace the allow list. -/
def replaceAllow (p : PlainPolicy) (rules : List AllowRule) : PlainPolicy :=
  { p with allow := rules, allowDirty := true }

/-- Replace the reject list. -/
def replaceReject (p : PlainPolicy) (rules : List Subnet) : PlainPolicy :=
  { p with reject := rules, rejectDirty := true }

/-- Put a table back to its default. -/
def reset (p : PlainPolicy) (t : Table) : PlainPolicy :=
  setDirty (match t with
    | .reject => { p with reject := [] }
    | .allow => { p with allow := [] }
    | .classes => { p with classes := Array.replicate 256 {} }) false t

/-- The image of a table. -/
def encode (p : PlainPolicy) : Table → Bytes
  | .reject => encodeRejectRules p.reject
  | .allow => encodeAllowRules p.allow
  | .classes => p.classes.toList.flatMap ClassRules.encode

/-- Replace a table by the one with the given image. -/
def install (p : PlainPolicy) (image : Bytes) (t : Table) : Fallible TableFault PlainPolicy := do
  let p ← match t with
    | .reject => do
      let reject ← readRejectRules image
      pure { p with reject }
    | .allow => do
      let allow ← readAllowRules image
      pure { p with allow }
    | .classes => do
      whole (checkImage "class" image classesImageLen)
      let classes ← readClasses 256 #[] image
      pure { p with classes }
  return p.setDirty false t

end PlainPolicy

namespace Policy

theorem rules_plain (p : Policy) (k : PolicyClass) : p.plain.rules k = .ok (p.rules k) := by
  have hk : k.toNat < 256 := k.toNat_lt
  refine fetch_of_getElem? ?_
  simp [plain, rules, hk]

/-- Without its row a class stops the program. -/
example : PlainPolicy.rules ⟨#[{}], [], [], false, false, false⟩ 1 = .error (.index 1) := rfl

theorem isDirty_plain (p : Policy) (t : Table) : p.plain.isDirty t = p.isDirty t := by
  cases t <;> rfl

theorem setDirty_plain (p : Policy) (dirty : Bool) (t : Table) :
    p.plain.setDirty dirty t = (p.setDirty dirty t).plain := by
  cases t <;> rfl

theorem replaceClass_plain (p : Policy) (k : PolicyClass) (rules : ClassRules) :
    p.plain.replaceClass k rules = .ok (p.replaceClass k rules).plain := by
  have hk : k.toNat < p.plain.classes.size := by
    rw [plain, Vector.size_toArray]
    exact k.toNat_lt
  rw [PlainPolicy.replaceClass, store_of_lt hk, Array.setIfInBounds, dif_pos hk]
  rfl

theorem reset_plain (p : Policy) (t : Table) : p.plain.reset t = (p.reset t).plain := by
  cases t with
  | classes => simp [PlainPolicy.reset, PlainPolicy.setDirty, plain, reset]
  | _ => rfl

theorem encode_plain (p : Policy) (t : Table) : p.plain.encode t = p.encode t := by
  cases t <;> rfl

/-- Installing an image meets no fault, and after it there are as many classes as before. -/
theorem install_plain (p : Policy) (image : Bytes) (t : Table) :
    p.plain.install image t = whole ((p.install image t).map plain) := by
  cases t with
  | reject =>
    simp only [PlainPolicy.install, install, readRejectRules_eq]
    cases rejectRulesOfImage image <;> rfl
  | allow =>
    simp only [PlainPolicy.install, install, readAllowRules_eq]
    cases allowRulesOfImage image <;> rfl
  | classes =>
    simp only [PlainPolicy.install, install, readClasses_eq]
    cases checkImage "class" image classesImageLen with
    | error e => rfl
    | ok =>
      cases decodeClasses 256 image with
      | error e => rfl
      | ok classes =>
        simp only [whole, Except.map, Array.empty_append]
        rfl

end Policy

/-! ### The filter -/

/-- The filter with its tables in plain arrays. -/
structure PlainFirewall where
  /-- The classes of hosts. -/
  classifier : PlainClassifier
  /-- The rules. -/
  policy : PlainPolicy
  /-- The packet counters. -/
  counters : Counters

/-- The filter in plain arrays. -/
def Firewall.plain (f : Firewall) : PlainFirewall :=
  ⟨f.classifier.plain, f.policy.plain, f.counters⟩

namespace PlainFirewall

/-- The rules of the class of a host. -/
def hostRules (f : PlainFirewall) (host : Address) : Checked (PlainFirewall × ClassRules) := do
  let (classifier, k) ← f.classifier.lookup host
  let rules ← f.policy.rules k
  return ({ f with classifier }, rules)

/-- The record of a packet that is denied. -/
def denial (d : Direction) (ip : Ip4Header) (reason : DenyReason)
    (ports : Option (UInt16 × UInt16)) : DenyEvent :=
  { reason, direction := d, protocol := ip.protocol, src := ip.src, dst := ip.dst, ports }

/-- Decide on a TCP segment. -/
def decideTcp (f : PlainFirewall) (o : Options) (d : Direction) (ip : Ip4Header)
    (packet : Bytes) : Checked (PlainFirewall × Verdict) := do
  let segment := ip.payload packet
  if packet.length < ip.totalLen || segment.length < tcpFlagsOffset + 1 then
    return (f, .deny (denial d ip .headerTruncated none))
  match ← readPorts segment with
  | none => return (f, .deny (denial d ip .headerTruncated none))
  | some (sport, dport) =>
    let flags ← fetchU8 segment tcpFlagsOffset
    if o.tcpAdmission = .synOnly && !opensConnection flags then return (f, .allow)
    match d with
    | .inbound =>
      let (f, rules) ← f.hostRules ip.dst
      return (f, .allowIf
        (rules.inbound.admits dport || (lastReservedPort < dport && rules.source.admits sport))
        (denial .inbound ip .tcpInbound (some (sport, dport))))
    | .outbound =>
      let (f, rules) ← f.hostRules ip.src
      return (f, .allowIf
        (rules.outbound.admits dport || (allows? f.policy.allow ip.dst).any (·.ports.admits dport))
        (denial .outbound ip .tcpOutbound (some (sport, dport))))

/-- Decide on a UDP datagram. -/
def decideUdp (f : PlainFirewall) (o : Options) (d : Direction) (ip : Ip4Header)
    (packet : Bytes) : Checked (PlainFirewall × Verdict) := do
  match ← readPorts (ip.payload packet) with
  | none => return (f, .deny (denial d ip .headerTruncated none))
  | some (sport, dport) =>
    match d, o.outboundUdp with
    | .inbound, _ =>
      let (f, rules) ← f.hostRules ip.dst
      return (f, .allowIf (rules.udp.admits dport)
        (denial .inbound ip .udpInbound (some (sport, dport))))
    | .outbound, .allowAll => return (f, .allow)
    | .outbound, .checkOutList =>
      let (f, rules) ← f.hostRules ip.src
      return (f, .allowIf (rules.outbound.admits dport)
        (denial .outbound ip .udpOutbound (some (sport, dport))))

/-- Decide on an IPv4 packet with a readable header. -/
def decideIp (f : PlainFirewall) (o : Options) (d : Direction) (ip : Ip4Header)
    (packet : Bytes) : Checked (PlainFirewall × Verdict) :=
  if ip.dst.classOf = .d then
    return (f, .denyIf o.denyMulticast (denial d ip .multicast none))
  else if ip.fragmentOffset ≠ 0 then
    return (f, .denyIf (o.discardSuspectOffset && ip.fragmentOffset = 1 && ip.protocol = tcp)
      (denial d ip .suspectFragment none))
  else if d = .inbound && (rejects? f.policy.reject ip.src).isSome then
    return (f, .deny (denial d ip .rejectedNetwork none))
  else if ip.protocol = tcp then f.decideTcp o d ip packet
  else if ip.protocol = udp then f.decideUdp o d ip packet
  else
    return (f, .denyIf (ip.protocol ≠ icmp && o.discardOtherIp)
      (denial d ip .otherIpProtocol none))

/-- Decide on a packet. -/
def decide (f : PlainFirewall) (o : Options) (d : Direction) (protocol : Protocol)
    (packet : Bytes) : Checked (PlainFirewall × Verdict) :=
  match protocol with
  | .arp | .rarp => return (f, .allow)
  | .other => return (f, .denyIf o.discardOther { reason := .otherProtocol, direction := d })
  | .ip => do
    match ← (Ip4Header.read packet).run with
    | .error _ => return (f, .deny { reason := .headerTruncated, direction := d })
    | .ok ip => f.decideIp o d ip packet

/-- Count a verdict. -/
def count (f : PlainFirewall) : Verdict → PlainFirewall
  | .allow => f
  | .deny event => { f with counters := f.counters.filtered event.direction }

/-- The verdict on a packet, and the state after it. -/
def filter (f : PlainFirewall) (o : Options) (d : Direction) (protocol : Protocol)
    (packet : Bytes) : Checked (PlainFirewall × Verdict) := do
  let (f, v) ← f.decide o d protocol packet
  return (f.count v, v)

/-- Judge a frame. -/
def judgeFrame (f : PlainFirewall) (o : Options) (frame : Frame) :
    Checked (PlainFirewall × Verdict) := do
  let d := frame.source.direction
  match ← (readFrame frame.data).run with
  | .ok (protocol, packet) => f.filter o d protocol packet
  | .error _ =>
    let v := .deny { reason := .headerTruncated, direction := d }
    return (f.count v, v)

/-- Judge a frame and hand it to the driver across if it passes. -/
def dispatch (o : Options) (sends : Interface → Bool) (f : PlainFirewall) (frame : Frame) :
    Checked (PlainFirewall × Handled) := do
  match ← f.judgeFrame o frame with
  | (f, .deny event) => return (f, { frame, verdict := .deny event, delivery := none })
  | (f, .allow) =>
    let target := frame.source.opposite
    let counters := if sends target then f.counters.forwarded frame.source.direction
      else f.counters.drop
    return ({ f with counters }, {
      frame, verdict := .allow,
      delivery := some { target, data := frame.data, sent := sends target } })

end PlainFirewall

namespace Firewall

variable {f : Firewall}

theorem count_plain (f : Firewall) (v : Verdict) : f.plain.count v = (f.count v).plain := by
  cases v <;> rfl

variable (h : f.classifier.Sturdy)

include h

theorem sturdy_settle (j : Judgement) : (f.settle j).1.classifier.Sturdy := by
  cases j with
  | settled v => exact h
  | byClass host v => exact h.lookup host

theorem sturdy_count (v : Verdict) : (f.count v).classifier.Sturdy := by
  cases v <;> exact h

theorem sturdy_filter (o : Options) (d : Direction) (protocol : Protocol) (packet : Bytes) :
    (f.filter o d protocol packet).1.classifier.Sturdy :=
  sturdy_count (sturdy_settle h (judge o f.policy d protocol packet)) _

/-- Every class has its row. -/
theorem hostRules_plain (host : Address) :
    f.plain.hostRules host =
      .ok ((f.lookup host).1.plain, f.policy.rules (f.lookup host).2) := by
  have hlookup := h.lookup_plain host
  change (f.classifier.plain.lookup host >>= _) = _
  rw [hlookup, ok_bind]
  change (f.policy.plain.rules _ >>= _) = _
  rw [Policy.rules_plain]
  rfl

theorem decideTcp_plain (o : Options) (d : Direction) (ip : Ip4Header) (packet : Bytes) :
    f.plain.decideTcp o d ip packet =
      .ok (let r := f.settle (judgeTcp o f.policy d ip packet); (r.1.plain, r.2)) := by
  unfold PlainFirewall.decideTcp judgeTcp
  generalize ip.payload packet = segment
  by_cases hshort : segment.length < tcpFlagsOffset + 1
  · have hflags : segment[tcpFlagsOffset]? = none :=
      List.getElem?_eq_none (Nat.le_of_lt_succ hshort)
    simp only [hshort, decide_true, Bool.or_true, if_true, hflags]
    cases ports? segment <;> rfl
  -- a segment that reaches the flags has both ports
  have hlt : tcpFlagsOffset < segment.length := Nat.not_lt.mp hshort
  have hlen : 4 ≤ segment.length := Nat.le_trans (by decide) hlt
  obtain ⟨⟨sport, dport⟩, hports⟩ := ports?_isSome hlen
  have hflags := List.getElem?_eq_getElem hlt
  have hfetch : fetchU8 segment tcpFlagsOffset = .ok segment[tcpFlagsOffset] :=
    fetch_of_getElem? hflags
  simp only [hshort, decide_false, Bool.or_false, readPorts_eq, ok_bind, hports, hflags, hfetch,
    decide_eq_true_eq]
  by_cases hlong : packet.length < ip.totalLen
  · rw [if_pos hlong, if_pos hlong]
    rfl
  rw [if_neg hlong, if_neg hlong]
  split
  · rfl
  · cases d with
    | inbound =>
      simp only
      rw [hostRules_plain h, ok_bind]
      rfl
    | outbound =>
      simp only
      rw [hostRules_plain h, ok_bind]
      rfl

theorem decideUdp_plain (o : Options) (d : Direction) (ip : Ip4Header) (packet : Bytes) :
    f.plain.decideUdp o d ip packet =
      .ok (let r := f.settle (judgeUdp o f.policy d ip packet); (r.1.plain, r.2)) := by
  unfold PlainFirewall.decideUdp judgeUdp
  rw [readPorts_eq, ok_bind]
  cases ports? (ip.payload packet) with
  | none => rfl
  | some ports =>
    cases d with
    | inbound =>
      simp only
      rw [hostRules_plain h, ok_bind]
      rfl
    | outbound =>
      cases o.outboundUdp with
      | allowAll => rfl
      | checkOutList =>
        simp only
        rw [hostRules_plain h, ok_bind]
        rfl

theorem decideIp_plain (o : Options) (d : Direction) (ip : Ip4Header) (packet : Bytes) :
    f.plain.decideIp o d ip packet =
      .ok (let r := f.settle (judgeIp o f.policy d ip packet); (r.1.plain, r.2)) := by
  have hreject : f.plain.policy.reject = f.policy.reject := rfl
  unfold PlainFirewall.decideIp judgeIp
  rw [hreject]
  -- the checks are the same, one after another
  by_cases hmulticast : ip.dst.classOf = .d
  · rw [if_pos hmulticast, if_pos hmulticast]
    rfl
  rw [if_neg hmulticast, if_neg hmulticast]
  by_cases hfragment : ip.fragmentOffset ≠ 0
  · rw [if_pos hfragment, if_pos hfragment]
    rfl
  rw [if_neg hfragment, if_neg hfragment]
  by_cases hrejected : (d = .inbound && (rejects? f.policy.reject ip.src).isSome) = true
  · rw [if_pos hrejected, if_pos hrejected]
    rfl
  rw [if_neg hrejected, if_neg hrejected]
  by_cases htcp : ip.protocol = tcp
  · rw [if_pos htcp, if_pos htcp]
    exact decideTcp_plain h o d ip packet
  rw [if_neg htcp, if_neg htcp]
  by_cases hudp : ip.protocol = udp
  · rw [if_pos hudp, if_pos hudp]
    exact decideUdp_plain h o d ip packet
  · rw [if_neg hudp, if_neg hudp]
    rfl

theorem decide_plain (o : Options) (d : Direction) (protocol : Protocol) (packet : Bytes) :
    f.plain.decide o d protocol packet =
      .ok (let r := f.settle (judge o f.policy d protocol packet); (r.1.plain, r.2)) := by
  cases protocol with
  | ip =>
    rw [PlainFirewall.decide, Ip4Header.read_eq, judge]
    cases Ip4Header.parse packet with
    | error e => rfl
    | ok ip => exact decideIp_plain h o d ip packet
  | _ => rfl

/-- The verdict on a packet meets no fault. -/
theorem filter_plain (o : Options) (d : Direction) (protocol : Protocol) (packet : Bytes) :
    f.plain.filter o d protocol packet =
      .ok ((f.filter o d protocol packet).1.plain, (f.filter o d protocol packet).2) := by
  rw [PlainFirewall.filter, decide_plain h, ok_bind]
  exact congrArg (fun f => Except.ok (f, _)) (count_plain _ _)

/-- Neither does judging a frame. -/
theorem judgeFrame_plain (o : Options) (frame : Frame) :
    f.plain.judgeFrame o frame =
      .ok ((Bridge.judgeFrame o f frame).1.plain, (Bridge.judgeFrame o f frame).2) := by
  rw [PlainFirewall.judgeFrame, readFrame_eq, Bridge.judgeFrame]
  cases splitFrame frame.data with
  | error e => rfl
  | ok q => exact filter_plain h o frame.source.direction q.1 q.2

theorem sturdy_judgeFrame (o : Options) (frame : Frame) :
    (Bridge.judgeFrame o f frame).1.classifier.Sturdy := by
  unfold Bridge.judgeFrame
  cases splitFrame frame.data with
  | error e => exact h
  | ok q => exact sturdy_filter h o frame.source.direction q.1 q.2

/-- No frame from either interface meets a fault. -/
theorem dispatch_plain (o : Options) (sends : Interface → Bool) (frame : Frame) :
    f.plain.dispatch o sends frame =
        .ok ((Bridge.dispatch o sends f frame).1.plain, (Bridge.dispatch o sends f frame).2) ∧
      (Bridge.dispatch o sends f frame).1.classifier.Sturdy := by
  have hsturdy := sturdy_judgeFrame h o frame
  rw [PlainFirewall.dispatch, judgeFrame_plain h, ok_bind, Bridge.dispatch]
  rcases hj : Bridge.judgeFrame o f frame with ⟨f', _ | event⟩
  all_goals
    rw [hj] at hsturdy
    exact ⟨rfl, hsturdy⟩

end Firewall

end FilterBridge
