import FilterBridge.Proofs.FilterRuns
import FilterBridge.Proofs.TinyFragments

/-!
# A stricter filter passes no more

Some packets pass before they come to the rules for their ports: those to a group, later
fragments, segments that open no connection, outbound datagrams.  Others pass on a second
chance, by their source port or by the allow list.  Making the options or the tables stricter
could lead a packet down another way than before.  Still, whatever passes the stricter filter
passes the other one: a way around the rules that is open under strict options is open under
lax ones, and where the rules decide, what is granted to a packet by the stricter tables is
granted by the others.

## Main definitions

* `Options.Tightens`, `Policy.Tightens` — options and tables that are at least as strict.
* `Firewall.Tightens` — filters with the same host tables, the one at least as strict.
* `Firewall.passing` — the packets of a run that pass a filter.

## Main results

* `allow_of_judgeTcp`, `allow_of_judgeUdp`, `allow_of_judgeIp`, `allow_of_judge` — what passes
  the stricter rules passes the others.
* `Firewall.allow_of_classes` — so it is with two filters that give hosts the classes of one map.
* `Firewall.allow_of_tightens` — whatever passes the stricter filter passes the other.
* `Firewall.passing_sublist` — so it is with any number of packets, one after another.
-/

namespace FilterBridge

/-! ### At least as strict -/

/-- Options that are at least as strict as others in every respect. -/
structure Options.Tightens (o' o : Options) : Prop where
  /-- They judge every segment by its ports if the others do. -/
  tcp : o.tcpAdmission = .everySegment → o'.tcpAdmission = .everySegment
  /-- They judge outbound datagrams if the others do. -/
  udp : o.outboundUdp = .checkOutList → o'.outboundUdp = .checkOutList
  /-- They discard other frames if the others do. -/
  other : o.discardOther = true → o'.discardOther = true
  /-- They discard multicast if the others do. -/
  multicast : o.denyMulticast = true → o'.denyMulticast = true
  /-- They discard suspect fragments if the others do. -/
  suspect : o.discardSuspectOffset = true → o'.discardSuspectOffset = true
  /-- They discard other protocols if the others do. -/
  otherIp : o.discardOtherIp = true → o'.discardOtherIp = true

/-- A port list admits no port that another does not. -/
def PortList.Tightens (l' l : PortList) : Prop :=
  ∀ port, l'.admits port = true → l.admits port = true

/-- The first rule for a destination, if there is one, grants a port. -/
def grantedAt (rules : List AllowRule) (ip : Address) (port : UInt16) : Bool :=
  (allows? rules ip).any (·.ports.admits port)

/-- Tables that reject whatever others reject, and grant nothing that these do not grant. -/
structure Policy.Tightens (p' p : Policy) : Prop where
  /-- An address that is rejected stays so. -/
  reject : ∀ ip, (rejects? p.reject ip).isSome = true → (rejects? p'.reject ip).isSome = true
  /-- No class takes connections to more ports. -/
  inbound : ∀ k, (p'.rules k).inbound.Tightens (p.rules k).inbound
  /-- No class connects to more ports. -/
  outbound : ∀ k, (p'.rules k).outbound.Tightens (p.rules k).outbound
  /-- No class takes connections from more ports. -/
  source : ∀ k, (p'.rules k).source.Tightens (p.rules k).source
  /-- No class takes datagrams to more ports. -/
  udp : ∀ k, (p'.rules k).udp.Tightens (p.rules k).udp
  /-- No destination is granted more ports. -/
  allow : ∀ ip port, grantedAt p'.allow ip port = true → grantedAt p.allow ip port = true

/-- No list admits port 0. -/
theorem PortList.admits_zero (l : PortList) : l.admits 0 = false := by
  unfold admits
  induction l.rows with
  | nil => rfl
  | cons r rows ih =>
    rw [admitsRow]
    by_cases hfinal : r.isFinal = true
    · rw [if_pos hfinal]
    · rw [if_neg hfinal]
      split
      · -- a row that is not the last one begins above port 0
        simpa [PortRange.isFinal] using hfinal
      · exact ih

/-- Every list is at least as strict as the one that admits all ports. -/
theorem PortList.tightens_allowAll (l : PortList) : l.Tightens .allowAll := by
  intro port h
  have hport : port ≠ 0 := by
    rintro rfl
    simp [admits_zero] at h
  have hfirst : (1 : UInt16) ≤ port := by
    rw [UInt16.le_iff_toNat_le]
    have : port.toNat ≠ 0 := fun hz => hport (UInt16.toNat_inj.mp hz)
    exact Nat.one_le_iff_ne_zero.mpr this
  have hlast : port ≤ (65535 : UInt16) := by
    rw [UInt16.le_iff_toNat_le]
    exact Nat.le_of_lt_succ port.toNat_lt
  simp [admits, allowAll, ofRanges, admitsRow, PortRange.isFinal, hfirst, hlast, maxRows]

/-- Apart from what the allow list grants, tables are at least as strict as those of a new
filter. -/
theorem Policy.tightens_default {p : Policy} (h : p.allow = []) : p.Tightens {} := by
  have hrules : ∀ k, ({} : Policy).rules k = {} := by
    intro k
    simp [Policy.rules]
  constructor
  case reject =>
    intro ip hreject
    simp [rejects?, firstMatch?] at hreject
  case allow =>
    intro ip port hgranted
    simp [grantedAt, h, allows?, firstMatch?] at hgranted
  all_goals
    intro k
    rw [hrules]
    exact PortList.tightens_allowAll _

/-- Where lax options deny, strict ones do. -/
theorem Verdict.denyIf_allow_of_imp {b b' : Bool} {event event' : DenyEvent}
    (himp : b = true → b' = true) (h : Verdict.denyIf b' event' = .allow) :
    Verdict.denyIf b event = .allow := by
  rw [denyIf_eq_allow] at h ⊢
  cases b with
  | false => rfl
  | true => exact absurd (himp rfl) (by simp [h])

/-! ### One packet -/

section OnePacket

variable {o o' : Options} {p p' : Policy} {d : Direction} {ip : Ip4Header} {packet : Bytes}
  {classOf : Address → PolicyClass}

/-- Ports that the stricter tables admit are admitted by the others. -/
theorem allow_of_judgeTcpPorts (hp : p'.Tightens p) {sport dport : UInt16}
    (h : (judgeTcpPorts p' d ip sport dport).verdict classOf = .allow) :
    (judgeTcpPorts p d ip sport dport).verdict classOf = .allow := by
  cases d with
  | inbound =>
    simp only [judgeTcpPorts, Judgement.verdict, Verdict.allowIf_eq_allow, Bool.or_eq_true,
      Bool.and_eq_true] at h ⊢
    obtain hdirect | ⟨hhigh, hsource⟩ := h
    · exact .inl (hp.inbound _ dport hdirect)
    · exact .inr ⟨hhigh, hp.source _ sport hsource⟩
  | outbound =>
    simp only [judgeTcpPorts, Judgement.verdict, Verdict.allowIf_eq_allow, Bool.or_eq_true] at h ⊢
    obtain hdirect | hgranted := h
    · exact .inl (hp.outbound _ dport hdirect)
    · exact .inr (hp.allow ip.dst dport hgranted)

/-- A segment that passes the stricter rules passes the others. -/
theorem allow_of_judgeTcp (ho : o'.Tightens o) (hp : p'.Tightens p)
    (h : (judgeTcp o' p' d ip packet).verdict classOf = .allow) :
    (judgeTcp o p d ip packet).verdict classOf = .allow := by
  unfold judgeTcp at h ⊢
  dsimp only at h ⊢
  cases hports : ports? (ip.payload packet) with
  | none => simp [hports, Judgement.verdict] at h
  | some ports =>
    cases hflags : (ip.payload packet)[tcpFlagsOffset]? with
    | none => simp [hports, hflags, Judgement.verdict] at h
    | some flags =>
      simp only [hports, hflags] at h ⊢
      by_cases hshort : packet.length < ip.totalLen
      · simp [hshort, Judgement.verdict] at h
      · rw [if_neg hshort] at h ⊢
        -- a segment that is not judged under strict options is not judged under lax ones
        by_cases hlax : (o.tcpAdmission = .synOnly && !opensConnection flags) = true
        · rw [if_pos hlax]
          rfl
        · have hstrict : ¬ (o'.tcpAdmission = .synOnly && !opensConnection flags) = true := by
            intro hskip
            simp only [Bool.and_eq_true, decide_eq_true_eq] at hskip hlax
            have hevery : o.tcpAdmission = .everySegment := by
              cases hscope : o.tcpAdmission with
              | synOnly => exact absurd ⟨hscope, hskip.2⟩ hlax
              | everySegment => rfl
            exact absurd (hskip.1.symm.trans (ho.tcp hevery)) (by decide)
          rw [if_neg hstrict] at h
          rw [if_neg hlax]
          exact allow_of_judgeTcpPorts hp h

/-- A datagram that passes the stricter rules passes the others. -/
theorem allow_of_judgeUdp (ho : o'.Tightens o) (hp : p'.Tightens p)
    (h : (judgeUdp o' p' d ip packet).verdict classOf = .allow) :
    (judgeUdp o p d ip packet).verdict classOf = .allow := by
  unfold judgeUdp at h ⊢
  dsimp only at h ⊢
  cases hports : ports? (ip.payload packet) with
  | none => simp [hports, Judgement.verdict] at h
  | some ports =>
    simp only [hports] at h ⊢
    cases d with
    | inbound =>
      simp only [Judgement.verdict, Verdict.allowIf_eq_allow] at h ⊢
      exact hp.udp _ ports.2 h
    | outbound =>
      cases hscope : o.outboundUdp with
      | allowAll => rfl
      | checkOutList =>
        -- strict options judge it too
        simp only [ho.udp hscope, Judgement.verdict, Verdict.allowIf_eq_allow] at h ⊢
        exact hp.outbound _ ports.2 h

/-- A packet with a header that passes the stricter rules passes the others. -/
theorem allow_of_judgeIp (ho : o'.Tightens o) (hp : p'.Tightens p)
    (h : (judgeIp o' p' d ip packet).verdict classOf = .allow) :
    (judgeIp o p d ip packet).verdict classOf = .allow := by
  unfold judgeIp at h ⊢
  dsimp only at h ⊢
  by_cases hgroup : ip.dst.classOf = .d
  · rw [if_pos hgroup] at h ⊢
    exact Verdict.denyIf_allow_of_imp ho.multicast h
  rw [if_neg hgroup] at h ⊢
  by_cases hlater : ip.fragmentOffset ≠ 0
  · rw [if_pos hlater] at h ⊢
    refine Verdict.denyIf_allow_of_imp (fun hdeny => ?_) h
    simp only [Bool.and_eq_true] at hdeny ⊢
    exact ⟨⟨ho.suspect hdeny.1.1, hdeny.1.2⟩, hdeny.2⟩
  rw [if_neg hlater] at h ⊢
  by_cases hstrict : (d = .inbound && (rejects? p'.reject ip.src).isSome) = true
  · simp [hstrict, Judgement.verdict] at h
  -- what the stricter tables do not reject is not rejected by the others
  have hlax : ¬ (d = .inbound && (rejects? p.reject ip.src).isSome) = true := by
    intro hreject
    rw [Bool.and_eq_true] at hreject hstrict
    exact hstrict ⟨hreject.1, hp.reject ip.src hreject.2⟩
  rw [if_neg hstrict] at h
  rw [if_neg hlax]
  by_cases htcp : ip.protocol = tcp
  · rw [if_pos htcp] at h ⊢
    exact allow_of_judgeTcp ho hp h
  rw [if_neg htcp] at h ⊢
  by_cases hudp : ip.protocol = udp
  · rw [if_pos hudp] at h ⊢
    exact allow_of_judgeUdp ho hp h
  rw [if_neg hudp] at h ⊢
  refine Verdict.denyIf_allow_of_imp (fun hdeny => ?_) h
  rw [Bool.and_eq_true] at hdeny ⊢
  exact ⟨hdeny.1, ho.otherIp hdeny.2⟩

/-- A packet that passes the stricter rules passes the others. -/
theorem allow_of_judge (ho : o'.Tightens o) (hp : p'.Tightens p) {protocol : Protocol}
    (h : (judge o' p' d protocol packet).verdict classOf = .allow) :
    (judge o p d protocol packet).verdict classOf = .allow := by
  cases protocol with
  | arp => rfl
  | rarp => rfl
  | other => exact Verdict.denyIf_allow_of_imp ho.other h
  | ip =>
    unfold judge at h ⊢
    cases hparse : Ip4Header.parse packet with
    | error e => simp [hparse, Judgement.verdict] at h
    | ok ip =>
      simp only [hparse] at h ⊢
      exact allow_of_judgeIp ho hp h

end OnePacket

namespace Firewall

variable {f f' : Firewall} {o o' : Options}

/-- Two filters give hosts the classes of one map.  What passes the one, with options and tables
that are at least as strict, passes the other. -/
theorem allow_of_classes {classOf : Address → PolicyClass} {d : Direction} {protocol : Protocol}
    {packet : Bytes} (hstrict : ∀ ip, (f'.lookup ip).2 = classOf ip)
    (hlax : ∀ ip, (f.lookup ip).2 = classOf ip) (ho : o'.Tightens o)
    (hp : f'.policy.Tightens f.policy) (h : (f'.filter o' d protocol packet).2 = .allow) :
    (f.filter o d protocol packet).2 = .allow := by
  rw [filter_verdict, funext hstrict] at h
  rw [filter_verdict, funext hlax]
  exact allow_of_judge ho hp h

/-- Two filters give every host the same class.  Whatever passes the one, with options and
tables that are at least as strict, passes the other. -/
theorem allow_of_tightens (hclasses : ∀ ip, (f'.lookup ip).2 = (f.lookup ip).2)
    (ho : o'.Tightens o) (hp : f'.policy.Tightens f.policy) (d : Direction)
    (protocol : Protocol) (packet : Bytes)
    (h : (f'.filter o' d protocol packet).2 = .allow) :
    (f.filter o d protocol packet).2 = .allow :=
  allow_of_classes hclasses (fun _ => rfl) ho hp h

/-- A segment that opens a connection comes in on a port that the strictest options and a class
with one port leave open.  It passes, so it passes a new filter with the default options. -/
theorem allow_of_tightens_http :
    let web : PortList := .ofRanges [(80, 80)]
    let strict : Policy := (({} : Policy).replaceReject [⟨0x0A000000, 0xFF000000⟩]).replaceClass 0
      ⟨web, .denyAll, .denyAll, .denyAll⟩
    let o' : Options := ⟨.everySegment, .checkOutList, true, true, true, true⟩
    let f : Firewall := .withCapacity 512
    let f' : Firewall := { f with policy := strict }
    let packet : Bytes :=
      [0x45, 0, 0, 40, 0, 0, 0, 0, 64, 6, 0, 0, 8, 8, 8, 8, 192, 0, 2, 2] ++
        [0x20, 0, 0, 80, 0, 0, 0, 0, 0, 0, 0, 0, 0x50, 0x02, 0, 0, 0, 0, 0, 0]
    o'.Tightens {} ∧ strict.Tightens f.policy ∧ (f'.filter o' .inbound .ip packet).2 = .allow ∧
      (f.filter {} .inbound .ip packet).2 = .allow := by
  intro web strict o' f f' packet
  have ho : o'.Tightens {} := by
    constructor <;> decide
  have hp : strict.Tightens f.policy := Policy.tightens_default rfl
  have hpass : (f'.filter o' .inbound .ip packet).2 = .allow := by decide +kernel
  have hclasses : ∀ ip, (f'.lookup ip).2 = (f.lookup ip).2 := by
    intro ip
    rfl
  exact ⟨ho, hp, hpass, allow_of_tightens hclasses ho hp .inbound .ip packet hpass⟩

/-! ### Any number of packets -/

/-- Two filters with the same host tables, the tables of the one at least as strict as those of
the other. -/
structure Tightens (f' f : Firewall) : Prop where
  /-- The stricter filter is in order. -/
  strict : ∃ own, f'.classifier.Consistent own
  /-- The other filter is in order. -/
  lax : ∃ own, f.classifier.Consistent own
  /-- The same host tables are loaded. -/
  hosts : f'.classifier.hostMap = f.classifier.hostMap
  /-- The tables of the one are at least as strict. -/
  policy : f'.policy.Tightens f.policy

/-- Two filters with the same host tables give every host the same class. -/
theorem Tightens.lookup_eq (h : f'.Tightens f) (ip : Address) :
    (f'.lookup ip).2 = (f.lookup ip).2 := by
  obtain ⟨own', hstrict⟩ := h.strict
  obtain ⟨own, hlax⟩ := h.lax
  exact (hstrict.lookup_eq ip).trans ((congrArg (hostClass · ip) h.hosts).trans
    (hlax.lookup_eq ip).symm)

/-- They stay so when each of them filters a packet. -/
theorem Tightens.filter (h : f'.Tightens f) (o' o : Options) (d : Direction)
    (protocol : Protocol) (packet : Bytes) :
    (f'.filter o' d protocol packet).1.Tightens (f.filter o d protocol packet).1 := by
  obtain ⟨own', hstrict⟩ := h.strict
  obtain ⟨own, hlax⟩ := h.lax
  obtain ⟨-, hc', hn', ha', hp', -⟩ := filter_spec hstrict o' d protocol packet
  obtain ⟨-, hc, hn, ha, hp, -⟩ := filter_spec hlax o d protocol packet
  refine ⟨⟨own', hc'⟩, ⟨own, hc⟩, funext fun n => ?_, ?_⟩
  · rw [Classifier.hostMap_eq, Classifier.hostMap_eq, hn', ha', hn, ha,
      ← Classifier.hostMap_eq, ← Classifier.hostMap_eq, h.hosts]
  · rw [hp', hp]
    exact h.policy

end Firewall

/-- A packet that arrives. -/
structure Arrival where
  /-- The way it travels. -/
  direction : Direction
  /-- Its protocol. -/
  protocol : Protocol
  /-- Its bytes. -/
  packet : Bytes

namespace Firewall

variable {f f' : Firewall} {o o' : Options}

/-- The packets that pass a filter, when they arrive one after another. -/
def passing (f : Firewall) (o : Options) : List Arrival → List Arrival
  | [] => []
  | x :: xs =>
    match f.filter o x.direction x.protocol x.packet with
    | (f, .allow) => x :: f.passing o xs
    | (f, .deny _) => f.passing o xs

/-- What passes the stricter filter, in any run of packets, passes the other one in the same
run. -/
theorem passing_sublist (h : f'.Tightens f) (ho : o'.Tightens o) (xs : List Arrival) :
    (f'.passing o' xs).Sublist (f.passing o xs) := by
  induction xs generalizing f f' with
  | nil => exact .slnil
  | cons x xs ih =>
    have hnext := ih (h.filter o' o x.direction x.protocol x.packet)
    have himp : (f'.filter o' x.direction x.protocol x.packet).2 = .allow →
        (f.filter o x.direction x.protocol x.packet).2 = .allow :=
      allow_of_classes h.lookup_eq (fun _ => rfl) ho h.policy
    unfold passing
    rcases hstrict : f'.filter o' x.direction x.protocol x.packet with ⟨g', _ | e'⟩
    · rcases hlax : f.filter o x.direction x.protocol x.packet with ⟨g, _ | e⟩
      · rw [hstrict, hlax] at hnext
        exact hnext.cons_cons x
      · rw [hstrict, hlax] at himp
        cases himp rfl
    · rcases hlax : f.filter o x.direction x.protocol x.packet with ⟨g, _ | e⟩
      · rw [hstrict, hlax] at hnext
        exact hnext.cons x
      · rwa [hstrict, hlax] at hnext

end Firewall

end FilterBridge
