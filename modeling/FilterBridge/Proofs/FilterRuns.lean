import FilterBridge.Proofs.LoadRuns
import FilterBridge.Proofs.OrderedRules

/-!
# The verdict depends on packet and tables alone

Whatever happened to the filter before, a packet gets the verdict that the rules give
it over the tables that are live.  The cache takes part in the judging, but it shows
neither in the verdict nor in any table.

## Main definitions

* `Event`, `Service.run` — what may happen to a filter, one event after another.

## Main results

* `Firewall.filter_spec` — the verdict of a consistent filter, and what it changes.
* `Service.filter_run` — the verdict after any events.
-/

namespace FilterBridge

/-! ### The direction of a denied packet -/

/-- If a packet is denied, its record tells the direction. -/
def Verdict.Tells (d : Direction) (v : Verdict) : Prop := ∀ e, v = .deny e → e.direction = d

theorem Verdict.tells_allow (d : Direction) : Verdict.allow.Tells d := by
  intro e he
  simp at he

theorem tells_denial (d : Direction) (packet : Bytes) (reason : DenyReason)
    (ports : Option (UInt16 × UInt16)) : (denial d packet reason ports).Tells d := by
  rintro e ⟨⟩
  rfl

theorem tells_firstVerdict {d : Direction} {rules : List (Bool × Verdict)}
    (h : ∀ r ∈ rules, r.2.Tells d) : (firstVerdict rules).Tells d := by
  induction rules with
  | nil => exact Verdict.tells_allow d
  | cons r rules ih =>
    obtain ⟨applies, v⟩ := r
    rw [firstVerdict_cons]
    split
    · exact h (applies, v) (by simp)
    · exact ih fun r hr => h r (by simp [hr])

theorem tells_ruling (o : Options) (g : Grounds) (d : Direction) (packet : Bytes)
    (protocol : Protocol) : (ruling o g d packet protocol).Tells d := by
  -- each rule denies in the direction of the packet
  have hbare : ∀ reason, (Verdict.deny { reason, direction := d }).Tells d := by
    rintro reason e ⟨⟩
    rfl
  have hallow := Verdict.tells_allow d
  have hdenial := tells_denial d packet
  have htcp : ∀ r ∈ tcpRules o g d packet, r.2.Tells d := by
    unfold tcpRules
    cases d <;> simp [hallow, hdenial]
  have hudp : ∀ r ∈ udpRules o g d packet, r.2.Tells d := by
    unfold udpRules
    cases d <;> simp [hallow, hdenial]
  cases protocol with
  | arp => exact hallow
  | rarp => exact hallow
  | other =>
    unfold ruling
    simp only
    split
    · exact hbare _
    · exact hallow
  | ip =>
    refine tells_firstVerdict fun r hr => ?_
    unfold ipRules at hr
    rcases List.mem_append.mp hr with hr | hr
    · simp only [List.mem_cons, List.not_mem_nil, or_false] at hr
      rcases hr with rfl | rfl | rfl | rfl | rfl | rfl
      · exact hbare _
      · exact hdenial _ _
      · exact hallow
      · exact hdenial _ _
      · exact hallow
      · exact hdenial _ _
    · split at hr
      · exact htcp r hr
      · split at hr
        · exact hudp r hr
        · simp only [List.mem_cons, List.not_mem_nil, or_false] at hr
          rcases hr with rfl | rfl
          · exact hallow
          · exact hdenial _ _

/-! ### One packet -/

namespace Firewall

variable {f : Firewall} {own : List Slot}

/-- Settling a judgement takes the class from the host tables, and changes the cache
alone. -/
theorem settle_spec (h : f.classifier.Consistent own) (j : Judgement) :
    (f.settle j).2 = j.verdict (hostClass f.classifier.hostMap) ∧
      (f.settle j).1.classifier.Consistent own ∧
      (f.settle j).1.classifier.networks = f.classifier.networks ∧
      (f.settle j).1.classifier.arena = f.classifier.arena ∧
      (f.settle j).1.policy = f.policy ∧ (f.settle j).1.counters = f.counters := by
  cases j with
  | settled v => exact ⟨rfl, h, rfl, rfl, rfl, rfl⟩
  | byClass host v =>
    obtain ⟨hclass, -, hn, ha⟩ := Classifier.lookup_spec h.agrees host
    exact ⟨congrArg v hclass, h.lookup host, hn, ha, rfl, rfl⟩

/-- A packet gets the verdict by the rules.  Only a denied packet is counted, once and
for its direction; beside that only the cache changes. -/
theorem filter_spec (h : f.classifier.Consistent own) (o : Options) (d : Direction)
    (protocol : Protocol) (packet : Bytes) :
    (f.filter o d protocol packet).2 =
        ruling o (f.policy.grounds f.classifier.hostMap) d packet protocol ∧
      (f.filter o d protocol packet).1.classifier.Consistent own ∧
      (f.filter o d protocol packet).1.classifier.networks = f.classifier.networks ∧
      (f.filter o d protocol packet).1.classifier.arena = f.classifier.arena ∧
      (f.filter o d protocol packet).1.policy = f.policy ∧
      (f.filter o d protocol packet).1.counters =
        if (f.filter o d protocol packet).2.isAllow then f.counters else f.counters.filtered d := by
  obtain ⟨hv, hc, hn, ha, hp, hcount⟩ := settle_spec h (judge o f.policy d protocol packet)
  rw [judge_verdict_eq] at hv
  have htells := tells_ruling o (f.policy.grounds f.classifier.hostMap) d packet protocol
  unfold filter
  rcases hs : f.settle (judge o f.policy d protocol packet) with ⟨f', v⟩
  rw [hs] at hv hc hn ha hp hcount
  simp only at hv hc hn ha hp hcount
  rw [← hv] at htells
  cases v with
  | allow => exact ⟨hv, hc, hn, ha, hp, hcount⟩
  | deny e =>
    refine ⟨hv, hc, hn, ha, hp, ?_⟩
    simp only [count, Verdict.isAllow, Bool.false_eq_true, if_false, htells e rfl, hcount]

end Firewall

/-! ### Any history -/

/-- What may happen to a filter. -/
inductive Event
  /-- A packet is filtered. -/
  | filter (o : Options) (d : Direction) (protocol : Protocol) (packet : Bytes)
  /-- The classifier is used. -/
  | use (u : Classifier.Use)
  /-- A part of a table is taken. -/
  | load (part : Fragment)
  /-- Tables of the policy are replaced, or their flags set. -/
  | replace (policy : Policy)
  /-- Packets are counted, or the counters cleared. -/
  | count (counters : Counters)

/-- A filter in service: what it is being loaded with, and the host tables that others
hold. -/
structure Service where
  /-- The filter. -/
  firewall : Firewall
  /-- What is being loaded. -/
  uploads : Uploads := {}
  /-- The host tables that others hold. -/
  own : List Slot := []

namespace Service

/-- One event. -/
def step (s : Service) : Event → Service
  | .filter o d protocol packet =>
    { s with firewall := (s.firewall.filter o d protocol packet).1 }
  | .use u =>
    let h := Holding.use ⟨s.firewall.classifier, s.own⟩ u
    ⟨⟨h.classifier, s.firewall.policy, s.firewall.counters⟩, s.uploads, h.own⟩
  | .load part =>
    let r := s.uploads.apply s.firewall part
    ⟨r.2.1, r.1, s.own⟩
  | .replace policy =>
    { s with firewall := ⟨s.firewall.classifier, policy, s.firewall.counters⟩ }
  | .count counters =>
    { s with firewall := ⟨s.firewall.classifier, s.firewall.policy, counters⟩ }

/-- Events at a new filter, over an arena of the given capacity. -/
def run (capacity : Nat) (events : List Event) : Service :=
  events.foldl step { firewall := .withCapacity capacity }

/-- The invariant of the classifier, with the host tables of all holders. -/
def Consistent (s : Service) : Prop := s.uploads.Consistent s.firewall s.own

/-- An event keeps the invariant. -/
theorem Consistent.step {s : Service} (h : s.Consistent) (e : Event) : (s.step e).Consistent := by
  cases e with
  | filter o d protocol packet => exact (Firewall.filter_spec h o d protocol packet).2.1
  | use u => exact Holding.consistent_use (h := ⟨s.firewall.classifier, s.own⟩) _ h u
  | load part =>
    cases hk : TableKind.ofByte? part.kind with
    | none =>
      have hsame : s.step (.load part) = s := by
        simp only [Service.step, Uploads.apply_of_unknown hk]
      rwa [hsame]
    | some kind => exact (Uploads.apply_taken h hk rfl).1
  | replace policy => exact h
  | count counters => exact h

/-- The invariant holds after any events. -/
theorem consistent_run (capacity : Nat) (events : List Event) :
    (run capacity events).Consistent := by
  -- by induction on the events, from any start that is in order
  have hfold : ∀ s : Service, s.Consistent → (events.foldl Service.step s).Consistent := by
    induction events with
    | nil => exact fun s hs => hs
    | cons e events ih => exact fun s hs => ih (s.step e) (hs.step e)
  exact hfold _ (Classifier.consistent_withCapacity capacity)

/-- Whatever happened before, a packet gets the verdict by the rules over the live
tables.  Filtering leaves policy, networks and host tables as they are, and counts a
denied packet once, for its direction.  Filters with the same tables agree, however
they came by them. -/
theorem filter_run (capacity : Nat) (events : List Event) (o : Options) (d : Direction)
    (protocol : Protocol) (packet : Bytes) :
    let f := (run capacity events).firewall
    let r := f.filter o d protocol packet
    r.2 = ruling o (f.policy.grounds f.classifier.hostMap) d packet protocol ∧
      r.1.policy = f.policy ∧ r.1.classifier.networks = f.classifier.networks ∧
      r.1.classifier.arena = f.classifier.arena ∧
      r.1.counters = (if r.2.isAllow then f.counters else f.counters.filtered d) ∧
      ∀ capacity' events',
        let f' := (run capacity' events').firewall
        f'.policy.grounds f'.classifier.hostMap = f.policy.grounds f.classifier.hostMap →
          (f'.filter o d protocol packet).2 = r.2 := by
  intro f r
  obtain ⟨hv, -, hn, ha, hp, hcount⟩ :=
    Firewall.filter_spec (consistent_run capacity events) o d protocol packet
  refine ⟨hv, hp, hn, ha, hcount, ?_⟩
  intro capacity' events' f' heq
  have hv' := (Firewall.filter_spec (consistent_run capacity' events') o d protocol packet).1
  exact hv'.trans ((congrArg (ruling o · d packet protocol) heq).trans hv.symm)

/-- A segment that opens a connection is judged by the host table that is installed now,
although the class of its host was looked up before. -/
example :
    let rules : ClassRules := { inbound := .denyAll, source := .denyAll }
    let packet : Bytes :=
      [0x45, 0, 0, 40, 0, 0, 0, 0, 64, 6, 0, 0, 8, 8, 8, 8, 192, 0, 2, 2] ++
        [0x20, 0, 0, 80, 0, 0, 0, 0, 0, 0, 0, 0, 0x50, 0x02, 0, 0, 0, 0, 0, 0]
    let before := [.replace (({} : Policy).replaceClass 5 rules),
      .use (.load 0xC0000200 (Bytes.zeros 256)), .use (.lookup 0xC0000202)]
    let after := before ++ [.use (.load 0xC0000200 (Bytes.zeros 2 ++ 5 :: Bytes.zeros 253))]
    let verdict events := ((run 4096 events).firewall.filter {} .inbound .ip packet).2.isAllow
    verdict before = true ∧ verdict after = false := by
  decide +kernel

end Service

end FilterBridge
