import FilterBridge.Proofs.Images
import FilterBridge.Proofs.OrderedRules

/-!
# Images carry what the policy decides

An image leaves out what comes after the end of a port list or of a list of networks.
Nothing there is ever looked at, so a policy that was read back from the images of another
answers as that one does.  Reading and writing once more changes nothing.

## Main definitions

* `PortList.Built`, `ClassRules.Built`, `Policy.Built` — what can be built.
* `ClassRules.Agrees`, `Policy.Agrees` — tables that answer alike.
* `Policy.installAll` — installing the images of some tables of another policy.
* `Policy.attempt` — the policy after an image was offered.

## Main results

* `PortList.admits_held`, `firstMatch?_heldRules` — an image holds what is looked at.
* `Policy.agrees_held` — so do the images of whole tables.
* `Policy.installAll_spec` — what a run of installing does.
* `Policy.images_faithful` — tables go through images without harm.
-/

namespace FilterBridge

/-! ### Port lists -/

namespace PortList

variable {l : PortList} {port : UInt16}

/-- The ways to a port list. -/
inductive Built : PortList → Prop
  /-- From ranges. -/
  | ofRanges (ranges : List (UInt16 × UInt16)) : Built (.ofRanges ranges)
  /-- The list that admits nothing. -/
  | denyAll : Built .denyAll
  /-- The list that admits every port but 0. -/
  | allowAll : Built .allowAll
  /-- From bytes. -/
  | decode {bs rest : Bytes} {l : PortList} (h : PortList.decode bs = .ok (l, rest)) : Built l

/-- Whichever way a list is built, its image has room for its rows. -/
theorem Built.length_le (h : l.Built) : l.rows.length ≤ maxRows := by
  cases h with
  | ofRanges ranges =>
    simp only [PortList.ofRanges, List.length_append, List.length_map, List.length_take,
      List.length_singleton, maxRows]
    omega
  | denyAll => decide
  | allowAll => decide
  | decode h => exact length_le_of_fill (wellFormed_of_decode h)

theorem admitsRow_upToFinal (rows : List PortRange) :
    admitsRow port (PortRange.upToFinal rows) = admitsRow port rows := by
  induction rows with
  | nil => rfl
  | cons r rows ih =>
    by_cases hf : r.isFinal
    · simp [PortRange.upToFinal, admitsRow, hf]
    · simp [PortRange.upToFinal, admitsRow, hf, ih]

theorem admitsRow_append_final (rows : List PortRange) (k : Nat) :
    admitsRow port (rows ++ List.replicate k .final) = admitsRow port rows := by
  induction rows with
  | nil =>
    cases k with
    | zero => rfl
    | succ k => simp [List.replicate_succ, admitsRow]
  | cons r rows ih => rw [List.cons_append, admitsRow, admitsRow, ih]

/-- The image of a list holds all rows that are looked at. -/
theorem admits_held (h : l.rows.length ≤ maxRows) : l.held.admits port = l.admits port := by
  rw [admits, held, admitsRow_upToFinal, List.take_of_length_le h, admitsRow_append_final, admits]

end PortList

/-! ### Classes -/

namespace ClassRules

/-- Each list of a class was built. -/
structure Built (c : ClassRules) : Prop where
  /-- The inbound list. -/
  inbound : c.inbound.Built
  /-- The outbound list. -/
  outbound : c.outbound.Built
  /-- The list of source ports. -/
  source : c.source.Built
  /-- The list for UDP. -/
  udp : c.udp.Built

/-- Two classes admit the same ports. -/
structure Agrees (c c' : ClassRules) : Prop where
  /-- Inbound. -/
  inbound (port : UInt16) : c.inbound.admits port = c'.inbound.admits port
  /-- Outbound. -/
  outbound (port : UInt16) : c.outbound.admits port = c'.outbound.admits port
  /-- By source port. -/
  source (port : UInt16) : c.source.admits port = c'.source.admits port
  /-- For UDP. -/
  udp (port : UInt16) : c.udp.admits port = c'.udp.admits port

theorem agrees_held {c : ClassRules} (h : c.Built) : c.held.Agrees c where
  inbound _ := PortList.admits_held h.inbound.length_le
  outbound _ := PortList.admits_held h.outbound.length_le
  source _ := PortList.admits_held h.source.length_le
  udp _ := PortList.admits_held h.udp.length_le

end ClassRules

/-! ### Lists of rules -/

section Rules

variable {α : Type} {subnet : α → Subnet} (ip : Address)

/-- The image of a list of rules holds all that are looked at. -/
theorem firstMatch?_heldRules {n : Nat} {rules : List α} (hn : rules.length ≤ n) :
    firstMatch? subnet ip (heldRules subnet n rules) = firstMatch? subnet ip rules := by
  rw [firstMatch?_eq_covering, firstMatch?_eq_covering, covering, covering, heldRules,
    List.take_of_length_le hn, List.takeWhile_idem]

theorem firstMatch?_map {f : α → α} (hf : ∀ r, subnet (f r) = subnet r) (rules : List α) :
    firstMatch? subnet ip (rules.map f) = (firstMatch? subnet ip rules).map f := by
  induction rules with
  | nil => rfl
  | cons r rules ih =>
    rw [List.map_cons, firstMatch?, firstMatch?, hf, ih]
    split
    · rfl
    · split <;> rfl

theorem mem_of_firstMatch? {rules : List α} {r : α} (h : firstMatch? subnet ip rules = some r) :
    r ∈ rules := by
  rw [firstMatch?_eq_covering] at h
  exact (List.takeWhile_sublist _).mem (List.mem_of_find?_eq_some h)

end Rules

/-! ### Whole tables -/

namespace Policy

variable {p p' q r : Policy} {t : Table} {image : Bytes}

/-- The tables can be built, and the lists of networks are no longer than their images
allow. -/
structure Built (p : Policy) : Prop where
  /-- Each class was built. -/
  classes (k : PolicyClass) : (p.rules k).Built
  /-- So were the ports of each allow rule. -/
  allow : ∀ r ∈ p.allow, r.ports.Built
  /-- There are at most 32 allow rules. -/
  length_allow : p.allow.length ≤ maxAllowRules
  /-- There are at most 256 rejected networks. -/
  length_reject : p.reject.length ≤ maxRejectRules

/-- The network that grants ports to an address, and which ports it grants. -/
def grant? (p : Policy) (ip : Address) : Option (Subnet × (UInt16 → Bool)) :=
  (allows? p.allow ip).map fun r => (r.subnet, r.ports.admits)

/-- Two policies answer alike by one table. -/
def Agrees (t : Table) (p q : Policy) : Prop :=
  match t with
  | .reject => ∀ ip, rejects? p.reject ip = rejects? q.reject ip
  | .allow => ∀ ip, p.grant? ip = q.grant? ip
  | .classes => ∀ k, (p.rules k).Agrees (q.rules k)

/-- The same table gives the same answers. -/
theorem Agrees.of_same (hs : Same t p q) (h : q.Agrees t r) : p.Agrees t r := by
  cases t with
  | reject =>
    intro ip
    rw [show p.reject = q.reject from hs]
    exact h ip
  | allow =>
    intro ip
    rw [grant?, show p.allow = q.allow from hs]
    exact h ip
  | classes =>
    intro k
    rw [rules, show p.classes = q.classes from hs]
    exact h k

/-- Tables answer as before when they are cut to what their images hold. -/
theorem agrees_held (h : p.Built) (t : Table) : p.held.Agrees t p := by
  cases t with
  | reject =>
    intro ip
    exact firstMatch?_heldRules ip h.length_reject
  | allow =>
    intro ip
    have hmatch : allows? (heldAllowRules p.allow) ip =
        (allows? p.allow ip).map AllowRule.held := by
      have hsubnet : ∀ r : AllowRule, r.held.subnet = r.subnet := fun _ => rfl
      rw [allows?, heldAllowRules, firstMatch?_map ip hsubnet,
        firstMatch?_heldRules ip h.length_allow, allows?]
    show (allows? (heldAllowRules p.allow) ip).map _ = (allows? p.allow ip).map _
    rw [hmatch]
    cases hr : allows? p.allow ip with
    | none => rfl
    | some r =>
      -- the rule is one of the list, so its ports were built
      have hports : r.ports.Built := h.allow r (mem_of_firstMatch? ip hr)
      have hadmits : r.held.ports.admits = r.ports.admits :=
        funext fun _ => PortList.admits_held hports.length_le
      simp only [Option.map_some, hadmits]
      rfl
  | classes =>
    intro k
    have hrules : p.held.rules k = (p.rules k).held := Vector.getElem_map ..
    rw [hrules]
    exact ClassRules.agrees_held (h.classes k)

/-- The images of some tables of `p`, installed in `q` one after another. -/
def installAll (p : Policy) (ts : List Table) (q : Policy) : Except TableFault Policy :=
  ts.foldlM (fun q t => q.install (p.encode t) t) q

/-- Each table whose image is installed becomes what that holds; the others stay. -/
theorem installAll_spec (p : Policy) (ts : List Table) (q : Policy) :
    ∃ q', p.installAll ts q = .ok q' ∧ (∀ t ∈ ts, Same t q' p.held) ∧
      ∀ t, t ∉ ts → Same t q' q ∧ q'.isDirty t = q.isDirty t := by
  induction ts generalizing q with
  | nil => exact ⟨q, rfl, by simp, fun t _ => ⟨.refl t q, rfl⟩⟩
  | cons t ts ih =>
    obtain ⟨q₁, hq₁, hsame⟩ := p.install_encode_held t q
    obtain ⟨-, hothers, -, -⟩ := install_spec hq₁
    obtain ⟨q', hq', hin, hout⟩ := ih q₁
    refine ⟨q', ?_, ?_, ?_⟩
    · rw [installAll, List.foldlM_cons, hq₁]
      exact hq'
    · intro u hu
      by_cases hts : u ∈ ts
      · exact hin u hts
      · -- installed now, and not once more later
        obtain rfl : u = t := (List.mem_cons.mp hu).resolve_right hts
        exact (hout u hts).1.trans hsame
    · intro u hu
      obtain ⟨hne, hts⟩ := List.ne_and_not_mem_of_not_mem_cons hu
      obtain ⟨hsame', hdirty'⟩ := hout u hts
      obtain ⟨hsame₁, hdirty₁⟩ := hothers u hne
      exact ⟨hsame'.trans hsame₁, hdirty'.trans hdirty₁⟩

/-! ### Once more -/

theorem Same.held (h : Same t p q) : Same t p.held q.held := by
  cases t with
  | reject => exact congrArg heldRejectRules h
  | allow => exact congrArg heldAllowRules h
  | classes => exact congrArg (·.map ClassRules.held) h

theorem Same.encode (h : Same t p q) : p.encode t = q.encode t := by
  cases t with
  | reject => exact congrArg encodeRejectRules h
  | allow => exact congrArg encodeAllowRules h
  | classes => exact congrArg (·.toList.flatMap ClassRules.encode) h

/-- What was read from an image is all held by its own image. -/
theorem same_held_of_install (h : p.install image t = .ok p') : Same t p'.held p' := by
  -- the table is the one that the default policy would have, which is well formed
  obtain ⟨q, hq, hsame⟩ := (install_spec h).2.2.2 {}
  have hwf : q.WellFormed := (install_spec hq).2.2.1 wellFormed_default
  have hheld : Same t p'.held q.held := hsame.symm.held
  rw [held_of_wellFormed hwf] at hheld
  exact hheld.trans hsame

/-- The policy after an image was offered: one that is refused changes nothing. -/
def attempt (p : Policy) (image : Bytes) (t : Table) : Policy :=
  match p.install image t with
  | .ok q => q
  | .error _ => p

/-- Whatever tables of a policy are installed from their images, in whatever other policy:
they answer as before, and the other tables stay.  Any image of the right length can be
installed; the table has an image of that length again, which gives the same table wherever
it is installed.  An image of another length is refused, and changes nothing. -/
theorem images_faithful (p : Policy) :
    (p.Built → ∀ ts q, ∃ q', p.installAll ts q = .ok q' ∧ (∀ t ∈ ts, q'.Agrees t p) ∧
      ∀ t, t ∉ ts → Same t q' q ∧ q'.isDirty t = q.isDirty t) ∧
    (∀ t image, image.length = t.imageLen → ∃ q, p.install image t = .ok q ∧
      (q.encode t).length = image.length ∧
      ∀ r : Policy, ∃ r', r.install (q.encode t) t = .ok r' ∧ Same t r' q ∧
        r'.encode t = q.encode t) ∧
    ∀ t image, image.length ≠ t.imageLen →
      p.install image t = .error (.imageLength t.imageName image.length t.imageLen) ∧
        p.attempt image t = p := by
  refine ⟨?_, ?_, ?_⟩
  · intro hbuilt ts q
    obtain ⟨q', hq', hin, hout⟩ := p.installAll_spec ts q
    exact ⟨q', hq', fun t ht => (agrees_held hbuilt t).of_same (hin t ht), hout⟩
  · intro t image hlen
    obtain ⟨q, hq⟩ := exists_install hlen p
    refine ⟨q, hq, (length_encode q t).trans hlen.symm, fun r => ?_⟩
    obtain ⟨r', hr', hsame⟩ := q.install_encode_held t r
    have hsame' : Same t r' q := hsame.trans (same_held_of_install hq)
    exact ⟨r', hr', hsame', hsame'.encode⟩
  · intro t image hlen
    have hrefused := install_of_length_ne hlen p
    exact ⟨hrefused, by rw [attempt, hrefused]⟩

/-- Ports and networks that end early, with more behind the end, go through all three
images; zeros make an empty reject list, and are too few for an allow list. -/
theorem images_faithful_early_ends :
    let ports : PortList := .ofRanges [(80, 80), (0, 9), (443, 443)]
    let p : Policy :=
      { classes := Vector.replicate 256 { inbound := ports }
        allow := [⟨⟨0x0A000000, 0xFF000000⟩, ports⟩, ⟨⟨0, 0⟩, .denyAll⟩,
          ⟨⟨0x0B000000, 0xFF000000⟩, .allowAll⟩]
        reject := [⟨0x0C000000, 0xFF000000⟩, ⟨0, 0⟩, ⟨0x0D000000, 0xFF000000⟩] }
    let image := Bytes.zeros rejectImageLen
    (p.Built ∧ ∃ q', p.installAll Table.all {} = .ok q' ∧ ∀ t ∈ Table.all, q'.Agrees t p) ∧
      (image.length = Table.reject.imageLen ∧ ∃ q, p.install image .reject = .ok q ∧
        ∃ q', q.install (q.encode .reject) .reject = .ok q' ∧ Same .reject q' q) ∧
      image.length ≠ Table.allow.imageLen ∧ p.attempt image .allow = p := by
  intro ports p image
  have hports : ports.Built := .ofRanges _
  have hbuilt : p.Built := by
    refine ⟨fun k => ?_, ?_, by decide, by decide⟩
    · have hclass : p.rules k = { inbound := ports } := Vector.getElem_replicate ..
      rw [hclass]
      exact ⟨hports, .allowAll, .allowAll, .allowAll⟩
    · intro r hr
      simp only [p, List.mem_cons, List.not_mem_nil, or_false] at hr
      rcases hr with rfl | rfl | rfl
      · exact hports
      · exact .denyAll
      · exact .allowAll
  have hlen : image.length = Table.reject.imageLen := Bytes.length_zeros _
  have hne : image.length ≠ Table.allow.imageLen := by
    rw [hlen]
    decide
  obtain ⟨hall, hexact, hother⟩ := images_faithful p
  obtain ⟨q', hq', hagrees, -⟩ := hall hbuilt Table.all {}
  obtain ⟨q, hq, -, hagain⟩ := hexact .reject image hlen
  obtain ⟨r, hr, hsame, -⟩ := hagain q
  exact ⟨⟨hbuilt, q', hq', hagrees⟩, ⟨hlen, q, hq, r, hr, hsame⟩, hne,
    (hother .allow image hne).2⟩

end Policy

end FilterBridge
