import FilterBridge.Proofs.FaultFree
import FilterBridge.Proofs.Faithful

/-!
# What comes into the policy

Tables come into the policy from images, which a store keeps or an operator sends, or are put
there.  Those from images are read from bytes, so they lose nothing when they are written again.
Those that are put there may hold more than is ever looked at; as long as they were built, and
lists are not too long, their images hold all that is.

## Main definitions

* `Policy.Change.Built`, `Move.Built` — what is put into the policy was built.

## Main results

* `Policy.WellFormed.built` — tables whose images lose nothing are built.
* `Policy.Built.change`, `Taken.built` — a change, and a part of a table, leave the policy built.
* `Appliance.built_move` — so does whatever is done to a filter with its agent.
-/

namespace FilterBridge

open Agent

/-! ### Tables -/

/-- A list whose image loses nothing is read from that. -/
theorem PortList.WellFormed.built {l : PortList} (h : l.WellFormed) : l.Built := by
  have hread := l.decode_encode []
  rw [held_of_wellFormed h] at hread
  exact .decode hread

theorem ClassRules.WellFormed.built {c : ClassRules} (h : c.WellFormed) : c.Built :=
  ⟨h.inbound.built, h.outbound.built, h.source.built, h.udp.built⟩

/-- What is put into a policy was built, and a list fits into its image. -/
def Policy.Change.Built : Policy.Change → Prop
  | .replaceClass _ rules => rules.Built
  | .replaceAllow rules => rules.length ≤ maxAllowRules ∧ ∀ r ∈ rules, r.ports.Built
  | .replaceReject rules => rules.length ≤ maxRejectRules
  | _ => True

namespace Policy

variable {p p' : Policy}

/-- A policy whose images lose nothing is built. -/
theorem WellFormed.built (h : p.WellFormed) : p.Built where
  classes _ := (h.classes _ (Vector.mem_toList_iff.mpr (Vector.getElem_mem _))).built
  allow r hr := (h.allow.2 r hr).2.built
  length_allow := h.allow.1
  length_reject := h.reject.1

namespace Built

/-- Tables that are each the same as before, or well formed, are built. -/
theorem of_same (h : p.Built)
    (ht : ∀ t, Same t p' p ∨ ∃ q : Policy, q.WellFormed ∧ Same t p' q) : p'.Built := by
  have hbuilt : ∀ t, ∃ q : Policy, q.Built ∧ Same t p' q := by
    intro t
    obtain hsame | ⟨q, hq, hsame⟩ := ht t
    · exact ⟨p, h, hsame⟩
    · exact ⟨q, hq.built, hsame⟩
  obtain ⟨q₁, h₁, hreject⟩ := hbuilt .reject
  obtain ⟨q₂, h₂, hallow⟩ := hbuilt .allow
  obtain ⟨q₃, h₃, hclasses⟩ := hbuilt .classes
  have hreject : p'.reject = q₁.reject := hreject
  have hallow : p'.allow = q₂.allow := hallow
  have hclasses : p'.classes = q₃.classes := hclasses
  refine ⟨fun k => ?_, ?_, ?_, ?_⟩
  · rw [rules, hclasses]
    exact h₃.classes k
  · rw [hallow]
    exact h₂.allow
  · rw [hallow]
    exact h₂.length_allow
  · rw [hreject]
    exact h₁.length_reject

theorem setDirty (h : p.Built) (dirty : Bool) (t : Table) : (p.setDirty dirty t).Built :=
  h.of_same fun u => .inl (same_setDirty p dirty t u)

theorem reset (h : p.Built) (t : Table) : (p.reset t).Built := by
  refine h.of_same fun u => ?_
  by_cases hu : u = t
  · subst hu
    exact .inr ⟨{}, wellFormed_default, same_reset_self p u⟩
  · exact .inl (same_reset_ne p hu)

/-- A table that is installed is well formed. -/
theorem install {image : Bytes} {t : Table} (h : p.Built) (hp : p.install image t = .ok p') :
    p'.Built := by
  obtain ⟨-, hothers, -, hany⟩ := install_spec hp
  refine h.of_same fun u => ?_
  by_cases hu : u = t
  · subst hu
    obtain ⟨q, hq, hsame⟩ := hany {}
    exact .inr ⟨q, (install_spec hq).2.2.1 wellFormed_default, hsame.symm⟩
  · exact .inl (hothers u hu).1

theorem replaceClass {rules : ClassRules} (h : p.Built) (k : PolicyClass) (hr : rules.Built) :
    (p.replaceClass k rules).Built := by
  refine ⟨fun k' => ?_, h.allow, h.length_allow, h.length_reject⟩
  simp only [Policy.rules, Policy.replaceClass, Vector.getElem_set]
  split
  · exact hr
  · exact h.classes k'

/-- Whatever change is built leaves the policy so. -/
theorem change {c : Change} (h : p.Built) (hc : c.Built) : (p.change c).Built := by
  cases c with
  | replaceClass k rules => exact h.replaceClass k hc
  | replaceAllow rules => exact ⟨h.classes, hc.2, hc.1, h.length_reject⟩
  | replaceReject rules => exact ⟨h.classes, h.allow, h.length_allow, hc⟩
  | reset t => exact h.reset t
  | setDirty dirty t => exact h.setDirty dirty t
  | install image t =>
    show ((p.install image t).toOption.getD p).Built
    cases hp : p.install image t with
    | error e => exact h
    | ok p' => exact h.install hp

end Built

end Policy

/-! ### Requests -/

/-- A table that goes live was read from its image. -/
theorem LiveTables.built_of_commit {l l' : LiveTables} {kind : TableKind} {index : UInt32}
    {image : Bytes} (h : l.policy.Built) (hc : l.commit kind index image = .ok l') :
    l'.policy.Built := by
  cases kind with
  | network =>
    obtain rfl := Except.ok.inj hc
    exact h
  | classRules =>
    obtain ⟨rules, hr, rfl⟩ := exists_of_map_eq_ok hc
    refine ⟨fun k => ?_, h.allow, h.length_allow, h.length_reject⟩
    simp only [Policy.rules, Vector.getElem_setIfInBounds]
    split
    · exact (ClassRules.wellFormed_of_ofImage hr).built
    · exact h.classes k
  | reject =>
    obtain ⟨rules, hr, rfl⟩ := exists_of_map_eq_ok hc
    exact ⟨h.classes, h.allow, h.length_allow, (rejectRules_wellFormed hr).1⟩
  | allow =>
    obtain ⟨rules, hr, rfl⟩ := exists_of_map_eq_ok hc
    obtain ⟨hlen, hrules⟩ := allowRules_wellFormed hr
    exact ⟨h.classes, fun r hmem => (hrules r hmem).2.built, hlen, h.length_reject⟩

theorem Taken.built {kind : TableKind} {part : Fragment} {c c' : Collected} {l l' : LiveTables}
    {r : Except LoadError Unit} (ht : Taken kind part c l c' l' r) (h : l.policy.Built) :
    l'.policy.Built := by
  cases ht with
  | refused e => exact h
  | kept hput hend => exact h
  | committed hput hend hcommit => exact LiveTables.built_of_commit h hcommit

section Requests

variable {σ : Type} {a : Agent σ} {f : Firewall} {s : Suite} {challenge datagram payload : Bytes}

theorem Uploads.built_apply {u : Uploads} (hc : u.Consistent f []) (h : f.policy.Built)
    (part : Fragment) : (u.apply f part).2.1.policy.Built := by
  cases hk : TableKind.ofByte? part.kind with
  | none =>
    rw [apply_of_unknown hk]
    exact h
  | some kind =>
    exact (apply_taken hc hk rfl).2.built h

theorem built_onLoad (hc : a.uploads.Consistent f []) (h : f.policy.Built) (payload : Bytes) :
    (a.onLoad f payload).2.1.policy.Built := by
  unfold onLoad
  cases Fragment.parse payload with
  | error e => exact h
  | ok part =>
    have hpart := Uploads.built_apply hc h part
    rcases hr : a.uploads.apply f part with ⟨u, f', e | ⟨⟩⟩ <;> simpa only [hr] using hpart

variable [TableStore σ]

/-- Tables that are written lose their flags only. -/
theorem built_writeTables (ts : List Table) (store : σ) {p : Policy} (h : p.Built) :
    (writeTables ts store p).2.1.Built := by
  induction ts generalizing store p with
  | nil => exact h
  | cons t ts ih =>
    rw [writeTables]
    split
    · rcases TableStore.writeTable store t (p.encode t) with ⟨store', e | ⟨⟩⟩
      · exact h
      · exact ih store' (h.setDirty false t)
    · exact ih store h

theorem built_onWrite (h : f.policy.Built) : (a.onWrite f).2.1.policy.Built := by
  have htables := built_writeTables Table.all a.store h
  unfold onWrite
  rcases hw : writeTables Table.all a.store f.policy with ⟨store, policy, _ | code⟩
  · rw [hw] at htables
    simp only
    split <;> exact htables
  · rw [hw] at htables
    exact htables

theorem built_onRelease (h : f.policy.Built) (payload : Bytes) :
    (a.onRelease f payload).2.1.policy.Built := by
  unfold onRelease
  cases Release.parse payload with
  | error e => exact h
  | ok r =>
    simp only
    cases TableKind.ofByte? r.kind with
    | none => exact h
    | some kind =>
      simp only
      cases tableOf? kind with
      | some t => exact h.reset t
      | none =>
        simp only
        split <;> exact h

theorem built_obey (hc : a.uploads.Consistent f []) (h : f.policy.Built) (type : MessageType) :
    (a.obey f s challenge datagram type payload).2.1.policy.Built := by
  cases type with
  | query => exact (Firewall.keeps_onQuery hc payload).policy.symm ▸ h
  | load => exact built_onLoad hc h payload
  | write => exact built_onWrite h
  | release => exact built_onRelease h payload
  | statistics => exact (Firewall.keeps_onStatistics hc payload).policy.symm ▸ h
  | _ => exact h

/-- After any datagram the policy is built. -/
theorem built_respond (hc : a.uploads.Consistent f []) (h : f.policy.Built) :
    (a.respond f s challenge datagram).2.1.policy.Built := by
  obtain hu | ⟨type, payload, -, hr⟩ := (a.reacts f s challenge datagram).untouched_or_obeyed
  · rw [hu.filter]
    exact h
  · rw [hr]
    exact built_obey hc h type

theorem built_bootTables (store : σ) (ts : List Table) {r : Firewall × BootReport}
    (h : r.1.policy.Built) : (ts.foldl (Firewall.bootTable store) r).1.policy.Built := by
  induction ts generalizing r with
  | nil => exact h
  | cons t ts ih =>
    refine ih ?_
    unfold Firewall.bootTable
    split
    · split
      · rename_i p hp
        exact h.install hp
      · exact h
    · exact h

/-- Networks that are found in a store do not change the policy. -/
theorem Firewall.policy_bootNetworks (ns : List (Address × Bytes)) (r : Firewall × BootReport) :
    (ns.foldl bootNetwork r).1.policy = r.1.policy := by
  induction ns generalizing r with
  | nil => rfl
  | cons n ns ih =>
    refine (ih _).trans ?_
    unfold bootNetwork
    split <;> rfl

/-- After a start, whatever the store keeps, the policy is built. -/
theorem built_boot (h : f.policy.Built) (store : σ) : (f.boot store).1.policy.Built := by
  have htables := built_bootTables store Table.all (r := (f, {})) h
  unfold Firewall.boot
  simp only
  split
  · rw [Firewall.policy_bootNetworks]
    exact htables
  · exact htables

end Requests

/-! ### Moves -/

/-- If the policy is changed, what is put into it was built. -/
def Move.Built {σ : Type} : Move σ → Prop
  | .change c => c.Built
  | _ => True

namespace Appliance

variable {σ : Type} [TableStore σ] {x : Appliance σ}

/-- Moves that put into the policy what was built leave it so. -/
theorem built_move (hx : x.Consistent) (h : x.filter.policy.Built) (s : Suite) {m : Move σ}
    (hm : m.Built) : (x.move s m).filter.policy.Built := by
  cases m with
  | deed d =>
    cases d with
    | boot store => exact built_boot h store
    | load n image => exact h
    | happens happening =>
      cases happening with
      | datagram e => exact built_respond hx h
      | frame options sends frame =>
        have hkeeps := (Bridge.dispatch_spec hx options sends frame).2.1
        exact hkeeps.policy.symm ▸ h
      | count counters => exact h
  | change c => exact h.change hm
  | use u => exact h
  | take part => exact Uploads.built_apply hx h part
  | abort kind =>
    have hpolicy : (x.agent.uploads.abort x.filter kind).2.policy = x.filter.policy :=
      congrArg LiveTables.policy (Uploads.abort_spec hx rfl).2.1
    show (x.agent.uploads.abort x.filter kind).2.policy.Built
    rw [hpolicy]
    exact h
  | session session => exact h

end Appliance

end FilterBridge
