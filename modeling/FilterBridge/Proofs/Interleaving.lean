import FilterBridge.Proofs.LoadRuns

/-!
# Tables that are loaded side by side

Several tables may be loaded at a time, one of each kind, and their parts come mixed.  What a
part does depends on its own kind alone, and concerns that kind alone: each kind has its own
strand of the state, host tables the classifier, and every other kind its table of the policy.
So nothing depends on how the parts of different kinds are mixed.

## Main definitions

* `Strand`, `Uploads.strand` — what a kind of table has of the state.
* `Uploads.graft`, `Firewall.graft` — a state with one strand of another.
* `Loading.after`, `Loading.answers` — parts that come one after another, and the answers to
  those of one kind.
* `Interleaves` — a mixture of sequences of parts, one for each kind.

## Main results

* `Uploads.apply_graft` — a part acts on the strand of its kind, wherever that strand is.
* `Loading.follows_after` — each kind goes its own way.
* `Loading.after_interleaves` — no mixture differs from another.
-/

namespace FilterBridge

/-! ### Strands -/

/-- What a kind of table has of the state: what is collected of it, and where it goes live. -/
inductive Strand
  /-- Host tables. -/
  | hosts (collected : Option HostUpload) (classifier : Classifier)
  /-- Classes. -/
  | classes (collected : Option ImageUpload) (rules : Vector ClassRules 256) (dirty : Bool)
  /-- The reject list. -/
  | rejects (collected : Option ImageUpload) (rules : List Subnet) (dirty : Bool)
  /-- The allow list. -/
  | allows (collected : Option ImageUpload) (rules : List AllowRule) (dirty : Bool)

/-- The strand of a kind. -/
def Uploads.strand (u : Uploads) (f : Firewall) : TableKind → Strand
  | .network => .hosts u.network f.classifier
  | .classRules => .classes u.classRules f.policy.classes f.policy.classesDirty
  | .reject => .rejects u.reject f.policy.reject f.policy.rejectDirty
  | .allow => .allows u.allow f.policy.allow f.policy.allowDirty

/-- What `v` collects, but of one kind what `u` collects. -/
def Uploads.graft (u v : Uploads) : TableKind → Uploads
  | .network => { v with network := u.network }
  | .classRules => { v with classRules := u.classRules }
  | .reject => { v with reject := u.reject }
  | .allow => { v with allow := u.allow }

/-- The policy `q`, but with one table of `p`. -/
def Policy.graft (p q : Policy) : ImageKind → Policy
  | .classRules => { q with classes := p.classes, classesDirty := p.classesDirty }
  | .reject => { q with reject := p.reject, rejectDirty := p.rejectDirty }
  | .allow => { q with allow := p.allow, allowDirty := p.allowDirty }

/-- The filter `g`, but with the live tables of one kind of `f`. -/
def Firewall.graft (f g : Firewall) : TableKind → Firewall
  | .network => { g with classifier := f.classifier }
  | .classRules => { g with policy := f.policy.graft g.policy .classRules }
  | .reject => { g with policy := f.policy.graft g.policy .reject }
  | .allow => { g with policy := f.policy.graft g.policy .allow }

section Strands

variable {u u' v : Uploads} {f f' g : Firewall} {kind k : TableKind}

@[simp] theorem Uploads.graft_self (u : Uploads) (kind : TableKind) : u.graft u kind = u := by
  cases kind <;> rfl

@[simp] theorem Firewall.graft_self (f : Firewall) (kind : TableKind) : f.graft f kind = f := by
  cases kind <;> rfl

@[simp] theorem Firewall.counters_graft (f g : Firewall) (kind : TableKind) :
    (f.graft g kind).counters = g.counters := by
  cases kind <;> rfl

theorem strand_graft_self (u v : Uploads) (f g : Firewall) (kind : TableKind) :
    (u.graft v kind).strand (f.graft g kind) kind = u.strand f kind := by
  cases kind <;> rfl

theorem strand_graft_of_ne (u v : Uploads) (f g : Firewall) (h : k ≠ kind) :
    (u.graft v kind).strand (f.graft g kind) k = v.strand g k := by
  cases kind <;> cases k <;> first | rfl | exact absurd rfl h

/-- The strand is all that is taken. -/
theorem graft_congr (h : u.strand f kind = u'.strand f' kind) (v : Uploads) (g : Firewall) :
    u.graft v kind = u'.graft v kind ∧ f.graft g kind = f'.graft g kind := by
  cases kind <;>
    simp only [Uploads.strand, Strand.hosts.injEq, Strand.classes.injEq, Strand.rejects.injEq,
      Strand.allows.injEq] at h <;>
    simp only [Uploads.graft, Firewall.graft, Policy.graft, h, and_self]

/-- A state is its strands, and the counters. -/
theorem eq_of_strands (h : ∀ kind, u.strand f kind = v.strand g kind)
    (hc : f.counters = g.counters) : u = v ∧ f = g := by
  have hnetwork := h .network
  have hclasses := h .classRules
  have hreject := h .reject
  have hallow := h .allow
  simp only [Uploads.strand, Strand.hosts.injEq, Strand.classes.injEq, Strand.rejects.injEq,
    Strand.allows.injEq] at hnetwork hclasses hreject hallow
  obtain ⟨hu₁, hclassifier⟩ := hnetwork
  obtain ⟨hu₂, hp₁, hp₂⟩ := hclasses
  obtain ⟨hu₃, hp₃, hp₄⟩ := hreject
  obtain ⟨hu₄, hp₅, hp₆⟩ := hallow
  have hpolicy : f.policy = g.policy := by
    cases hp : f.policy
    cases hq : g.policy
    simp only [hp, hq] at hp₁ hp₂ hp₃ hp₄ hp₅ hp₆
    simp only [hp₁, hp₂, hp₃, hp₄, hp₅, hp₆]
  cases u
  cases v
  cases f
  cases g
  exact ⟨by simp_all, by simp_all⟩

end Strands

/-! ### A part acts on one strand -/

namespace Uploads

variable {u v : Uploads} {f g : Firewall} {kind k : TableKind} {part : Fragment}

theorem abort_graft (u v : Uploads) (f g : Firewall) (kind : TableKind) :
    (u.graft v kind).abort (f.graft g kind) kind =
      ((u.abort f kind).1.graft v kind, (u.abort f kind).2.graft g kind) := by
  cases kind with
  | network =>
    simp only [abort, abortNetwork, graft]
    cases hup : u.network with
    | none => simp only [hup, Firewall.graft]
    | some up => rfl
  | _ => rfl

private theorem beginNetwork_graft (n : Address) :
    (u.graft v .network).beginNetwork (f.graft g .network) n =
      ((u.beginNetwork f n).1.graft v .network, (u.beginNetwork f n).2.1.graft g .network,
        (u.beginNetwork f n).2.2) := by
  have habort := abort_graft u v f g .network
  simp only [abort] at habort
  unfold beginNetwork
  rw [habort]
  generalize u.abortNetwork f = r
  simp only [Firewall.graft]
  cases r.2.classifier.alloc n with
  | error e => cases e <;> rfl
  | ok c => rfl

private theorem continueNetwork_graft :
    (u.graft v .network).continueNetwork (f.graft g .network) part =
      ((u.continueNetwork f part).1.graft v .network,
        (u.continueNetwork f part).2.1.graft g .network, (u.continueNetwork f part).2.2) := by
  unfold continueNetwork
  simp only [graft]
  cases u.network.filter (·.network = part.index) with
  | none => rfl
  | some up =>
    simp only [Firewall.graft]
    cases f.classifier.write up.slot part.offset.toNat part.data with
    | error e => rfl
    | ok c =>
      simp only
      split
      · -- the collected table goes live
        unfold endNetwork
        rcases c.install up.network up.slot with ⟨c', e | ⟨⟩⟩ <;> rfl
      · rfl

private theorem applyNetwork_graft :
    (u.graft v .network).applyNetwork (f.graft g .network) part =
      ((u.applyNetwork f part).1.graft v .network,
        (u.applyNetwork f part).2.1.graft g .network, (u.applyNetwork f part).2.2) := by
  unfold applyNetwork
  split
  · rfl
  split
  · rw [beginNetwork_graft]
    rcases u.beginNetwork f part.index with ⟨u', f', e | ⟨⟩⟩
    · rfl
    · exact continueNetwork_graft
  · exact continueNetwork_graft

private theorem image?_graft (k : ImageKind) : (u.graft v k.kind).image? k = u.image? k := by
  cases k <;> rfl

private theorem setImage_graft (up : Option ImageUpload) (k : ImageKind) :
    (u.graft v k.kind).setImage up k = (u.setImage up k).graft v k.kind := by
  cases k <;> rfl

private theorem replace_graft (p q : Policy) (index : UInt32) (image : Bytes) (k : ImageKind) :
    replace (p.graft q k) index image k = (replace p index image k).map (·.graft q k) := by
  cases k with
  | classRules =>
    simp only [replace, bind, Except.bind]
    cases ClassRules.ofImage image <;> rfl
  | reject =>
    simp only [replace, bind, Except.bind]
    cases rejectRulesOfImage image <;> rfl
  | allow =>
    simp only [replace, bind, Except.bind]
    cases allowRulesOfImage image <;> rfl

private theorem endImage_graft (k : ImageKind) (up : ImageUpload) :
    (u.graft v k.kind).endImage (f.graft g k.kind) k up =
      ((u.endImage f k up).1.graft v k.kind, (u.endImage f k up).2.1.graft g k.kind,
        (u.endImage f k up).2.2) := by
  have hpolicy : (f.graft g k.kind).policy = f.policy.graft g.policy k := by
    cases k <;> rfl
  unfold endImage
  rw [setImage_graft, hpolicy, replace_graft]
  cases replace f.policy up.index up.image k with
  | error fault => rfl
  | ok policy => cases k <;> rfl

private theorem continueImage_graft (k : ImageKind) (index : UInt32) :
    (u.graft v k.kind).continueImage (f.graft g k.kind) k index part =
      ((u.continueImage f k index part).1.graft v k.kind,
        (u.continueImage f k index part).2.1.graft g k.kind,
        (u.continueImage f k index part).2.2) := by
  unfold continueImage
  rw [image?_graft]
  cases (u.image? k).filter (·.index = index) with
  | none => rfl
  | some up =>
    simp only
    split
    · rfl
    split
    · exact endImage_graft k _
    · rw [setImage_graft]

private theorem applyImage_graft (k : ImageKind) :
    (u.graft v k.kind).applyImage (f.graft g k.kind) k part =
      ((u.applyImage f k part).1.graft v k.kind, (u.applyImage f k part).2.1.graft g k.kind,
        (u.applyImage f k part).2.2) := by
  unfold applyImage
  split
  · rfl
  simp only
  split
  · rw [setImage_graft]
    exact continueImage_graft k _
  · exact continueImage_graft k _

private theorem applyKind_graft (kind : TableKind) :
    (u.graft v kind).applyKind (f.graft g kind) kind part =
      ((u.applyKind f kind part).1.graft v kind, (u.applyKind f kind part).2.1.graft g kind,
        (u.applyKind f kind part).2.2) := by
  unfold applyKind
  split
  · rfl
  cases kind with
  | network => exact applyNetwork_graft
  | classRules => exact applyImage_graft .classRules
  | reject => exact applyImage_graft .reject
  | allow => exact applyImage_graft .allow

/-- A part does to the strand of its kind what it does anywhere, and nothing else. -/
theorem apply_graft (hk : TableKind.ofByte? part.kind = some kind) (u v : Uploads)
    (f g : Firewall) : (u.graft v kind).apply (f.graft g kind) part =
      ((u.apply f part).1.graft v kind, (u.apply f part).2.1.graft g kind,
        (u.apply f part).2.2) := by
  simp only [apply, hk, applyKind_graft]
  rcases u.applyKind f kind part with ⟨u', f', e | ⟨⟩⟩
  · simp only [abort_graft]
  · rfl

/-- What a part does to the strand of its kind, and the answer, depend on that strand. -/
theorem apply_congr (hk : TableKind.ofByte? part.kind = some kind)
    (h : u.strand f kind = v.strand g kind) :
    (u.apply f part).1.strand (u.apply f part).2.1 kind =
        (v.apply g part).1.strand (v.apply g part).2.1 kind ∧
      (u.apply f part).2.2 = (v.apply g part).2.2 := by
  -- put into the other state, the strand makes no difference
  obtain ⟨hu, hf⟩ := graft_congr h v g
  have hgraft := apply_graft hk u v f g
  rw [hu, hf, graft_self, Firewall.graft_self] at hgraft
  rw [hgraft]
  exact ⟨(strand_graft_self ..).symm, rfl⟩

/-- A part leaves the other strands alone, and the counters. -/
theorem apply_frame (hk : TableKind.ofByte? part.kind = some kind) (u : Uploads) (f : Firewall) :
    (∀ k, k ≠ kind → (u.apply f part).1.strand (u.apply f part).2.1 k = u.strand f k) ∧
      (u.apply f part).2.1.counters = f.counters := by
  have hgraft := apply_graft hk u u f f
  rw [graft_self, Firewall.graft_self] at hgraft
  rw [hgraft]
  exact ⟨fun k hne => strand_graft_of_ne _ _ _ _ hne, Firewall.counters_graft ..⟩

end Uploads

/-! ### Mixtures -/

/-- Whether a part is of a kind. -/
def Fragment.isOf (part : Fragment) (kind : TableKind) : Bool :=
  TableKind.ofByte? part.kind = some kind

/-- A mixture of sequences of parts, one for each kind: what is first in one of them comes
first, and then a mixture of what is left. -/
inductive Interleaves : (TableKind → List Fragment) → List Fragment → Prop
  /-- No parts are left. -/
  | nil {seqs : TableKind → List Fragment} (h : ∀ kind, seqs kind = []) : Interleaves seqs []
  /-- The first part of one kind comes first. -/
  | next {seqs : TableKind → List Fragment} {part : Fragment} {rest parts : List Fragment}
    (kind : TableKind) (h : seqs kind = part :: rest)
    (hrest : Interleaves (Function.update seqs kind rest) parts) : Interleaves seqs (part :: parts)

theorem Fragment.isOf_iff {part : Fragment} {kind : TableKind} :
    part.isOf kind = true ↔ TableKind.ofByte? part.kind = some kind := by
  rw [isOf, decide_eq_true_eq]

/-- The parts of one kind are found in a mixture in their order. -/
theorem Interleaves.filter_isOf {seqs : TableKind → List Fragment} {parts : List Fragment}
    (h : Interleaves seqs parts) (hkinds : ∀ kind, ∀ part ∈ seqs kind, part.isOf kind = true)
    (kind : TableKind) : parts.filter (·.isOf kind) = seqs kind := by
  induction h with
  | nil h => rw [h kind, List.filter_nil]
  | @next seqs part rest parts k hseq hrest ih =>
    have hpart : part.isOf k = true := hkinds k part (by simp [hseq])
    have hall : ∀ kind, ∀ p ∈ Function.update seqs k rest kind, p.isOf kind = true := by
      intro kind p hp
      by_cases hkind : kind = k
      · subst hkind
        rw [Function.update_self] at hp
        exact hkinds kind p (by simp [hseq, hp])
      · rw [Function.update_of_ne hkind] at hp
        exact hkinds kind p hp
    rw [List.filter_cons, ih hall]
    by_cases hkind : kind = k
    · subst hkind
      rw [if_pos hpart, Function.update_self, hseq]
    · -- a part is of one kind only
      have hother : part.isOf kind = false := by
        rw [Bool.eq_false_iff]
        intro hp
        rw [Fragment.isOf_iff] at hp hpart
        exact hkind (Option.some.inj (hp.symm.trans hpart))
      simp only [hother, Bool.false_eq_true, if_false, Function.update_of_ne hkind]

namespace Loading

variable {l m : Loading} {kind : TableKind} {part : Fragment}

/-- Take parts one after another. -/
def after (l : Loading) (parts : List Fragment) : Loading := parts.foldl take l

/-- The answers to the parts of a kind, with these parts. -/
def answers (l : Loading) (kind : TableKind) : List Answered :=
  l.log.filter fun a => a.part.isOf kind

/-- Two filters that are loaded are the same as far as a kind of table goes. -/
structure Follows (l m : Loading) (kind : TableKind) : Prop where
  /-- They have the same strand. -/
  strand : l.uploads.strand l.firewall kind = m.uploads.strand m.firewall kind
  /-- They gave the same answers. -/
  answers : l.answers kind = m.answers kind

theorem Follows.refl (l : Loading) (kind : TableKind) : l.Follows l kind := ⟨rfl, rfl⟩

theorem answers_take (l : Loading) (part : Fragment) (kind : TableKind) :
    (l.take part).answers kind =
      if part.isOf kind then l.answers kind ++ [⟨part, l.answer part⟩] else l.answers kind := by
  rw [answers, take, List.filter_append, answers]
  by_cases hk : part.isOf kind = true <;> simp [hk]

/-- A part of the kind keeps filters the same that are. -/
theorem Follows.take (h : l.Follows m kind) (hk : part.isOf kind = true) :
    (l.take part).Follows (m.take part) kind := by
  obtain ⟨hstrand, hanswer⟩ := Uploads.apply_congr (Fragment.isOf_iff.mp hk) h.strand
  have hanswer : l.answer part = m.answer part := hanswer
  refine ⟨hstrand, ?_⟩
  rw [answers_take, answers_take, if_pos hk, if_pos hk, h.answers, hanswer]

/-- A part of another kind does not matter. -/
theorem Follows.skip (h : l.Follows m kind) (hk : ¬ part.isOf kind = true) :
    (l.take part).Follows m kind := by
  refine ⟨?_, by rw [answers_take, if_neg hk, h.answers]⟩
  rw [← h.strand]
  cases hkind : TableKind.ofByte? part.kind with
  | none =>
    obtain ⟨hu, hf, -⟩ := take_of_unknown (l := l) hkind
    rw [hu, hf]
  | some k =>
    refine (Uploads.apply_frame hkind l.uploads l.firewall).1 kind ?_
    rintro rfl
    exact hk (Fragment.isOf_iff.mpr hkind)

/-- Whatever parts come, a kind of table goes the way that its own parts lead. -/
theorem follows_after (h : l.Follows m kind) (parts : List Fragment) :
    (l.after parts).Follows (m.after (parts.filter (·.isOf kind))) kind := by
  induction parts generalizing l m with
  | nil => exact h
  | cons part parts ih =>
    rw [List.filter_cons]
    by_cases hk : part.isOf kind = true
    · rw [if_pos hk]
      exact ih (h.take hk)
    · rw [if_neg hk]
      exact ih (h.skip hk)

/-- Parts do not count packets. -/
theorem counters_after (l : Loading) (parts : List Fragment) :
    (l.after parts).firewall.counters = l.firewall.counters := by
  induction parts generalizing l with
  | nil => rfl
  | cons part parts ih =>
    refine (ih (l.take part)).trans ?_
    cases hkind : TableKind.ofByte? part.kind with
    | none => rw [(take_of_unknown (l := l) hkind).2.1]
    | some k => exact (Uploads.apply_frame hkind l.uploads l.firewall).2

/-- Every part is answered, in its turn. -/
theorem parts_after (l : Loading) (parts : List Fragment) :
    (l.after parts).log.map (·.part) = l.log.map (·.part) ++ parts := by
  induction parts generalizing l with
  | nil => exact (List.append_nil _).symm
  | cons part parts ih =>
    refine (ih (l.take part)).trans ?_
    simp only [take, List.map_append, List.map_cons, List.map_nil, List.append_assoc,
      List.singleton_append]

/-- Whatever is collected and live, let there be a sequence of parts for each kind of table.
All mixtures of these sequences lead to the same state, of the filter and of what is
collected, and each part gets the answer that it gets if the parts of the other kinds do not
come at all. -/
theorem after_interleaves (u : Uploads) (f : Firewall) (seqs : TableKind → List Fragment)
    (hkinds : ∀ kind, ∀ part ∈ seqs kind, part.isOf kind = true) {parts parts' : List Fragment}
    (h : Interleaves seqs parts) (h' : Interleaves seqs parts') :
    let l : Loading := { uploads := u, firewall := f }
    (l.after parts).uploads = (l.after parts').uploads ∧
      (l.after parts).firewall = (l.after parts').firewall ∧
      ∀ kind, (l.after parts).answers kind = (l.after parts').answers kind ∧
        (l.after parts).answers kind = (l.after (seqs kind)).log ∧
        ((l.after parts).answers kind).map (·.part) = seqs kind := by
  intro l
  have hfollows : ∀ {w}, Interleaves seqs w → ∀ kind,
      (l.after w).Follows (l.after (seqs kind)) kind := by
    intro w hw kind
    have hfollows := follows_after (.refl l kind) w
    rwa [hw.filter_isOf hkinds kind] at hfollows
  have hlog : ∀ kind, (l.after (seqs kind)).log.map (·.part) = seqs kind := fun kind =>
    parts_after l (seqs kind)
  -- all parts of a sequence are of its kind
  have halone : ∀ kind, (l.after (seqs kind)).answers kind = (l.after (seqs kind)).log := by
    intro kind
    refine List.filter_eq_self.mpr fun a ha => hkinds kind a.part ?_
    rw [← hlog kind]
    exact List.mem_map_of_mem ha
  obtain ⟨huploads, hfirewall⟩ := eq_of_strands
    (fun kind => (hfollows h kind).strand.trans (hfollows h' kind).strand.symm)
    ((counters_after l parts).trans (counters_after l parts').symm)
  refine ⟨huploads, hfirewall, fun kind => ?_⟩
  have hanswers := (hfollows h kind).answers
  refine ⟨hanswers.trans (hfollows h' kind).answers.symm, hanswers.trans (halone kind), ?_⟩
  rw [hanswers, halone, hlog]

/-- A host table in two parts, and a reject list in one. -/
def twoTables : TableKind → List Fragment
  | .network => [⟨1, 1, 0xC0A80100, 0, [7]⟩, ⟨1, 2, 0xC0A80100, 255, [9]⟩]
  | .reject => [⟨3, 3, 0, 0, []⟩]
  | _ => []

/-- The reject list comes between the two parts of the host table, or after them. -/
theorem after_interleaves_twoTables :
    let l : Loading := { firewall := .withCapacity 512 }
    let between := l.after [⟨1, 1, 0xC0A80100, 0, [7]⟩, ⟨3, 3, 0, 0, []⟩,
      ⟨1, 2, 0xC0A80100, 255, [9]⟩]
    let last := l.after [⟨1, 1, 0xC0A80100, 0, [7]⟩, ⟨1, 2, 0xC0A80100, 255, [9]⟩,
      ⟨3, 3, 0, 0, []⟩]
    between.uploads = last.uploads ∧ between.firewall = last.firewall ∧
      between.log.map (·.result) = [.ok (), .ok (), .ok ()] ∧
      (between.firewall.lookup 0xC0A801FF).2 = 9 := by
  have hkinds : ∀ kind, ∀ part ∈ twoTables kind, part.isOf kind = true := by
    intro kind
    cases kind <;> decide
  have hnil : ∀ kind, Function.update (Function.update (Function.update twoTables .network
      [⟨1, 2, 0xC0A80100, 255, [9]⟩]) .reject []) .network [] kind = [] := by
    intro kind
    cases kind <;> rfl
  have hnil' : ∀ kind, Function.update (Function.update (Function.update twoTables .network
      [⟨1, 2, 0xC0A80100, 255, [9]⟩]) .network []) .reject [] kind = [] := by
    intro kind
    cases kind <;> rfl
  obtain ⟨huploads, hfirewall, -⟩ := after_interleaves {} (.withCapacity 512) twoTables hkinds
    (.next .network rfl (.next .reject rfl
      (.next .network rfl (.nil hnil))))
    (.next .network rfl (.next .network rfl
      (.next .reject rfl (.nil hnil'))))
  exact ⟨huploads, hfirewall, by decide +kernel, by decide +kernel⟩

end Loading

end FilterBridge
