import FilterBridge.Policy
import Mathlib.Data.List.TakeWhile

/-!
# Tables and their images

A table goes into an image and comes out of it as the image holds it: a port list up to its
first final row, a list of networks up to its first rule for network 0, and of each no more
than there is room for.  A table that came out of an image, or is a default, comes out of
its own image as it was.  Such a table is called well formed: its port lists end with a
final row or fill their 32 rows, and no rule of a list of networks is for network 0, which
would end the list.

## Main definitions

* `PortList.held`, `ClassRules.held`, `heldRules`, `Policy.held` — tables as their images
  hold them.
* `PortList.WellFormed`, `ClassRules.WellFormed`, `Policy.WellFormed` — tables that
  their images hold in full.
* `Policy.Same` — two policies agree in one table.

## Main results

* `PortList.decode_encode`, `ClassRules.decode_encode`, `decodeRules_padTo` — parts
  of tables come out of their images as these hold them.
* `Policy.install_encode_held` — so do whole tables, and well-formed ones as they were
  (`Policy.install_encode`).
* `Policy.exists_install`, `Policy.install_of_length_ne` — an image can be installed just
  when it has the right length.
* `Policy.install_spec` — what installing an image does, and that the table is then
  well formed.
-/

namespace FilterBridge

/-! ### Port lists -/

namespace PortRange

/-- Rows fill an image of `n` rows: there are as many, or a final row ends them. -/
def Fill : Nat → List PortRange → Prop
  | 0, rows => rows = []
  | _ + 1, [] => False
  | n + 1, r :: rows => if r.isFinal then rows = [] else Fill n rows

/-- The rows up to the first final one. -/
def upToFinal : List PortRange → List PortRange
  | [] => []
  | r :: rows => if r.isFinal then [r] else r :: upToFinal rows

/-- Rows that fill an image have nothing after a final one. -/
theorem upToFinal_of_fill {n : Nat} {rows : List PortRange} (h : Fill n rows) :
    upToFinal (rows ++ List.replicate (n - rows.length) final) = rows := by
  induction n generalizing rows with
  | zero => simp [show rows = [] from h, upToFinal]
  | succ n ih =>
    cases rows with
    | nil => exact h.elim
    | cons r rows =>
      unfold Fill at h
      rw [List.cons_append, upToFinal]
      split at h
      · rename_i hf
        rw [if_pos hf, h]
      · rename_i hf
        rw [if_neg hf, List.length_cons, Nat.add_sub_add_right, ih h]

end PortRange

namespace PortList

/-- The image of a list holds all of it. -/
def WellFormed (l : PortList) : Prop := PortRange.Fill maxRows l.rows

/-- A list as its image holds it: up to its first final row, and with one if there is
room. -/
def held (l : PortList) : PortList where
  rows := PortRange.upToFinal
    (l.rows.take maxRows ++ List.replicate (maxRows - l.rows.length) PortRange.final)

theorem rowsOf_encode (r : PortRange) (rest : Bytes) :
    rowsOf (r.encode ++ rest) = if r.isFinal then [r] else r :: rowsOf rest := by
  simp only [PortRange.encode, Bytes.ofU16, List.cons_append, List.nil_append, rowsOf,
    Bytes.u16_ofU16]

/-- Four bytes a row make rows that fill. -/
theorem fill_rowsOf {n : Nat} {bs : Bytes} (h : bs.length = n * 4) :
    PortRange.Fill n (rowsOf bs) := by
  induction n generalizing bs with
  | zero =>
    obtain rfl : bs = [] := List.length_eq_zero_iff.mp (by omega)
    rfl
  | succ n ih =>
    -- a row takes four bytes
    obtain ⟨a, b, c, d, rest, rfl⟩ : ∃ a b c d rest, bs = a :: b :: c :: d :: rest := by
      rcases bs with _ | ⟨a, _ | ⟨b, _ | ⟨c, _ | ⟨d, rest⟩⟩⟩⟩
      all_goals first
        | exact ⟨_, _, _, _, _, rfl⟩
        | (simp only [List.length_nil, List.length_cons] at h; omega)
    have hrest : rest.length = n * 4 := by
      simp only [List.length_cons] at h
      omega
    unfold rowsOf
    simp only
    split
    · rename_i hf
      simp [PortRange.Fill, hf]
    · rename_i hf
      simpa [PortRange.Fill, hf] using ih hrest

theorem length_le_of_fill {n : Nat} {rows : List PortRange} (h : PortRange.Fill n rows) :
    rows.length ≤ n := by
  induction n generalizing rows with
  | zero => simp [show rows = [] from h]
  | succ n ih =>
    cases rows with
    | nil => simp
    | cons r rows =>
      unfold PortRange.Fill at h
      split at h
      · simp [h]
      · have := ih h
        simp only [List.length_cons]
        omega

/-- Rows come out of an image up to the first final one. -/
theorem rowsOf_flatMap (rows : List PortRange) :
    rowsOf (rows.flatMap PortRange.encode) = PortRange.upToFinal rows := by
  induction rows with
  | nil => rfl
  | cons r rows ih => rw [List.flatMap_cons, rowsOf_encode, ih, PortRange.upToFinal]

private theorem length_flatMap_encode (rows : List PortRange) :
    (rows.flatMap PortRange.encode).length = rows.length * 4 := by
  induction rows with
  | nil => rfl
  | cons r rows ih =>
    rw [List.flatMap_cons, List.length_append, ih, PortRange.length_encode, List.length_cons]
    omega

@[simp] theorem length_encode (l : PortList) : l.encode.length = imageLen := by
  rw [encode, length_flatMap_encode, List.length_append, List.length_take, List.length_replicate]
  simp only [maxRows, imageLen]
  omega

theorem held_of_wellFormed {l : PortList} (h : l.WellFormed) : l.held = l := by
  rw [held, List.take_of_length_le (length_le_of_fill h), PortRange.upToFinal_of_fill h]

/-- A list comes out of its image as that holds it. -/
theorem decode_encode (l : PortList) (rest : Bytes) :
    decode (l.encode ++ rest) = .ok (l.held, rest) := by
  have htake : (l.encode ++ rest).take imageLen = l.encode := by
    rw [← length_encode l, List.take_left]
  have hdrop : (l.encode ++ rest).drop imageLen = rest := by
    rw [← length_encode l, List.drop_left]
  have hrows : rowsOf l.encode = l.held.rows := rowsOf_flatMap _
  unfold decode
  simp only [htake, hdrop, length_encode, Nat.lt_irrefl, if_false, hrows]

/-- Any bytes that are enough for a list spell one. -/
theorem exists_decode {bs : Bytes} (h : imageLen ≤ bs.length) :
    ∃ l, decode bs = .ok (l, bs.drop imageLen) := by
  have hlen : ¬ (bs.take imageLen).length < imageLen := by
    rw [List.length_take]
    omega
  exact ⟨_, by rw [decode, if_neg hlen]⟩

theorem wellFormed_of_decode {bs rest : Bytes} {l : PortList} (h : decode bs = .ok (l, rest)) :
    l.WellFormed := by
  unfold decode at h
  simp only at h
  split at h
  · simp at h
  · rename_i hlen
    simp only [Except.ok.injEq, Prod.mk.injEq] at h
    rw [← h.1]
    refine fill_rowsOf ?_
    have := List.length_take_le imageLen bs
    simp only [imageLen, maxRows] at hlen this ⊢
    omega

theorem wellFormed_allowAll : allowAll.WellFormed := by
  simp [WellFormed, allowAll, ofRanges, maxRows, PortRange.Fill, PortRange.isFinal,
    PortRange.final]

end PortList

/-! ### Classes -/

namespace ClassRules

/-- All four lists are well formed. -/
structure WellFormed (c : ClassRules) : Prop where
  /-- The inbound list is. -/
  inbound : c.inbound.WellFormed
  /-- The outbound list is. -/
  outbound : c.outbound.WellFormed
  /-- The list of source ports is. -/
  source : c.source.WellFormed
  /-- The list for UDP is. -/
  udp : c.udp.WellFormed

theorem wellFormed_default : ({} : ClassRules).WellFormed :=
  ⟨PortList.wellFormed_allowAll, PortList.wellFormed_allowAll, PortList.wellFormed_allowAll,
    PortList.wellFormed_allowAll⟩

@[simp] theorem length_encode (c : ClassRules) : c.encode.length = imageLen := by
  simp [encode, PortList.imageLen, imageLen]

/-- A class as its image holds it. -/
def held (c : ClassRules) : ClassRules where
  inbound := c.inbound.held
  outbound := c.outbound.held
  source := c.source.held
  udp := c.udp.held

theorem held_of_wellFormed {c : ClassRules} (h : c.WellFormed) : c.held = c := by
  rw [held, PortList.held_of_wellFormed h.inbound, PortList.held_of_wellFormed h.outbound,
    PortList.held_of_wellFormed h.source, PortList.held_of_wellFormed h.udp]

/-- A class comes out of its image as that holds it. -/
theorem decode_encode (c : ClassRules) (rest : Bytes) :
    decode (c.encode ++ rest) = .ok (c.held, rest) := by
  simp only [decode, encode, List.append_assoc, PortList.decode_encode, bind, Except.bind, pure,
    Except.pure, held]

/-- Any bytes that are enough for a class spell one. -/
theorem exists_decode {bs : Bytes} (h : imageLen ≤ bs.length) :
    ∃ c, decode bs = .ok (c, bs.drop imageLen) := by
  have hroom : ∀ k, k ≤ 3 → PortList.imageLen ≤ (bs.drop (k * PortList.imageLen)).length := by
    intro k hk
    simp only [List.length_drop, PortList.imageLen, imageLen] at h ⊢
    omega
  obtain ⟨l₁, h₁⟩ := PortList.exists_decode (hroom 0 (by decide))
  obtain ⟨l₂, h₂⟩ := PortList.exists_decode (hroom 1 (by decide))
  obtain ⟨l₃, h₃⟩ := PortList.exists_decode (hroom 2 (by decide))
  obtain ⟨l₄, h₄⟩ := PortList.exists_decode (hroom 3 (by decide))
  simp only [List.drop_drop, PortList.imageLen, Nat.zero_mul, List.drop_zero] at h₁ h₂ h₃ h₄
  refine ⟨⟨l₁, l₂, l₃, l₄⟩, ?_⟩
  simp only [decode, h₁, h₂, h₃, h₄, bind, Except.bind, pure, Except.pure, imageLen]

theorem wellFormed_of_decode {bs rest : Bytes} {c : ClassRules} (h : decode bs = .ok (c, rest)) :
    c.WellFormed := by
  simp only [decode, bind, Except.bind, pure, Except.pure] at h
  cases h₁ : PortList.decode bs with
  | error e => simp [h₁] at h
  | ok r₁ =>
    simp only [h₁] at h
    cases h₂ : PortList.decode r₁.2 with
    | error e => simp [h₂] at h
    | ok r₂ =>
      simp only [h₂] at h
      cases h₃ : PortList.decode r₂.2 with
      | error e => simp [h₃] at h
      | ok r₃ =>
        simp only [h₃] at h
        cases h₄ : PortList.decode r₃.2 with
        | error e => simp [h₄] at h
        | ok r₄ =>
          simp only [h₄, Except.ok.injEq, Prod.mk.injEq] at h
          rw [← h.1]
          exact ⟨PortList.wellFormed_of_decode h₁, PortList.wellFormed_of_decode h₂,
            PortList.wellFormed_of_decode h₃, PortList.wellFormed_of_decode h₄⟩

theorem wellFormed_of_ofImage {image : Bytes} {c : ClassRules} (h : ofImage image = .ok c) :
    c.WellFormed := by
  simp only [ofImage, bind, Except.bind, pure, Except.pure] at h
  cases hc : checkImage "class" image imageLen with
  | error e => simp [hc] at h
  | ok u =>
    simp only [hc] at h
    cases hd : decode image with
    | error e => simp [hd] at h
    | ok r =>
      simp only [hd, Except.ok.injEq] at h
      rw [← h]
      exact wellFormed_of_decode hd

end ClassRules

namespace Policy

/-- Classes come out of their image as that holds them. -/
theorem decodeClasses_flatMap {n : Nat} {cs : List ClassRules} (hn : cs.length = n) :
    ∃ v : Vector ClassRules n, decodeClasses n (cs.flatMap ClassRules.encode) = .ok v ∧
      v.toList = cs.map ClassRules.held := by
  induction n generalizing cs with
  | zero =>
    obtain rfl := List.length_eq_zero_iff.mp hn
    exact ⟨#v[], rfl, rfl⟩
  | succ n ih =>
    cases cs with
    | nil => simp at hn
    | cons c cs =>
      obtain ⟨v, hv, hlist⟩ := ih (by simpa using hn)
      refine ⟨(#v[c.held] ++ v).cast (Nat.add_comm 1 n), ?_, ?_⟩
      · rw [List.flatMap_cons, decodeClasses]
        simp only [ClassRules.decode_encode, hv, bind, Except.bind, pure, Except.pure]
      · rw [Vector.toList_cast, Vector.toList_append, hlist]
        rfl

/-- Any bytes that are enough for some classes spell them. -/
theorem exists_decodeClasses {n : Nat} {bs : Bytes} (h : n * ClassRules.imageLen ≤ bs.length) :
    ∃ v, decodeClasses n bs = .ok v := by
  induction n generalizing bs with
  | zero => exact ⟨#v[], rfl⟩
  | succ n ih =>
    rw [Nat.succ_mul] at h
    have hclass : ClassRules.imageLen ≤ bs.length := by omega
    have hrest : n * ClassRules.imageLen ≤ (bs.drop ClassRules.imageLen).length := by
      rw [List.length_drop]
      omega
    obtain ⟨c, hc⟩ := ClassRules.exists_decode hclass
    obtain ⟨v, hv⟩ := ih hrest
    refine ⟨(#v[c] ++ v).cast (Nat.add_comm 1 n), ?_⟩
    simp only [decodeClasses, hc, hv, bind, Except.bind, pure, Except.pure]

theorem wellFormed_of_decodeClasses {n : Nat} {bs : Bytes} {v : Vector ClassRules n}
    (h : decodeClasses n bs = .ok v) : ∀ c ∈ v.toList, c.WellFormed := by
  induction n generalizing bs with
  | zero =>
    obtain rfl : v = #v[] := by ext i hi; omega
    simp
  | succ n ih =>
    simp only [decodeClasses, bind, Except.bind, pure, Except.pure] at h
    cases hd : ClassRules.decode bs with
    | error e => simp [hd] at h
    | ok r =>
      simp only [hd] at h
      cases hr : decodeClasses n r.2 with
      | error e => simp [hr] at h
      | ok w =>
        simp only [hr, Except.ok.injEq] at h
        subst h
        intro c hc
        simp only [Vector.toList_cast, Vector.toList_append, List.mem_append] at hc
        rcases hc with hc | hc
        · have hcr : c = r.1 := by simpa using hc
          rw [hcr]
          exact ClassRules.wellFormed_of_decode hd
        · exact ih hr c hc

end Policy

/-! ### Lists of rules -/

theorem checkImage_of_length {table : String} {image : Bytes} {n : Nat} (h : image.length = n) :
    checkImage table image n = .ok () := if_pos h

theorem checkImage_of_length_ne (table : String) {image : Bytes} {n : Nat}
    (h : image.length ≠ n) :
    checkImage table image n = .error (.imageLength table image.length n) := if_neg h

section Rules

variable {α : Type} {subnet : α → Subnet} {encode : α → Bytes}
  {decode : Bytes → Except TableFault (α × Bytes)} {width : Nat}

/-- The rules that an image for `n` of them holds: those before the first for network 0. -/
def heldRules (subnet : α → Subnet) (n : Nat) (rules : List α) : List α :=
  (rules.take n).takeWhile fun r => (subnet r).network ≠ 0

theorem heldRules_eq_self {n : Nat} {rules : List α} (hn : rules.length ≤ n)
    (h : ∀ r ∈ rules, (subnet r).network ≠ 0) : heldRules subnet n rules = rules := by
  rw [heldRules, List.take_of_length_le hn, List.takeWhile_eq_self_iff]
  intro r hr
  exact decide_eq_true (h r hr)

/-- Rules come out of their image up to the first for network 0. -/
theorem decodeRules_flatMap {held : α → α}
    (hdecode : ∀ r rest, decode (encode r ++ rest) = .ok (held r, rest))
    (hheld : ∀ r, subnet (held r) = subnet r) (rules : List α) :
    decodeRules subnet decode rules.length (rules.flatMap encode) =
      .ok ((rules.takeWhile fun r => (subnet r).network ≠ 0).map held) := by
  induction rules with
  | nil => rfl
  | cons r rules ih =>
    rw [List.flatMap_cons, List.length_cons, decodeRules, List.takeWhile_cons]
    simp only [hdecode, hheld, ih, bind, Except.bind, pure, Except.pure]
    by_cases hnet : (subnet r).network = 0 <;> simp [hnet]

/-- The zeros that fill up an image are rules of zeros. -/
theorem padTo_flatMap {zero : α} (hwidth : ∀ r, (encode r).length = width)
    (hzero : encode zero = Bytes.zeros width) (n : Nat) (rules : List α) :
    Bytes.padTo (width * n) ((rules.take n).flatMap encode) =
      (rules.take n ++ List.replicate (n - rules.length) zero).flatMap encode := by
  have hlen : ∀ rules : List α, (rules.flatMap encode).length = width * rules.length := by
    intro rules
    induction rules with
    | nil => rfl
    | cons r rules ih =>
      rw [List.flatMap_cons, List.length_append, ih, hwidth, List.length_cons, Nat.mul_succ,
        Nat.add_comm]
  have hzeros : ∀ k, (List.replicate k zero).flatMap encode = Bytes.zeros (width * k) := by
    intro k
    induction k with
    | zero => rfl
    | succ k ih =>
      rw [List.replicate_succ, List.flatMap_cons, ih, hzero, Bytes.zeros, Bytes.zeros, Bytes.zeros,
        List.replicate_append_replicate, Nat.mul_succ, Nat.add_comm]
  have hroom : n - (rules.take n).length = n - rules.length := by
    rw [List.length_take]
    omega
  rw [List.flatMap_append, hzeros, Bytes.padTo, hlen, ← Nat.mul_sub, hroom, List.take_of_length_le]
  rw [hlen]
  exact Nat.mul_le_mul_left width (List.length_take_le _ _)

/-- Rules come out of an image for `n` of them as that holds them. -/
theorem decodeRules_padTo {zero : α} {held : α → α}
    (hdecode : ∀ r rest, decode (encode r ++ rest) = .ok (held r, rest))
    (hheld : ∀ r, subnet (held r) = subnet r) (hwidth : ∀ r, (encode r).length = width)
    (hzero : encode zero = Bytes.zeros width) (hnet : (subnet zero).network = 0) (n : Nat)
    (rules : List α) :
    decodeRules subnet decode n (Bytes.padTo (width * n) ((rules.take n).flatMap encode)) =
      .ok ((heldRules subnet n rules).map held) := by
  have hlen : (rules.take n ++ List.replicate (n - rules.length) zero).length = n := by
    rw [List.length_append, List.length_take, List.length_replicate]
    omega
  have htake : ∀ rules : List α, ∀ k,
      ((rules ++ List.replicate k zero).takeWhile fun r => (subnet r).network ≠ 0) =
        rules.takeWhile fun r => (subnet r).network ≠ 0 := by
    intro rules k
    induction rules with
    | nil => cases k <;> simp [List.replicate_succ, hnet]
    | cons r rules ih => rw [List.cons_append, List.takeWhile_cons, List.takeWhile_cons, ih]
  have hread := decodeRules_flatMap hdecode hheld
    (rules.take n ++ List.replicate (n - rules.length) zero)
  rwa [hlen, htake, ← padTo_flatMap hwidth hzero n rules] at hread

/-- Any bytes that are enough for some rules spell a list of rules. -/
theorem exists_decodeRules (subnet : α → Subnet)
    (hdecode : ∀ bs, width ≤ bs.length → ∃ r, decode bs = .ok (r, bs.drop width)) {n : Nat}
    {bs : Bytes} (h : width * n ≤ bs.length) :
    ∃ rules, decodeRules subnet decode n bs = .ok rules := by
  induction n generalizing bs with
  | zero => exact ⟨[], rfl⟩
  | succ n ih =>
    rw [Nat.mul_succ] at h
    have hrest : width * n ≤ (bs.drop width).length := by
      rw [List.length_drop]
      omega
    obtain ⟨r, hr⟩ := hdecode bs (by omega)
    obtain ⟨rules, hrules⟩ := ih hrest
    by_cases hnet : (subnet r).network = 0
    · refine ⟨[], ?_⟩
      simp only [decodeRules, hr, hnet, bind, Except.bind, if_true, pure, Except.pure]
    · refine ⟨r :: rules, ?_⟩
      simp only [decodeRules, hr, hnet, hrules, bind, Except.bind, if_false, pure, Except.pure]

/-- Rules that came out of an image are good, and no more than it holds. -/
theorem good_of_decodeRules (good : α → Prop)
    (hgood : ∀ bs r rest, decode bs = .ok (r, rest) → good r) {n : Nat}
    {bs : Bytes} {rules : List α} (h : decodeRules subnet decode n bs = .ok rules) :
    rules.length ≤ n ∧ ∀ r ∈ rules, (subnet r).network ≠ 0 ∧ good r := by
  induction n generalizing bs rules with
  | zero =>
    simp only [decodeRules, Except.ok.injEq] at h
    subst h
    simp
  | succ n ih =>
    simp only [decodeRules, bind, Except.bind, pure, Except.pure] at h
    cases hd : decode bs with
    | error e => simp [hd] at h
    | ok s =>
      simp only [hd] at h
      split at h
      · simp only [Except.ok.injEq] at h
        subst h
        simp
      · rename_i hnet
        cases hr : decodeRules subnet decode n s.2 with
        | error e => simp [hr] at h
        | ok rest =>
          simp only [hr, Except.ok.injEq] at h
          subst h
          obtain ⟨hlen, hrest⟩ := ih hr
          refine ⟨by simpa using hlen, fun r hmem => ?_⟩
          rcases List.mem_cons.mp hmem with rfl | hmem
          · exact ⟨hnet, hgood bs s.1 s.2 hd⟩
          · exact hrest r hmem

end Rules

/-- No rule of an allow list is lost in its image. -/
def allowRulesWellFormed (rules : List AllowRule) : Prop :=
  rules.length ≤ maxAllowRules ∧ ∀ r ∈ rules, r.subnet.network ≠ 0 ∧ r.ports.WellFormed

/-- No rule of a reject list is lost in its image. -/
def rejectRulesWellFormed (rules : List Subnet) : Prop :=
  rules.length ≤ maxRejectRules ∧ ∀ r ∈ rules, r.network ≠ 0

theorem AllowRule.length_encode (r : AllowRule) : r.encode.length = 136 := by
  simp [AllowRule.encode, PortList.imageLen]

/-- An allow rule as its image holds it. -/
def AllowRule.held (r : AllowRule) : AllowRule where
  subnet := r.subnet
  ports := r.ports.held

theorem AllowRule.decode_encode (r : AllowRule) (rest : Bytes) :
    AllowRule.decode (r.encode ++ rest) = .ok (r.held, rest) := by
  have hlen : ((r.encode ++ rest).take AllowRule.imageLen).length = AllowRule.imageLen := by
    rw [List.length_take, List.length_append, AllowRule.length_encode, AllowRule.imageLen]
    omega
  unfold AllowRule.decode
  rw [hlen, if_neg (Nat.lt_irrefl _), AllowRule.encode, List.append_assoc, Subnet.decode?_encode]
  simp only [PortList.decode_encode, bind, Except.bind, pure, Except.pure, held]

theorem Subnet.exists_decode? {bs : Bytes} (h : imageLen ≤ bs.length) :
    ∃ s, decode? bs = some (s, bs.drop imageLen) := by
  match bs, h with
  | a :: b :: c :: d :: e :: f :: g :: h :: rest, _ => exact ⟨_, rfl⟩

theorem AllowRule.exists_decode (bs : Bytes) (h : imageLen ≤ bs.length) :
    ∃ r, AllowRule.decode bs = .ok (r, bs.drop imageLen) := by
  have hlen : ¬ (bs.take imageLen).length < imageLen := by
    rw [List.length_take]
    omega
  have hsubnet : Subnet.imageLen ≤ bs.length := Nat.le_trans (by decide) h
  have hports : PortList.imageLen ≤ (bs.drop Subnet.imageLen).length := by
    simp only [List.length_drop, PortList.imageLen, Subnet.imageLen, imageLen] at h ⊢
    omega
  obtain ⟨s, hs⟩ := Subnet.exists_decode? hsubnet
  obtain ⟨l, hl⟩ := PortList.exists_decode hports
  refine ⟨⟨s, l⟩, ?_⟩
  unfold AllowRule.decode
  rw [if_neg hlen, hs]
  simp only [hl, bind, Except.bind, pure, Except.pure, List.drop_drop]
  rfl

theorem AllowRule.wellFormed_of_decode (bs : Bytes) (r : AllowRule) (rest : Bytes)
    (h : AllowRule.decode bs = .ok (r, rest)) : r.ports.WellFormed := by
  unfold AllowRule.decode at h
  split at h
  · simp at h
  · split at h
    · simp at h
    · rename_i subnet bs' hd
      simp only [bind, Except.bind, pure, Except.pure] at h
      cases hp : PortList.decode bs' with
      | error e => simp [hp] at h
      | ok p =>
        simp only [hp, Except.ok.injEq, Prod.mk.injEq] at h
        rw [← h.1]
        exact PortList.wellFormed_of_decode hp

/-- A reject list as its image holds it. -/
def heldRejectRules (rules : List Subnet) : List Subnet := heldRules id maxRejectRules rules

/-- An allow list as its image holds it. -/
def heldAllowRules (rules : List AllowRule) : List AllowRule :=
  (heldRules (·.subnet) maxAllowRules rules).map AllowRule.held

theorem heldRejectRules_of_wellFormed {rules : List Subnet} (h : rejectRulesWellFormed rules) :
    heldRejectRules rules = rules := heldRules_eq_self h.1 h.2

theorem heldAllowRules_of_wellFormed {rules : List AllowRule} (h : allowRulesWellFormed rules) :
    heldAllowRules rules = rules := by
  have hrules : heldRules (·.subnet) maxAllowRules rules = rules :=
    heldRules_eq_self h.1 fun r hr => (h.2 r hr).1
  have hheld : ∀ r ∈ rules, r.held = id r := by
    intro r hr
    rw [AllowRule.held, PortList.held_of_wellFormed (h.2 r hr).2]
    rfl
  rw [heldAllowRules, hrules, List.map_congr_left hheld, List.map_id]

theorem rejectRules_encode (rules : List Subnet) :
    rejectRulesOfImage (encodeRejectRules rules) = .ok (heldRejectRules rules) := by
  have hlen : (encodeRejectRules rules).length = rejectImageLen := Bytes.length_padTo ..
  have hread : decodeRules id Subnet.decode maxRejectRules (encodeRejectRules rules) =
      .ok ((heldRules id maxRejectRules rules).map id) := by
    have hzero : Subnet.encode ⟨0, 0⟩ = Bytes.zeros 8 := rfl
    have hdecode : ∀ (r : Subnet) (rest : Bytes), Subnet.decode (r.encode ++ rest) =
        .ok (id r, rest) := by
      intro r rest
      rw [Subnet.decode, Subnet.decode?_encode]
      rfl
    exact decodeRules_padTo hdecode (fun _ => rfl) Subnet.length_encode hzero rfl maxRejectRules
      rules
  rw [List.map_id] at hread
  simp only [rejectRulesOfImage, checkImage_of_length hlen, bind, Except.bind, hread,
    heldRejectRules]

theorem allowRules_encode (rules : List AllowRule) :
    allowRulesOfImage (encodeAllowRules rules) = .ok (heldAllowRules rules) := by
  have hlen : (encodeAllowRules rules).length = allowImageLen := Bytes.length_padTo ..
  have hzero : AllowRule.encode ⟨⟨0, 0⟩, .denyAll⟩ = Bytes.zeros 136 := by decide
  have hread : decodeRules (·.subnet) AllowRule.decode maxAllowRules (encodeAllowRules rules) =
      .ok (heldAllowRules rules) :=
    decodeRules_padTo AllowRule.decode_encode (fun _ => rfl) AllowRule.length_encode hzero rfl
      maxAllowRules rules
  simp only [allowRulesOfImage, checkImage_of_length hlen, bind, Except.bind, hread]

/-- Any bytes of the right length spell a reject list. -/
theorem exists_rejectRules {image : Bytes} (h : image.length = rejectImageLen) :
    ∃ rules, rejectRulesOfImage image = .ok rules := by
  have hdecode : ∀ bs, 8 ≤ bs.length → ∃ r, Subnet.decode bs = .ok (r, bs.drop 8) := by
    intro bs hbs
    obtain ⟨s, hs⟩ := Subnet.exists_decode? hbs
    exact ⟨s, by rw [Subnet.decode, hs]; rfl⟩
  have hlen : 8 * maxRejectRules ≤ image.length := Nat.le_of_eq h.symm
  obtain ⟨rules, hrules⟩ := exists_decodeRules id hdecode hlen
  refine ⟨rules, ?_⟩
  simp only [rejectRulesOfImage, checkImage_of_length h, bind, Except.bind, hrules]

/-- Any bytes of the right length spell an allow list. -/
theorem exists_allowRules {image : Bytes} (h : image.length = allowImageLen) :
    ∃ rules, allowRulesOfImage image = .ok rules := by
  have hlen : AllowRule.imageLen * maxAllowRules ≤ image.length := Nat.le_of_eq h.symm
  obtain ⟨rules, hrules⟩ := exists_decodeRules (·.subnet) AllowRule.exists_decode hlen
  refine ⟨rules, ?_⟩
  simp only [allowRulesOfImage, checkImage_of_length h, bind, Except.bind, hrules]

theorem rejectRules_wellFormed {image : Bytes} {rules : List Subnet}
    (h : rejectRulesOfImage image = .ok rules) : rejectRulesWellFormed rules := by
  simp only [rejectRulesOfImage, bind, Except.bind] at h
  cases hc : checkImage "reject" image rejectImageLen with
  | error e => simp [hc] at h
  | ok u =>
    simp only [hc] at h
    obtain ⟨hlen, hgood⟩ := good_of_decodeRules (fun _ => True) (fun _ _ _ _ => trivial) h
    exact ⟨hlen, fun r hr => (hgood r hr).1⟩

theorem allowRules_wellFormed {image : Bytes} {rules : List AllowRule}
    (h : allowRulesOfImage image = .ok rules) : allowRulesWellFormed rules := by
  simp only [allowRulesOfImage, bind, Except.bind] at h
  cases hc : checkImage "allow" image allowImageLen with
  | error e => simp [hc] at h
  | ok u =>
    simp only [hc] at h
    exact good_of_decodeRules (·.ports.WellFormed) AllowRule.wellFormed_of_decode h

/-! ### Whole tables -/

namespace Table

/-- The length of the image of a table. -/
def imageLen : Table → Nat
  | reject => rejectImageLen
  | allow => allowImageLen
  | classes => classesImageLen

/-- What a table is called where its image is refused. -/
def imageName : Table → String
  | reject => "reject"
  | allow => "allow"
  | classes => "class"

end Table

namespace Policy

variable {p p' q : Policy} {t : Table} {image : Bytes}

/-- No part of a table is lost in its image. -/
structure WellFormed (p : Policy) : Prop where
  /-- The classes are well formed. -/
  classes : ∀ c ∈ p.classes.toList, c.WellFormed
  /-- The allow list is. -/
  allow : allowRulesWellFormed p.allow
  /-- The reject list is. -/
  reject : rejectRulesWellFormed p.reject

theorem wellFormed_default : ({} : Policy).WellFormed where
  classes := by
    intro c hc
    simp only [Vector.toList_replicate, List.mem_replicate] at hc
    rw [hc.2]
    exact ClassRules.wellFormed_default
  allow := ⟨Nat.zero_le _, by simp⟩
  reject := ⟨Nat.zero_le _, by simp⟩

/-- Two policies have the same table. -/
def Same (t : Table) (p q : Policy) : Prop :=
  match t with
  | .reject => p.reject = q.reject
  | .allow => p.allow = q.allow
  | .classes => p.classes = q.classes

theorem Same.refl (t : Table) (p : Policy) : Same t p p := by cases t <;> rfl

theorem Same.symm (h : Same t p q) : Same t q p := by
  cases t <;> exact Eq.symm h

theorem Same.trans {r : Policy} (h : Same t p q) (h' : Same t q r) : Same t p r := by
  cases t <;> exact Eq.trans h h'

/-- A policy is its tables with their flags. -/
theorem eq_of_same (hs : ∀ t, Same t p q) (hd : ∀ t, p.isDirty t = q.isDirty t) : p = q := by
  obtain ⟨classes, allow, reject, d₁, d₂, d₃⟩ := p
  rw [mk.injEq]
  exact ⟨hs .classes, hs .allow, hs .reject, hd .classes, hd .allow, hd .reject⟩

/-- Installing an image replaces one table, which then is well formed and counts as
persisted; the new table does not depend on the old ones. -/
theorem install_spec (h : p.install image t = .ok p') :
    p'.isDirty t = false ∧ (∀ u, u ≠ t → Same u p' p ∧ p'.isDirty u = p.isDirty u) ∧
      (p.WellFormed → p'.WellFormed) ∧
      ∀ q : Policy, ∃ q', q.install image t = .ok q' ∧ Same t q' p' := by
  cases t with
  | reject =>
    simp only [install, bind, Except.bind, pure, Except.pure] at h
    cases hd : rejectRulesOfImage image with
    | error e => simp [hd] at h
    | ok rules =>
      simp only [hd, Except.ok.injEq] at h
      subst h
      refine ⟨rfl, fun u hu => ?_, fun hp => ⟨hp.classes, hp.allow, rejectRules_wellFormed hd⟩,
        fun q => ⟨{ q with reject := rules, rejectDirty := false }, ?_, rfl⟩⟩
      · cases u <;> first | exact absurd rfl hu | exact ⟨rfl, rfl⟩
      · simp only [install, hd, bind, Except.bind, pure, Except.pure]
  | allow =>
    simp only [install, bind, Except.bind, pure, Except.pure] at h
    cases hd : allowRulesOfImage image with
    | error e => simp [hd] at h
    | ok rules =>
      simp only [hd, Except.ok.injEq] at h
      subst h
      refine ⟨rfl, fun u hu => ?_, fun hp => ⟨hp.classes, allowRules_wellFormed hd, hp.reject⟩,
        fun q => ⟨{ q with allow := rules, allowDirty := false }, ?_, rfl⟩⟩
      · cases u <;> first | exact absurd rfl hu | exact ⟨rfl, rfl⟩
      · simp only [install, hd, bind, Except.bind, pure, Except.pure]
  | classes =>
    simp only [install, bind, Except.bind, pure, Except.pure] at h
    cases hc : checkImage "class" image classesImageLen with
    | error e => simp [hc] at h
    | ok _ =>
      simp only [hc] at h
      cases hd : decodeClasses 256 image with
      | error e => simp [hd] at h
      | ok classes =>
        simp only [hd, Except.ok.injEq] at h
        subst h
        refine ⟨rfl, fun u hu => ?_,
          fun hp => ⟨wellFormed_of_decodeClasses hd, hp.allow, hp.reject⟩,
          fun q => ⟨{ q with classes, classesDirty := false }, ?_, rfl⟩⟩
        · cases u <;> first | exact absurd rfl hu | exact ⟨rfl, rfl⟩
        · simp only [install, hc, hd, bind, Except.bind, pure, Except.pure]

/-- A policy whose tables are as their images hold them. -/
def held (p : Policy) : Policy :=
  { p with
    classes := p.classes.map ClassRules.held
    allow := heldAllowRules p.allow
    reject := heldRejectRules p.reject }

theorem held_of_wellFormed (h : p.WellFormed) : p.held = p := by
  have hclasses : p.classes.map ClassRules.held = p.classes := by
    have hheld : ∀ c ∈ p.classes.toList, c.held = id c := by
      intro c hc
      exact ClassRules.held_of_wellFormed (h.classes c hc)
    apply Vector.toList_inj.mp
    rw [Vector.toList_map, List.map_congr_left hheld, List.map_id]
  rw [held, hclasses, heldAllowRules_of_wellFormed h.allow, heldRejectRules_of_wellFormed h.reject]

/-- The image of a table has the length that is expected. -/
@[simp] theorem length_encode (p : Policy) (t : Table) : (p.encode t).length = t.imageLen := by
  cases t with
  | reject => exact Bytes.length_padTo ..
  | allow => exact Bytes.length_padTo ..
  | classes =>
    have hsum : ∀ cs : List ClassRules, (cs.flatMap ClassRules.encode).length =
        cs.length * 512 := by
      intro cs
      induction cs with
      | nil => rfl
      | cons c cs ih =>
        rw [List.flatMap_cons, List.length_append, ih, ClassRules.length_encode,
          List.length_cons, ClassRules.imageLen]
        omega
    rw [encode, hsum, Vector.length_toList]
    rfl

/-- A table comes out of its image as that holds it. -/
theorem install_encode_held (p : Policy) (t : Table) (q : Policy) :
    ∃ q', q.install (p.encode t) t = .ok q' ∧ Same t q' p.held := by
  cases t with
  | reject =>
    refine ⟨{ q with reject := heldRejectRules p.reject, rejectDirty := false }, ?_, rfl⟩
    simp only [install, encode, rejectRules_encode, bind, Except.bind, pure, Except.pure]
  | allow =>
    refine ⟨{ q with allow := heldAllowRules p.allow, allowDirty := false }, ?_, rfl⟩
    simp only [install, encode, allowRules_encode, bind, Except.bind, pure, Except.pure]
  | classes =>
    have hcount : p.classes.toList.length = 256 := Vector.length_toList ..
    obtain ⟨v, hv, hlist⟩ := decodeClasses_flatMap hcount
    have heq : v = p.classes.map ClassRules.held := by
      apply Vector.toList_inj.mp
      rw [hlist, Vector.toList_map]
    have hlen : (p.encode .classes).length = classesImageLen := length_encode p .classes
    refine ⟨{ q with classes := p.classes.map ClassRules.held, classesDirty := false }, ?_, rfl⟩
    rw [install, checkImage, if_pos hlen]
    simp only [encode, hv, heq, bind, Except.bind, pure, Except.pure]

/-- A well-formed table comes out of its image as it was. -/
theorem install_encode (h : p.WellFormed) (t : Table) (q : Policy) :
    ∃ q', q.install (p.encode t) t = .ok q' ∧ Same t q' p := by
  have hinstall := p.install_encode_held t q
  rwa [held_of_wellFormed h] at hinstall

/-- Any image of the right length can be installed. -/
theorem exists_install (h : image.length = t.imageLen) (p : Policy) :
    ∃ p', p.install image t = .ok p' := by
  cases t with
  | reject =>
    obtain ⟨rules, hr⟩ := exists_rejectRules h
    refine ⟨{ p with reject := rules, rejectDirty := false }, ?_⟩
    simp only [install, hr, bind, Except.bind, pure, Except.pure]
  | allow =>
    obtain ⟨rules, hr⟩ := exists_allowRules h
    refine ⟨{ p with allow := rules, allowDirty := false }, ?_⟩
    simp only [install, hr, bind, Except.bind, pure, Except.pure]
  | classes =>
    have hclasses : image.length = classesImageLen := h
    have hlen : 256 * ClassRules.imageLen ≤ image.length := Nat.le_of_eq h.symm
    obtain ⟨v, hv⟩ := exists_decodeClasses hlen
    refine ⟨{ p with classes := v, classesDirty := false }, ?_⟩
    simp only [install, checkImage_of_length hclasses, hv, bind, Except.bind, pure, Except.pure]

/-- An image of any other length is refused. -/
theorem install_of_length_ne (h : image.length ≠ t.imageLen) (p : Policy) :
    p.install image t = .error (.imageLength t.imageName image.length t.imageLen) := by
  have hcheck := checkImage_of_length_ne t.imageName h
  cases t <;> simp only [Table.imageName, Table.imageLen] at hcheck ⊢
  · simp only [install, rejectRulesOfImage, hcheck, bind, Except.bind]
  · simp only [install, allowRulesOfImage, hcheck, bind, Except.bind]
  · simp only [install, hcheck, bind, Except.bind]

end Policy

end FilterBridge
