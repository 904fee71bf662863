import FilterBridge.Upload
import FilterBridge.Proofs.ClassifierRuns
import Mathlib.Logic.Function.Basic

/-!
# What a part does

A part of a table is taken in one of three ways: it is refused, and the loading of
its kind is over; it is kept in what is collected of its kind; or it makes what is
collected live.  In none of them does anything else change.

## Main definitions

* `LiveTables`, `LiveTables.commit` — the tables that are live, and what they are
  when an image has been made live.
* `Uploads.collected` — what is collected of each kind.
* `Taken` — the three ways in which a part is taken.

## Main results

* `Uploads.apply_taken` — a part of a known kind is taken in one of these ways.
* `Taken.of_none` — a part that does not begin is refused when nothing is collected.
* `Uploads.apply_of_unknown` — a part of an unknown kind changes nothing.
-/

namespace FilterBridge

/-! ### Live tables -/

/-- The tables that are live, with their flags. -/
structure LiveTables where
  /-- The policy. -/
  policy : Policy
  /-- The host tables, each with its flag. -/
  hosts : Address → Option (Bytes × Bool)

/-- What a function is mapped over comes out only if something was there. -/
theorem exists_of_map_eq_ok {ε α β : Type} {f : α → β} {r : Except ε α} {b : β}
    (h : r.map f = .ok b) : ∃ a, r = .ok a ∧ f a = b := by
  cases r with
  | error e => cases h
  | ok a => exact ⟨a, rfl, Except.ok.inj h⟩

/-- The live tables of a filter. -/
def Firewall.live (f : Firewall) : LiveTables := ⟨f.policy, f.classifier.loaded?⟩

/-- The live tables when an image has been made live: one table is another one, and
counts as changed. -/
def LiveTables.commit (l : LiveTables) (kind : TableKind) (index : UInt32) (image : Bytes) :
    Except TableFault LiveTables :=
  match kind with
  | .network => .ok ⟨l.policy, Function.update l.hosts index (some (image, true))⟩
  | .classRules =>
    (ClassRules.ofImage image).map fun rules =>
      ⟨{ l.policy with
        classes := l.policy.classes.setIfInBounds index.toNat rules
        classesDirty := true }, l.hosts⟩
  | .reject =>
    (rejectRulesOfImage image).map fun rules =>
      ⟨{ l.policy with reject := rules, rejectDirty := true }, l.hosts⟩
  | .allow =>
    (allowRulesOfImage image).map fun rules =>
      ⟨{ l.policy with allow := rules, allowDirty := true }, l.hosts⟩

namespace TableKind

/-- The length of the image of a table; `none` if there is no such table. -/
def tableLen? (kind : TableKind) (index : UInt32) : Option Nat :=
  match kind with
  | .network => if Uploads.loadable index then Address.tableLen? index else none
  | .classRules => if index.toNat < 256 then some ClassRules.imageLen else none
  | .reject => some rejectImageLen
  | .allow => some allowImageLen

/-- The index by which the tables of a kind are told apart; the lists have none. -/
def key (kind : TableKind) (index : UInt32) : UInt32 :=
  match kind with
  | .network | .classRules => index
  | .reject | .allow => 0

theorem tableLen?_key (kind : TableKind) (index : UInt32) :
    kind.tableLen? (kind.key index) = kind.tableLen? index := by
  cases kind <;> rfl

end TableKind

/-! ### What is collected -/

/-- What is collected of each kind: the index of a table and its image so far. -/
abbrev Collected := TableKind → Option (UInt32 × Bytes)

/-- The image that a part makes of what is collected: it is put into zeros if it
begins, and else into what is collected under its index. -/
def Collected.put? (s : Collected) (kind : TableKind) (part : Fragment) : Option Bytes :=
  (if part.isBegin then (kind.tableLen? part.index).map Bytes.zeros
    else ((s kind).filter (·.1 = kind.key part.index)).map (·.2)).bind fun image =>
  if part.offset.toNat + part.data.length ≤ image.length
  then some (image.overlay part.offset.toNat part.data) else none

/-- A part that does not begin is put nowhere when nothing is collected. -/
theorem Collected.put?_eq_none {s : Collected} {kind : TableKind} {part : Fragment}
    (hbegin : part.isBegin = false) (hs : s kind = none) : s.put? kind part = none := by
  rw [put?, hbegin, if_neg Bool.false_ne_true, hs]
  rfl

/-- How a part of a known kind is taken. -/
inductive Taken (kind : TableKind) (part : Fragment) (s : Collected) (l : LiveTables) :
    Collected → LiveTables → Except LoadError Unit → Prop
  /-- It is refused, and the loading of its kind is over. -/
  | refused (e : LoadError) : Taken kind part s l (Function.update s kind none) l (.error e)
  /-- It is kept. -/
  | kept {image : Bytes} (hput : s.put? kind part = some image) (hend : part.isEnd = false) :
    Taken kind part s l (Function.update s kind (some (kind.key part.index, image))) l (.ok ())
  /-- It makes the table live. -/
  | committed {image : Bytes} {l' : LiveTables} (hput : s.put? kind part = some image)
    (hend : part.isEnd = true) (hcommit : l.commit kind part.index image = .ok l') :
    Taken kind part s l (Function.update s kind none) l' (.ok ())

namespace Taken

variable {kind : TableKind} {part : Fragment} {s s' : Collected} {l l' : LiveTables}
  {r : Except LoadError Unit}

theorem other (h : Taken kind part s l s' l' r) {k : TableKind} (hk : k ≠ kind) :
    s' k = s k := by
  cases h <;> rw [Function.update_of_ne hk]

/-- What is collected after a part was put together with it. -/
theorem put?_eq (h : Taken kind part s l s' l' r) {index : UInt32} {image : Bytes}
    (hc : s' kind = some (index, image)) :
    r = .ok () ∧ index = kind.key part.index ∧ s.put? kind part = some image := by
  cases h with
  | refused e => simp at hc
  | kept hput hend =>
    rw [Function.update_self, Option.some.injEq, Prod.mk.injEq] at hc
    obtain ⟨rfl, rfl⟩ := hc
    exact ⟨rfl, rfl, hput⟩
  | committed hput hend hcommit => simp at hc

/-- A part that is refused, or that does not end, changes no live table. -/
theorem live_eq (h : Taken kind part s l s' l' r)
    (hr : (∃ e, r = .error e) ∨ part.isEnd = false) : l' = l := by
  cases h with
  | refused e => rfl
  | kept hput hend => rfl
  | committed hput hend hcommit => simp [hend] at hr

/-- After a part that is refused, or that ends, nothing is collected of its kind. -/
theorem eq_none (h : Taken kind part s l s' l' r)
    (hr : (∃ e, r = .error e) ∨ part.isEnd = true) : s' kind = none := by
  cases h with
  | refused e => exact Function.update_self ..
  | kept hput hend => simp [hend] at hr
  | committed hput hend hcommit => exact Function.update_self ..

/-- A part that does not begin is refused when nothing is collected of its kind. -/
theorem of_none (h : Taken kind part s l s' l' r) (hbegin : part.isBegin = false)
    (hs : s kind = none) : l' = l ∧ s' kind = none ∧ ∃ e, r = .error e := by
  have hput : s.put? kind part = none := Collected.put?_eq_none hbegin hs
  cases h with
  | refused e => exact ⟨rfl, Function.update_self .., e, rfl⟩
  | kept hput' hend => cases hput.symm.trans hput'
  | committed hput' hend hcommit => cases hput.symm.trans hput'

theorem commit_eq (h : Taken kind part s l s' l' (.ok ())) (hend : part.isEnd = true) :
    ∃ image, s.put? kind part = some image ∧ l.commit kind part.index image = .ok l' := by
  cases h with
  | kept hput hend' => simp [hend] at hend'
  | committed hput hend' hcommit => exact ⟨_, hput, hcommit⟩

end Taken

namespace Uploads

variable {u u' : Uploads} {f f' : Firewall} {own : List Slot} {kind : TableKind}
  {part : Fragment} {k : ImageKind} {n : Address} {e : LoadError}

/-- What is collected of each kind. -/
def collected (u : Uploads) (f : Firewall) : Collected
  | .network =>
    u.network.bind fun up => (f.classifier.arena.block? up.slot).map fun b => (up.network, b)
  | .classRules => u.classRules.map fun up => (up.index, up.image)
  | .reject => u.reject.map fun up => (up.index, up.image)
  | .allow => u.allow.map fun up => (up.index, up.image)

/-- The host table that is being collected, if there is one. -/
def slots (u : Uploads) : List Slot := u.network.toList.map (·.slot)

/-- The invariant of the classifier, where the host table that is being collected is
held beside those that others hold. -/
def Consistent (u : Uploads) (f : Firewall) (own : List Slot) : Prop :=
  f.classifier.Consistent (u.slots ++ own)

/-- A table of a kind is being collected when something is collected of the kind. -/
theorem Consistent.inProgress_eq (h : u.Consistent f own) (kind : TableKind) :
    u.inProgress kind = (u.collected f kind).isSome := by
  cases kind with
  | network =>
    cases hu : u.network with
    | none => simp [inProgress, collected, hu]
    | some up =>
      obtain ⟨b, hb⟩ := h.sound.exists_block_of_mem (s := up.slot) (by simp [slots, hu])
      simp [inProgress, collected, hu, hb]
  | _ => simp [inProgress, collected]

/-! ### Tables that are collected as images -/

@[simp] theorem slots_setImage (u : Uploads) (up : Option ImageUpload) (k : ImageKind) :
    (u.setImage up k).slots = u.slots := by
  cases k <;> rfl

theorem collected_kind (u : Uploads) (f : Firewall) (k : ImageKind) :
    u.collected f k.kind = (u.image? k).map fun up => (up.index, up.image) := by
  cases k <;> rfl

theorem collected_setImage (u : Uploads) (f : Firewall) (up : Option ImageUpload)
    (k : ImageKind) : (u.setImage up k).collected f =
      Function.update (u.collected f) k.kind (up.map fun up => (up.index, up.image)) := by
  funext kind
  cases k <;> cases kind <;> rfl

/-- What is collected depends on the host table that is being collected only. -/
theorem collected_congr (u : Uploads) (h : ∀ s ∈ u.slots,
    f'.classifier.arena.block? s = f.classifier.arena.block? s) :
    u.collected f' = u.collected f := by
  funext kind
  cases kind with
  | network =>
    cases hu : u.network with
    | none => simp only [collected, hu, Option.bind_none]
    | some up => simp only [collected, hu, Option.bind_some, h up.slot (by simp [slots, hu])]
  | _ => rfl

/-- A collected image is made live as the reference says. -/
theorem commit_of_replace {index : UInt32} {image : Bytes} {policy : Policy}
    (hi : k = .classRules → index.toNat < 256)
    (hr : replace f.policy index image k = .ok policy) :
    f.live.commit k.kind index image = .ok { f with policy }.live := by
  cases k with
  | classRules =>
    simp only [replace, bind, Except.bind, pure, Except.pure] at hr
    cases hd : ClassRules.ofImage image with
    | error e => simp [hd] at hr
    | ok rules =>
      simp only [hd, Except.ok.injEq] at hr
      subst hr
      -- there are 256 classes, so the number fits into a byte
      have hindex : (UInt8.ofNat index.toNat).toNat = index.toNat := by
        rw [UInt8.toNat_ofNat', Nat.mod_eq_of_lt (hi rfl)]
      have hset : (f.policy.replaceClass (.ofNat index.toNat) rules).classes =
          f.policy.classes.setIfInBounds index.toNat rules := by
        refine Vector.ext fun i hlt => ?_
        simp only [Policy.replaceClass, Vector.getElem_set, Vector.getElem_setIfInBounds, hindex]
      simp only [LiveTables.commit, ImageKind.kind, hd, Except.map, Firewall.live, ← hset]
      rfl
  | reject =>
    simp only [replace, bind, Except.bind, pure, Except.pure] at hr
    cases hd : rejectRulesOfImage image with
    | error e => simp [hd] at hr
    | ok rules =>
      simp only [hd, Except.ok.injEq] at hr
      subst hr
      simp [LiveTables.commit, ImageKind.kind, hd, Except.map, Firewall.live,
        Policy.replaceReject]
  | allow =>
    simp only [replace, bind, Except.bind, pure, Except.pure] at hr
    cases hd : allowRulesOfImage image with
    | error e => simp [hd] at hr
    | ok rules =>
      simp only [hd, Except.ok.injEq] at hr
      subst hr
      simp [LiveTables.commit, ImageKind.kind, hd, Except.map, Firewall.live,
        Policy.replaceAllow]

/-- The index under which an image is collected is its key. -/
theorem key_kind (k : ImageKind) (index : UInt32) :
    (if k = .classRules then index else 0) = k.kind.key index := by
  cases k <;> rfl

private theorem tableLen?_kind {index : UInt32} (hi : k = .classRules → index.toNat < 256) :
    k.kind.tableLen? index = some k.imageLen := by
  cases k with
  | classRules => simp [ImageKind.kind, TableKind.tableLen?, hi rfl, ImageKind.imageLen]
  | _ => rfl

/-- A refused part of an image leaves the filter and the other kinds alone. -/
theorem continueImage_error {index : UInt32}
    (hr : u.continueImage f k index part = (u', f', .error e)) :
    f' = f ∧ (u' = u ∨ u' = u.setImage none k) := by
  unfold continueImage at hr
  cases hc : (u.image? k).filter (·.index = index) with
  | none =>
    simp only [hc, Prod.mk.injEq] at hr
    exact ⟨hr.2.1.symm, .inl hr.1.symm⟩
  | some up =>
    simp only [hc] at hr
    split at hr
    · simp only [Prod.mk.injEq] at hr
      exact ⟨hr.2.1.symm, .inl hr.1.symm⟩
    · split at hr
      · unfold endImage at hr
        simp only at hr
        split at hr
        · simp at hr
        · simp only [Prod.mk.injEq] at hr
          exact ⟨hr.2.1.symm, .inr hr.1.symm⟩
      · simp at hr

theorem applyImage_error (hr : u.applyImage f k part = (u', f', .error e)) :
    f' = f ∧ ∃ up, u' = u ∨ u' = u.setImage up k := by
  unfold applyImage at hr
  split at hr
  · simp only [Prod.mk.injEq] at hr
    exact ⟨hr.2.1.symm, none, .inl hr.1.symm⟩
  · obtain ⟨hf, hu⟩ := continueImage_error hr
    refine ⟨hf, ?_⟩
    split at hu
    · rcases hu with rfl | rfl
      · exact ⟨_, .inr rfl⟩
      · refine ⟨none, .inr ?_⟩
        cases k <;> rfl
    · rcases hu with rfl | rfl
      · exact ⟨none, .inl rfl⟩
      · exact ⟨none, .inr rfl⟩

/-- An accepted part of an image is kept, or makes its table live. -/
theorem continueImage_ok {index : UInt32}
    (hi : k = .classRules → index.toNat < 256)
    (hr : u.continueImage f k index part = (u', f', .ok ())) :
    ∃ up image, (u.image? k).filter (·.index = index) = some up ∧
      part.offset.toNat + part.data.length ≤ up.image.length ∧
      image = up.image.overlay part.offset.toNat part.data ∧
      f'.classifier = f.classifier ∧
      (part.isEnd = false → u' = u.setImage (some ⟨index, image⟩) k ∧ f' = f) ∧
      (part.isEnd = true → u' = u.setImage none k ∧
        f.live.commit k.kind index image = .ok f'.live) := by
  unfold continueImage at hr
  cases hc : (u.image? k).filter (·.index = index) with
  | none => simp [hc] at hr
  | some up =>
    have hindex : up.index = index := by
      obtain ⟨-, h⟩ := Option.filter_eq_some_iff.mp hc
      simpa using h
    simp only [hc] at hr
    split at hr
    · simp at hr
    · rename_i hlen
      split at hr
      · rename_i hend
        unfold endImage at hr
        simp only [hindex] at hr
        split at hr
        · rename_i policy hrep
          simp only [Prod.mk.injEq, and_true] at hr
          obtain ⟨rfl, rfl⟩ := hr
          exact ⟨up, _, rfl, Nat.le_of_not_lt hlen, rfl, rfl, by simp [hend],
            fun _ => ⟨rfl, commit_of_replace hi hrep⟩⟩
        · simp at hr
      · rename_i hend
        simp only [Prod.mk.injEq, and_true, hindex] at hr
        obtain ⟨rfl, rfl⟩ := hr
        exact ⟨up, _, rfl, Nat.le_of_not_lt hlen, rfl, rfl, fun _ => ⟨rfl, rfl⟩,
          fun h => absurd h hend⟩

theorem commit_key (l : LiveTables) (kind : TableKind) (index : UInt32) (image : Bytes) :
    l.commit kind (kind.key index) image = l.commit kind index image := by
  cases kind <;> rfl

theorem applyImage_ok (hr : u.applyImage f k part = (u', f', .ok ())) :
    f'.classifier = f.classifier ∧ u'.slots = u.slots ∧
      Taken k.kind part (u.collected f) f.live (u'.collected f') f'.live (.ok ()) := by
  unfold applyImage at hr
  rw [key_kind] at hr
  split at hr
  · simp at hr
  rename_i hnum
  have hi : k = .classRules → (k.kind.key part.index).toNat < 256 := by
    rintro rfl
    simpa [ImageKind.kind, TableKind.key] using hnum
  have hlen : k.kind.tableLen? part.index = some k.imageLen := by
    refine tableLen?_kind fun hk => ?_
    subst hk
    exact hi rfl
  -- `v` is what the part is put into
  dsimp only at hr
  generalize hv : (if part.isBegin = true then
      u.setImage (some ⟨k.kind.key part.index, Bytes.zeros k.imageLen⟩) k else u) = v at hr
  obtain ⟨up, image, hup, hle, himage, hcl, hkept, hcommit⟩ := continueImage_ok hi hr
  have hset : ∀ o, (v.setImage o k).collected f =
      Function.update (u.collected f) k.kind (o.map fun up => (up.index, up.image)) := by
    intro o
    rw [collected_setImage, ← hv]
    split
    · rw [collected_setImage, Function.update_idem]
    · rfl
  have hslots : ∀ o, (v.setImage o k).slots = u.slots := by
    intro o
    rw [slots_setImage, ← hv]
    split
    · rw [slots_setImage]
    · rfl
  have hput : (u.collected f).put? k.kind part = some image := by
    unfold Collected.put?
    rw [← hv] at hup
    split at hup
    · rename_i hbegin
      rw [image?_setImage] at hup
      obtain ⟨rfl, -⟩ := Option.filter_eq_some_iff.mp hup |>.imp_left Option.some.inj
      rw [if_pos hbegin, hlen, Option.map_some, Option.bind_some, if_pos hle, himage]
    · rename_i hbegin
      obtain ⟨hu, hindex⟩ := Option.filter_eq_some_iff.mp hup
      rw [if_neg hbegin, collected_kind, hu]
      simp only [Option.map_some, Option.filter_some, hindex, if_true, Option.bind_some, hle,
        himage]
  refine ⟨hcl, ?_, ?_⟩
  · cases hend : part.isEnd with
    | false => rw [(hkept hend).1, hslots]
    | true => rw [(hcommit hend).1, hslots]
  · rw [collected_congr u' (f := f) fun s _ => by rw [hcl]]
    cases hend : part.isEnd with
    | false =>
      obtain ⟨rfl, rfl⟩ := hkept hend
      rw [hset]
      exact .kept hput hend
    | true =>
      obtain ⟨rfl, hlive⟩ := hcommit hend
      rw [hset]
      rw [commit_key] at hlive
      exact .committed hput hend hlive

/-! ### Host tables -/

/-- Changing the host table that is being collected leaves the other kinds alone. -/
theorem collected_network (u : Uploads) (f f' : Firewall) (o : Option HostUpload) :
    ({ u with network := o } : Uploads).collected f' = Function.update (u.collected f) .network
      (o.bind fun up => (f'.classifier.arena.block? up.slot).map fun b => (up.network, b)) := by
  funext kind
  cases kind <;> rfl

theorem live_of_loaded {c : Classifier} (h : ∀ n, c.loaded? n = f.classifier.loaded? n) :
    { f with classifier := c }.live = f.live :=
  congrArg (LiveTables.mk f.policy) (funext h)

theorem abortNetwork_spec (h : u.Consistent f own) (hr : u.abortNetwork f = (u', f')) :
    u' = { u with network := none } ∧ f'.classifier.Consistent own ∧ f'.live = f.live := by
  unfold abortNetwork at hr
  unfold Consistent slots at h
  cases hu : u.network with
  | none =>
    simp only [hu, Prod.mk.injEq] at hr
    rw [hu] at h
    obtain ⟨rfl, rfl⟩ := hr
    refine ⟨?_, by simpa using h, rfl⟩
    rw [← hu]
  | some up =>
    simp only [hu, Prod.mk.injEq] at hr
    simp only [hu, Option.toList_some, List.map_cons, List.map_nil, List.cons_append,
      List.nil_append] at h
    obtain ⟨rfl, rfl⟩ := hr
    obtain ⟨-, hl, -⟩ := h.sound.free (s := up.slot) (by simp)
    refine ⟨rfl, ?_, live_of_loaded hl⟩
    simpa using h.free (s := up.slot) (by simp)

/-- Beginning a host table gives up the one before; the new one is all zeros. -/
theorem beginNetwork_ok (h : u.Consistent f own) (hr : u.beginNetwork f n = (u', f', .ok ())) :
    ∃ s len, u' = { u with network := some ⟨n, s⟩ } ∧ u'.Consistent f' own ∧ f'.live = f.live ∧
      n.tableLen? = some len ∧ f'.classifier.arena.block? s = some (Bytes.zeros len) := by
  unfold beginNetwork at hr
  rcases ha : u.abortNetwork f with ⟨u₁, f₁⟩
  obtain ⟨rfl, h₁, hlive⟩ := abortNetwork_spec h ha
  simp only [ha] at hr
  cases hlen : n.tableLen? with
  | none => simp [Classifier.alloc, hlen] at hr
  | some len =>
    cases hc : f₁.classifier.alloc n with
    | error e =>
      rw [hc] at hr
      cases e <;> simp at hr
    | ok r =>
      obtain ⟨c, s⟩ := r
      simp only [hc, Prod.mk.injEq, and_true] at hr
      obtain ⟨rfl, rfl⟩ := hr
      obtain ⟨-, hb, hl, -⟩ := h₁.sound.alloc hc hlen
      exact ⟨s, len, rfl, h₁.alloc hc, (live_of_loaded hl).trans hlive, rfl, hb⟩

theorem beginNetwork_error (h : u.Consistent f own)
    (hr : u.beginNetwork f n = (u', f', .error e)) :
    u' = { u with network := none } ∧ u'.Consistent f' own ∧ f'.live = f.live := by
  unfold beginNetwork at hr
  rcases ha : u.abortNetwork f with ⟨u₁, f₁⟩
  obtain ⟨rfl, h₁, hlive⟩ := abortNetwork_spec h ha
  have hsame : ∀ e', ({ u with network := none }, f₁, Except.error e') =
      ((u', f', .error e) : Uploads × Firewall × Except LoadError Unit) →
      u' = { u with network := none } ∧ u'.Consistent f' own ∧ f'.live = f.live := by
    intro e' heq
    simp only [Prod.mk.injEq] at heq
    obtain ⟨rfl, rfl, -⟩ := heq
    exact ⟨rfl, h₁, hlive⟩
  simp only [ha] at hr
  cases hc : f₁.classifier.alloc n with
  | error e' =>
    rw [hc] at hr
    cases e' <;> exact hsame _ hr
  | ok r => simp [hc] at hr

/-- A refused part of a host table leaves the live tables and the other kinds alone. -/
theorem continueNetwork_error (h : u.Consistent f own)
    (hr : u.continueNetwork f part = (u', f', .error e)) :
    (∃ o, u' = { u with network := o }) ∧ u'.Consistent f' own ∧ f'.live = f.live := by
  unfold continueNetwork at hr
  cases hc : u.network.filter (·.network = part.index) with
  | none =>
    simp only [hc, Prod.mk.injEq] at hr
    obtain ⟨rfl, rfl, -⟩ := hr
    exact ⟨⟨_, rfl⟩, h, rfl⟩
  | some up =>
    obtain ⟨hu, -⟩ := Option.filter_eq_some_iff.mp hc
    have hheld : up.slot ∈ u.slots ++ own := by simp [slots, hu]
    simp only [hc] at hr
    cases hw : f.classifier.write up.slot part.offset.toNat part.data with
    | error e' =>
      simp only [hw, Prod.mk.injEq] at hr
      obtain ⟨rfl, rfl, -⟩ := hr
      exact ⟨⟨_, rfl⟩, h, rfl⟩
    | ok c =>
      simp only [hw] at hr
      have h₁ : c.Consistent (u.slots ++ own) := Classifier.Consistent.write h hheld hw
      obtain ⟨-, -, hl, -⟩ := h.sound.write hheld hw
      split at hr
      · unfold endNetwork at hr
        rcases hi : c.install up.network up.slot with ⟨c', e' | r⟩
        · simp only [hi, Prod.mk.injEq] at hr
          obtain ⟨rfl, rfl, -⟩ := hr
          obtain ⟨-, hl', -⟩ := h₁.sound.install_error hheld hi
          refine ⟨⟨_, rfl⟩, ?_, live_of_loaded fun m => (hl' m).trans (hl m)⟩
          have h₂ := h₁.install hheld up.network
          rw [hi] at h₂
          simpa [Consistent, slots, hu] using h₂
        · simp [hi] at hr
      · simp at hr

/-- An accepted part of a host table is kept, or makes the table live. -/
theorem continueNetwork_ok (h : u.Consistent f own)
    (hr : u.continueNetwork f part = (u', f', .ok ())) :
    ∃ up b, u.network = some up ∧ up.network = part.index ∧
      f.classifier.arena.block? up.slot = some b ∧
      part.offset.toNat + part.data.length ≤ b.length ∧ u'.Consistent f' own ∧
      (part.isEnd = false → u' = u ∧ f'.live = f.live ∧ f'.classifier.arena.block? up.slot =
        some (b.overlay part.offset.toNat part.data)) ∧
      (part.isEnd = true → u' = { u with network := none } ∧
        f.live.commit .network part.index (b.overlay part.offset.toNat part.data) =
          .ok f'.live) := by
  unfold continueNetwork at hr
  cases hc : u.network.filter (·.network = part.index) with
  | none => simp [hc] at hr
  | some up =>
    obtain ⟨hu, hindex⟩ := Option.filter_eq_some_iff.mp hc
    have hheld : up.slot ∈ u.slots ++ own := by simp [slots, hu]
    simp only [hc] at hr
    cases hw : f.classifier.write up.slot part.offset.toNat part.data with
    | error e' => simp [hw] at hr
    | ok c =>
      simp only [hw] at hr
      -- the part goes into a block that no network sees yet
      have h₁ : c.Consistent (u.slots ++ own) := Classifier.Consistent.write h hheld hw
      obtain ⟨-, ⟨b, ⟨hb, hle⟩, hb'⟩, hl, -⟩ := h.sound.write hheld hw
      refine ⟨up, b, hu, by simpa using hindex, hb, hle, ?_⟩
      split at hr
      · rename_i hend
        unfold endNetwork at hr
        rcases hi : c.install up.network up.slot with ⟨c', e' | r⟩
        · simp [hi] at hr
        · simp only [hi, Prod.mk.injEq, and_true] at hr
          obtain ⟨rfl, rfl⟩ := hr
          obtain ⟨-, hl', -⟩ := h₁.sound.install_ok hheld hi
          have h₂ := h₁.install hheld up.network
          rw [hi] at h₂
          refine ⟨by simpa [Consistent, slots, hu] using h₂, by simp [hend], fun _ => ⟨rfl, ?_⟩⟩
          have hnet : up.network = part.index := by simpa using hindex
          refine congrArg (fun hosts => Except.ok (LiveTables.mk f.policy hosts))
            (funext fun m => ?_)
          rw [hl', hb', hnet, Function.update_apply, hl]
          rfl
      · rename_i hend
        simp only [Prod.mk.injEq, and_true] at hr
        obtain ⟨rfl, rfl⟩ := hr
        exact ⟨h₁, fun _ => ⟨rfl, live_of_loaded hl, hb'⟩, fun he => absurd he hend⟩

theorem applyNetwork_error (h : u.Consistent f own)
    (hr : u.applyNetwork f part = (u', f', .error e)) :
    (∃ o, u' = { u with network := o }) ∧ u'.Consistent f' own ∧ f'.live = f.live := by
  unfold applyNetwork at hr
  split at hr
  · simp only [Prod.mk.injEq] at hr
    obtain ⟨rfl, rfl, -⟩ := hr
    exact ⟨⟨_, rfl⟩, h, rfl⟩
  · split at hr
    · split at hr
      · rename_i u₁ f₁ hb
        obtain ⟨s, len, rfl, h₁, hl, -⟩ := beginNetwork_ok h hb
        obtain ⟨⟨o, rfl⟩, h₂, hl'⟩ := continueNetwork_error h₁ hr
        exact ⟨⟨o, rfl⟩, h₂, hl'.trans hl⟩
      · rename_i u₁ f₁ e' hb
        simp only [Prod.mk.injEq] at hr
        obtain ⟨rfl, rfl, -⟩ := hr
        obtain ⟨hu, h₁, hl⟩ := beginNetwork_error h hb
        exact ⟨⟨none, hu⟩, h₁, hl⟩
    · exact continueNetwork_error h hr

/-- A part that goes into the collected host table is taken, if what it makes of the table
is what it makes of what was collected before. -/
theorem taken_of_continueNetwork {u₁ : Uploads} {f₁ : Firewall} {o : Option HostUpload}
    (hu₁ : u₁ = { u with network := o }) (h₁ : u₁.Consistent f₁ own) (hl : f₁.live = f.live)
    (hr : u₁.continueNetwork f₁ part = (u', f', .ok ()))
    (hput : ∀ up b, o = some up → f₁.classifier.arena.block? up.slot = some b →
      up.network = part.index → part.offset.toNat + part.data.length ≤ b.length →
      (u.collected f).put? .network part = some (b.overlay part.offset.toNat part.data)) :
    u'.Consistent f' own ∧
      Taken .network part (u.collected f) f.live (u'.collected f') f'.live (.ok ()) := by
  subst hu₁
  obtain ⟨up, b, hu, hnet, hb, hle, h₂, hkept, hcommit⟩ := continueNetwork_ok h₁ hr
  have hp := hput up b hu hb hnet hle
  refine ⟨h₂, ?_⟩
  cases hend : part.isEnd with
  | false =>
    obtain ⟨rfl, hlive, hb'⟩ := hkept hend
    have hnew := collected_network u f f' (some up)
    simp only [Option.bind_some, hb', Option.map_some, hnet] at hnew
    rw [hlive, hl, show o = some up from hu, hnew]
    exact .kept hp hend
  | true =>
    obtain ⟨rfl, hlive⟩ := hcommit hend
    rw [hl] at hlive
    rw [collected_network u f f' none]
    exact .committed hp hend hlive

theorem applyNetwork_ok (h : u.Consistent f own)
    (hr : u.applyNetwork f part = (u', f', .ok ())) :
    u'.Consistent f' own ∧
      Taken .network part (u.collected f) f.live (u'.collected f') f'.live (.ok ()) := by
  unfold applyNetwork at hr
  split at hr
  · simp at hr
  rename_i hload
  split at hr
  · rename_i hbegin
    split at hr
    · rename_i u₁ f₁ hb
      obtain ⟨s, len, hu₁, h₁, hl, hlen, hblock⟩ := beginNetwork_ok h hb
      refine taken_of_continueNetwork hu₁ h₁ hl hr ?_
      -- the part goes into zeros
      rintro up b ⟨⟩ hb' - hle
      have hzeros : b = Bytes.zeros len := Option.some.inj (hb'.symm.trans hblock)
      have hlen' : TableKind.network.tableLen? part.index = some len := by
        simpa [TableKind.tableLen?, hlen] using hload
      rw [Collected.put?, if_pos hbegin, hlen', Option.map_some, Option.bind_some, ← hzeros,
        if_pos hle]
    · simp at hr
  · rename_i hbegin
    refine taken_of_continueNetwork (u := u) (o := u.network) rfl h rfl hr ?_
    -- the part goes into what is collected
    intro up b hu hb hnet hle
    rw [Collected.put?, if_neg hbegin]
    simp [collected, hu, hb, hnet, TableKind.key, Option.filter_some, hle]

/-! ### Any part -/

/-- Giving up the loading of a kind leaves the live tables and the other kinds alone. -/
theorem abort_spec (h : u.Consistent f own) (hr : u.abort f kind = (u', f')) :
    u'.Consistent f' own ∧ f'.live = f.live ∧
      u'.collected f' = Function.update (u.collected f) kind none := by
  have himage : ∀ k : ImageKind, (u.setImage none k, f) = (u', f') →
      u'.Consistent f' own ∧ f'.live = f.live ∧
        u'.collected f' = Function.update (u.collected f) k.kind none := by
    intro k heq
    simp only [Prod.mk.injEq] at heq
    obtain ⟨rfl, rfl⟩ := heq
    refine ⟨?_, rfl, collected_setImage u f none k⟩
    rw [Consistent, slots_setImage]
    exact h
  cases kind with
  | network =>
    obtain ⟨rfl, h₁, hl⟩ := abortNetwork_spec h hr
    exact ⟨h₁, hl, collected_network u f f' none⟩
  | classRules => exact himage .classRules hr
  | reject => exact himage .reject hr
  | allow => exact himage .allow hr

/-- What an error leaves behind, before the loading of the kind is given up. -/
theorem applyKind_error (h : u.Consistent f own)
    (hr : u.applyKind f kind part = (u', f', .error e)) :
    u'.Consistent f' own ∧ f'.live = f.live ∧
      ∀ k, k ≠ kind → u'.collected f' k = u.collected f k := by
  have himage : ∀ k : ImageKind, u.applyImage f k part = (u', f', .error e) →
      u'.Consistent f' own ∧ f'.live = f.live ∧
        ∀ kind, kind ≠ k.kind → u'.collected f' kind = u.collected f kind := by
    intro k heq
    obtain ⟨rfl, up, rfl | rfl⟩ := applyImage_error heq
    · exact ⟨h, rfl, fun _ _ => rfl⟩
    · refine ⟨?_, rfl, fun kind hk => ?_⟩
      · rw [Consistent, slots_setImage]
        exact h
      · rw [collected_setImage, Function.update_of_ne hk]
  unfold applyKind at hr
  split at hr
  · simp only [Prod.mk.injEq] at hr
    obtain ⟨rfl, rfl, -⟩ := hr
    exact ⟨h, rfl, fun _ _ => rfl⟩
  · cases kind with
    | network =>
      obtain ⟨⟨o, rfl⟩, h₁, hl⟩ := applyNetwork_error h hr
      refine ⟨h₁, hl, fun k hk => ?_⟩
      rw [collected_network u f f' o, Function.update_of_ne hk]
    | classRules => exact himage .classRules hr
    | reject => exact himage .reject hr
    | allow => exact himage .allow hr

theorem applyKind_ok (h : u.Consistent f own)
    (hr : u.applyKind f kind part = (u', f', .ok ())) :
    u'.Consistent f' own ∧
      Taken kind part (u.collected f) f.live (u'.collected f') f'.live (.ok ()) := by
  have himage : ∀ k : ImageKind, u.applyImage f k part = (u', f', .ok ()) →
      u'.Consistent f' own ∧
        Taken k.kind part (u.collected f) f.live (u'.collected f') f'.live (.ok ()) := by
    intro k heq
    obtain ⟨hc, hs, htaken⟩ := applyImage_ok heq
    refine ⟨?_, htaken⟩
    rw [Consistent, hc, hs]
    exact h
  unfold applyKind at hr
  split at hr
  · simp at hr
  · cases kind with
    | network => exact applyNetwork_ok h hr
    | classRules => exact himage .classRules hr
    | reject => exact himage .reject hr
    | allow => exact himage .allow hr

/-- A part of a known kind is refused, kept, or makes its table live. -/
theorem apply_taken {r : Except LoadError Unit} (h : u.Consistent f own)
    (hk : TableKind.ofByte? part.kind = some kind) (hr : u.apply f part = (u', f', r)) :
    u'.Consistent f' own ∧
      Taken kind part (u.collected f) f.live (u'.collected f') f'.live r := by
  unfold apply at hr
  simp only [hk] at hr
  rcases ha : u.applyKind f kind part with ⟨u₁, f₁, e | ⟨⟩⟩
  · -- whatever the error left behind of this kind is given up
    obtain ⟨h₁, hl₁, hother⟩ := applyKind_error h ha
    rcases hb : u₁.abort f₁ kind with ⟨u₂, f₂⟩
    obtain ⟨h₂, hl₂, hc₂⟩ := abort_spec h₁ hb
    simp only [ha, hb, Prod.mk.injEq] at hr
    obtain ⟨rfl, rfl, rfl⟩ := hr
    refine ⟨h₂, ?_⟩
    have hc : u₂.collected f₂ = Function.update (u.collected f) kind none := by
      rw [hc₂]
      funext k
      by_cases hkk : k = kind
      · rw [hkk, Function.update_self, Function.update_self]
      · rw [Function.update_of_ne hkk, Function.update_of_ne hkk, hother k hkk]
    rw [hc, hl₂, hl₁]
    exact .refused e
  · simp only [ha, Prod.mk.injEq] at hr
    obtain ⟨rfl, rfl, rfl⟩ := hr
    exact applyKind_ok h ha

/-- A part of an unknown kind changes nothing. -/
theorem apply_of_unknown (hk : TableKind.ofByte? part.kind = none) :
    u.apply f part = (u, f, .error (.unknownKind part.kind)) := by
  simp only [apply, hk]

end Uploads

end FilterBridge
