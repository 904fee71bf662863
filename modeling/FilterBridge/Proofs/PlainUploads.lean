import FilterBridge.Upload
import FilterBridge.Proofs.PlainFrames

/-!
# Tables loaded into plain arrays

What is being loaded, as a program keeps it: the collected images are in an array with a place
for each kind, and a part of a table is copied to its place in an image.  A part that reaches
past the end is refused before it is copied, only classes that exist are loaded, and host tables
are collected in the arena.  So no part of a table makes the program meet a fault.

## Main definitions

* `PlainUploads` — what is being collected, with the images in an array.
* `PlainUploads.apply` — take one part.

## Main results

* `Uploads.apply_plain` — no part meets a fault, and arena and network table stay in order.
-/

namespace FilterBridge

open Checked Fallible

/-- The place of the images of a kind. -/
def ImageKind.place : ImageKind → Nat
  | classRules => 0
  | reject => 1
  | allow => 2

/-- What is being collected, with the images in an array. -/
structure PlainUploads where
  /-- The host table. -/
  network : Option HostUpload
  /-- The image of each other kind. -/
  images : Array (Option ImageUpload)

/-- What is being collected, in an array. -/
def Uploads.plain (u : Uploads) : PlainUploads := ⟨u.network, #[u.classRules, u.reject, u.allow]⟩

/-! ### The operations -/

namespace PlainUploads

/-- The image that is being collected of a kind. -/
def image? (u : PlainUploads) (k : ImageKind) : Checked (Option ImageUpload) :=
  fetch u.images k.place

/-- Set the image that is being collected of a kind. -/
def setImage (u : PlainUploads) (up : Option ImageUpload) (k : ImageKind) :
    Checked PlainUploads := do
  let images ← store u.images k.place up
  return { u with images }

/-- Give up the host table that is being collected. -/
def abortNetwork (u : PlainUploads) (f : PlainFirewall) :
    Checked (PlainUploads × PlainFirewall) :=
  match u.network with
  | none => return (u, f)
  | some up => do
    let classifier ← f.classifier.free up.slot
    return ({ u with network := none }, { f with classifier })

/-- Give up the image of a kind that is being collected. -/
def abortImage (u : PlainUploads) (f : PlainFirewall) (k : ImageKind) :
    Checked (PlainUploads × PlainFirewall) := do
  let u ← u.setImage none k
  return (u, f)

/-- Give up the table of a kind that is being collected. -/
def abort (u : PlainUploads) (f : PlainFirewall) : TableKind →
    Checked (PlainUploads × PlainFirewall)
  | .network => u.abortNetwork f
  | .classRules => u.abortImage f .classRules
  | .reject => u.abortImage f .reject
  | .allow => u.abortImage f .allow

/-- Begin a host table of zeros, in place of one that is being collected. -/
def beginNetwork (u : PlainUploads) (f : PlainFirewall) (network : Address) :
    Checked (PlainUploads × PlainFirewall × Except LoadError Unit) := do
  let (u, f) ← u.abortNetwork f
  match ← f.classifier.alloc network with
  | .ok (classifier, slot) =>
    return ({ u with network := some ⟨network, slot⟩ }, { f with classifier }, .ok ())
  | .error .outOfMemory => return (u, f, .error .noMemory)
  | .error _ => return (u, f, .error (.noNetwork network))

/-- Make the collected host table live. -/
def endNetwork (u : PlainUploads) (f : PlainFirewall) (up : HostUpload) :
    Checked (PlainUploads × PlainFirewall × Except LoadError Unit) := do
  match ← f.classifier.install up.network up.slot with
  | (classifier, .ok ()) => return ({ u with network := none }, { f with classifier }, .ok ())
  | (classifier, .error _) =>
    return ({ u with network := none }, { f with classifier }, .error .noMemory)

/-- Put a part into the collected host table; the last part makes it live. -/
def continueNetwork (u : PlainUploads) (f : PlainFirewall) (part : Fragment) :
    Checked (PlainUploads × PlainFirewall × Except LoadError Unit) :=
  match u.network.filter (·.network = part.index) with
  | none => return (u, f, .error (.notBegun .network))
  | some up => do
    match ← f.classifier.write up.slot part.offset.toNat part.data with
    | .error e => return (u, f, .error (.malformed (.block e)))
    | .ok classifier =>
      let f := { f with classifier }
      if part.isEnd then u.endNetwork f up else return (u, f, .ok ())

/-- Take a part of a host table. -/
def applyNetwork (u : PlainUploads) (f : PlainFirewall) (part : Fragment) :
    Checked (PlainUploads × PlainFirewall × Except LoadError Unit) :=
  if !Uploads.loadable part.index then return (u, f, .error (.noNetwork part.index))
  else if part.isBegin then do
    match ← u.beginNetwork f part.index with
    | (u, f, .ok ()) => u.continueNetwork f part
    | (u, f, .error e) => return (u, f, .error e)
  else u.continueNetwork f part

/-- Put the table with the given image into the policy. -/
def replace (p : PlainPolicy) (index : UInt32) (image : Bytes) :
    ImageKind → Fallible TableFault PlainPolicy
  | .classRules => do
    let rules ← ClassRules.readImage image
    p.replaceClass (.ofNat index.toNat) rules
  | .reject => do
    let rules ← readRejectRules image
    return p.replaceReject rules
  | .allow => do
    let rules ← readAllowRules image
    return p.replaceAllow rules

/-- Make the collected table live. -/
def endImage (u : PlainUploads) (f : PlainFirewall) (k : ImageKind) (up : ImageUpload) :
    Checked (PlainUploads × PlainFirewall × Except LoadError Unit) := do
  let u ← u.setImage none k
  match ← (replace f.policy up.index up.image k).run with
  | .ok policy => return (u, { f with policy }, .ok ())
  | .error fault => return (u, f, .error (.malformed (.image fault)))

/-- Put a part into the collected table; the last part makes it live. -/
def continueImage (u : PlainUploads) (f : PlainFirewall) (k : ImageKind) (index : UInt32)
    (part : Fragment) : Checked (PlainUploads × PlainFirewall × Except LoadError Unit) := do
  match (← u.image? k).filter (·.index = index) with
  | none => return (u, f, .error (.notBegun k.kind))
  | some up =>
    let first := part.offset.toNat
    let last := first + part.data.length
    if up.image.length < last then
      return (u, f, .error (.malformed (.pastEnd first last up.image.length)))
    let image ← paste up.image first last part.data
    let up := { up with image }
    if part.isEnd then u.endImage f k up
    else
      let u ← u.setImage (some up) k
      return (u, f, .ok ())

/-- Take a part of a table other than a host table. -/
def applyImage (u : PlainUploads) (f : PlainFirewall) (k : ImageKind) (part : Fragment) :
    Checked (PlainUploads × PlainFirewall × Except LoadError Unit) :=
  if k = .classRules && 256 ≤ part.index.toNat then
    return (u, f, .error (.malformed (.noSuchClass part.index)))
  else do
    let index := if k = .classRules then part.index else 0
    let u ← if part.isBegin then
        u.setImage (some { index, image := Bytes.zeros k.imageLen }) k
      else pure u
    u.continueImage f k index part

/-- Take a part of a known kind, an error notwithstanding. -/
def applyKind (u : PlainUploads) (f : PlainFirewall) (kind : TableKind) (part : Fragment) :
    Checked (PlainUploads × PlainFirewall × Except LoadError Unit) :=
  if maxFragmentLen < part.data.length then
    return (u, f, .error (.malformed (.tooLong part.data.length)))
  else
    match kind with
    | .network => u.applyNetwork f part
    | .classRules => u.applyImage f .classRules part
    | .reject => u.applyImage f .reject part
    | .allow => u.applyImage f .allow part

/-- Take a part.  An error ends the loading of its kind. -/
def apply (u : PlainUploads) (f : PlainFirewall) (part : Fragment) :
    Checked (PlainUploads × PlainFirewall × Except LoadError Unit) :=
  match TableKind.ofByte? part.kind with
  | none => return (u, f, .error (.unknownKind part.kind))
  | some kind => do
    match ← u.applyKind f kind part with
    | (u, f, .ok ()) => return (u, f, .ok ())
    | (u, f, .error e) =>
      let (u, f) ← u.abort f kind
      return (u, f, .error e)

end PlainUploads

/-! ### They meet no fault -/

namespace Uploads

/-- A program takes a part of a table without a fault, and leaves arena and network table in
order. -/
structure Takes (p : Checked (PlainUploads × PlainFirewall × Except LoadError Unit))
    (r : Uploads × Firewall × Except LoadError Unit) : Prop where
  /-- It ends as the filter does. -/
  eq : p = .ok (r.1.plain, r.2.1.plain, r.2.2)
  /-- Arena and network table are in order. -/
  sturdy : r.2.1.classifier.Sturdy

variable {f : Firewall}

theorem image?_plain (u : Uploads) (k : ImageKind) : u.plain.image? k = .ok (u.image? k) := by
  cases k <;> rfl

theorem setImage_plain (u : Uploads) (up : Option ImageUpload) (k : ImageKind) :
    u.plain.setImage up k = .ok (u.setImage up k).plain := by
  cases k <;> rfl

theorem replace_plain (p : Policy) (index : UInt32) (image : Bytes) (k : ImageKind) :
    PlainUploads.replace p.plain index image k =
      whole ((replace p index image k).map Policy.plain) := by
  cases k with
  | classRules =>
    rw [PlainUploads.replace, ClassRules.readImage_eq, replace]
    cases ClassRules.ofImage image with
    | error e => rfl
    | ok rules =>
      change (liftM (p.plain.replaceClass _ rules) : Fallible TableFault PlainPolicy) = _
      rw [Policy.replaceClass_plain]
      rfl
  | reject =>
    rw [PlainUploads.replace, readRejectRules_eq, replace]
    cases rejectRulesOfImage image <;> rfl
  | allow =>
    rw [PlainUploads.replace, readAllowRules_eq, replace]
    cases allowRulesOfImage image <;> rfl

variable (h : f.classifier.Sturdy) (u : Uploads)

include h

theorem abortNetwork_plain :
    u.plain.abortNetwork f.plain =
        .ok ((u.abortNetwork f).1.plain, (u.abortNetwork f).2.plain) ∧
      (u.abortNetwork f).2.classifier.Sturdy := by
  unfold PlainUploads.abortNetwork abortNetwork
  have hnetwork : u.plain.network = u.network := rfl
  rw [hnetwork]
  cases u.network with
  | none => exact ⟨rfl, h⟩
  | some up =>
    obtain ⟨hfree, hsturdy⟩ := h.free_plain up.slot
    exact ⟨bind_of_eq hfree _, hsturdy⟩

theorem abort_plain (kind : TableKind) :
    u.plain.abort f.plain kind =
        .ok ((u.abort f kind).1.plain, (u.abort f kind).2.plain) ∧
      (u.abort f kind).2.classifier.Sturdy := by
  cases kind with
  | network => exact abortNetwork_plain h u
  | _ => exact ⟨rfl, h⟩

theorem beginNetwork_plain (n : Address) :
    Takes (u.plain.beginNetwork f.plain n) (u.beginNetwork f n) := by
  obtain ⟨habort, hsturdy⟩ := abortNetwork_plain h u
  unfold PlainUploads.beginNetwork beginNetwork
  rw [habort, ok_bind]
  rcases hr : u.abortNetwork f with ⟨u', f'⟩
  rw [hr] at hsturdy
  obtain ⟨halloc, hallocated⟩ := hsturdy.alloc_plain n
  simp only at hsturdy ⊢
  change Takes (f'.classifier.plain.alloc n >>= _) _
  rw [halloc, ok_bind]
  rcases ha : f'.classifier.alloc n with e | ⟨c, slot⟩
  · cases e <;> exact ⟨rfl, hsturdy⟩
  · exact ⟨rfl, hallocated c slot ha⟩

theorem endNetwork_plain (up : HostUpload) :
    Takes (u.plain.endNetwork f.plain up) (u.endNetwork f up) := by
  obtain ⟨hinstall, hsturdy⟩ := h.install_plain up.network up.slot
  unfold PlainUploads.endNetwork endNetwork
  change Takes (f.classifier.plain.install up.network up.slot >>= _) _
  rw [hinstall, ok_bind]
  rcases hi : f.classifier.install up.network up.slot with ⟨c, e | ⟨⟩⟩
  all_goals
    rw [hi] at hsturdy
    exact ⟨rfl, hsturdy⟩

theorem continueNetwork_plain (part : Fragment) :
    Takes (u.plain.continueNetwork f.plain part) (u.continueNetwork f part) := by
  unfold PlainUploads.continueNetwork continueNetwork
  have hnetwork : u.plain.network = u.network := rfl
  rw [hnetwork]
  cases u.network.filter (·.network = part.index) with
  | none => exact ⟨rfl, h⟩
  | some up =>
    obtain ⟨hwrite, hwritten⟩ := h.write_plain up.slot part.offset.toNat part.data
    simp only
    change Takes (f.classifier.plain.write up.slot part.offset.toNat part.data >>= _) _
    rw [hwrite, ok_bind]
    cases hw : f.classifier.write up.slot part.offset.toNat part.data with
    | error e => exact ⟨rfl, h⟩
    | ok c =>
      have hc : Classifier.Sturdy c := hwritten c hw
      cases part.isEnd with
      | false => exact ⟨rfl, hc⟩
      | true => exact endNetwork_plain (f := { f with classifier := c }) hc u up

theorem applyNetwork_plain (part : Fragment) :
    Takes (u.plain.applyNetwork f.plain part) (u.applyNetwork f part) := by
  unfold PlainUploads.applyNetwork applyNetwork
  cases loadable part.index with
  | false => exact ⟨rfl, h⟩
  | true =>
    cases part.isBegin with
    | false => exact continueNetwork_plain h u part
    | true =>
      obtain ⟨heq, hsturdy⟩ := beginNetwork_plain h u part.index
      simp only [Bool.not_true, Bool.false_eq_true, if_false, if_true]
      rw [heq, ok_bind]
      rcases hb : u.beginNetwork f part.index with ⟨u', f', e | ⟨⟩⟩
      · rw [hb] at hsturdy
        exact ⟨rfl, hsturdy⟩
      · rw [hb] at hsturdy
        exact continueNetwork_plain hsturdy u' part

theorem endImage_plain (k : ImageKind) (up : ImageUpload) :
    Takes (u.plain.endImage f.plain k up) (u.endImage f k up) := by
  unfold PlainUploads.endImage endImage
  change Takes (u.plain.setImage none k >>= fun u =>
    (PlainUploads.replace f.policy.plain up.index up.image k).run >>= _) _
  rw [setImage_plain, ok_bind, replace_plain]
  cases hr : replace f.policy up.index up.image k with
  | error e => exact ⟨rfl, h⟩
  | ok p => exact ⟨rfl, h⟩

theorem continueImage_plain (k : ImageKind) (index : UInt32) (part : Fragment) :
    Takes (u.plain.continueImage f.plain k index part) (u.continueImage f k index part) := by
  unfold PlainUploads.continueImage continueImage
  rw [image?_plain, ok_bind]
  cases (u.image? k).filter (·.index = index) with
  | none => exact ⟨rfl, h⟩
  | some up =>
    simp only
    by_cases hpast : up.image.length < part.offset.toNat + part.data.length
    · rw [if_pos hpast, if_pos hpast]
      exact ⟨rfl, h⟩
    · -- the part ends inside the image, so it has a place there
      rw [if_neg hpast, if_neg hpast, paste_of_le (Nat.not_lt.mp hpast), ok_bind]
      cases part.isEnd with
      | true => exact endImage_plain h u k _
      | false =>
        refine ⟨?_, h⟩
        simp only [Bool.false_eq_true, if_false]
        rw [setImage_plain]
        rfl

theorem applyImage_plain (k : ImageKind) (part : Fragment) :
    Takes (u.plain.applyImage f.plain k part) (u.applyImage f k part) := by
  unfold PlainUploads.applyImage applyImage
  by_cases hclass : (k = .classRules && 256 ≤ part.index.toNat) = true
  · rw [if_pos hclass, if_pos hclass]
    exact ⟨rfl, h⟩
  · rw [if_neg hclass, if_neg hclass]
    cases part.isBegin with
    | false => exact continueImage_plain h u k _ part
    | true =>
      simp only [if_true]
      rw [setImage_plain, ok_bind]
      exact continueImage_plain h _ k _ part

theorem applyKind_plain (kind : TableKind) (part : Fragment) :
    Takes (u.plain.applyKind f.plain kind part) (u.applyKind f kind part) := by
  unfold PlainUploads.applyKind applyKind
  by_cases hlong : maxFragmentLen < part.data.length
  · rw [if_pos hlong, if_pos hlong]
    exact ⟨rfl, h⟩
  · rw [if_neg hlong, if_neg hlong]
    cases kind with
    | network => exact applyNetwork_plain h u part
    | classRules => exact applyImage_plain h u .classRules part
    | reject => exact applyImage_plain h u .reject part
    | allow => exact applyImage_plain h u .allow part

/-- No part of a table meets a fault. -/
theorem apply_plain (part : Fragment) : Takes (u.plain.apply f.plain part) (u.apply f part) := by
  unfold PlainUploads.apply apply
  cases TableKind.ofByte? part.kind with
  | none => exact ⟨rfl, h⟩
  | some kind =>
    obtain ⟨heq, hsturdy⟩ := applyKind_plain h u kind part
    simp only
    rw [heq, ok_bind]
    rcases hr : u.applyKind f kind part with ⟨u', f', e | ⟨⟩⟩
    · rw [hr] at hsturdy
      obtain ⟨habort, haborted⟩ := abort_plain hsturdy u' kind
      refine ⟨?_, haborted⟩
      simp only
      rw [habort]
      rfl
    · rw [hr] at hsturdy
      exact ⟨rfl, hsturdy⟩

end Uploads

end FilterBridge
