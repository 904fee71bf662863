import FilterBridge.Firewall
import FilterBridge.Message

/-!
# Loading tables

A table is loaded in parts: a first one that begins, any number after it, and
one that ends.  The parts are collected apart from the live tables, one table of
each kind at a time, and the last part makes the collected table live at once.
Whatever goes wrong ends the loading of that kind.

Host tables are collected in the arena, where they stay when they become live.

## Main definitions

* `Uploads` — what is being collected.
* `LoadError` — why a part is refused, with its `code` in a reply.
* `Uploads.apply` — take one part.
* `Uploads.abort` — give up the loading of one kind.
-/

namespace FilterBridge

/-! ### Errors -/

/-- What is wrong with a part or with the collected table. -/
inductive LoadFault
  /-- The part carries too many bytes. -/
  | tooLong (length : Nat)
  /-- There is no class with that number. -/
  | noSuchClass (number : UInt32)
  /-- The part reaches past the end of its table. -/
  | pastEnd (first last size : Nat)
  /-- The part does not fit its host table. -/
  | block (cause : ArenaError)
  /-- The collected image is no table. -/
  | image (fault : TableFault)
  /-- A fault known by its description alone. -/
  | described (text : String)
  deriving DecidableEq, Repr, Inhabited

/-- The text of a fault. -/
def LoadFault.message : LoadFault → String
  | tooLong length => s!"fragment of {length} bytes exceeds {maxFragmentLen}"
  | noSuchClass number => s!"class {number.toNat} out of range"
  | pastEnd first last size => s!"fragment {first}..{last} past table end {size}"
  | block cause => cause.message
  | image fault => (PolicyError.malformed fault).message
  | described text => text

/-- Why a part is refused. -/
inductive LoadError
  /-- The address is no network that can be loaded. -/
  | noNetwork (network : Address)
  /-- There is no room for the table. -/
  | noMemory
  /-- The table was not begun. -/
  | notBegun (kind : TableKind)
  /-- There is no such kind of table. -/
  | unknownKind (kind : UInt8)
  /-- The part or the collected table is invalid. -/
  | malformed (fault : LoadFault)
  deriving DecidableEq, Repr, Inhabited

namespace LoadError

/-- The text of an error. -/
def message : LoadError → String
  | noNetwork network => "not a loadable network: " ++ network.hex
  | noMemory => "out of table memory"
  | notBegun kind => s!"no {kind.name} transaction in progress"
  | unknownKind kind => s!"unknown table kind {kind.toNat}"
  | malformed fault => "bad load: " ++ fault.message

/-- The code of an error in a reply. -/
def code : LoadError → ErrorCode
  | noNetwork _ | notBegun .network => .noNetwork
  | noMemory => .noMemory
  | notBegun _ | unknownKind _ | malformed _ => .command

end LoadError

/-! ### What is collected -/

/-- A host table that is being collected. -/
structure HostUpload where
  /-- Its network. -/
  network : Address
  /-- Its slot in the arena. -/
  slot : Slot
  deriving DecidableEq, Repr, Inhabited

/-- Another table that is being collected. -/
structure ImageUpload where
  /-- The number of the class, 0 for a list. -/
  index : UInt32
  /-- Its image so far. -/
  image : Bytes
  deriving DecidableEq, Repr, Inhabited

/-- The kinds of tables that are collected as images. -/
inductive ImageKind
  | classRules
  | reject
  | allow
  deriving DecidableEq, Repr, Inhabited

namespace ImageKind

/-- The kind of table. -/
def kind : ImageKind → TableKind
  | classRules => .classRules
  | reject => .reject
  | allow => .allow

/-- The length of an image. -/
def imageLen : ImageKind → Nat
  | classRules => ClassRules.imageLen
  | reject => rejectImageLen
  | allow => allowImageLen

end ImageKind

/-- What is being collected of each kind. -/
structure Uploads where
  network : Option HostUpload := none
  classRules : Option ImageUpload := none
  reject : Option ImageUpload := none
  allow : Option ImageUpload := none
  deriving DecidableEq, Repr, Inhabited

namespace Uploads

/-- The image that is being collected of a kind. -/
def image? (u : Uploads) : ImageKind → Option ImageUpload
  | .classRules => u.classRules
  | .reject => u.reject
  | .allow => u.allow

/-- Set the image that is being collected of a kind. -/
def setImage (u : Uploads) (up : Option ImageUpload) : ImageKind → Uploads
  | .classRules => { u with classRules := up }
  | .reject => { u with reject := up }
  | .allow => { u with allow := up }

/-- Whether a table of a kind is being collected. -/
def inProgress (u : Uploads) : TableKind → Bool
  | .network => u.network.isSome
  | .classRules => u.classRules.isSome
  | .reject => u.reject.isSome
  | .allow => u.allow.isSome

@[simp] theorem image?_setImage (u : Uploads) (up : Option ImageUpload) (k : ImageKind) :
    (u.setImage up k).image? k = up := by cases k <;> rfl

/-- Give up the host table that is being collected. -/
def abortNetwork (u : Uploads) (f : Firewall) : Uploads × Firewall :=
  match u.network with
  | some up => ({ u with network := none }, { f with classifier := f.classifier.free up.slot })
  | none => (u, f)

/-- Give up the table of a kind that is being collected. -/
def abort (u : Uploads) (f : Firewall) : TableKind → Uploads × Firewall
  | .network => u.abortNetwork f
  | .classRules => (u.setImage none .classRules, f)
  | .reject => (u.setImage none .reject, f)
  | .allow => (u.setImage none .allow, f)

@[simp] theorem inProgress_abort (u : Uploads) (f : Firewall) (k : TableKind) :
    (u.abort f k).1.inProgress k = false := by
  cases k with
  | network => cases h : u.network <;> simp [abort, abortNetwork, inProgress, h]
  | _ => rfl

/-! ### Host tables -/

/-- Begin a host table of zeros, in place of one that is being collected. -/
def beginNetwork (u : Uploads) (f : Firewall) (network : Address) :
    Uploads × Firewall × Except LoadError Unit :=
  match u.abortNetwork f with
  | (u, f) =>
    match f.classifier.alloc network with
    | .ok (classifier, slot) =>
      ({ u with network := some ⟨network, slot⟩ }, { f with classifier }, .ok ())
    | .error .outOfMemory => (u, f, .error .noMemory)
    | .error _ => (u, f, .error (.noNetwork network))

/-- Make the collected host table live. -/
def endNetwork (u : Uploads) (f : Firewall) (up : HostUpload) :
    Uploads × Firewall × Except LoadError Unit :=
  match f.classifier.install up.network up.slot with
  | (classifier, .ok ()) => ({ u with network := none }, { f with classifier }, .ok ())
  | (classifier, .error _) =>
    ({ u with network := none }, { f with classifier }, .error .noMemory)

/-- Put a part into the collected host table; the last part makes it live. -/
def continueNetwork (u : Uploads) (f : Firewall) (part : Fragment) :
    Uploads × Firewall × Except LoadError Unit :=
  match u.network.filter (·.network = part.index) with
  | none => (u, f, .error (.notBegun .network))
  | some up =>
    match f.classifier.write up.slot part.offset.toNat part.data with
    | .error e => (u, f, .error (.malformed (.block e)))
    | .ok classifier =>
      let f := { f with classifier }
      if part.isEnd then u.endNetwork f up else (u, f, .ok ())

/-- Whether an address is a network that can be loaded. -/
def loadable (network : Address) : Bool := network.split?.any (·.network = network)

/-- Take a part of a host table. -/
def applyNetwork (u : Uploads) (f : Firewall) (part : Fragment) :
    Uploads × Firewall × Except LoadError Unit :=
  if !loadable part.index then (u, f, .error (.noNetwork part.index))
  else if part.isBegin then
    match u.beginNetwork f part.index with
    | (u, f, .ok ()) => u.continueNetwork f part
    | (u, f, .error e) => (u, f, .error e)
  else u.continueNetwork f part

/-! ### Other tables -/

/-- Put the table with the given image into the policy. -/
def replace (p : Policy) (index : UInt32) (image : Bytes) :
    ImageKind → Except TableFault Policy
  | .classRules => do return p.replaceClass (.ofNat index.toNat) (← ClassRules.ofImage image)
  | .reject => do return p.replaceReject (← rejectRulesOfImage image)
  | .allow => do return p.replaceAllow (← allowRulesOfImage image)

/-- Make the collected table live. -/
def endImage (u : Uploads) (f : Firewall) (k : ImageKind) (up : ImageUpload) :
    Uploads × Firewall × Except LoadError Unit :=
  let u := u.setImage none k
  match replace f.policy up.index up.image k with
  | .ok policy => (u, { f with policy }, .ok ())
  | .error fault => (u, f, .error (.malformed (.image fault)))

/-- Put a part into the collected table; the last part makes it live. -/
def continueImage (u : Uploads) (f : Firewall) (k : ImageKind) (index : UInt32)
    (part : Fragment) : Uploads × Firewall × Except LoadError Unit :=
  match (u.image? k).filter (·.index = index) with
  | none => (u, f, .error (.notBegun k.kind))
  | some up =>
    let first := part.offset.toNat
    let last := first + part.data.length
    if up.image.length < last then
      (u, f, .error (.malformed (.pastEnd first last up.image.length)))
    else
      let up := { up with image := up.image.overlay first part.data }
      if part.isEnd then u.endImage f k up else (u.setImage (some up) k, f, .ok ())

/-- Take a part of a table other than a host table.  Only classes are numbered. -/
def applyImage (u : Uploads) (f : Firewall) (k : ImageKind) (part : Fragment) :
    Uploads × Firewall × Except LoadError Unit :=
  if k = .classRules && 256 ≤ part.index.toNat then
    (u, f, .error (.malformed (.noSuchClass part.index)))
  else
    let index := if k = .classRules then part.index else 0
    let u := if part.isBegin then
        u.setImage (some { index, image := Bytes.zeros k.imageLen }) k
      else u
    u.continueImage f k index part

/-! ### Any table -/

/-- Take a part of a known kind, an error notwithstanding. -/
def applyKind (u : Uploads) (f : Firewall) (kind : TableKind) (part : Fragment) :
    Uploads × Firewall × Except LoadError Unit :=
  if maxFragmentLen < part.data.length then
    (u, f, .error (.malformed (.tooLong part.data.length)))
  else
    match kind with
    | .network => u.applyNetwork f part
    | .classRules => u.applyImage f .classRules part
    | .reject => u.applyImage f .reject part
    | .allow => u.applyImage f .allow part

/-- Take a part.  An error ends the loading of its kind. -/
def apply (u : Uploads) (f : Firewall) (part : Fragment) :
    Uploads × Firewall × Except LoadError Unit :=
  match TableKind.ofByte? part.kind with
  | none => (u, f, .error (.unknownKind part.kind))
  | some kind =>
    match u.applyKind f kind part with
    | (u, f, .ok ()) => (u, f, .ok ())
    | (u, f, .error e) =>
      match u.abort f kind with
      | (u, f) => (u, f, .error e)

end Uploads

end FilterBridge
