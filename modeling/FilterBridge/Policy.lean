import FilterBridge.Rules

/-!
# The policy

The policy is what the filter decides by, apart from the classification of
hosts: the rules of the 256 classes, the reject list and the allow list.  Each
of these three tables has a flag that says whether it changed since it was last
persisted.

## Main definitions

* `Table` — the names of the three tables.
* `Policy` — the tables and their flags.
* `Policy.replaceClass`, `Policy.replaceAllow`, `Policy.replaceReject`,
  `Policy.reset` — changes.
* `Policy.encode`, `Policy.install` — the image of a table.
-/

namespace FilterBridge

/-- The tables of the policy. -/
inductive Table
  /-- The networks whose inbound packets are rejected. -/
  | reject
  /-- The networks that are granted outbound ports. -/
  | allow
  /-- The rules of all classes. -/
  | classes
  deriving DecidableEq, Repr, Inhabited

/-- The tables in the order in which they are written and read back. -/
def Table.all : List Table := [.reject, .allow, .classes]

/-- The length of the image of all classes. -/
def classesImageLen : Nat := 131072

/-- The tables that the filter decides by. -/
structure Policy where
  /-- The rules of each class. -/
  classes : Vector ClassRules 256 := Vector.replicate 256 {}
  /-- The allow list. -/
  allow : List AllowRule := []
  /-- The reject list. -/
  reject : List Subnet := []
  /-- Whether some class changed. -/
  classesDirty : Bool := false
  /-- Whether the allow list changed. -/
  allowDirty : Bool := false
  /-- Whether the reject list changed. -/
  rejectDirty : Bool := false
  deriving DecidableEq, Repr, Inhabited

namespace Policy

/-- The rules of a class. -/
def rules (p : Policy) (k : PolicyClass) : ClassRules :=
  have : k.toNat < 256 := k.toNat_lt
  p.classes[k.toNat]

/-- Whether a table changed since it was last persisted. -/
def isDirty (p : Policy) : Table → Bool
  | .reject => p.rejectDirty
  | .allow => p.allowDirty
  | .classes => p.classesDirty

/-- Set the flag of a table. -/
def setDirty (p : Policy) (dirty : Bool) : Table → Policy
  | .reject => { p with rejectDirty := dirty }
  | .allow => { p with allowDirty := dirty }
  | .classes => { p with classesDirty := dirty }

/-- Replace the rules of a class. -/
def replaceClass (p : Policy) (k : PolicyClass) (rules : ClassRules) : Policy :=
  { p with
    classes := p.classes.set k.toNat rules (by simpa using k.toNat_lt)
    classesDirty := true }

/-- Replace the allow list. -/
def replaceAllow (p : Policy) (rules : List AllowRule) : Policy :=
  { p with allow := rules, allowDirty := true }

/-- Replace the reject list. -/
def replaceReject (p : Policy) (rules : List Subnet) : Policy :=
  { p with reject := rules, rejectDirty := true }

/-- Put a table back to its default; it then counts as persisted. -/
def reset (p : Policy) : Table → Policy
  | .reject => { p with reject := [], rejectDirty := false }
  | .allow => { p with allow := [], allowDirty := false }
  | .classes => { p with classes := Vector.replicate 256 {}, classesDirty := false }

@[simp] theorem isDirty_setDirty (p : Policy) (dirty : Bool) (t : Table) :
    (p.setDirty dirty t).isDirty t = dirty := by cases t <;> rfl

@[simp] theorem isDirty_reset (p : Policy) (t : Table) : (p.reset t).isDirty t = false := by
  cases t <;> rfl

@[simp] theorem rules_replaceClass (p : Policy) (k : PolicyClass) (rules : ClassRules) :
    (p.replaceClass k rules).rules k = rules := by
  simp [Policy.rules, replaceClass]

/-! ### Images -/

/-- The image of a table. -/
def encode (p : Policy) : Table → Bytes
  | .reject => encodeRejectRules p.reject
  | .allow => encodeAllowRules p.allow
  | .classes => p.classes.toList.flatMap ClassRules.encode

/-- The next `n` classes in a byte string. -/
def decodeClasses : (n : Nat) → Bytes → Except TableFault (Vector ClassRules n)
  | 0, _ => .ok #v[]
  | n + 1, bs => do
    let (c, bs) ← ClassRules.decode bs
    return (#v[c] ++ (← decodeClasses n bs)).cast (Nat.add_comm 1 n)

/-- Replace a table by the one with the given image; it then counts as
persisted. -/
def install (p : Policy) (image : Bytes) : Table → Except TableFault Policy
  | .reject => do
    return { p with reject := ← rejectRulesOfImage image, rejectDirty := false }
  | .allow => do
    return { p with allow := ← allowRulesOfImage image, allowDirty := false }
  | .classes => do
    checkImage "class" image classesImageLen
    return { p with classes := ← decodeClasses 256 image, classesDirty := false }

end Policy

end FilterBridge
