import FilterBridge.PortList

/-!
# Access rules

A class of hosts has four port lists.  Beside the classes there are two lists of
networks: one whose inbound packets are rejected, one that grants further
outbound ports.  In both the first network that matches counts, and a network
number 0 ends the list.

## Main definitions

* `ClassRules` — the port lists of one class.
* `Subnet`, `AllowRule` — a network under a mask, and the ports granted to it.
* `firstMatch?` — the first rule for an address.
* `encode`, `decode` of each, and `ClassRules.ofImage`, `allowRulesOfImage`,
  `rejectRulesOfImage` — their images.
-/

namespace FilterBridge

/-! ### Classes -/

/-- The port lists of a class of hosts. -/
structure ClassRules where
  /-- Inbound TCP, by destination port. -/
  inbound : PortList := .allowAll
  /-- Outbound TCP, by destination port. -/
  outbound : PortList := .allowAll
  /-- Inbound TCP to high ports, by source port. -/
  source : PortList := .allowAll
  /-- UDP, by destination port. -/
  udp : PortList := .allowAll
  deriving DecidableEq, Repr, Inhabited

namespace ClassRules

/-- The length of the image of a class. -/
def imageLen : Nat := 512

/-- The image of a class: those of its four lists. -/
def encode (c : ClassRules) : Bytes :=
  c.inbound.encode ++ c.outbound.encode ++ c.source.encode ++ c.udp.encode

/-- The class whose image starts a byte string, and the bytes after it. -/
def decode (bs : Bytes) : Except TableFault (ClassRules × Bytes) := do
  let (inbound, bs) ← PortList.decode bs
  let (outbound, bs) ← PortList.decode bs
  let (source, bs) ← PortList.decode bs
  let (udp, bs) ← PortList.decode bs
  return ({ inbound, outbound, source, udp }, bs)

end ClassRules

/-! ### Networks -/

/-- The addresses that agree with `network` under `mask`. -/
structure Subnet where
  /-- The network number; 0 ends a list. -/
  network : Address
  /-- The bits that count. -/
  mask : Address
  deriving DecidableEq, Repr, Inhabited

namespace Subnet

/-- Whether an address agrees with the network under the mask. -/
def contains (s : Subnet) (ip : Address) : Bool := s.network &&& s.mask = ip &&& s.mask

/-- The length of the image of a network. -/
def imageLen : Nat := 8

/-- The image of a network: number and mask. -/
def encode (s : Subnet) : Bytes := Bytes.ofU32 s.network ++ Bytes.ofU32 s.mask

/-- The network whose image starts a byte string, and the bytes after it. -/
def decode? : Bytes → Option (Subnet × Bytes)
  | a :: b :: c :: d :: e :: f :: g :: h :: rest =>
    some (⟨Bytes.u32 a b c d, Bytes.u32 e f g h⟩, rest)
  | _ => none

/-- Read one rule of the reject list. -/
def decode (bs : Bytes) : Except TableFault (Subnet × Bytes) :=
  match decode? bs with
  | some r => .ok r
  | none => .error .shortRejectRule

@[simp] theorem length_encode (s : Subnet) : s.encode.length = 8 := rfl

theorem decode?_encode (s : Subnet) (rest : Bytes) :
    decode? (s.encode ++ rest) = some (s, rest) := by
  simp only [encode, Bytes.ofU32, List.cons_append, List.nil_append, decode?, Bytes.u32_ofU32]

end Subnet

/-- A network that is granted outbound ports. -/
structure AllowRule where
  /-- The network. -/
  subnet : Subnet
  /-- The ports granted to it. -/
  ports : PortList
  deriving DecidableEq, Repr, Inhabited

namespace AllowRule

/-- The length of the image of an allow rule. -/
def imageLen : Nat := 136

/-- The image of an allow rule: its network, then its ports. -/
def encode (r : AllowRule) : Bytes := r.subnet.encode ++ r.ports.encode

/-- Read one rule of the allow list. -/
def decode (bs : Bytes) : Except TableFault (AllowRule × Bytes) :=
  if (bs.take imageLen).length < imageLen then .error .shortAllowRule
  else
    match Subnet.decode? bs with
    | none => .error .shortAllowRule
    | some (subnet, bs) => do
      let (ports, bs) ← PortList.decode bs
      return (⟨subnet, ports⟩, bs)

end AllowRule

/-- The first rule whose network contains an address; a rule for network 0 ends
the list. -/
def firstMatch? {α : Type} (subnet : α → Subnet) (ip : Address) : List α → Option α
  | [] => none
  | r :: rules =>
    if (subnet r).network = 0 then none
    else if (subnet r).contains ip then some r
    else firstMatch? subnet ip rules

/-- The first rejected network that contains an address. -/
def rejects? (rules : List Subnet) (ip : Address) : Option Subnet := firstMatch? id ip rules

/-- The first allow rule for an address. -/
def allows? (rules : List AllowRule) (ip : Address) : Option AllowRule :=
  firstMatch? (·.subnet) ip rules

/-! ### Whole tables -/

/-- The number of rules in the image of the reject list. -/
def maxRejectRules : Nat := 256

/-- The length of the image of the reject list. -/
def rejectImageLen : Nat := 2048

/-- The number of rules in the image of the allow list. -/
def maxAllowRules : Nat := 32

/-- The length of the image of the allow list. -/
def allowImageLen : Nat := 4352

/-- The image of a reject list: as many rules as fit, then zeros. -/
def encodeRejectRules (rules : List Subnet) : Bytes :=
  Bytes.padTo rejectImageLen ((rules.take maxRejectRules).flatMap Subnet.encode)

/-- The image of an allow list: as many rules as fit, then zeros. -/
def encodeAllowRules (rules : List AllowRule) : Bytes :=
  Bytes.padTo allowImageLen ((rules.take maxAllowRules).flatMap AllowRule.encode)

/-- Read up to `n` rules, up to one for network 0. -/
def decodeRules {α : Type} (subnet : α → Subnet)
    (decode : Bytes → Except TableFault (α × Bytes)) : Nat → Bytes → Except TableFault (List α)
  | 0, _ => .ok []
  | n + 1, bs => do
    let (r, bs) ← decode bs
    if (subnet r).network = 0 then return []
    return r :: (← decodeRules subnet decode n bs)

/-- Refuse the image of a table that has not the expected length. -/
def checkImage (table : String) (image : Bytes) (expected : Nat) : Except TableFault Unit :=
  if image.length = expected then .ok () else .error (.imageLength table image.length expected)

/-- The reject list with the given image. -/
def rejectRulesOfImage (image : Bytes) : Except TableFault (List Subnet) := do
  checkImage "reject" image rejectImageLen
  decodeRules id Subnet.decode maxRejectRules image

/-- The allow list with the given image. -/
def allowRulesOfImage (image : Bytes) : Except TableFault (List AllowRule) := do
  checkImage "allow" image allowImageLen
  decodeRules (·.subnet) AllowRule.decode maxAllowRules image

/-- The class with the given image. -/
def ClassRules.ofImage (image : Bytes) : Except TableFault ClassRules := do
  checkImage "class" image imageLen
  return (← ClassRules.decode image).1

end FilterBridge
