import FilterBridge.PolicyError

/-!
# Port lists

A port list holds ranges of ports, in an order that matters: the first range
that ends at or above a port decides about it.  A range that begins at port 0
ends the list.

## Main definitions

* `PortRange`, `PortList` — ranges and lists of them.
* `PortList.ofRanges` — a list from pairs, closed by a final row.
* `PortList.admits` — whether a list admits a port.
* `PortList.encode`, `PortList.decode` — the image of a list, 32 rows of 4 bytes.
-/

namespace FilterBridge

/-- The ports from `first` to `last`. -/
structure PortRange where
  /-- The lowest port; 0 in a row that ends its list. -/
  first : UInt16
  /-- The highest port. -/
  last : UInt16
  deriving DecidableEq, Repr, Inhabited

/-- The rows of a port list, the row that ends it included. -/
structure PortList where
  /-- The rows. -/
  rows : List PortRange
  deriving DecidableEq, Repr

namespace PortRange

/-- The row that ends a list. -/
def final : PortRange := ⟨0, 0⟩

/-- Whether a row ends its list. -/
def isFinal (r : PortRange) : Bool := r.first = 0

/-- The four bytes of a row. -/
def encode (r : PortRange) : Bytes := Bytes.ofU16 r.first ++ Bytes.ofU16 r.last

@[simp] theorem isFinal_final : final.isFinal = true := rfl

@[simp] theorem length_encode (r : PortRange) : r.encode.length = 4 := rfl

end PortRange

namespace PortList

/-- How many rows a list has in its image. -/
def maxRows : Nat := 32

/-- The length of the image of a list. -/
def imageLen : Nat := 128

/-- The list with the given ranges and a final row; only the first 31 ranges
count. -/
def ofRanges (ranges : List (UInt16 × UInt16)) : PortList :=
  ⟨(ranges.take (maxRows - 1)).map (fun r => ⟨r.1, r.2⟩) ++ [.final]⟩

/-- The list that admits no port. -/
def denyAll : PortList := ⟨[.final]⟩

/-- The list that admits every port but 0. -/
def allowAll : PortList := ofRanges [(1, 65535)]

instance : Inhabited PortList := ⟨allowAll⟩

/-- Whether the first row that ends at or above a port begins at or below it,
with no final row before. -/
def admitsRow (port : UInt16) : List PortRange → Bool
  | [] => false
  | r :: rows =>
    if r.isFinal then false
    else if port ≤ r.last then r.first ≤ port
    else admitsRow port rows

/-- Whether a list admits a port. -/
def admits (l : PortList) (port : UInt16) : Bool := admitsRow port l.rows

@[simp] theorem admits_denyAll (port : UInt16) : denyAll.admits port = false := rfl

/-! ### Images -/

/-- The image of a list: its first 32 rows, filled up with final rows. -/
def encode (l : PortList) : Bytes :=
  (l.rows.take maxRows ++ List.replicate (maxRows - l.rows.length) PortRange.final).flatMap
    PortRange.encode

/-- The rows that the given bytes spell, up to and with a final row. -/
def rowsOf : Bytes → List PortRange
  | a :: b :: c :: d :: rest =>
    let r : PortRange := ⟨Bytes.u16 a b, Bytes.u16 c d⟩
    if r.isFinal then [r] else r :: rowsOf rest
  | _ => []

/-- The list whose image starts a byte string, and the bytes after it. -/
def decode (bs : Bytes) : Except TableFault (PortList × Bytes) :=
  let image := bs.take imageLen
  if image.length < imageLen then .error (.shortPortList bs.length)
  else .ok (⟨rowsOf image⟩, bs.drop imageLen)

end PortList

end FilterBridge
