import FilterBridge.PolicyError

/-!
# The table of networks

Networks are found by open addressing: a network sits in the first slot, from
its home slot on, that was empty when it came.  One slot always stays empty, so
every search ends.  Removing a network closes the gap it leaves: each later
entry of the cluster whose search would pass the gap moves back into it.

## Main definitions

* `NetworkEntry`, `NetworkTable` — the entries and their slots.
* `NetworkTable.get?` — the entry of a network, the view that the operations
  are described by.
* `NetworkTable.insert`, `NetworkTable.erase?`, `NetworkTable.setDirty` — changes.
* `NetworkTable.toList` — the entries in slot order.
-/

namespace FilterBridge

/-- A network with its host table. -/
structure NetworkEntry where
  /-- The network number. -/
  network : Address
  /-- The arena slot of its host table. -/
  table : Slot
  /-- Whether it changed since it was last persisted. -/
  dirty : Bool
  deriving DecidableEq, Repr, Inhabited

/-- The slots of the networks, and how many hold one. -/
structure NetworkTable where
  /-- The slots; their number is a power of two. -/
  slots : Array (Option NetworkEntry)
  /-- How many slots are taken. -/
  count : Nat
  deriving Repr, Inhabited

namespace NetworkTable

/-- The empty table with at least `n` slots, and never fewer than two. -/
def withCapacity (n : Nat) : NetworkTable where
  slots := Array.replicate (max n 2).nextPowerOfTwo none
  count := 0

/-- The empty table of 1024 slots. -/
def empty : NetworkTable := withCapacity 1024

/-- The number of slots. -/
def capacity (t : NetworkTable) : Nat := t.slots.size

/-- The entry in a slot. -/
def slot (t : NetworkTable) (i : Nat) : Option NetworkEntry := (t.slots[i]?).join

/-- The FNV-1a hash of the four bytes of an address. -/
def hash (network : Address) : UInt64 :=
  (Bytes.ofU32 network).foldl (fun h b => (h ^^^ b.toUInt64) * 0x100000001b3) 0xcbf29ce484222325

/-- The slot where the search for a network starts. -/
def home (t : NetworkTable) (network : Address) : Nat := (hash network).toNat % t.capacity

/-- The slot after slot `i`, in a circle. -/
def next (t : NetworkTable) (i : Nat) : Nat := (i + 1) % t.capacity

/-- Search `fuel` slots from slot `i` on for a network, up to an empty slot. -/
def search (t : NetworkTable) (network : Address) : Nat → Nat → Option Nat
  | 0, _ => none
  | fuel + 1, i =>
    match t.slot i with
    | none => none
    | some e => if e.network = network then some i else t.search network fuel (t.next i)

/-- The slot that holds a network. -/
def position? (t : NetworkTable) (network : Address) : Option Nat :=
  t.search network t.capacity (t.home network)

/-- The entry of a network. -/
def get? (t : NetworkTable) (network : Address) : Option NetworkEntry :=
  (t.position? network).bind t.slot

/-- Whether a network is present. -/
def contains (t : NetworkTable) (network : Address) : Bool := (t.get? network).isSome

/-- Whether a network is present or there is room for it. -/
def canInsert (t : NetworkTable) (network : Address) : Bool :=
  t.count + 1 < t.capacity || (t.position? network).isSome

/-- The entries in slot order. -/
def toList (t : NetworkTable) : List NetworkEntry := t.slots.toList.filterMap id

/-- Put an entry into a slot. -/
def setSlot (t : NetworkTable) (i : Nat) (e : Option NetworkEntry) : NetworkTable :=
  { t with slots := t.slots.setIfInBounds i e }

/-- The first of `fuel` slots from slot `i` on that is empty. -/
def firstEmpty (t : NetworkTable) : Nat → Nat → Nat
  | 0, i => i
  | fuel + 1, i => if (t.slot i).isSome then t.firstEmpty fuel (t.next i) else i

/-- Give a network a host table, and mark it changed, in a table with room for
it.  The host table that it had before comes back. -/
def place (t : NetworkTable) (network : Address) (table : Slot) : NetworkTable × Option Slot :=
  let entry := some ⟨network, table, true⟩
  match t.position? network with
  | some i =>
    let old := (t.slot i).map (·.table)
    (t.setSlot i entry, old)
  | none =>
    let i := t.firstEmpty t.capacity (t.home network)
    match t with
    | ⟨slots, count⟩ => (⟨slots.setIfInBounds i entry, count + 1⟩, none)

/-- Give a network a host table if there is room for it: a new network needs a
slot besides the one that stays empty. -/
def insert (t : NetworkTable) (network : Address) (table : Slot) :
    Except TableFull (NetworkTable × Option Slot) :=
  if t.canInsert network then .ok (t.place network table) else .error ⟨t.capacity⟩

/-- Set the flag of a network that is present. -/
def setDirty (t : NetworkTable) (network : Address) (dirty : Bool) : NetworkTable :=
  match t.position? network with
  | some i => t.setSlot i ((t.slot i).map fun e => { e with dirty })
  | none => t

/-- Whether the search from `home` reaches slot `i` before it comes to the slot
`hole`. -/
def reachedBefore (hole home i : Nat) : Bool :=
  if hole ≤ i then hole < home && home ≤ i else hole < home || home ≤ i

/-- Close the gap at slot `hole`, looking at `fuel` slots after slot `i`. -/
def closeGap (t : NetworkTable) : Nat → Nat → Nat → NetworkTable
  | 0, _, _ => t
  | fuel + 1, hole, i =>
    let j := t.next i
    match t.slot j with
    | none => t
    | some e =>
      if reachedBefore hole (t.home e.network) j then t.closeGap fuel hole j
      else ((t.setSlot hole (some e)).setSlot j none).closeGap fuel j j

/-- Remove a network; its entry comes back. -/
def erase? (t : NetworkTable) (network : Address) : Option (NetworkTable × NetworkEntry) := do
  let i ← t.position? network
  let e ← t.slot i
  return ({ t.setSlot i none with count := t.count - 1 }.closeGap t.capacity i i, e)

end NetworkTable

end FilterBridge
