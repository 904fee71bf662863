import FilterBridge.Bytes

/-!
# The table arena

Host tables live in blocks of a bounded arena.  A block is named by the slot
that holds it; a freed slot is used again by the next allocation, the slot freed
last first.

## Main definitions

* `Arena` — blocks, free slots and the bytes in use.
* `Arena.block?` — the block in a slot, the view that the operations are
  described by.
* `Arena.alloc`, `Arena.release` — taking a zeroed block and giving it back.
* `Arena.write`, `Arena.read`, `Arena.blockLen` — access to one block.
-/

namespace FilterBridge

/-- The number of a slot of the arena. -/
abbrev Slot := Nat

/-- Why an access to the arena failed. -/
inductive ArenaError
  /-- Fewer bytes are free than were asked for. -/
  | exhausted (requested available : Nat)
  /-- The slot holds no block. -/
  | invalidHandle (slot : Slot)
  /-- The access leaves the block. -/
  | outOfBounds (offset len size : Nat)
  deriving DecidableEq, Repr, Inhabited

/-- The text of an arena error. -/
def ArenaError.message : ArenaError → String
  | exhausted requested available =>
    s!"arena exhausted: requested {requested} bytes, {available} available"
  | invalidHandle slot => s!"stale arena handle {slot}"
  | outOfBounds offset len size =>
    s!"arena access out of bounds: offset {offset} + {len} > {size}"

/-- A bounded store of byte blocks. -/
structure Arena where
  /-- How many bytes all blocks together may have. -/
  capacity : Nat := 4194304
  /-- The blocks by slot; a slot that was freed is empty. -/
  blocks : Array (Option Bytes) := #[]
  /-- The empty slots, the one freed last first. -/
  free : List Slot := []
  /-- How many bytes the blocks have together. -/
  inUse : Nat := 0
  deriving Repr, Inhabited

namespace Arena

/-- The block in a slot. -/
def block? (a : Arena) (slot : Slot) : Option Bytes := (a.blocks[slot]?).join

/-- The bytes that can still be taken. -/
def available (a : Arena) : Nat := a.capacity - a.inUse

/-- Take a block of zero bytes, in the slot freed last or else in a new one. -/
def alloc (a : Arena) (size : Nat) : Except ArenaError (Arena × Slot) :=
  if a.available < size then .error (.exhausted size a.available)
  else
    let block := some (Bytes.zeros size)
    match a.free with
    | slot :: rest =>
      .ok ({ a with
        blocks := a.blocks.setIfInBounds slot block, free := rest, inUse := a.inUse + size }, slot)
    | [] =>
      .ok ({ a with blocks := a.blocks.push block, inUse := a.inUse + size }, a.blocks.size)

/-- Give the block in a slot back; an empty slot stays as it is. -/
def release (a : Arena) (slot : Slot) : Arena :=
  match a.block? slot with
  | some block =>
    { a with
      blocks := a.blocks.setIfInBounds slot none
      free := slot :: a.free
      inUse := a.inUse - block.length }
  | none => a

/-- The block in a slot, if `len` bytes from `offset` on lie inside it. -/
def blockFor (a : Arena) (slot : Slot) (offset len : Nat) : Except ArenaError Bytes :=
  match a.block? slot with
  | none => .error (.invalidHandle slot)
  | some block =>
    if block.length < offset + len then .error (.outOfBounds offset len block.length)
    else .ok block

/-- Write `data` into the block in a slot, from `offset` on. -/
def write (a : Arena) (slot : Slot) (offset : Nat) (data : Bytes) : Except ArenaError Arena := do
  let block ← a.blockFor slot offset data.length
  return { a with blocks := a.blocks.setIfInBounds slot (some (block.overlay offset data)) }

/-- The `len` bytes from `offset` on of the block in a slot. -/
def read (a : Arena) (slot : Slot) (offset len : Nat) : Except ArenaError Bytes := do
  let block ← a.blockFor slot offset len
  return block.slice offset len

/-- The length of the block in a slot. -/
def blockLen (a : Arena) (slot : Slot) : Except ArenaError Nat :=
  match a.block? slot with
  | some block => .ok block.length
  | none => .error (.invalidHandle slot)

end Arena

end FilterBridge
