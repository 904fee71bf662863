import FilterBridge.ClassCache
import FilterBridge.NetworkTable

/-!
# Classifying hosts

The classifier finds the policy class of a host: the byte at the host's number
in the host table of its network.  Host tables live in the arena, the network
table says where, and the cache saves looking.  Whenever a network comes to have
another host table, or none, the cache is emptied.

## Main definitions

* `Classifier` — network table, arena and cache.
* `Classifier.lookup` — the class of an address, through the cache.
* `Classifier.load`, `Classifier.install`, `Classifier.release` — changes.
* `Classifier.hostTable` — the installed host table of a network.
-/

namespace FilterBridge

/-- What is known about hosts. -/
structure Classifier where
  /-- The networks. -/
  networks : NetworkTable := .empty
  /-- The host tables. -/
  arena : Arena := {}
  /-- Classes seen recently. -/
  cache : ClassCache := {}
  deriving Repr, Inhabited

namespace Classifier

/-- The classifier that knows no network, over an arena of the given capacity. -/
def withCapacity (capacity : Nat) : Classifier := { arena := { capacity } }

/-! ### Looking up -/

/-- The classes of the pair of hosts that `s` belongs to, from the host table of
its network. -/
def pair? (c : Classifier) (s : HostSplit) : Option (PolicyClass × PolicyClass) := do
  let entry ← c.networks.get? s.network
  match c.arena.read entry.table (s.host / 2 * 2) 2 with
  | .ok [even, odd] => some (even, odd)
  | _ => none

/-- The class of an address, from the cache if it is there.  A class read from a
host table is entered into the cache. -/
def lookup (c : Classifier) (ip : Address) : Classifier × PolicyClass :=
  match ip.split? with
  | none => (c, 0)
  | some s =>
    match c.cache.probe ip with
    | (cache, some k) => ({ c with cache }, k)
    | (cache, none) =>
      match c.pair? s with
      | some (even, odd) =>
        ({ c with cache := cache.fill ip even odd }, if ip.toNat % 2 = 0 then even else odd)
      | none => ({ c with cache }, 0)

/-- Empty the cache. -/
def flush (c : Classifier) : Classifier := { c with cache := c.cache.flush }

/-- The accesses and misses of the cache. -/
def cacheCounts (c : Classifier) : UInt64 × UInt64 := (c.cache.accesses, c.cache.misses)

/-- Set the counters of the cache to zero. -/
def clearCacheCounts (c : Classifier) : Classifier := { c with cache := c.cache.clearCounts }

/-! ### Host tables -/

/-- Take a host table of zeros, of the length that a network needs. -/
def alloc (c : Classifier) (network : Address) : Except PolicyError (Classifier × Slot) :=
  match network.tableLen? with
  | none => .error (.unsupportedAddress network)
  | some len =>
    match c.arena.alloc len with
    | .ok (arena, slot) => .ok ({ c with arena }, slot)
    | .error _ => .error .outOfMemory

/-- Write into a host table that is not installed yet. -/
def write (c : Classifier) (slot : Slot) (offset : Nat) (data : Bytes) :
    Except ArenaError Classifier := do
  return { c with arena := ← c.arena.write slot offset data }

/-- Give back a host table that is not installed. -/
def free (c : Classifier) (slot : Slot) : Classifier := { c with arena := c.arena.release slot }

/-- Make a host table that of a network.  The one it replaces is given back; if
there is no room, the new one is. -/
def install (c : Classifier) (network : Address) (slot : Slot) :
    Classifier × Except TableFull Unit :=
  match c.networks.insert network slot with
  | .error e => (c.free slot, .error e)
  | .ok (networks, none) => ({ c with networks }.flush, .ok ())
  | .ok (networks, some old) => (({ c with networks }.free old).flush, .ok ())

/-- Mark a network as persisted. -/
def markClean (c : Classifier) (network : Address) : Classifier :=
  { c with networks := c.networks.setDirty network false }

/-- Install a network from the image of its host table; it counts as persisted. -/
def load (c : Classifier) (network : Address) (image : Bytes) :
    Classifier × Except PolicyError Unit :=
  match network.tableLen? with
  | none => (c, .error (.unsupportedAddress network))
  | some expected =>
    if image.length ≠ expected then
      (c, .error (.malformed (.hostTableLength network image.length expected)))
    else
      match c.alloc network with
      | .error e => (c, .error e)
      | .ok (c, slot) =>
        match c.write slot 0 image with
        | .error e => (c.free slot, .error (.malformed (.block e)))
        | .ok c =>
          match c.install network slot with
          | (c, .error e) => (c, .error (.tableFull e))
          | (c, .ok ()) => (c.markClean network, .ok ())

/-- Remove a network and give its host table back; says whether it was there. -/
def release (c : Classifier) (network : Address) : Classifier × Bool :=
  match c.networks.erase? network with
  | some (networks, entry) => (({ c with networks }.free entry.table).flush, true)
  | none => (c, false)

/-- The host table of a network. -/
def hostTable (c : Classifier) (network : Address) : Except PolicyError Bytes :=
  match c.networks.get? network with
  | none => .error (.notLoaded network)
  | some entry =>
    match c.arena.block? entry.table with
    | some block => .ok block
    | none => .error (.malformed (.block (.invalidHandle entry.table)))

/-- Whether a network is loaded. -/
def contains (c : Classifier) (network : Address) : Bool := c.networks.contains network

/-- The networks that changed since they were persisted, in table order. -/
def dirtyNetworks (c : Classifier) : List Address :=
  (c.networks.toList.filter (·.dirty)).map (·.network)

end Classifier

end FilterBridge
