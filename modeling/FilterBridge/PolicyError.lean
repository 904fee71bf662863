import FilterBridge.Address
import FilterBridge.Arena

/-!
# Errors of the policy tables

## Main definitions

* `TableFault` — what is wrong with a table image or with access to a table.
* `TableFull` — the network table has no room.
* `PolicyError` — why an operation on the policy tables failed.
* `TableFault.message`, `TableFull.message`, `PolicyError.message` — their texts.
-/

namespace FilterBridge

/-- What is wrong with a table. -/
inductive TableFault
  /-- Fewer bytes are left than a port list has. -/
  | shortPortList (left : Nat)
  /-- Fewer bytes are left than an allow rule has. -/
  | shortAllowRule
  /-- Fewer bytes are left than a reject rule has. -/
  | shortRejectRule
  /-- The image of a whole table has the wrong length. -/
  | imageLength (table : String) (length expected : Nat)
  /-- The image of a host table has the wrong length for its network. -/
  | hostTableLength (network : Address) (length expected : Nat)
  /-- The block of a host table cannot be accessed. -/
  | block (cause : ArenaError)
  /-- A fault known by its description alone. -/
  | described (text : String)
  deriving DecidableEq, Repr, Inhabited

/-- The text of a table fault. -/
def TableFault.message : TableFault → String
  | shortPortList left => s!"port list needs 128 bytes, {left} left"
  | shortAllowRule => "truncated allow entry"
  | shortRejectRule => "truncated reject entry"
  | imageLength table length expected => s!"{table} image is {length} bytes, expected {expected}"
  | hostTableLength network length expected =>
    s!"host table for {network.dotted} is {length} bytes, expected {expected}"
  | block cause => cause.message
  | described text => text

/-- The network table has no room for another network. -/
structure TableFull where
  /-- The number of slots of the table. -/
  slots : Nat
  deriving DecidableEq, Repr, Inhabited

/-- The text for a network table with no room left. -/
def TableFull.message (e : TableFull) : String := s!"network table full ({e.slots} slots)"

/-- Why an operation on the policy tables failed. -/
inductive PolicyError
  /-- No host table is installed for the network. -/
  | notLoaded (network : Address)
  /-- The address is on no class B or C network. -/
  | unsupportedAddress (address : Address)
  /-- The arena is exhausted. -/
  | outOfMemory
  /-- A table has the wrong shape. -/
  | malformed (fault : TableFault)
  /-- The network table is full. -/
  | tableFull (cause : TableFull)
  /-- A device or file could not be used. -/
  | io (text : String)
  /-- The configuration is invalid. -/
  | config (text : String)
  deriving DecidableEq, Repr, Inhabited

/-- The text of a policy error. -/
def PolicyError.message : PolicyError → String
  | notLoaded network => "network not loaded: " ++ network.hex
  | unsupportedAddress address => "unsupported address class for " ++ address.hex
  | outOfMemory => "out of table memory"
  | malformed fault => "malformed table image: " ++ fault.message
  | tableFull cause => "config error: " ++ cause.message
  | io text => "IO error: " ++ text
  | config text => "config error: " ++ text

end FilterBridge
