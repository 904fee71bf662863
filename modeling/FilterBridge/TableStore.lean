import FilterBridge.Firewall
import FilterBridge.Message

/-!
# Persisted tables

A store keeps the image of each policy table, the host tables of networks and the
password.  Any of its operations may fail.

## Main definitions

* `StoreError` — why an operation failed, and its codes in a reply.
* `TableStore` — the operations of a store.
* `Firewall.boot` — install all that is persisted.
* `MapStore` — a store kept in memory, whose operations fail as it is told.
-/

namespace FilterBridge

/-! ### Errors -/

/-- What could not be done. -/
inductive StoreFailure
  /-- Opening or creating a file. -/
  | opening
  /-- Writing a file. -/
  | writing
  /-- Removing a file. -/
  | removing
  deriving DecidableEq, Repr, Inhabited

/-- Why an operation on a store failed. -/
structure StoreError where
  /-- What could not be done. -/
  failure : StoreFailure
  /-- The path of the file. -/
  path : String
  /-- The cause. -/
  cause : String
  deriving DecidableEq, Repr, Inhabited

namespace StoreError

/-- The text of an error. -/
def message (e : StoreError) : String :=
  (match e.failure with
    | .opening => "cannot open "
    | .writing => "cannot write "
    | .removing => "cannot remove ") ++ e.path ++ ": " ++ e.cause

/-- The code of an error about tables. -/
def dataCode (e : StoreError) : ErrorCode :=
  match e.failure with
  | .opening | .removing => .dataFile
  | .writing => .dataWrite

/-- The code of an error about the password. -/
def passwordCode (e : StoreError) : ErrorCode :=
  match e.failure with
  | .opening | .removing => .passFile
  | .writing => .passWrite

end StoreError

/-! ### Stores -/

/-- The operations of a store. -/
class TableStore (σ : Type) where
  /-- Persist the image of a table. -/
  writeTable : σ → Table → Bytes → σ × Except StoreError Unit
  /-- Forget the image of a table. -/
  removeTable : σ → Table → σ × Except StoreError Unit
  /-- Persist the host table of a network. -/
  writeNetwork : σ → Address → Bytes → σ × Except StoreError Unit
  /-- Forget the host table of a network. -/
  removeNetwork : σ → Address → σ × Except StoreError Unit
  /-- Persist the password. -/
  writePassword : σ → Bytes → σ × Except StoreError Unit
  /-- The persisted image of a table. -/
  readTable : σ → Table → Except StoreError (Option Bytes)
  /-- The persisted networks with their host tables. -/
  readNetworks : σ → Except StoreError (List (Address × Bytes))
  /-- The persisted password. -/
  readPassword : σ → Except StoreError (Option Bytes)

/-- How much was found in a store. -/
structure BootReport where
  /-- How many tables were installed. -/
  tables : Nat := 0
  /-- How many networks were installed. -/
  networks : Nat := 0
  deriving DecidableEq, Repr, Inhabited

namespace Firewall

/-- Install a persisted table, unless it cannot be read or used. -/
def bootTable {σ : Type} [TableStore σ] (store : σ) (f : Firewall × BootReport) (t : Table) :
    Firewall × BootReport :=
  match TableStore.readTable store t with
  | .ok (some image) =>
    match f.1.policy.install image t with
    | .ok policy => ({ f.1 with policy }, { f.2 with tables := f.2.tables + 1 })
    | .error _ => f
  | _ => f

/-- Install a persisted network, unless it cannot be used. -/
def bootNetwork (f : Firewall × BootReport) (n : Address × Bytes) : Firewall × BootReport :=
  match f.1.classifier.load n.1 n.2 with
  | (classifier, .ok ()) =>
    ({ f.1 with classifier }, { f.2 with networks := f.2.networks + 1 })
  | (classifier, .error _) => ({ f.1 with classifier }, f.2)

/-- Install all that is persisted; what cannot be read or used is left out. -/
def boot {σ : Type} [TableStore σ] (store : σ) (f : Firewall) : Firewall × BootReport :=
  let f := Table.all.foldl (bootTable store) (f, {})
  match TableStore.readNetworks store with
  | .ok networks => networks.foldl bootNetwork f
  | .error _ => f

end Firewall

/-! ### A store in memory -/

/-- The operations of a store, as they are named to make them fail. -/
inductive StoreAction
  | writeTable (t : Table)
  | removeTable (t : Table)
  | readTable (t : Table)
  | writeNetwork (network : Address)
  | removeNetwork (network : Address)
  | readNetworks
  | writePassword
  | readPassword
  deriving DecidableEq, Repr, Inhabited

/-- A store kept in memory. -/
structure MapStore where
  /-- The images of tables. -/
  tables : Table → Option Bytes := fun _ => none
  /-- The host tables, by ascending network. -/
  networks : List (Address × Bytes) := []
  /-- The password. -/
  password : Option Bytes := none
  /-- The operations that fail, and how. -/
  faults : List (StoreAction × StoreFailure) := []

namespace MapStore

/-- Put a host table into a list that ascends by network. -/
def insertNetwork (network : Address) (image : Bytes) :
    List (Address × Bytes) → List (Address × Bytes)
  | [] => [(network, image)]
  | n :: rest =>
    if n.1 = network then (network, image) :: rest
    else if network < n.1 then (network, image) :: n :: rest
    else n :: insertNetwork network image rest

/-- The error of an operation that is told to fail. -/
def fault? (s : MapStore) (a : StoreAction) : Option StoreError :=
  (s.faults.lookup a).map fun failure => ⟨failure, "mem", "told to fail"⟩

/-- A change, unless the operation is told to fail. -/
def attempt (s : MapStore) (a : StoreAction) (changed : MapStore) :
    MapStore × Except StoreError Unit :=
  match s.fault? a with
  | some e => (s, .error e)
  | none => (changed, .ok ())

/-- A value, unless the operation is told to fail. -/
def fetch {α : Type} (s : MapStore) (a : StoreAction) (value : α) : Except StoreError α :=
  match s.fault? a with
  | some e => .error e
  | none => .ok value

instance : TableStore MapStore where
  writeTable s t image :=
    s.attempt (.writeTable t)
      { s with tables := fun u => if u = t then some image else s.tables u }
  removeTable s t :=
    s.attempt (.removeTable t) { s with tables := fun u => if u = t then none else s.tables u }
  writeNetwork s n image :=
    s.attempt (.writeNetwork n) { s with networks := insertNetwork n image s.networks }
  removeNetwork s n :=
    s.attempt (.removeNetwork n) { s with networks := s.networks.filter (·.1 ≠ n) }
  writePassword s password := s.attempt .writePassword { s with password := some password }
  readTable s t := s.fetch (.readTable t) (s.tables t)
  readNetworks s := s.fetch .readNetworks s.networks
  readPassword s := s.fetch .readPassword s.password

end MapStore

end FilterBridge
