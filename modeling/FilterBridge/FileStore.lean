import FilterBridge.FileTree
import FilterBridge.TableStore

/-!
# Tables in files

Each table has a file in the data directory, and so has each network; the file
of a network starts with its number.  The password has a file of its own.  A
file is replaced as a whole or not at all.

## Main definitions

* `FileStore` — a tree of files with the places of data and password.
* `FileStore.tablePath`, `FileStore.networkPath` — the names of the files.
* `FileStore.readNetworks` — all files of networks, in order of their numbers.
-/

namespace FilterBridge

/-- Tables and password in files. -/
structure FileStore where
  /-- The files. -/
  tree : FileTree := {}
  /-- The directory of the tables. -/
  dir : FilePath
  /-- The file of the password. -/
  passwordFile : FilePath
  deriving DecidableEq, Repr, Inhabited

namespace FileStore

/-- The name of the file of a table. -/
def tableFile : Table → String
  | .reject => "reject.tbl"
  | .allow => "allow.tbl"
  | .classes => "class.tbl"

/-- How the files of networks end. -/
def networkSuffix : String := ".net"

/-- The name of the file of a network: its number in hexadecimal. -/
def networkFile (network : Address) : String := Hex.word network ++ networkSuffix

/-- Whether a name is that of a file of a network: something stands before the
suffix. -/
def isNetworkFile (name : String) : Bool :=
  networkSuffix.toList.isSuffixOf name.toList && networkSuffix.length < name.length

/-- The path of a table. -/
def tablePath (s : FileStore) (t : Table) : FilePath := s.dir.child (tableFile t)

/-- The path of a network. -/
def networkPath (s : FileStore) (network : Address) : FilePath := s.dir.child (networkFile network)

/-- The error about a path. -/
def errorAt (failure : StoreFailure) (p : FilePath) (fault : PathFault) : StoreError :=
  ⟨failure, p.text, fault.message⟩

/-- Replace a file; the directories on the way to it are made, even if the file
then cannot be. -/
def replace (s : FileStore) (p : FilePath) (data : Bytes) : FileStore × Except StoreError Unit :=
  let (tree, result) := s.tree.replace p data
  ({ s with tree }, result.mapError (errorAt .opening p))

/-- The content of a file, if there is one. -/
def readFile (s : FileStore) (p : FilePath) : Except StoreError (Option Bytes) :=
  match s.tree.read p with
  | .ok data => .ok (some data)
  | .error .missing => .ok none
  | .error e => .error (errorAt .opening p e)

/-- Remove a file, if there is one. -/
def removeFile (s : FileStore) (p : FilePath) : FileStore × Except StoreError Unit :=
  match s.tree.remove p with
  | .ok tree => ({ s with tree }, .ok ())
  | .error .missing => (s, .ok ())
  | .error e => (s, .error (errorAt .removing p e))

/-- The network and the host table in the content of a file. -/
def networkOf? : Bytes → Option (Address × Bytes)
  | a :: b :: c :: d :: table => some (Bytes.u32 a b c d, table)
  | _ => none

/-- The networks in the files with the given names; files that are too short are
left out. -/
def networksIn (s : FileStore) : List String → Except StoreError (List (Address × Bytes))
  | [] => .ok []
  | name :: names => do
    let content ← s.readFile (s.dir.child name)
    let rest ← s.networksIn names
    return (content.bind networkOf?).toList ++ rest

/-- All networks, in order of their numbers; there are none if the directory is
missing. -/
def networks (s : FileStore) : Except StoreError (List (Address × Bytes)) :=
  match s.tree.list s.dir with
  | .error .missing => .ok []
  | .error e => .error (errorAt .opening s.dir e)
  | .ok names => do
    let found ← s.networksIn (names.filter isNetworkFile)
    return found.mergeSort fun a b => decide (a.1 ≤ b.1)

/-- A password without the line ends after it. -/
def stripLineEnds (password : Bytes) : Bytes :=
  (password.reverse.dropWhile fun b => b = 10 || b = 13).reverse

instance : TableStore FileStore where
  writeTable s t image := s.replace (s.tablePath t) image
  removeTable s t := s.removeFile (s.tablePath t)
  writeNetwork s n image := s.replace (s.networkPath n) (Bytes.ofU32 n ++ image)
  removeNetwork s n := s.removeFile (s.networkPath n)
  writePassword s password := s.replace s.passwordFile password
  readTable s t := s.readFile (s.tablePath t)
  readNetworks s := s.networks
  readPassword s := do return (← s.readFile s.passwordFile).map stripLineEnds

end FileStore

end FilterBridge
