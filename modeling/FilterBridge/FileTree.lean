import FilterBridge.Bytes
import FilterBridge.FilePath

/-!
# A tree of files

Files and directories below a root, and what can be done with them by paths.  A
path is followed from the root on, part by part: every part but the last has to
lead to a directory, and two points lead up from the directory that was reached,
not from the one that is written before them.

What is made or removed on the way stays so when a later step fails, so the
operations that take several steps give back the tree in either case.

## Main definitions

* `Path`, `Node`, `FileTree` — names, what they lead to, and the whole tree.
* `FileTree.walk`, `FileTree.locate` — where a path leads.
* `FileTree.read`, `FileTree.write`, `FileTree.remove` — files.
* `FileTree.makeDirectories`, `FileTree.list` — directories.
* `FileTree.put`, `FileTree.replace`, `FileTree.removeAll` — several steps.
* `FileTree.below` — everything below a directory, in order of names.
-/

namespace FilterBridge

/-- The names on the way from the root. -/
abbrev Path := List String

/-- What a path leads to. -/
inductive Node
  /-- A file with its content. -/
  | file (data : Bytes)
  /-- A directory. -/
  | directory
  deriving DecidableEq, Repr, Inhabited

/-- The content of a file; a directory has none. -/
def Node.content? : Node → Option Bytes
  | file data => some data
  | directory => none

/-- Why a path cannot be used. -/
inductive PathFault
  /-- Nothing is there. -/
  | missing
  /-- A file stands where the path goes on. -/
  | notDirectory
  /-- There is a directory where a file is meant. -/
  | isDirectory
  /-- Something is there already. -/
  | taken
  /-- The path ends in a directory that it does not name. -/
  | busy
  /-- The path or a name in it is too long. -/
  | tooLong
  /-- There is a zero in the path. -/
  | hasZero
  deriving DecidableEq, Repr, Inhabited

/-- The text of a fault. -/
def PathFault.message : PathFault → String
  | missing => "No such file or directory (os error 2)"
  | notDirectory => "Not a directory (os error 20)"
  | isDirectory => "Is a directory (os error 21)"
  | taken => "File exists (os error 17)"
  | busy => "Device or resource busy (os error 16)"
  | tooLong => "File name too long (os error 36)"
  | hasZero => "file name contained an unexpected NUL byte"

/-- Where a path ends. -/
inductive Place
  /-- In a directory, at a point or at two. -/
  | inside (directory : Path)
  /-- At a name, with or without a slash after it; only a directory may have
  one. -/
  | named (path : Path) (slash : Bool)
  deriving DecidableEq, Repr, Inhabited

/-- The files and directories below a root. -/
structure FileTree where
  /-- What is at each path; the root itself is not listed. -/
  nodes : List (Path × Node) := []
  deriving DecidableEq, Repr, Inhabited

namespace FileTree

/-! ### Where a path leads -/

/-- How many bytes a name may have. -/
def nameLimit : Nat := 255

/-- How many bytes a path may have. -/
def pathLimit : Nat := 4095

/-- What is at a path; the root is always there. -/
def node? (t : FileTree) (p : Path) : Option Node :=
  if p = [] then some .directory else t.nodes.lookup p

/-- Take away what is at a path. -/
def erase (t : FileTree) (p : Path) : FileTree := ⟨t.nodes.filter (·.1 ≠ p)⟩

/-- Put something at a path. -/
def set (t : FileTree) (p : Path) (n : Node) : FileTree := ⟨(p, n) :: (t.erase p).nodes⟩

@[simp] theorem node?_set_self (t : FileTree) {p : Path} (n : Node) (h : p ≠ []) :
    (t.set p n).node? p = some n := by
  simp [set, node?, h]

/-- The directory that a part leads to from a directory; nothing is above the
root. -/
def enter (t : FileTree) (here : Path) (part : String) : Except PathFault Path :=
  if FilePath.isIdle part then .ok here
  else if part = FilePath.up then .ok here.dropLast
  else if nameLimit < part.utf8ByteSize then .error .tooLong
  else
    match t.node? (here ++ [part]) with
    | some .directory => .ok (here ++ [part])
    | some (.file _) => .error .notDirectory
    | none => .error .missing

@[simp] theorem enter_of_isIdle (t : FileTree) (here : Path) {part : String}
    (h : FilePath.isIdle part = true) : t.enter here part = .ok here := by
  simp [enter, h]

/-- The directory that a row of parts leads to from the root. -/
def walk (t : FileTree) (parts : List String) : Except PathFault Path := parts.foldlM t.enter []

theorem walk_append (t : FileTree) (front back : List String) :
    t.walk (front ++ back) = t.walk front >>= fun here => back.foldlM t.enter here := by
  simp [walk, List.foldlM_append]

/-- Refuse a path that no tree can have. -/
@[irreducible] def check (p : FilePath) : Except PathFault Unit :=
  -- irreducible, so that comparing two paths does not take their texts apart
  if '\x00' ∈ p.text.toList then .error .hasZero
  else if pathLimit < p.text.utf8ByteSize then .error .tooLong
  else .ok ()

/-- The directory that a path leads to. -/
def directory (t : FileTree) (p : FilePath) : Except PathFault Path := do
  check p
  t.walk p.parts

/-- Where a path ends; what is there does not matter. -/
def locate (t : FileTree) (p : FilePath) : Except PathFault Place := do
  check p
  let parts := FilePath.dropLastWhile (· = "") p.parts
  let name := parts.getLast?.getD "."
  if FilePath.isIdle name || name = FilePath.up then return .inside (← t.walk parts)
  let here ← t.walk parts.dropLast
  if nameLimit < name.utf8ByteSize then throw .tooLong
  return .named (here ++ [name]) (p.parts.getLast? = some "")

/-! ### Files -/

/-- Where the file is that a path leads to, and its content. -/
def file (t : FileTree) (p : FilePath) : Except PathFault (Path × Bytes) := do
  match ← t.locate p with
  | .inside _ => throw .isDirectory
  | .named q slash =>
    match t.node? q with
    | none => throw .missing
    | some .directory => throw .isDirectory
    | some (.file data) => if slash then throw .notDirectory else return (q, data)

/-- The content of a file. -/
def read (t : FileTree) (p : FilePath) : Except PathFault Bytes := (·.2) <$> t.file p

/-- Remove a file. -/
def remove (t : FileTree) (p : FilePath) : Except PathFault FileTree := do
  let (q, _) ← t.file p
  return t.erase q

/-- Write a file into a directory that is there, in place of one that was there
before. -/
def write (t : FileTree) (p : FilePath) (data : Bytes) : Except PathFault FileTree := do
  match ← t.locate p with
  | .inside _ => throw .busy
  | .named q slash =>
    if t.node? q = some .directory then throw .isDirectory
    else if slash then throw .notDirectory
    else return t.set q (.file data)

/-! ### Directories -/

/-- The names in a directory, in order. -/
def list (t : FileTree) (p : FilePath) : Except PathFault (List String) := do
  let here ← t.directory p
  let names := t.nodes.filterMap fun n =>
    if n.1.dropLast = here then n.1.getLast? else none
  return names.mergeSort fun a b => decide (a ≤ b)

/-- Make a directory in one that is there. -/
def makeDirectory (t : FileTree) (p : FilePath) : Except PathFault FileTree := do
  match ← t.locate p with
  | .inside _ => throw .taken
  | .named q _ => if (t.node? q).isSome then throw .taken else return t.set q .directory

/-- Go on from a directory along a row of parts and make the directories that
are missing. -/
def makeWay (t : FileTree) (here : Path) : List String → FileTree × Except PathFault Unit
  | [] => (t, .ok ())
  | part :: parts =>
    match t.enter here part with
    | .ok next => makeWay t next parts
    | .error .missing => makeWay (t.set (here ++ [part]) .directory) (here ++ [part]) parts
    | .error e => (t, .error e)

/-- Make a directory, if it is not there, with all directories on the way. -/
def makeDirectories (t : FileTree) (p : FilePath) : FileTree × Except PathFault Unit :=
  match check p with
  | .error e => (t, .error e)
  | .ok () =>
    match t.makeWay [] p.parent.parts with
    | (t, .error e) => (t, .error e)
    | (t, .ok ()) =>
      match t.makeDirectory p with
      | .ok t => (t, .ok ())
      | .error e => (t, if e = .taken && (t.directory p).isOk then .ok () else .error e)

/-! ### Several steps -/

/-- Make the directory that a path needs above it. -/
def makeParent (t : FileTree) (p : FilePath) : FileTree × Except PathFault Unit :=
  t.makeDirectories p.parent

/-- Write a file and make the directories on the way to it. -/
def put (t : FileTree) (p : FilePath) (data : Bytes) : FileTree × Except PathFault Unit :=
  match t.makeParent p with
  | (t, .error e) => (t, .error e)
  | (t, .ok ()) =>
    match t.write p data with
    | .ok t => (t, .ok ())
    | .error e => (t, .error e)

/-- How the name looks under which a file is written before it takes its
place. -/
def draftName : String := ".tmpXXXXXX"

/-- Replace a file as a whole and make the directories on the way to it.  The
new file is written beside the old one first, so there has to be room for the
name of the draft. -/
def replace (t : FileTree) (p : FilePath) (data : Bytes) : FileTree × Except PathFault Unit :=
  match check (p.parent.child draftName) with
  | .ok () => t.put p data
  | .error e => ((t.makeParent p).1, .error e)

/-- Remove a file, or a directory with all below it.  A directory is emptied
first; if its path goes through what was in it, that path leads nowhere then and
the directory stays, as it does if the path does not end in its name. -/
def removeAll (t : FileTree) (p : FilePath) : FileTree × Except PathFault Unit :=
  match t.directory p with
  | .error _ =>
    match t.remove p with
    | .ok t => (t, .ok ())
    | .error e => (t, .error e)
  | .ok here =>
    let emptied : FileTree := ⟨t.nodes.filter fun n => n.1 = here || !here.isPrefixOf n.1⟩
    match emptied.locate p with
    | .ok (.named q _) => (emptied.erase q, .ok ())
    | .ok (.inside _) => (emptied, .error .busy)
    | .error .missing => (emptied, .ok ())
    | .error e => (emptied, .error e)

/-- Everything below a directory, by the names on the way from there; what is in
a directory follows it, in order of names. -/
def below (t : FileTree) (here : Path) : List (Path × Node) :=
  let inside := t.nodes.filter fun n => n.1 ≠ here && here.isPrefixOf n.1
  (inside.map fun n => (n.1.drop here.length, n.2)).mergeSort fun a b =>
    !b.1.lex a.1 fun x y => decide (x < y)

end FileTree

end FilterBridge
