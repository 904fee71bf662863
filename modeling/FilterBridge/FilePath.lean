/-!
# File paths

A path is a row of parts with slashes between them.  Empty parts and single
points are idle: they lead nowhere, so two paths are compared by the other
parts.  Two points lead up again.

## Main definitions

* `FilePath` — a path by its parts, with `ofText` and `text` for how it is
  written.
* `FilePath.join`, `FilePath.child`, `FilePath.parent` — further down, and up.
* `FilePath.relativeTo` — a path as it is seen from a directory above.
* `FilePath.components` — the parts that count when paths are compared.
-/

namespace FilterBridge

/-- A path. -/
structure FilePath where
  /-- What stands between the slashes. -/
  parts : List String
  deriving DecidableEq, Repr, Inhabited

namespace FilePath

/-- The pieces of a list of characters between slashes. -/
def pieces : List Char → List (List Char)
  | [] => [[]]
  | c :: cs =>
    if c = '/' then [] :: pieces cs
    else
      match pieces cs with
      | p :: ps => (c :: p) :: ps
      | [] => [[c]]

theorem pieces_ne_nil (cs : List Char) : pieces cs ≠ [] := by
  cases cs with
  | nil => simp [pieces]
  | cons c cs =>
    rw [pieces]
    split
    · simp
    · split <;> simp

/-- Nothing of a text is lost but the slashes between its pieces. -/
theorem intercalate_pieces (cs : List Char) : ['/'].intercalate (pieces cs) = cs := by
  induction cs with
  | nil => simp [pieces]
  | cons c cs ih =>
    obtain ⟨p, ps, hp⟩ := List.exists_cons_of_ne_nil (pieces_ne_nil cs)
    rw [hp] at ih
    by_cases h : c = '/'
    · rw [pieces, if_pos h, hp]
      simp [h, ih]
    · rw [pieces, if_neg h, hp]
      cases ps <;> simp_all

/-- The path that a text spells. -/
def ofText (text : String) : FilePath := ⟨(pieces text.toList).map String.ofList⟩

/-- A path as it is written. -/
def text (p : FilePath) : String := "/".intercalate p.parts

/-- A path is written as it was read. -/
@[simp] theorem text_ofText (text : String) : (ofText text).text = text := by
  apply String.toList_injective
  simp [ofText, FilePath.text, Function.comp_def, intercalate_pieces]

/-- Whether a part leads nowhere. -/
def isIdle (part : String) : Bool := part = "" || part = "."

/-- The part that leads up. -/
def up : String := ".."

/-- What is left of a list without the last elements that satisfy a test. -/
def dropLastWhile {α : Type} (test : α → Bool) (l : List α) : List α :=
  (l.reverse.dropWhile test).reverse

/-- Whether a path starts at the root. -/
def isAbsolute (p : FilePath) : Bool := 1 < p.parts.length && p.parts.head? = some ""

/-- A path followed by another; after a slash at the end there is no second
one.  What starts at the root needs no path before it. -/
def join (p q : FilePath) : FilePath :=
  if q.isAbsolute then q
  else ⟨(if p.parts.getLast? = some "" then p.parts.dropLast else p.parts) ++ q.parts⟩

/-- A path one part further down. -/
def child (p : FilePath) (name : String) : FilePath := p.join ⟨[name]⟩

/-- A path without its last part that counts. -/
def parent (p : FilePath) : FilePath :=
  ⟨dropLastWhile isIdle (dropLastWhile isIdle p.parts).dropLast⟩

/-- A path as it is seen from a directory whose parts it begins with, without
idle parts at its ends; those between other parts stay.  Any other path is left
as it is. -/
def relativeTo (p base : FilePath) : FilePath :=
  if base.parts.isPrefixOf p.parts then
    ⟨dropLastWhile isIdle ((p.parts.drop base.parts.length).dropWhile isIdle)⟩
  else p

/-- The parts of a path that count.  A path from the root starts with an empty
component; a point counts only at the start of a path that is not from the
root. -/
def components (p : FilePath) : List String :=
  let start := match p.parts with
    | "" :: _ :: _ => [""]
    | "." :: _ => ["."]
    | _ => []
  start ++ p.parts.filter fun part => !isIdle part

/-- Whether two paths have the same components. -/
def same (p q : FilePath) : Bool := p.components = q.components

end FilePath

end FilterBridge
