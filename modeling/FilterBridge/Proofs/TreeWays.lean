import FilterBridge.Proofs.BadEntries

/-!
# Ways through a tree of files

A path is followed part by part, and every place that it leads through has to be a directory.
Where a path leads does not depend on the tree, if it can be followed at all: idle parts stay,
two points lead up, and all others lead down.

When a file is replaced, the directories that are missing on the way to it are made first.  So
a tree differs afterwards at the place of the file, and at places on the way where nothing was
before.

## Main definitions

* `FilePath.step`, `FilePath.place`, `FilePath.places` — where a part leads, where a path leads,
  and the places that it leads through.
* `FileTree.WellFormed` — every path is listed once, below a directory.
* `FileTree.Extends` — directories were made at some places where nothing was.

## Main results

* `FileTree.WellFormed.walk_eq_ok` — a row of parts leads where it does in any tree.
* `FileTree.makeDirectories_extends` — making directories changes nothing that was there.
* `FileTree.replace_spec` — what replacing a file does to a tree.
* `FileTree.list_spec` — the names in a directory are those of what is in it.
-/

namespace FilterBridge

/-! ### Places -/

namespace FilePath

/-- Where a part leads from a place. -/
def step (here : Path) (part : String) : Path :=
  if isIdle part then here else if part = up then here.dropLast else here ++ [part]

/-- The places that a row of parts leads through, the first and the last with them. -/
def way : Path → List String → List Path
  | here, [] => [here]
  | here, part :: parts => here :: way (step here part) parts

/-- Where a path leads from the root. -/
def place (p : FilePath) : Path := p.parts.foldl step []

/-- The places that a path leads through from the root on, with its end. -/
def places (p : FilePath) : List Path := way [] p.parts

variable {here : Path} {part name : String} {parts parts' : List String} {p : FilePath}

theorem step_of_isName (h : IsName part) (here : Path) : step here part = here ++ [part] := by
  rw [step, h.1, if_neg Bool.false_ne_true, if_neg h.2]

theorem mem_way_self (here : Path) (parts : List String) : here ∈ way here parts := by
  cases parts <;> exact List.mem_cons_self

theorem foldl_step_mem_way (here : Path) (parts : List String) :
    parts.foldl step here ∈ way here parts := by
  induction parts generalizing here with
  | nil => exact List.mem_cons_self
  | cons part parts ih => exact List.mem_cons_of_mem _ (ih (step here part))

theorem place_mem_places (p : FilePath) : p.place ∈ p.places := foldl_step_mem_way [] p.parts

/-- A path leads through the places that its front leads through. -/
theorem way_subset_of_isPrefix (h : parts <+: parts') (here : Path) :
    way here parts ⊆ way here parts' := by
  induction parts generalizing parts' here with
  | nil =>
    intro q hq
    rw [way, List.mem_singleton] at hq
    subst hq
    exact mem_way_self q parts'
  | cons part parts ih =>
    obtain ⟨rest, rfl⟩ := h
    rw [List.cons_append, way, way]
    exact List.cons_subset_cons here (ih (List.prefix_append parts rest) _)

theorem dropLastWhile_isPrefix (test : String → Bool) (parts : List String) :
    dropLastWhile test parts <+: parts := by
  rw [← List.reverse_suffix, dropLastWhile, List.reverse_reverse]
  exact List.dropWhile_suffix test

theorem parent_isPrefix (p : FilePath) : p.parent.parts <+: p.parts :=
  (dropLastWhile_isPrefix _ _).trans ((List.dropLast_prefix _).trans (dropLastWhile_isPrefix _ _))

theorem parent_places_subset (p : FilePath) : p.parent.places ⊆ p.places :=
  way_subset_of_isPrefix p.parent_isPrefix []

/-- Slashes at the end lead nowhere else. -/
theorem foldl_step_dropSlashes (parts : List String) (here : Path) :
    (dropLastWhile (· = "") parts).foldl step here = parts.foldl step here := by
  induction parts using List.reverseRecOn with
  | nil => rfl
  | append_singleton parts part ih =>
    by_cases hpart : part = ""
    · have hdrop : dropLastWhile (· = "") (parts ++ [part]) = dropLastWhile (· = "") parts := by
        simp [dropLastWhile, hpart]
      rw [hdrop, ih, List.foldl_concat, hpart]
      rfl
    · rw [dropLastWhile, List.reverse_concat, List.dropWhile_cons_of_neg (by simpa using hpart),
        List.reverse_cons, List.reverse_reverse]

theorem dropSlash_isPrefix (p : FilePath) :
    (if p.parts.getLast? = some "" then p.parts.dropLast else p.parts) <+: p.parts := by
  split
  · exact List.dropLast_prefix _
  · exact List.prefix_refl _

/-- A name in a directory leads one further down. -/
theorem place_child (h : IsName name) (p : FilePath) :
    (p.child name).place = p.place ++ [name] := by
  have hdir : (if p.parts.getLast? = some "" then p.parts.dropLast else p.parts).foldl step [] =
      p.parts.foldl step [] := by
    split
    · rename_i hlast
      obtain ⟨front, hfront⟩ := List.getLast?_eq_some_iff.mp hlast
      rw [hfront, List.dropLast_concat, List.foldl_concat]
      rfl
    · rfl
  rw [place, parts_child, List.foldl_concat, hdir, step_of_isName h, place]

/-- What is above a name in a directory is on the way to the directory. -/
theorem parent_child_places_subset (h : IsName name) (p : FilePath) :
    (p.child name).parent.places ⊆ p.places := by
  refine way_subset_of_isPrefix (List.IsPrefix.trans ?_ (dropSlash_isPrefix p)) []
  have hkeep : dropLastWhile isIdle (p.child name).parts = (p.child name).parts := by
    rw [parts_child, dropLastWhile, List.reverse_concat,
      List.dropWhile_cons_of_neg (by simp [h.1]), List.reverse_cons, List.reverse_reverse]
  rw [parent, hkeep, parts_child, List.dropLast_concat]
  exact dropLastWhile_isPrefix _ _

end FilePath

/-! ### Trees -/

namespace FileTree

open FilePath

variable {t t' t₁ t₂ : FileTree} {p : FilePath} {q here next : Path} {n : Node} {part name : String}
  {parts : List String} {ps ps' : List Path} {data : Bytes}

/-- Every path is listed once, below a directory. -/
structure WellFormed (t : FileTree) : Prop where
  /-- No path is listed twice. -/
  distinct : (t.nodes.map (·.1)).Nodup
  /-- What is listed is in a directory. -/
  parents : ∀ node ∈ t.nodes, node.1 ≠ [] ∧ t.node? node.1.dropLast = some .directory

theorem node?_nil (t : FileTree) : t.node? [] = some .directory := if_pos rfl

theorem node?_eq_none_iff (hq : q ≠ []) : t.node? q = none ↔ ∀ node ∈ t.nodes, node.1 ≠ q := by
  rw [node?, if_neg hq, List.lookup_eq_none_iff]
  exact forall₂_congr fun node _ => by rw [bne_iff_ne, ne_comm]

@[simp] theorem node?_erase_self (t : FileTree) (hq : q ≠ []) : (t.erase q).node? q = none := by
  rw [node?_eq_none_iff hq]
  intro node hnode
  exact of_decide_eq_true (List.mem_filter.mp hnode).2

namespace WellFormed

/-- Whatever is somewhere is in a directory. -/
theorem dropLast (h : t.WellFormed) (hq : t.node? q = some n) :
    t.node? q.dropLast = some .directory := by
  by_cases hne : q = []
  · rw [hne]
    exact t.node?_nil
  · by_contra hparent
    have hnone : t.node? q = none :=
      (node?_eq_none_iff hne).mpr fun node hnode heq => hparent (heq ▸ (h.parents node hnode).2)
    rw [hnone] at hq
    cases hq

/-- A tree stays well-formed when something is put into a directory, in place of anything but a
directory. -/
theorem set (h : t.WellFormed) (hne : q ≠ []) (hparent : t.node? q.dropLast = some .directory)
    (hq : t.node? q ≠ some .directory) (n : Node) : (t.set q n).WellFormed where
  distinct := by
    refine List.nodup_cons.mpr ⟨fun hmem => ?_, h.distinct.sublist (List.filter_sublist.map _)⟩
    obtain ⟨node, hnode, heq⟩ := List.mem_map.mp hmem
    exact of_decide_eq_true (List.mem_filter.mp hnode).2 heq
  parents := by
    intro node hnode
    rcases List.mem_cons.mp hnode with rfl | hnode
    · exact ⟨hne, directories_set hq n _ hparent⟩
    · obtain ⟨hroot, hdir⟩ := h.parents node (List.mem_filter.mp hnode).1
      exact ⟨hroot, directories_set hq n _ hdir⟩

/-- A tree stays well-formed when anything but a directory is taken away. -/
theorem erase (h : t.WellFormed) (hq : t.node? q ≠ some .directory) : (t.erase q).WellFormed where
  distinct := h.distinct.sublist (List.filter_sublist.map _)
  parents := by
    intro node hnode
    obtain ⟨hroot, hdir⟩ := h.parents node (List.mem_filter.mp hnode).1
    exact ⟨hroot, directories_erase hq _ hdir⟩

end WellFormed

/-! ### Following a path -/

/-- A part that is no name can always be followed. -/
theorem enter_of_not_isName (h : ¬ IsName part) (t : FileTree) (here : Path) :
    t.enter here part = .ok (step here part) := by
  unfold enter step
  by_cases hidle : isIdle part = true
  · rw [if_pos hidle, if_pos hidle]
  · have hup : part = up := by
      by_contra hup
      exact h ⟨Bool.eq_false_of_not_eq_true hidle, hup⟩
    rw [if_neg hidle, if_neg hidle, if_pos hup, if_pos hup]

theorem enter_of_isName (h : IsName part) (t : FileTree) (here : Path) :
    t.enter here part =
      if nameLimit < part.utf8ByteSize then .error .tooLong
      else
        match t.node? (here ++ [part]) with
        | some .directory => .ok (here ++ [part])
        | some (.file _) => .error .notDirectory
        | none => .error .missing := by
  have hidle : ¬ isIdle part = true := by
    rw [h.1]
    exact Bool.false_ne_true
  exact (if_neg hidle).trans (if_neg h.2)

/-- A part that can be followed leads where it leads in any tree; a name leads to a
directory. -/
theorem enter_eq_ok (h : t.enter here part = .ok next) :
    next = step here part ∧ (IsName part → t.node? next = some .directory) := by
  by_cases hname : IsName part
  · rw [enter_of_isName hname] at h
    rw [step_of_isName hname]
    split at h
    · cases h
    split at h
    · rename_i hdir
      rw [← Except.ok.inj h]
      exact ⟨rfl, fun _ => hdir⟩
    · cases h
    · cases h
  · rw [enter_of_not_isName hname] at h
    exact ⟨(Except.ok.inj h).symm, fun hname' => absurd hname' hname⟩

/-- A part leads from a directory to a directory. -/
theorem WellFormed.enter (hwf : t.WellFormed) (hhere : t.node? here = some .directory)
    (h : t.enter here part = .ok next) : t.node? next = some .directory := by
  obtain ⟨hnext, hdir⟩ := enter_eq_ok h
  by_cases hname : IsName part
  · exact hdir hname
  · rw [hnext, step]
    split
    · exact hhere
    split
    · exact hwf.dropLast hhere
    · rename_i hidle hup
      exact absurd ⟨Bool.eq_false_of_not_eq_true hidle, hup⟩ hname

/-- A directory is missing only if the part is a name, and nothing has that name. -/
theorem enter_eq_missing (h : t.enter here part = .error .missing) :
    IsName part ∧ t.node? (here ++ [part]) = none := by
  by_cases hname : IsName part
  · rw [enter_of_isName hname] at h
    split at h
    · cases h
    split at h
    · cases h
    · cases h
    · rename_i hnone
      exact ⟨hname, hnone⟩
  · rw [enter_of_not_isName hname] at h
    cases h

/-- A row of parts that can be followed from a directory leads where it leads in any tree, and
every place on the way is a directory. -/
theorem WellFormed.foldlM_enter (hwf : t.WellFormed) (hhere : t.node? here = some .directory)
    (h : parts.foldlM t.enter here = .ok next) :
    next = parts.foldl step here ∧ ∀ q ∈ way here parts, t.node? q = some .directory := by
  induction parts generalizing here with
  | nil =>
    refine ⟨(Except.ok.inj h).symm, fun q hq => ?_⟩
    rw [way, List.mem_singleton] at hq
    exact hq ▸ hhere
  | cons part parts ih =>
    rw [List.foldlM_cons] at h
    cases hpart : t.enter here part with
    | error e =>
      rw [hpart] at h
      cases h
    | ok next' =>
      rw [hpart] at h
      have hdir : t.node? next' = some .directory := hwf.enter hhere hpart
      obtain rfl := (enter_eq_ok hpart).1
      obtain ⟨hnext, hway⟩ := ih hdir h
      refine ⟨hnext, fun q hq => ?_⟩
      rcases List.mem_cons.mp hq with rfl | hq
      · exact hhere
      · exact hway q hq

/-- A path that can be followed leads to its place. -/
theorem WellFormed.walk_eq_ok (hwf : t.WellFormed) (h : t.walk p.parts = .ok here) :
    here = p.place ∧ ∀ q ∈ p.places, t.node? q = some .directory :=
  hwf.foldlM_enter t.node?_nil h

/-- Where no file is in the way and no name is too long, a directory is at most missing. -/
theorem foldlM_enter_of_free (hshort : ∀ part ∈ parts, part.utf8ByteSize ≤ nameLimit)
    (hfree : ∀ q ∈ FilePath.way here parts, ∀ data, t.node? q ≠ some (.file data)) :
    parts.foldlM t.enter here = .ok (parts.foldl step here) ∨
      parts.foldlM t.enter here = .error .missing := by
  induction parts generalizing here with
  | nil => exact .inl rfl
  | cons part parts ih =>
    rw [List.foldlM_cons, List.foldl_cons]
    cases hpart : t.enter here part with
    | ok next =>
      obtain rfl := (enter_eq_ok hpart).1
      exact ih (fun other hother => hshort other (List.mem_cons_of_mem _ hother))
        (fun q hq => hfree q (List.mem_cons_of_mem _ hq))
    | error e =>
      -- the part is a short name, and no file has it
      right
      have hlong : ¬ nameLimit < part.utf8ByteSize :=
        Nat.not_lt.mpr (hshort part List.mem_cons_self)
      have hstep : ∀ data, t.node? (step here part) ≠ some (.file data) :=
        hfree _ (List.mem_cons_of_mem _ (mem_way_self _ _))
      by_cases hname : IsName part
      · rw [step_of_isName hname] at hstep
        rw [enter_of_isName hname, if_neg hlong] at hpart
        split at hpart
        · cases hpart
        · rename_i hfile
          exact absurd hfile (hstep _)
        · rw [← Except.error.inj hpart]
          rfl
      · rw [enter_of_not_isName hname] at hpart
        cases hpart

/-! ### Directories that are made -/

/-- A tree differs from another by directories at some of the given places, where nothing
was. -/
def Extends (t t' : FileTree) (ps : List Path) : Prop :=
  ∀ q, t'.node? q = t.node? q ∨
    (t.node? q = none ∧ t'.node? q = some .directory ∧ q ∈ ps)

namespace Extends

theorem refl (t : FileTree) (ps : List Path) : t.Extends t ps := fun _ => .inl rfl

theorem trans (h : t.Extends t₁ ps) (h' : t₁.Extends t₂ ps) : t.Extends t₂ ps := by
  intro q
  rcases h q with hq | ⟨hnone, hdir, hmem⟩
  · rw [← hq]
    exact h' q
  · rcases h' q with hq' | ⟨hnone', -, -⟩
    · exact .inr ⟨hnone, hq'.trans hdir, hmem⟩
    · rw [hdir] at hnone'
      cases hnone'

theorem mono (h : t.Extends t' ps) (hps : ps ⊆ ps') : t.Extends t' ps' := fun q =>
  (h q).imp_right (.imp_right (.imp_right fun hmem => hps hmem))

/-- What was there is left as it was. -/
theorem of_some (h : t.Extends t' ps) (hq : t.node? q = some n) : t'.node? q = some n := by
  rcases h q with hsame | ⟨hnone, -, -⟩
  · rw [hsame, hq]
  · rw [hnone] at hq
    cases hq

/-- One directory is made where nothing was. -/
theorem set (hq : t.node? q = none) (hmem : q ∈ ps) : t.Extends (t.set q .directory) ps := by
  have hne : q ≠ [] := by
    rintro rfl
    rw [node?_nil] at hq
    cases hq
  intro r
  by_cases hr : r = q
  · subst hr
    exact .inr ⟨hq, node?_set_self t _ hne, hmem⟩
  · exact .inl (node?_set_of_ne hr _)

end Extends

/-- The directories that are made on a way are on it, and nothing was there. -/
theorem makeWay_extends (hwf : t.WellFormed) (hhere : t.node? here = some .directory)
    (parts : List String) :
    (t.makeWay here parts).1.WellFormed ∧ t.Extends (t.makeWay here parts).1 (way here parts) := by
  induction parts generalizing t here with
  | nil => exact ⟨hwf, .refl t _⟩
  | cons part parts ih =>
    rw [makeWay]
    cases hpart : t.enter here part with
    | ok next =>
      have hdir : t.node? next = some .directory := hwf.enter hhere hpart
      obtain rfl := (enter_eq_ok hpart).1
      obtain ⟨hwf', hext⟩ := ih hwf hdir
      exact ⟨hwf', hext.mono (List.subset_cons_self _ _)⟩
    | error e =>
      cases e
      case missing =>
        obtain ⟨hname, hnone⟩ := enter_eq_missing hpart
        have hne : here ++ [part] ≠ [] :=
          List.append_ne_nil_of_right_ne_nil _ (List.cons_ne_nil _ _)
        have hwf₁ : (t.set (here ++ [part]) .directory).WellFormed :=
          hwf.set hne (by rwa [List.dropLast_concat]) (by simp [hnone]) _
        obtain ⟨hwf', hext⟩ := ih hwf₁ (node?_set_self t _ hne)
        rw [← step_of_isName hname] at hext hnone
        have hmem : step here part ∈ way here (part :: parts) :=
          List.mem_cons_of_mem _ (mem_way_self _ _)
        rw [← step_of_isName hname] at hwf' ⊢
        exact ⟨hwf', (Extends.set hnone hmem).trans (hext.mono (List.subset_cons_self _ _))⟩
      all_goals exact ⟨hwf, .refl t _⟩

/-- A path that ends at a name ends at its place, which is in a directory. -/
theorem WellFormed.locate (hwf : t.WellFormed) {slash : Bool}
    (h : t.locate p = .ok (.named q slash)) :
    q = p.place ∧ q ≠ [] ∧ t.node? q.dropLast = some .directory := by
  simp only [FileTree.locate, bind, Except.bind] at h
  split at h
  · cases h
  split at h
  · split at h <;> cases h
  rename_i hname
  split at h
  · cases h
  rename_i here hwalk
  split at h
  · cases h
  obtain ⟨rfl, -⟩ := Place.named.inj (Except.ok.inj h)
  obtain ⟨hplace, hway⟩ := hwf.foldlM_enter t.node?_nil hwalk
  generalize hparts : dropLastWhile (· = "") p.parts = parts at *
  generalize hlast : parts.getLast?.getD "." = name at *
  have hisName : IsName name := by
    rwa [Bool.or_eq_true, not_or, decide_eq_true_eq, Bool.not_eq_true] at hname
  -- what stands for a missing last part is no name
  have hsome : parts.getLast? = some name := by
    cases hl : parts.getLast? with
    | none =>
      rw [hl, Option.getD_none] at hlast
      exact absurd hisName.1 (by simp [← hlast, isIdle])
    | some last => rw [← hlast, hl, Option.getD_some]
  obtain ⟨front, rfl⟩ := List.getLast?_eq_some_iff.mp hsome
  rw [List.dropLast_concat] at hplace hway
  have hend : p.place = here ++ [name] := by
    rw [place, ← foldl_step_dropSlashes, hparts, List.foldl_concat, step_of_isName hisName, hplace]
  refine ⟨hend.symm, List.append_ne_nil_of_right_ne_nil _ (List.cons_ne_nil _ _), ?_⟩
  rw [List.dropLast_concat, hplace]
  exact hway _ (foldl_step_mem_way _ _)

/-- Making a directory changes nothing that was there, and neither does making the directories
on the way to it. -/
theorem makeDirectories_extends (hwf : t.WellFormed) (p : FilePath) :
    (t.makeDirectories p).1.WellFormed ∧ t.Extends (t.makeDirectories p).1 p.places := by
  unfold makeDirectories
  cases check p with
  | error e => exact ⟨hwf, .refl t _⟩
  | ok u =>
    obtain ⟨hwf₁, hext⟩ := makeWay_extends hwf t.node?_nil p.parent.parts
    have hway : way [] p.parent.parts ⊆ p.places := p.parent_places_subset
    rcases hmade : t.makeWay [] p.parent.parts with ⟨t₁, e | ⟨⟩⟩
    · rw [hmade] at hwf₁ hext
      exact ⟨hwf₁, hext.mono hway⟩
    · rw [hmade] at hwf₁ hext
      dsimp only
      cases hlast : t₁.makeDirectory p with
      | error e => exact ⟨hwf₁, hext.mono hway⟩
      | ok t₂ =>
        simp only [makeDirectory, bind, Except.bind] at hlast
        split at hlast
        · cases hlast
        split at hlast
        · cases hlast
        rename_i hlocate
        split at hlast
        · cases hlast
        rename_i hnone
        rw [Bool.not_eq_true, Option.isSome_eq_false_iff, Option.isNone_iff_eq_none] at hnone
        obtain ⟨rfl, hne, hparent⟩ := hwf₁.locate hlocate
        rw [← Except.ok.inj hlast]
        exact ⟨hwf₁.set hne hparent (by simp [hnone]) _,
          (hext.mono hway).trans (.set hnone p.place_mem_places)⟩

/-! ### Files that are replaced -/

/-- A file that is replaced is at its place with its new content.  Apart from it, only
directories are made, on the way to it. -/
structure Replaces (t : FileTree) (p : FilePath) (data : Bytes) (t' : FileTree) : Prop where
  /-- The tree is well-formed. -/
  wellFormed : t'.WellFormed
  /-- The file has its new content. -/
  file : t'.node? p.place = some (.file data)
  /-- There was no directory in its place. -/
  notDirectory : t.node? p.place ≠ some .directory
  /-- All else was there before, or is a directory that was missing above the file. -/
  others : ∀ q, q ≠ p.place → t'.node? q = t.node? q ∨
    (t.node? q = none ∧ t'.node? q = some .directory ∧ q ∈ p.parent.places)

/-- Directories stay when a file is replaced. -/
theorem Replaces.directories (h : t.Replaces p data t') (r : Path)
    (hr : t.node? r = some .directory) : t'.node? r = some .directory := by
  have hne : r ≠ p.place := by
    rintro rfl
    exact h.notDirectory hr
  rcases h.others r hne with hsame | ⟨hnone, -, -⟩
  · rw [hsame, hr]
  · rw [hnone] at hr
    cases hr

/-- What replacing a file does to a tree. -/
theorem replace_spec (hwf : t.WellFormed) (h : t.replace p data = (t', .ok ())) :
    t.Replaces p data t' := by
  unfold replace at h
  split at h
  · unfold put at h
    obtain ⟨hwf₁, hext⟩ := makeDirectories_extends hwf p.parent
    rcases hway : t.makeParent p with ⟨t₁, e | ⟨⟩⟩
    · rw [hway] at h
      cases h
    · rw [← makeParent, hway] at hwf₁ hext
      rw [hway] at h
      dsimp only at h
      split at h
      · rename_i hwrite
        obtain ⟨rfl, -⟩ := Prod.mk.inj h
        obtain ⟨q, hlocate, hq, rfl⟩ := write_eq_ok hwrite
        obtain ⟨rfl, hne, hparent⟩ := hwf₁.locate hlocate
        refine ⟨hwf₁.set hne hparent hq _, node?_set_self t₁ _ hne,
          fun hdir => hq (hext.of_some hdir), fun q hqp => ?_⟩
        rw [node?_set_of_ne hqp]
        exact hext q
      · cases h
  · cases h

/-! ### The names in a directory -/

/-- Every name of what is in a directory is listed once. -/
theorem list_spec (hwf : t.WellFormed) (h : t.directory p = .ok here) :
    ∃ names, t.list p = .ok names ∧ names.Nodup ∧
      ∀ name, name ∈ names ↔ t.node? (here ++ [name]) ≠ none := by
  unfold list
  rw [h]
  refine ⟨_, rfl, ?_, fun name => ?_⟩
  · rw [(List.mergeSort_perm _ _).nodup_iff]
    have hkeys := hwf.distinct
    rw [List.Nodup, List.pairwise_map] at hkeys
    refine List.Pairwise.filterMap _ ?_ hkeys
    rintro a b hab x hx y hy rfl
    exact hab ((name_eq_some_iff.mp hx).trans (name_eq_some_iff.mp hy).symm)
  · have hne : here ++ [name] ≠ [] := List.append_ne_nil_of_right_ne_nil _ (List.cons_ne_nil _ _)
    rw [List.mem_mergeSort, List.mem_filterMap, ne_eq, node?_eq_none_iff hne]
    push Not
    exact exists_congr fun node => and_congr_right fun _ => name_eq_some_iff

end FileTree

end FilterBridge
