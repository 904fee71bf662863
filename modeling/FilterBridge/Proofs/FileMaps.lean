import FilterBridge.Proofs.TreeWays

/-!
# Files are a map

A store over files is read as it was written last, whatever else was written or removed in
between: a table by its name, and a network by its number.  The number of a network stands in
the name of its file, by which it is written and removed, and at the start of the file, from
which it is read; so no two networks may share a name, and the names in the directory have to
agree with the files.

This holds as long as the password keeps away from these names.  To write it, the directories
on the way to its file are made, and a directory can have the name of a table as well.

## Main definitions

* `StoreEdit` — a change of a store, with what is read after it: `StoreEdit.tableAfter`,
  `StoreEdit.networkAfter`.
* `StoreEdit.applyAll` — changes that all succeed.
* `FileStore.IsOwn` — the names that a store has for its files, and those that it lists.
* `FileStore.Orderly` — the directory is there or can be made, and its files of networks have
  the names of their numbers.
* `FileStore.PasswordAside` — the password keeps away from these names.

## Main results

* `FileStore.networkFile_injective` — no two networks share a name.
* `FileStore.readFile_child` — a file in the directory is read as it stands in the tree.
* `FileStore.apply_edited` — a change touches no other name of the store.
* `FileStore.Orderly.networks` — the networks are listed as they stand in the tree.
* `FileStore.edits_read_back` — what is read after any changes.
* `FileStore.password_hides_table` — a password that does not keep away.
-/

namespace FilterBridge

/-! ### Changes of a store -/

/-- A change of a store. -/
inductive StoreEdit
  /-- Persist the image of a table. -/
  | writeTable (t : Table) (image : Bytes)
  /-- Forget the image of a table. -/
  | removeTable (t : Table)
  /-- Persist the host table of a network. -/
  | writeNetwork (n : Address) (image : Bytes)
  /-- Forget the host table of a network. -/
  | removeNetwork (n : Address)
  /-- Persist the password. -/
  | writePassword (password : Bytes)
  deriving DecidableEq, Repr

namespace StoreEdit

variable {σ : Type} [TableStore σ]

/-- Make a change. -/
def apply (s : σ) : StoreEdit → σ × Except StoreError Unit
  | writeTable t image => TableStore.writeTable s t image
  | removeTable t => TableStore.removeTable s t
  | writeNetwork n image => TableStore.writeNetwork s n image
  | removeNetwork n => TableStore.removeNetwork s n
  | writePassword password => TableStore.writePassword s password

/-- Make changes one after another, up to the first that fails. -/
def applyAll : σ → List StoreEdit → Except StoreError σ
  | s, [] => .ok s
  | s, e :: es =>
    match e.apply s with
    | (s, .ok ()) => applyAll s es
    | (_, .error failure) => .error failure

/-- What a table is read as after a change: what was written, nothing if it was removed, and
the same as before after any other change. -/
def tableAfter (t : Table) (before : Except StoreError (Option Bytes)) :
    StoreEdit → Except StoreError (Option Bytes)
  | writeTable u image => if u = t then .ok (some image) else before
  | removeTable u => if u = t then .ok none else before
  | _ => before

/-- The host table of a network after a change. -/
def networkAfter (n : Address) (before : Option Bytes) : StoreEdit → Option Bytes
  | writeNetwork m image => if m = n then some image else before
  | removeNetwork m => if m = n then none else before
  | _ => before

end StoreEdit

/-! ### Names -/

namespace Hex

theorem digit_injective {a b : Nat} (ha : a < 16) (hb : b < 16) (h : digit a = digit b) :
    a = b := by
  have hall : ∀ a < 16, ∀ b < 16, digit a = digit b → a = b := by decide
  exact hall a ha b hb h

theorem digits_injective {k a b : Nat} (ha : a < 16 ^ k) (hb : b < 16 ^ k)
    (h : digits k a = digits k b) : a = b := by
  induction k generalizing a b with
  | zero => omega
  | succ k ih =>
    rw [digits, digits, List.append_singleton_inj] at h
    have hfront : a / 16 = b / 16 := ih (by omega) (by omega) h.1
    have hlast : a % 16 = b % 16 :=
      digit_injective (Nat.mod_lt _ (by decide)) (Nat.mod_lt _ (by decide)) h.2
    omega

theorem word_injective : Function.Injective word := by
  intro a b h
  exact UInt32.toNat_inj.mp (digits_injective a.toNat_lt b.toNat_lt (String.ofList_injective h))

end Hex

namespace FileStore

variable {s s' : FileStore} {name other : String} {n : Address} {t : Table} {data table : Bytes}
  {e : StoreEdit}

/-- No two networks share a name. -/
theorem networkFile_injective : Function.Injective networkFile := by
  intro a b h
  have hlist := congrArg String.toList h
  rw [networkFile, networkFile, String.toList_append, String.toList_append,
    List.append_left_inj] at hlist
  exact Hex.word_injective (String.toList_injective hlist)

theorem tableFile_injective : Function.Injective tableFile := by
  intro a b h
  revert h
  cases a <;> cases b <;> decide

theorem length_networkFile (n : Address) : (networkFile n).length = 12 := by
  rw [networkFile, String.length_append, Hex.word, String.length_ofList, Hex.length_digits]
  rfl

theorem isNetworkFile_networkFile (n : Address) : isNetworkFile (networkFile n) = true := by
  rw [isNetworkFile, Bool.and_eq_true, length_networkFile, List.isSuffixOf_iff_suffix, networkFile,
    String.toList_append]
  exact ⟨List.suffix_append _ _, rfl⟩

/-- A character has four bytes at most. -/
theorem utf8ByteSize_le (name : String) : name.utf8ByteSize ≤ 4 * name.length := by
  obtain ⟨cs, rfl⟩ : ∃ cs, name = String.ofList cs := ⟨name.toList, String.ofList_toList.symm⟩
  rw [String.utf8ByteSize_ofList, String.length_ofList]
  induction cs with
  | nil => simp
  | cons c cs ih =>
    have := c.utf8Size_le_four
    simp
    omega

/-- A name that the store has for one of its files, or that it takes for the name of a file of
a network. -/
def IsOwn (name : String) : Prop := isNetworkFile name = true ∨ ∃ t, name = tableFile t

theorem isOwn_tableFile (t : Table) : IsOwn (tableFile t) := .inr ⟨t, rfl⟩

theorem isOwn_networkFile (n : Address) : IsOwn (networkFile n) :=
  .inl (isNetworkFile_networkFile n)

theorem IsOwn.isName (h : IsOwn name) : FilePath.IsName name := by
  rcases h with h | ⟨t, rfl⟩
  · exact isName_of_isNetworkFile h
  · exact isName_tableFile t

theorem length_tableFile_le (t : Table) : (tableFile t).length ≤ 12 := by
  cases t <;> decide

theorem networkFile_ne_tableFile (n : Address) (t : Table) : networkFile n ≠ tableFile t := by
  intro h
  have hnet := isNetworkFile_networkFile n
  rw [h, isNetworkFile_tableFile] at hnet
  cases hnet

/-! ### The directory -/

/-- What the tree has under a name in the data directory. -/
def nodeAt? (s : FileStore) (name : String) : Option Node :=
  s.tree.node? (s.dir.place ++ [name])

/-- The host table in the file that has the name of a network, behind the number. -/
def hostTable? (s : FileStore) (n : Address) : Option Bytes :=
  ((s.nodeAt? (networkFile n)).bind Node.content?).map (·.drop 4)

/-- The data directory is missing, and nothing stands in the way of making it: no file, no name
that is too long, and nothing that has to do with the names of the store. -/
structure Awaited (s : FileStore) : Prop where
  /-- The directory is missing. -/
  missing : s.tree.directory s.dir = .error .missing
  /-- No name on the way to it is too long. -/
  short : ∀ part ∈ s.dir.parts, part.utf8ByteSize ≤ FileTree.nameLimit
  /-- No file is in the way. -/
  free : ∀ q ∈ s.dir.places, ∀ data, s.tree.node? q ≠ some (.file data)
  /-- The file of the password will not be in the way either. -/
  password : s.passwordFile.place ∉ s.dir.places
  /-- The way does not lead through a name of the store. -/
  aside : ∀ name, IsOwn name → s.dir.place ++ [name] ∉ s.dir.places
  /-- Where the directory will be, nothing has such a name yet. -/
  empty : ∀ name, IsOwn name → s.nodeAt? name = none

/-- The data directory is there, or can be made. -/
def Accessible (s : FileStore) : Prop := s.tree.directory s.dir = .ok s.dir.place ∨ s.Awaited

/-- The data directory is there or can be made, and whatever has the name of a file of a network
is a file that can be read, named by the number that it starts with. -/
structure Orderly (s : FileStore) : Prop where
  /-- The tree is well-formed. -/
  tree : s.tree.WellFormed
  /-- The directory is there or can be made. -/
  accessible : s.Accessible
  /-- Each file of a network has the name of its number. -/
  named : ∀ name, isNetworkFile name = true → s.nodeAt? name ≠ none →
    ∃ n table, name = networkFile n ∧
      s.readFile (s.networkPath n) = .ok (some (Bytes.ofU32 n ++ table))

/-- The path to the password neither ends at a name of the store nor leads through one. -/
def PasswordAside (s : FileStore) : Prop :=
  ∀ name, IsOwn name → s.dir.place ++ [name] ∉ s.passwordFile.places

theorem directory_eq_ok_iff {tree : FileTree} {p : FilePath} {here : Path} :
    tree.directory p = .ok here ↔ FileTree.check p = .ok () ∧ tree.walk p.parts = .ok here := by
  rw [FileTree.directory]
  cases FileTree.check p with
  | error fault => simp [bind, Except.bind]
  | ok u => simp [bind, Except.bind]

theorem check_ne_missing (p : FilePath) : FileTree.check p ≠ .error .missing := by
  unfold FileTree.check
  split
  · simp
  split
  · simp
  · simp

theorem walk_of_missing {tree : FileTree} {p : FilePath}
    (h : tree.directory p = .error .missing) :
    FileTree.check p = .ok () ∧ tree.walk p.parts = .error .missing := by
  rw [FileTree.directory] at h
  cases hcheck : FileTree.check p with
  | error fault =>
    rw [hcheck] at h
    obtain rfl := Except.error.inj h
    exact absurd hcheck (check_ne_missing p)
  | ok u =>
    rw [hcheck] at h
    exact ⟨rfl, h⟩

/-- A file in the directory is found as it stands in the tree. -/
theorem file_child (h : s.Accessible) (hown : IsOwn name) (hshort : name.length ≤ 12) :
    s.tree.file (s.dir.child name) =
      match FileTree.check (s.dir.child name) with
      | .error fault => .error fault
      | .ok () =>
        match s.nodeAt? name with
        | none => .error .missing
        | some .directory => .error .isDirectory
        | some (.file data) => .ok (s.dir.place ++ [name], data) := by
  have hlong : ¬ FileTree.nameLimit < name.utf8ByteSize := by
    have := utf8ByteSize_le name
    rw [FileTree.nameLimit]
    omega
  rcases h with hdir | hdir
  · rw [FileTree.file_child (directory_eq_ok_iff.mp hdir).2 hown.isName, nodeAt?]
    cases FileTree.check (s.dir.child name) with
    | error fault => rfl
    | ok u =>
      simp only [bind, Except.bind, if_neg hlong]
      cases s.tree.node? (s.dir.place ++ [name]) with
      | none => rfl
      | some node => cases node <;> rfl
  · rw [hdir.empty name hown, FileTree.file, FileTree.locate_child_eq _ _ hown.isName,
      (walk_of_missing hdir.missing).2]
    cases FileTree.check (s.dir.child name) <;> rfl

/-- A file in the directory is read as it stands in the tree. -/
theorem readFile_child (h : s.Accessible) (hown : IsOwn name) (hshort : name.length ≤ 12) :
    s.readFile (s.dir.child name) =
      match FileTree.check (s.dir.child name) with
      | .error fault => .error (errorAt .opening (s.dir.child name) fault)
      | .ok () =>
        match s.nodeAt? name with
        | none => .ok none
        | some .directory => .error (errorAt .opening (s.dir.child name) .isDirectory)
        | some (.file data) => .ok (some data) := by
  rw [readFile, FileTree.read, file_child h hown hshort]
  cases hcheck : FileTree.check (s.dir.child name) with
  | error fault =>
    cases fault
    case missing => exact absurd hcheck (check_ne_missing _)
    all_goals rfl
  | ok u =>
    cases s.nodeAt? name with
    | none => rfl
    | some node => cases node <;> rfl

/-- What is read of a file stands in the tree. -/
theorem nodeAt?_of_readFile (h : s.Accessible) (hown : IsOwn name) (hshort : name.length ≤ 12)
    {content : Option Bytes} (hread : s.readFile (s.dir.child name) = .ok content) :
    s.nodeAt? name = content.map .file := by
  rw [readFile_child h hown hshort] at hread
  cases hcheck : FileTree.check (s.dir.child name) with
  | error fault =>
    rw [hcheck] at hread
    cases hread
  | ok u =>
    rw [hcheck] at hread
    cases hnode : s.nodeAt? name with
    | none =>
      rw [hnode] at hread
      rw [← Except.ok.inj hread]
      rfl
    | some node =>
      rw [hnode] at hread
      cases node with
      | directory => cases hread
      | file data =>
        rw [← Except.ok.inj hread]
        rfl

/-- A file is read as before if it stands in the tree as before. -/
theorem readFile_congr (h : s.Accessible) (h' : s'.Accessible) (hown : IsOwn name)
    (hshort : name.length ≤ 12) (hdir : s'.dir = s.dir) (hnode : s'.nodeAt? name = s.nodeAt? name) :
    s'.readFile (s'.dir.child name) = s.readFile (s.dir.child name) := by
  rw [readFile_child h' hown hshort, readFile_child h hown hshort, hnode, hdir]

end FileStore

/-! ### What a change does -/

/-- The name in the directory that a change is about, with the content of its file after it, or
nothing if it is removed.  A new password is about none of them. -/
def StoreEdit.target? : StoreEdit → Option (String × Option Bytes)
  | writeTable t image => some (FileStore.tableFile t, some image)
  | removeTable t => some (FileStore.tableFile t, none)
  | writeNetwork n image => some (FileStore.networkFile n, some (Bytes.ofU32 n ++ image))
  | removeNetwork n => some (FileStore.networkFile n, none)
  | writePassword _ => none

namespace FileStore

variable {s s' : FileStore} {name other : String} {n : Address} {t : Table} {data table : Bytes}
  {content : Option Bytes} {target? : Option (String × Option Bytes)} {e : StoreEdit}

/-- Of the names of the store, a change touches at most one, which is read as it was changed. -/
structure Edited (s s' : FileStore) (target? : Option (String × Option Bytes)) : Prop where
  /-- The directory is the same. -/
  dir : s'.dir = s.dir
  /-- So is the file of the password. -/
  passwordFile : s'.passwordFile = s.passwordFile
  /-- The tree is well-formed. -/
  tree : s'.tree.WellFormed
  /-- The directory is there or can be made. -/
  accessible : s'.Accessible
  /-- The file is read with its new content. -/
  read : ∀ name content, target? = some (name, content) →
    s'.readFile (s'.dir.child name) = .ok content
  /-- All other names are as they were. -/
  others : ∀ name, IsOwn name → (∀ content, target? ≠ some (name, content)) →
    s'.nodeAt? name = s.nodeAt? name

/-- A file that was replaced can be found, so its directory is there. -/
theorem walk_of_read {tree : FileTree} {p : FilePath} (htree : tree.WellFormed)
    (hname : FilePath.IsName name) (h : tree.read (p.child name) = .ok data) :
    tree.walk p.parts = .ok p.place := by
  rw [FileTree.read, FileTree.file, FileTree.locate_child_eq _ _ hname] at h
  cases hcheck : FileTree.check (p.child name) with
  | error fault =>
    rw [hcheck] at h
    cases h
  | ok u =>
    rw [hcheck] at h
    cases hwalk : tree.walk p.parts with
    | error fault =>
      rw [hwalk] at h
      cases h
    | ok here => rw [(htree.walk_eq_ok hwalk).1]

theorem Accessible.check (h : s.Accessible) : FileTree.check s.dir = .ok () := by
  rcases h with hdir | hdir
  · exact (directory_eq_ok_iff.mp hdir).1
  · exact (walk_of_missing hdir.missing).1

/-- No directory is made under a name of the store on the way to the directory. -/
theorem Orderly.nodeAt?_ne_none (h : s.Orderly) (hown : IsOwn name)
    (hmem : s.dir.place ++ [name] ∈ s.dir.places) : s.nodeAt? name ≠ none := by
  rcases h.accessible with hdir | hdir
  · rw [nodeAt?, (h.tree.walk_eq_ok (directory_eq_ok_iff.mp hdir).2).2 _ hmem]
    simp
  · exact absurd hmem (hdir.aside name hown)

/-- To write a file of the directory touches that file only. -/
theorem replace_edited (h : s.Orderly) (hown : IsOwn name)
    (hok : s.replace (s.dir.child name) data = (s', .ok ())) :
    Edited s s' (some (name, some data)) := by
  unfold replace at hok
  rcases htree : s.tree.replace (s.dir.child name) data with ⟨tree, fault | ⟨⟩⟩
  · rw [htree] at hok
    cases hok
  rw [htree] at hok
  obtain ⟨rfl, -⟩ := Prod.mk.inj hok
  have hspec := FileTree.replace_spec h.tree htree
  have hread := FileTree.read_of_replace htree
  have hwalk := walk_of_read hspec.wellFormed hown.isName hread
  refine ⟨rfl, rfl, hspec.wellFormed, .inl (directory_eq_ok_iff.mpr ⟨h.accessible.check, hwalk⟩),
    ?_, ?_⟩
  · intro name' content htarget
    obtain ⟨rfl, rfl⟩ := Prod.mk.inj (Option.some.inj htarget)
    rw [readFile, hread]
  · intro other hother hne
    have hplace : s.dir.place ++ [other] ≠ (s.dir.child name).place := by
      rw [FilePath.place_child hown.isName]
      intro heq
      exact hne (some data) (by rw [List.singleton_inj.mp (List.append_cancel_left heq)])
    rcases hspec.others _ hplace with hsame | ⟨hnone, -, hmem⟩
    · exact hsame
    · exact absurd hnone
        (h.nodeAt?_ne_none hother (FilePath.parent_child_places_subset hown.isName _ hmem))

/-- To take a file of the directory out of the tree touches that file only. -/
theorem erase_edited (h : s.Orderly) (hown : IsOwn name) (hshort : name.length ≤ 12)
    (hcheck : FileTree.check (s.dir.child name) = .ok ())
    (hnode : s.nodeAt? name = some (.file data)) :
    Edited s { s with tree := s.tree.erase (s.dir.place ++ [name]) } (some (name, none)) := by
  have hq : s.tree.node? (s.dir.place ++ [name]) ≠ some .directory := by
    rw [← nodeAt?, hnode]
    simp
  have hdir : s.tree.directory s.dir = .ok s.dir.place := by
    refine h.accessible.resolve_right fun hdir => ?_
    rw [hdir.empty name hown] at hnode
    cases hnode
  obtain ⟨hcheck', hwalk⟩ := directory_eq_ok_iff.mp hdir
  have haccess : Accessible { s with tree := s.tree.erase (s.dir.place ++ [name]) } :=
    .inl (directory_eq_ok_iff.mpr
      ⟨hcheck', FileTree.walk_mono (FileTree.directories_erase hq) hwalk⟩)
  refine ⟨rfl, rfl, h.tree.erase hq, haccess, ?_, ?_⟩
  · intro name' content htarget
    obtain ⟨rfl, rfl⟩ := Prod.mk.inj (Option.some.inj htarget)
    have hgone : nodeAt? { s with tree := s.tree.erase (s.dir.place ++ [name]) } name = none :=
      FileTree.node?_erase_self _ (List.append_ne_nil_of_right_ne_nil _ (List.cons_ne_nil _ _))
    rw [readFile_child haccess hown hshort, hgone, hcheck]
  · intro other hother hne
    refine FileTree.node?_erase_of_ne fun heq => hne none ?_
    rw [List.singleton_inj.mp (List.append_cancel_left heq)]

/-- To remove a file of the directory touches that file only. -/
theorem removeFile_edited (h : s.Orderly) (hown : IsOwn name) (hshort : name.length ≤ 12)
    (hok : s.removeFile (s.dir.child name) = (s', .ok ())) : Edited s s' (some (name, none)) := by
  rw [removeFile, FileTree.remove, file_child h.accessible hown hshort] at hok
  cases hcheck : FileTree.check (s.dir.child name) with
  | error fault =>
    rw [hcheck] at hok
    cases fault
    case missing => exact absurd hcheck (check_ne_missing _)
    all_goals cases hok
  | ok u =>
    rw [hcheck] at hok
    cases hnode : s.nodeAt? name with
    | none =>
      rw [hnode] at hok
      obtain ⟨rfl, -⟩ := Prod.mk.inj hok
      refine ⟨rfl, rfl, h.tree, h.accessible, ?_, fun _ _ _ => rfl⟩
      intro name' content htarget
      obtain ⟨rfl, rfl⟩ := Prod.mk.inj (Option.some.inj htarget)
      rw [readFile_child h.accessible hown hshort, hcheck, hnode]
    | some node =>
      cases node with
      | directory =>
        rw [hnode] at hok
        cases hok
      | file data =>
        rw [hnode] at hok
        obtain ⟨rfl, -⟩ := Prod.mk.inj hok
        exact erase_edited h hown hshort hcheck hnode

/-- To write the password touches no file of the directory, if it keeps away from them. -/
theorem replacePassword_edited (h : s.Orderly) (haside : s.PasswordAside)
    (hok : s.replace s.passwordFile data = (s', .ok ())) : Edited s s' none := by
  unfold replace at hok
  rcases htree : s.tree.replace s.passwordFile data with ⟨tree, fault | ⟨⟩⟩
  · rw [htree] at hok
    cases hok
  rw [htree] at hok
  obtain ⟨rfl, -⟩ := Prod.mk.inj hok
  have hspec := FileTree.replace_spec h.tree htree
  have hsame : ∀ name, IsOwn name →
      tree.node? (s.dir.place ++ [name]) = s.tree.node? (s.dir.place ++ [name]) := by
    intro name hown
    have hplace : s.dir.place ++ [name] ≠ s.passwordFile.place := fun heq =>
      haside name hown (heq ▸ s.passwordFile.place_mem_places)
    rcases hspec.others _ hplace with hsame | ⟨-, -, hmem⟩
    · exact hsame
    · exact absurd (s.passwordFile.parent_places_subset hmem) (haside name hown)
  have haccess : Accessible { s with tree } := by
    rcases h.accessible with hdir | hdir
    · obtain ⟨hcheck, hwalk⟩ := directory_eq_ok_iff.mp hdir
      exact .inl (directory_eq_ok_iff.mpr ⟨hcheck, FileTree.walk_mono hspec.directories hwalk⟩)
    · -- what was free of files is so still
      have hfree : ∀ q ∈ s.dir.places, ∀ data, tree.node? q ≠ some (.file data) := by
        intro q hq data
        rcases hspec.others q (fun heq => hdir.password (heq ▸ hq)) with hsame | ⟨-, hmade, -⟩
        · rw [hsame]
          exact hdir.free q hq data
        · rw [hmade]
          simp
      obtain ⟨hcheck, -⟩ := walk_of_missing hdir.missing
      rcases FileTree.foldlM_enter_of_free hdir.short hfree with hwalk | hwalk
      · exact .inl (directory_eq_ok_iff.mpr ⟨hcheck, hwalk⟩)
      · refine .inr ⟨?_, hdir.short, hfree, hdir.password, hdir.aside, fun name hown => ?_⟩
        · rw [FileTree.directory, hcheck]
          exact hwalk
        · exact (hsame name hown).trans (hdir.empty name hown)
  exact ⟨rfl, rfl, hspec.wellFormed, haccess, fun _ _ htarget => absurd htarget (by simp),
    fun name hown _ => hsame name hown⟩

/-- A change that succeeds touches no name of the store but the one that it is about. -/
theorem apply_edited (h : s.Orderly) (haside : s.PasswordAside) (hok : e.apply s = (s', .ok ())) :
    Edited s s' e.target? := by
  cases e with
  | writeTable t image => exact replace_edited h (isOwn_tableFile t) hok
  | removeTable t => exact removeFile_edited h (isOwn_tableFile t) (length_tableFile_le t) hok
  | writeNetwork n image => exact replace_edited h (isOwn_networkFile n) hok
  | removeNetwork n =>
    exact removeFile_edited h (isOwn_networkFile n) (length_networkFile n).le hok
  | writePassword password => exact replacePassword_edited h haside hok

namespace Edited

/-- The name that a change is about stands in the tree as it was changed. -/
theorem nodeAt? (h : Edited s s' target?) (hown : IsOwn name) (hshort : name.length ≤ 12)
    (htarget : target? = some (name, content)) : s'.nodeAt? name = content.map .file :=
  nodeAt?_of_readFile h.accessible hown hshort (h.read name content htarget)

theorem readFile_other (h : Edited s s' target?) (hs : s.Orderly) (hown : IsOwn name)
    (hshort : name.length ≤ 12) (hne : ∀ content, target? ≠ some (name, content)) :
    s'.readFile (s'.dir.child name) = s.readFile (s.dir.child name) :=
  readFile_congr hs.accessible h.accessible hown hshort h.dir (h.others name hown hne)

/-- A table is read as it was changed, or as before. -/
theorem readTable (h : Edited s s' e.target?) (hs : s.Orderly) (t : Table) :
    TableStore.readTable s' t = e.tableAfter t (TableStore.readTable s t) := by
  have hother : (∀ content, e.target? ≠ some (tableFile t, content)) →
      TableStore.readTable s' t = TableStore.readTable s t :=
    h.readFile_other hs (isOwn_tableFile t) (length_tableFile_le t)
  cases e with
  | writeTable u | removeTable u =>
    rw [StoreEdit.tableAfter]
    split
    · rename_i heq
      subst heq
      exact h.read _ _ rfl
    · rename_i hne
      exact hother fun content heq =>
        hne (tableFile_injective (Prod.mk.inj (Option.some.inj heq)).1)
  | writeNetwork m | removeNetwork m =>
    exact hother fun content heq =>
      networkFile_ne_tableFile m t (Prod.mk.inj (Option.some.inj heq)).1
  | writePassword password => exact hother fun content heq => nomatch heq

/-- The host table of a network is what was written, or as before. -/
theorem hostTable? (h : Edited s s' e.target?) (n : Address) :
    s'.hostTable? n = e.networkAfter n (s.hostTable? n) := by
  have hother : (∀ content, e.target? ≠ some (networkFile n, content)) →
      s'.hostTable? n = s.hostTable? n := by
    intro hne
    rw [FileStore.hostTable?, FileStore.hostTable?, h.others _ (isOwn_networkFile n) hne]
  have htarget : ∀ content, e.target? = some (networkFile n, content) →
      s'.hostTable? n = content.map (·.drop 4) := by
    intro content htarget
    rw [FileStore.hostTable?, h.nodeAt? (isOwn_networkFile n) (length_networkFile n).le htarget]
    cases content <;> rfl
  cases e with
  | writeTable u | removeTable u =>
    exact hother fun content heq =>
      networkFile_ne_tableFile n u (Prod.mk.inj (Option.some.inj heq)).1.symm
  | writeNetwork m | removeNetwork m =>
    rw [StoreEdit.networkAfter]
    split
    · rename_i heq
      subst heq
      exact htarget _ rfl
    · rename_i hne
      exact hother fun content heq =>
        hne (networkFile_injective (Prod.mk.inj (Option.some.inj heq)).1)
  | writePassword password => exact hother fun content heq => nomatch heq

/-- The files of networks are named by their numbers still. -/
theorem orderly (h : Edited s s' e.target?) (hs : s.Orderly) : s'.Orderly := by
  refine ⟨h.tree, h.accessible, fun name hnet hnode => ?_⟩
  by_cases htarget : ∃ content, e.target? = some (name, content)
  · obtain ⟨content, htarget⟩ := htarget
    have hread := h.read name content htarget
    cases e with
    | writeTable t | removeTable t =>
      rw [← (Prod.mk.inj (Option.some.inj htarget)).1, isNetworkFile_tableFile] at hnet
      cases hnet
    | writeNetwork n image =>
      obtain ⟨rfl, rfl⟩ := Prod.mk.inj (Option.some.inj htarget)
      exact ⟨n, image, rfl, hread⟩
    | removeNetwork n =>
      obtain ⟨rfl, rfl⟩ := Prod.mk.inj (Option.some.inj htarget)
      exact absurd (h.nodeAt? (isOwn_networkFile n) (length_networkFile n).le htarget) hnode
    | writePassword password => cases htarget
  · have hne : ∀ content, e.target? ≠ some (name, content) := fun content heq =>
      htarget ⟨content, heq⟩
    rw [h.others name (.inl hnet) hne] at hnode
    obtain ⟨n, table, rfl, hread⟩ := hs.named name hnet hnode
    refine ⟨n, table, rfl, ?_⟩
    rw [← hread]
    exact h.readFile_other hs (isOwn_networkFile n) (length_networkFile n).le hne

theorem passwordAside (h : Edited s s' target?) (hs : s.PasswordAside) : s'.PasswordAside := by
  rw [PasswordAside, h.dir, h.passwordFile]
  exact hs

end Edited

/-! ### What is read -/

/-- A file of a network holds the number that it has for a name, and the table that stands in the
tree. -/
theorem Orderly.entry (h : s.Orderly) (hnet : isNetworkFile name = true)
    (hnode : s.nodeAt? name ≠ none) : ∃ n table, name = networkFile n ∧
      s.readFile (s.dir.child name) = .ok (some (Bytes.ofU32 n ++ table)) ∧
      s.entry name = [(n, table)] ∧ s.hostTable? n = some table := by
  obtain ⟨n, table, rfl, hread⟩ := h.named name hnet hnode
  have hread' : s.readFile (s.dir.child (networkFile n)) =
      .ok (some (Bytes.ofU32 n ++ table)) := hread
  refine ⟨n, table, rfl, hread', ?_, ?_⟩
  · have hnetwork : networkOf? (Bytes.ofU32 n ++ table) = some (n, table) := by
      rw [Bytes.ofU32]
      exact congrArg (fun m => some (m, table)) (Bytes.u32_ofU32 n)
    rw [FileStore.entry, hread']
    exact congrArg Option.toList hnetwork
  · rw [hostTable?, nodeAt?_of_readFile h.accessible (isOwn_networkFile n)
      (length_networkFile n).le hread']
    rfl

/-- Sorted by number, networks with different numbers ascend. -/
theorem ascending_mergeSort {ns : List (Address × Bytes)}
    (h : ns.Pairwise fun a b => a.1 ≠ b.1) :
    (ns.mergeSort fun a b => decide (a.1 ≤ b.1)).Pairwise fun a b => a.1 < b.1 := by
  have hle : (ns.mergeSort fun a b => decide (a.1 ≤ b.1)).Pairwise
      fun a b => decide (a.1 ≤ b.1) = true := by
    refine List.pairwise_mergeSort (fun a b c hab hbc => ?_) (fun a b => ?_) ns
    · exact decide_eq_true (UInt32.le_trans (of_decide_eq_true hab) (of_decide_eq_true hbc))
    · simpa using UInt32.le_total a.1 b.1
  have hne : (ns.mergeSort fun a b => decide (a.1 ≤ b.1)).Pairwise fun a b => a.1 ≠ b.1 :=
    ((List.mergeSort_perm ns _).pairwise_iff fun hab => Ne.symm hab).mpr h
  exact hle.imp₂ (fun a b hab => UInt32.lt_of_le_of_ne (of_decide_eq_true hab)) hne

/-- The files of networks hold different numbers, and the tables that stand in the tree. -/
theorem Orderly.entries (h : s.Orderly) {files : List String} (hnodup : files.Nodup)
    (hfiles : ∀ name, name ∈ files ↔ isNetworkFile name = true ∧ s.nodeAt? name ≠ none) :
    s.networksIn files = .ok (files.flatMap s.entry) ∧
      (files.flatMap s.entry).Pairwise (fun a b => a.1 ≠ b.1) ∧
      ∀ n table, (n, table) ∈ files.flatMap s.entry ↔ s.hostTable? n = some table := by
  have hentry : ∀ name ∈ files, ∃ n table, name = networkFile n ∧
      s.readFile (s.dir.child name) = .ok (some (Bytes.ofU32 n ++ table)) ∧
      s.entry name = [(n, table)] ∧ s.hostTable? n = some table :=
    fun name hname => h.entry ((hfiles name).mp hname).1 ((hfiles name).mp hname).2
  refine ⟨networksIn_eq_ok.mpr ⟨fun name hname => ?_, rfl⟩, ?_, fun n table => ?_⟩
  · obtain ⟨n, table, -, hread, -⟩ := hentry name hname
    exact ⟨_, hread⟩
  · -- the numbers give back the names, so they are as different as these
    have hnames : ((files.flatMap s.entry).map (·.1)).map networkFile = files := by
      rw [List.map_map, List.map_flatMap, ← List.flatMap_singleton' files]
      conv_lhs => rw [List.flatMap_singleton']
      refine List.flatMap_congr fun name hname => ?_
      obtain ⟨n, table, heq, -, hentry, -⟩ := hentry name hname
      rw [hentry, heq]
      rfl
    rw [← hnames] at hnodup
    exact List.pairwise_map.mp (List.Nodup.of_map _ hnodup)
  · rw [List.mem_flatMap]
    constructor
    · rintro ⟨name, hname, hin⟩
      obtain ⟨m, table', -, -, hentry, htable⟩ := hentry name hname
      rw [hentry, List.mem_singleton] at hin
      obtain ⟨rfl, rfl⟩ := Prod.mk.inj hin
      exact htable
    · intro htable
      have hnode : s.nodeAt? (networkFile n) ≠ none := by
        intro hnone
        rw [hostTable?, hnone] at htable
        cases htable
      have hname : networkFile n ∈ files :=
        (hfiles _).mpr ⟨isNetworkFile_networkFile n, hnode⟩
      obtain ⟨m, table', heq, -, hentry, htable'⟩ := hentry _ hname
      obtain rfl := networkFile_injective heq
      rw [htable] at htable'
      exact ⟨_, hname, by rw [hentry, Option.some.inj htable', List.mem_singleton]⟩

/-- The networks are listed in order, each once, as they stand in the tree. -/
theorem Orderly.networks (h : s.Orderly) : ∃ ns, s.networks = .ok ns ∧
    ns.Pairwise (fun a b => a.1 < b.1) ∧
    ∀ n table, (n, table) ∈ ns ↔ s.hostTable? n = some table := by
  rcases h.accessible with hdir | hdir
  · obtain ⟨names, hlist, hnodup, hmem⟩ := FileTree.list_spec h.tree hdir
    have hfiles : ∀ name, name ∈ names.filter isNetworkFile ↔
        isNetworkFile name = true ∧ s.nodeAt? name ≠ none := by
      intro name
      rw [List.mem_filter, hmem, and_comm]
      rfl
    obtain ⟨hread, hdistinct, hentries⟩ := h.entries (hnodup.filter _) hfiles
    refine ⟨_, ?_, ascending_mergeSort hdistinct, fun n table => ?_⟩
    · rw [FileStore.networks, hlist]
      dsimp only
      rw [hread]
      rfl
    · rw [List.mem_mergeSort, hentries]
  · refine ⟨[], ?_, List.Pairwise.nil, fun n table => ?_⟩
    · rw [FileStore.networks, FileTree.list, hdir.missing]
      rfl
    · rw [hostTable?, hdir.empty _ (isOwn_networkFile n)]
      simp

/-- Let the files of networks in a data directory have the names of their numbers, and let the
password keep away from the names of the store.  After any changes that succeed, each table is
read as it was written last, or not at all if it was removed since.  The networks are read in
order of their numbers, each once: those that were written, or in the directory before, and not
removed since, each with the host table that was written last. -/
theorem edits_read_back (s s' : FileStore) (h : s.Orderly) (haside : s.PasswordAside)
    (es : List StoreEdit) (hes : StoreEdit.applyAll s es = .ok s') :
    (∀ t, TableStore.readTable s' t =
        es.foldl (StoreEdit.tableAfter t) (TableStore.readTable s t)) ∧
      ∃ ns, TableStore.readNetworks s' = .ok ns ∧ ns.Pairwise (fun a b => a.1 < b.1) ∧
        ∀ n table, (n, table) ∈ ns ↔
          es.foldl (StoreEdit.networkAfter n) (s.hostTable? n) = some table := by
  induction es generalizing s with
  | nil =>
    obtain rfl := Except.ok.inj hes
    exact ⟨fun t => rfl, h.networks⟩
  | cons e es ih =>
    rw [StoreEdit.applyAll] at hes
    rcases hone : e.apply s with ⟨s₁, failure | ⟨⟩⟩
    · rw [hone] at hes
      cases hes
    · rw [hone] at hes
      have hedited := apply_edited h haside hone
      obtain ⟨htables, ns, hns, hsorted, hmem⟩ :=
        ih s₁ (hedited.orderly h) (hedited.passwordAside haside) hes
      refine ⟨fun t => ?_, ns, hns, hsorted, fun n table => ?_⟩
      · rw [htables, hedited.readTable h, List.foldl_cons]
      · rw [hmem, hedited.hostTable?, List.foldl_cons]

/-- A store with a data directory that holds one network, and the password at a path. -/
def holding (passwordFile : FilePath) : FileStore where
  tree := ⟨[(["data"], .directory),
    (["data", "c0a80100.net"], .file (Bytes.ofU32 0xC0A80100 ++ [7]))]⟩
  dir := .ofText "data"
  passwordFile

theorem place_holding (passwordFile : FilePath) : (holding passwordFile).dir.place = ["data"] := by
  have hplace : (FilePath.ofText "data").place = ["data"] := by decide +kernel
  exact hplace

theorem orderly_holding (passwordFile : FilePath) : (holding passwordFile).Orderly where
  tree := by
    refine ⟨by simp [holding], fun node hnode => ?_⟩
    simp only [holding, List.mem_cons, List.not_mem_nil, or_false] at hnode
    rcases hnode with rfl | rfl <;> exact ⟨by simp, by simp [holding, FileTree.node?]⟩
  accessible := by
    have hdir : (holding (.ofText "pw")).tree.directory (.ofText "data") =
        .ok (FilePath.ofText "data").place := by decide +kernel
    exact .inl hdir
  named := by
    intro name _ hnode
    rw [nodeAt?, place_holding, ne_eq, FileTree.node?_eq_none_iff (by simp)] at hnode
    push Not at hnode
    obtain ⟨node, hnode, heq⟩ := hnode
    simp only [holding, List.mem_cons, List.not_mem_nil, or_false] at hnode
    rcases hnode with rfl | rfl
    · simp at heq
    · obtain rfl : name = "c0a80100.net" := by simpa using heq.symm
      have hread : (holding (.ofText "pw")).readFile
          ((holding (.ofText "pw")).networkPath 0xC0A80100) =
            .ok (some (Bytes.ofU32 0xC0A80100 ++ [7])) := by
        decide +kernel
      exact ⟨0xC0A80100, [7], by decide +kernel, hread⟩

/-- Changes of every kind: a network that was there is removed and written anew, another is
written twice, and a table is written and removed. -/
theorem edits_read_back_holding :
    let s := holding (.ofText "data/pw")
    let es : List StoreEdit := [.writeNetwork 0x0A000000 [1, 2], .writeTable .reject [9],
      .removeNetwork 0xC0A80100, .writePassword [112, 119], .writeNetwork 0xC0A80100 [3],
      .removeTable .reject, .writeNetwork 0x0A000000 [4]]
    s.Orderly ∧ s.PasswordAside ∧ ∃ s', StoreEdit.applyAll s es = .ok s' ∧
      TableStore.readTable s' .reject = .ok none ∧
      ∃ ns, TableStore.readNetworks s' = .ok ns ∧ ns.Pairwise (fun a b => a.1 < b.1) ∧
        (0x0A000000, [4]) ∈ ns ∧ (0xC0A80100, [3]) ∈ ns ∧ (0xC0A80100, [7]) ∉ ns := by
  intro s es
  have haside : s.PasswordAside := by
    intro name hown hmem
    have hplaces : s.passwordFile.places = [[], ["data"], ["data", "pw"]] := by decide +kernel
    rw [hplaces, place_holding] at hmem
    obtain rfl : name = "pw" := by simpa using hmem
    rcases hown with hnet | ⟨t, ht⟩
    · have hno : isNetworkFile "pw" = false := by decide +kernel
      rw [hno] at hnet
      cases hnet
    · cases t <;> exact absurd ht (by decide)
  have hok : (StoreEdit.applyAll s es).isOk = true := by decide +kernel
  cases hrun : StoreEdit.applyAll s es with
  | error failure =>
    rw [hrun] at hok
    cases hok
  | ok s' =>
    obtain ⟨htables, ns, hns, hsorted, hmem⟩ :=
      edits_read_back s s' (orderly_holding _) haside es hrun
    refine ⟨orderly_holding _, haside, s', rfl, ?_, ns, hns, hsorted, ?_, ?_, ?_⟩
    · rw [htables]
      decide +kernel
    · rw [hmem]
      decide +kernel
    · rw [hmem]
      decide +kernel
    · have hkept : es.foldl (StoreEdit.networkAfter 0xC0A80100) (s.hostTable? 0xC0A80100) =
          some [3] := by decide +kernel
      rw [hmem, hkept]
      simp

/-- A password whose path leads through the name of a table makes a directory of it, and then
the table cannot be read, though it was neither written nor removed. -/
theorem password_hides_table :
    let s := holding (.ofText "data/reject.tbl/pw")
    let es : List StoreEdit := [.writePassword [112, 119]]
    s.Orderly ∧ (∀ name, IsOwn name → s.passwordFile.place ≠ s.dir.place ++ [name]) ∧
      ∃ s', StoreEdit.applyAll s es = .ok s' ∧
        es.foldl (StoreEdit.tableAfter .reject) (TableStore.readTable s .reject) = .ok none ∧
        TableStore.readTable s' .reject =
          .error ⟨.opening, "data/reject.tbl", "Is a directory (os error 21)"⟩ := by
  intro s es
  refine ⟨orderly_holding _, fun name _ hplace => ?_, ?_⟩
  · have hend : s.passwordFile.place = ["data", "reject.tbl", "pw"] := by decide +kernel
    rw [hend, place_holding] at hplace
    simp at hplace
  · have hread : (StoreEdit.applyAll s es).map (TableStore.readTable · .reject) =
        .ok (.error ⟨.opening, "data/reject.tbl", "Is a directory (os error 21)"⟩) := by
      decide +kernel
    cases hrun : StoreEdit.applyAll s es with
    | error failure =>
      rw [hrun] at hread
      cases hread
    | ok s' =>
      rw [hrun] at hread
      exact ⟨s', rfl, by decide +kernel, Except.ok.inj hread⟩

end FileStore

end FilterBridge
