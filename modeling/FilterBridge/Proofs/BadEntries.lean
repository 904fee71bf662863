import FilterBridge.Proofs.PasswordFile
import Mathlib.Data.String.Basic

/-!
# Bad files among those of the networks

A start reads the files of all networks and installs what they hold.  A file that is read but
holds no network is left out, and the start goes on as if it were not there: whether it is too
short, or is about an address without a network, or has a table of another length.

A file that cannot be read is worse.  All files are read before any network is installed, and
the first that fails ends that, so one such file costs all networks.

## Main definitions

* `FileStore.Faulty` — the content of a file that holds no network.

## Main results

* `List.filter_mergeSort` — sorting and leaving out go together.
* `FileTree.read_child` — a file in a directory is read by its own entry.
* `FileStore.networksIn_eq_ok` — the files of networks are read if all of them can be.
* `FileStore.boot_entry` — what one bad file does to a start.
-/

/-! ### Sorting some of a list -/

namespace List

variable {α : Type} {le : α → α → Bool}

/-- Where a new element goes: after all that are smaller, and before all others. -/
theorem mergeSort_cons_eq (trans : ∀ a b c, le a b → le b c → le a c)
    (total : ∀ a b, le a b || le b a) (a : α) (l : List α) :
    (a :: l).mergeSort le = (l.mergeSort le).filter (fun b => !le a b) ++
      a :: (l.mergeSort le).filter (fun b => le a b) := by
  obtain ⟨l₁, l₂, hsort, hrest, hsmall⟩ := mergeSort_cons trans total a l
  have hsorted := pairwise_mergeSort trans total (a :: l)
  rw [hsort, pairwise_append] at hsorted
  have hlarge : ∀ b ∈ l₂, le a b = true := (pairwise_cons.mp hsorted.2.1).1
  have hleft : l₁.filter (fun b => !le a b) = l₁ ∧ l₁.filter (fun b => le a b) = [] := by
    refine ⟨filter_eq_self.mpr hsmall, filter_eq_nil_iff.mpr fun b hb => ?_⟩
    simpa using hsmall b hb
  have hright : l₂.filter (fun b => !le a b) = [] ∧ l₂.filter (fun b => le a b) = l₂ := by
    refine ⟨filter_eq_nil_iff.mpr fun b hb => ?_, filter_eq_self.mpr hlarge⟩
    simpa using hlarge b hb
  rw [hsort, hrest, filter_append, filter_append, hleft.1, hleft.2, hright.1, hright.2,
    append_nil, nil_append]

/-- What is left out of a sorted list may as well be left out before. -/
theorem filter_mergeSort (trans : ∀ a b c, le a b → le b c → le a c)
    (total : ∀ a b, le a b || le b a) (p : α → Bool) (l : List α) :
    (l.mergeSort le).filter p = (l.filter p).mergeSort le := by
  induction l with
  | nil => simp
  | cons a l ih =>
    by_cases hp : p a = true
    · have hcomm : ∀ q : α → Bool, ((l.mergeSort le).filter q).filter p =
          ((l.filter p).mergeSort le).filter q := by
        intro q
        rw [← ih, filter_filter, filter_filter]
        exact filter_congr fun b _ => Bool.and_comm _ _
      rw [mergeSort_cons_eq trans total, filter_append, filter_cons_of_pos hp,
        filter_cons_of_pos hp, hcomm, hcomm, mergeSort_cons_eq trans total]
    · obtain ⟨l₁, l₂, hsort, hrest, -⟩ := mergeSort_cons trans total a l
      rw [hsort, filter_append, filter_cons_of_neg hp, filter_cons_of_neg hp, ← filter_append,
        ← hrest, ih]

end List

namespace FilterBridge

/-! ### The files in a directory -/

/-- A part of a path that is a name: it leads neither nowhere nor up. -/
def FilePath.IsName (part : String) : Prop := FilePath.isIdle part = false ∧ part ≠ FilePath.up

theorem FilePath.parts_child (p : FilePath) (name : String) : (p.child name).parts =
    (if p.parts.getLast? = some "" then p.parts.dropLast else p.parts) ++ [name] := rfl

namespace FileTree

variable {t : FileTree} {p : FilePath} {here : Path} {name : String} {data : Bytes}

/-- A slash at the end leads nowhere else. -/
theorem walk_dropSlash (t : FileTree) (parts : List String) :
    t.walk (if parts.getLast? = some "" then parts.dropLast else parts) = t.walk parts := by
  split
  · rename_i hlast
    obtain ⟨front, rfl⟩ := List.getLast?_eq_some_iff.mp hlast
    rw [List.dropLast_concat, walk_append]
    cases t.walk front with
    | error e => rfl
    | ok here =>
      have henter : t.enter here "" = .ok here := enter_of_isIdle t here rfl
      exact (congrArg (· >>= pure) henter).symm
  · rfl

/-- The path to a file in a directory is followed to the directory first. -/
theorem locate_child_eq (t : FileTree) (p : FilePath) (hname : FilePath.IsName name) :
    t.locate (p.child name) = do
      check (p.child name)
      let here ← t.walk p.parts
      if nameLimit < name.utf8ByteSize then throw .tooLong
      return .named (here ++ [name]) false := by
  obtain ⟨hidle, hup⟩ := hname
  have hne : name ≠ "" := by
    rintro rfl
    cases hidle
  have hdrop : FilePath.dropLastWhile (· = "") (p.child name).parts = (p.child name).parts := by
    simp [FilePath.dropLastWhile, FilePath.parts_child, hne]
  have hlast : (p.child name).parts.getLast? = some name := by
    rw [FilePath.parts_child, List.getLast?_concat]
  have hwalk : t.walk (p.child name).parts.dropLast = t.walk p.parts := by
    rw [FilePath.parts_child, List.dropLast_concat, walk_dropSlash]
  have hslash : (some name = some "") = False := by simpa using hne
  simp only [locate, hdrop, hlast, Option.getD_some, hidle, hup, Bool.false_or, decide_false,
    Bool.false_eq_true, if_false, hwalk, hslash]

/-- Where the path to a file in a directory ends. -/
theorem locate_child (hdir : t.walk p.parts = .ok here) (hname : FilePath.IsName name) :
    t.locate (p.child name) = do
      check (p.child name)
      if nameLimit < name.utf8ByteSize then throw .tooLong
      return .named (here ++ [name]) false := by
  rw [locate_child_eq t p hname, hdir]
  rfl

/-- A file in a directory is found by its own entry. -/
theorem file_child (hdir : t.walk p.parts = .ok here) (hname : FilePath.IsName name) :
    t.file (p.child name) = do
      check (p.child name)
      if nameLimit < name.utf8ByteSize then throw .tooLong
      match t.node? (here ++ [name]) with
      | none => throw .missing
      | some .directory => throw .isDirectory
      | some (.file data) => return (here ++ [name], data) := by
  rw [file, locate_child hdir hname]
  cases check (p.child name) with
  | error e => rfl
  | ok u =>
    by_cases hlong : nameLimit < name.utf8ByteSize
    · simp only [bind, Except.bind, if_pos hlong]
      rfl
    · simp only [bind, Except.bind, if_neg hlong, pure, Except.pure]
      cases t.node? (here ++ [name]) with
      | none => rfl
      | some node => cases node <;> rfl

theorem file_child_of_read (hdir : t.walk p.parts = .ok here) (hname : FilePath.IsName name)
    (h : t.read (p.child name) = .ok data) :
    t.file (p.child name) = .ok (here ++ [name], data) ∧
      t.node? (here ++ [name]) = some (.file data) := by
  rw [read] at h
  cases hfile : t.file (p.child name) with
  | error e =>
    rw [hfile] at h
    cases h
  | ok found =>
    obtain ⟨q, data'⟩ := found
    rw [hfile] at h
    obtain rfl : data' = data := Except.ok.inj h
    rw [file_child hdir hname] at hfile
    simp only [bind, Except.bind, pure, Except.pure] at hfile
    split at hfile
    · cases hfile
    split at hfile
    · cases hfile
    split at hfile
    · cases hfile
    · cases hfile
    · rename_i hnode
      obtain ⟨rfl, rfl⟩ := Prod.mk.inj (Except.ok.inj hfile)
      exact ⟨rfl, hnode⟩

/-- An entry has a name in a directory just when its path is the directory's with that name. -/
theorem name_eq_some_iff {q : Path} :
    (if q.dropLast = here then q.getLast? else none) = some name ↔ q = here ++ [name] := by
  constructor
  · intro h
    split at h
    · rename_i hhere
      obtain ⟨front, rfl⟩ := List.getLast?_eq_some_iff.mp h
      rw [← hhere, List.dropLast_concat]
    · cases h
  · rintro rfl
    simp

/-- A file that is taken away is missing from the list of names. -/
theorem list_erase {names : List String} (hlist : t.list p = .ok names)
    (hdir : t.walk p.parts = .ok here) (hq : t.node? (here ++ [name]) ≠ some .directory) :
    (t.erase (here ++ [name])).list p = .ok (names.filter (· ≠ name)) := by
  have hwalk : (t.erase (here ++ [name])).walk p.parts = .ok here :=
    walk_mono (directories_erase hq) hdir
  simp only [list, directory, bind, Except.bind, pure, Except.pure, hdir, hwalk] at hlist ⊢
  cases hcheck : check p with
  | error e =>
    rw [hcheck] at hlist
    cases hlist
  | ok u =>
    simp only [hcheck] at hlist ⊢
    rw [← Except.ok.inj hlist, List.filter_mergeSort
      (fun a b c hab hbc => by simpa using le_trans (of_decide_eq_true hab) (of_decide_eq_true hbc))
      (fun a b => by simpa using le_total a b), List.filter_filterMap]
    congr 2
    rw [erase, List.filterMap_filter]
    refine List.filterMap_congr fun n _ => ?_
    -- only one path has this name in this directory
    by_cases hn : n.1 = here ++ [name]
    · simp [hn, Option.filter]
    · have hname := mt name_eq_some_iff.mp hn
      rw [if_pos (by simpa using hn)]
      generalize (if n.1.dropLast = here then n.1.getLast? else none) = o at hname ⊢
      cases o with
      | none => rfl
      | some other => simpa [Option.filter] using hname

end FileTree

/-! ### The networks in files -/

namespace FileStore

variable {s : FileStore} {names : List String} {name : String} {data : Bytes}

/-- The content of a file holds no network that can be installed. -/
inductive Faulty (data : Bytes) : Prop
  /-- It is too short for an address. -/
  | short (h : data.length < 4)
  /-- The address is on no network with a host table. -/
  | address {n : Address} {table : Bytes} (h : networkOf? data = some (n, table))
    (hlen : n.tableLen? = none)
  /-- The table does not have a byte for each host. -/
  | size {n : Address} {table : Bytes} {len : Nat} (h : networkOf? data = some (n, table))
    (hlen : n.tableLen? = some len) (hne : table.length ≠ len)

/-- Whether a network can be installed, apart from whether there is room. -/
def whole (n : Address × Bytes) : Bool := n.1.tableLen? = some n.2.length

/-- The network in the file of a given name, if there is one. -/
def entry (s : FileStore) (name : String) : List (Address × Bytes) :=
  ((s.readFile (s.dir.child name)).toOption.join.bind networkOf?).toList

theorem Faulty.filter_eq_nil (h : Faulty data) :
    (networkOf? data).toList.filter whole = [] := by
  cases h with
  | short h =>
    have hnone : networkOf? data = none := by
      match data, h with
      | [], _ => rfl
      | [_], _ => rfl
      | [_, _], _ => rfl
      | [_, _, _], _ => rfl
    rw [hnone]
    rfl
  | address h hlen => simp [h, whole, hlen]
  | size h hlen hne => simp [h, whole, hlen, Ne.symm hne]

/-- The files of networks are read if all of them can be. -/
theorem networksIn_eq_ok {ns : List (Address × Bytes)} : s.networksIn names = .ok ns ↔
    (∀ name ∈ names, ∃ content, s.readFile (s.dir.child name) = .ok content) ∧
      ns = names.flatMap s.entry := by
  induction names generalizing ns with
  | nil => simp [networksIn, eq_comm]
  | cons name names ih =>
    simp only [networksIn, bind, Except.bind, pure, Except.pure, List.forall_mem_cons,
      List.flatMap_cons]
    cases hread : s.readFile (s.dir.child name) with
    | error e => simp
    | ok content =>
      have hentry : s.entry name = (content.bind networkOf?).toList := by
        rw [entry, hread]
        rfl
      rw [hentry]
      cases hrest : s.networksIn names with
      | error e =>
        have hnot : ∀ ns, ¬ s.networksIn names = .ok ns := by simp [hrest]
        simp only [ih] at hnot
        simp only [reduceCtorEq, false_iff, not_and]
        rintro ⟨-, hall⟩
        exact absurd ⟨hall, rfl⟩ (hnot _)
      | ok rest =>
        obtain ⟨hall, rfl⟩ := ih.mp hrest
        simp only [Except.ok.injEq, exists_eq', true_and]
        constructor
        · rintro rfl
          exact ⟨hall, rfl⟩
        · rintro ⟨-, rfl⟩
          rfl

theorem isName_of_isNetworkFile (h : isNetworkFile name = true) : FilePath.IsName name := by
  rw [isNetworkFile, Bool.and_eq_true, decide_eq_true_eq] at h
  -- what leads nowhere or up is shorter than the suffix
  refine ⟨?_, ?_⟩
  · rw [FilePath.isIdle, Bool.or_eq_false_iff, decide_eq_false_iff_not, decide_eq_false_iff_not]
    refine ⟨?_, ?_⟩ <;>
      rintro rfl <;> exact absurd h.2 (by decide)
  · rintro rfl
    exact absurd h.2 (by decide)

theorem isName_tableFile (t : Table) : FilePath.IsName (tableFile t) := by
  cases t <;> exact ⟨by decide, by decide⟩

theorem isNetworkFile_tableFile (t : Table) : isNetworkFile (tableFile t) = false := by
  cases t <;> decide

/-- Another file in the directory is read as before when one is taken away. -/
theorem readFile_erase {here : Path} {other : String} (hdir : s.tree.walk s.dir.parts = .ok here)
    (hq : s.tree.node? (here ++ [name]) ≠ some .directory) (hother : FilePath.IsName other)
    (hne : other ≠ name) :
    readFile { s with tree := s.tree.erase (here ++ [name]) } (s.dir.child other) =
      s.readFile (s.dir.child other) := by
  have hdir' : (s.tree.erase (here ++ [name])).walk s.dir.parts = .ok here :=
    FileTree.walk_mono (FileTree.directories_erase hq) hdir
  have hpath : here ++ [other] ≠ here ++ [name] := by
    intro heq
    exact hne (List.singleton_inj.mp (List.append_cancel_left heq))
  have hread : (s.tree.erase (here ++ [name])).read (s.dir.child other) =
      s.tree.read (s.dir.child other) := by
    rw [FileTree.read, FileTree.read, FileTree.file_child hdir hother,
      FileTree.file_child hdir' hother, FileTree.node?_erase_of_ne hpath]
  rw [readFile, hread, readFile]

end FileStore

/-! ### A start -/

namespace Firewall

/-- A network that is not whole is left out. -/
theorem bootNetwork_of_not_whole (r : Firewall × BootReport) {n : Address × Bytes}
    (h : ¬ FileStore.whole n = true) : bootNetwork r n = r := by
  rw [FileStore.whole, decide_eq_true_eq] at h
  unfold bootNetwork Classifier.load
  cases hlen : n.1.tableLen? with
  | none => rfl
  | some len =>
    have hne : n.2.length ≠ len := by
      rintro rfl
      exact h hlen
    simp only [if_pos hne]

theorem foldl_bootNetwork_filter (ns : List (Address × Bytes)) (r : Firewall × BootReport) :
    (ns.filter FileStore.whole).foldl bootNetwork r = ns.foldl bootNetwork r := by
  induction ns generalizing r with
  | nil => rfl
  | cons n ns ih =>
    by_cases h : FileStore.whole n = true
    · rw [List.filter_cons_of_pos h, List.foldl_cons, List.foldl_cons, ih]
    · rw [List.filter_cons_of_neg h, List.foldl_cons, bootNetwork_of_not_whole r h, ih]

/-- Where no network can be read, only the tables are installed. -/
theorem boot_of_error {σ : Type} [TableStore σ] {store : σ} {e : StoreError} (f : Firewall)
    (h : TableStore.readNetworks store = .error e) :
    f.boot store = Table.all.foldl (bootTable store) (f, {}) ∧
      (f.boot store).1.classifier = f.classifier ∧ (f.boot store).2.networks = 0 := by
  have hboot : f.boot store = Table.all.foldl (bootTable store) (f, {}) := by
    simp only [boot, h]
  rw [hboot]
  exact ⟨rfl, bootTables_frame store Table.all (f, {})⟩

/-- Two stores with the same tables, and the same networks that are whole, start a filter in
the same way. -/
theorem boot_congr {σ : Type} [TableStore σ] {store store' : σ} (f : Firewall)
    (htables : ∀ t, TableStore.readTable store' t = TableStore.readTable store t)
    (hnetworks : (TableStore.readNetworks store').toOption.map (·.filter FileStore.whole) =
      (TableStore.readNetworks store).toOption.map (·.filter FileStore.whole)) :
    f.boot store' = f.boot store := by
  have htable : bootTable store' = bootTable store := by
    funext r t
    unfold bootTable
    rw [htables]
  simp only [boot, htable]
  cases hread : TableStore.readNetworks store with
  | error e =>
    rw [hread] at hnetworks
    cases hread' : TableStore.readNetworks store' with
    | error e' => rfl
    | ok ns' =>
      rw [hread'] at hnetworks
      cases hnetworks
  | ok ns =>
    rw [hread] at hnetworks
    cases hread' : TableStore.readNetworks store' with
    | error e' =>
      rw [hread'] at hnetworks
      cases hnetworks
    | ok ns' =>
      rw [hread'] at hnetworks
      have hwhole : ns'.filter FileStore.whole = ns.filter FileStore.whole :=
        Option.some.inj hnetworks
      dsimp only
      rw [← foldl_bootNetwork_filter, hwhole, foldl_bootNetwork_filter]

end Firewall

namespace FileStore

variable {s : FileStore} {names : List String} {name : String} {data : Bytes}

/-- What contributes nothing may be left out. -/
private theorem flatMap_filter_ne {β : Type} {g : String → List β} (files : List String)
    (name : String) (hnone : g name = []) :
    (files.filter (· ≠ name)).flatMap g = files.flatMap g := by
  induction files with
  | nil => rfl
  | cons file files ih =>
    by_cases hfile : file = name
    · rw [List.filter_cons_of_neg (by simpa using hfile), ih, List.flatMap_cons, hfile, hnone,
        List.nil_append]
    · rw [List.filter_cons_of_pos (by simpa using hfile), List.flatMap_cons, List.flatMap_cons, ih]

/-- The networks that are whole are those in the files, in order of their numbers. -/
theorem filter_networksIn {files : List String} {ns : List (Address × Bytes)}
    (h : s.networksIn files = .ok ns) :
    (ns.mergeSort fun a b => decide (a.1 ≤ b.1)).filter whole =
      (files.flatMap fun name => (s.entry name).filter whole).mergeSort
        fun a b => decide (a.1 ≤ b.1) := by
  have htrans : ∀ a b c : Address × Bytes, decide (a.1 ≤ b.1) = true →
      decide (b.1 ≤ c.1) = true → decide (a.1 ≤ c.1) = true := by
    intro a b c hab hbc
    exact decide_eq_true (UInt32.le_trans (of_decide_eq_true hab) (of_decide_eq_true hbc))
  have htotal : ∀ a b : Address × Bytes,
      (decide (a.1 ≤ b.1) || decide (b.1 ≤ a.1)) = true := by
    intro a b
    simpa using UInt32.le_total a.1 b.1
  rw [(networksIn_eq_ok.mp h).2, List.filter_mergeSort htrans htotal, List.filter_flatMap]

/-- One file of a network that is taken away, though it could be read, leaves the networks
that are whole what they are, if its own is none of them. -/
theorem networks_erase {here : Path} (hlist : s.tree.list s.dir = .ok names)
    (hdir : s.tree.walk s.dir.parts = .ok here)
    (hq : s.tree.node? (here ++ [name]) ≠ some .directory)
    (hread : s.readFile (s.dir.child name) = .ok (some data)) (hbad : Faulty data) :
    let s' : FileStore := { s with tree := s.tree.erase (here ++ [name]) }
    s'.networks.toOption.map (·.filter whole) = s.networks.toOption.map (·.filter whole) := by
  intro s'
  have hlist' : s'.tree.list s'.dir = .ok (names.filter (· ≠ name)) :=
    FileTree.list_erase hlist hdir hq
  have hfiles : (names.filter (· ≠ name)).filter isNetworkFile =
      (names.filter isNetworkFile).filter (· ≠ name) := by
    rw [List.filter_filter, List.filter_filter]
    exact List.filter_congr fun _ _ => Bool.and_comm _ _
  simp only [networks, hlist, hlist', hfiles]
  generalize hf : names.filter isNetworkFile = files
  -- the other files are read as before
  have hsame : ∀ other ∈ files, other ≠ name →
      s'.readFile (s'.dir.child other) = s.readFile (s.dir.child other) := by
    intro other hother hne
    rw [← hf, List.mem_filter] at hother
    exact readFile_erase hdir hq (isName_of_isNetworkFile hother.2) hne
  have hentry : ∀ other ∈ files, other ≠ name → s'.entry other = s.entry other := by
    intro other hother hne
    rw [entry, hsame other hother hne, entry]
  have hnone : (s.entry name).filter whole = [] := by
    rw [entry, hread]
    exact hbad.filter_eq_nil
  cases hin : s.networksIn files with
  | error e =>
    -- the file that cannot be read is another one
    cases hin' : s'.networksIn (files.filter (· ≠ name)) with
    | error e' => rfl
    | ok ns' =>
      have hall : ∀ other ∈ files, ∃ content, s.readFile (s.dir.child other) = .ok content := by
        intro other hother
        by_cases hne : other = name
        · exact ⟨some data, hne ▸ hread⟩
        · rw [← hsame other hother hne]
          exact (networksIn_eq_ok.mp hin').1 other (List.mem_filter.mpr ⟨hother, by simpa⟩)
      rw [networksIn_eq_ok.mpr ⟨hall, rfl⟩] at hin
      cases hin
  | ok ns =>
    have hin' : s'.networksIn (files.filter (· ≠ name)) =
        .ok ((files.filter (· ≠ name)).flatMap s'.entry) := by
      refine networksIn_eq_ok.mpr ⟨fun other hother => ?_, rfl⟩
      obtain ⟨hother, hne⟩ := List.mem_filter.mp hother
      rw [hsame other hother (by simpa using hne)]
      exact (networksIn_eq_ok.mp hin).1 other hother
    rw [hin']
    refine congrArg some ?_
    dsimp only
    rw [filter_networksIn hin', filter_networksIn hin]
    congr 1
    refine Eq.trans (List.flatMap_congr fun other hother => ?_)
      (flatMap_filter_ne files name hnone)
    obtain ⟨hother, hne⟩ := List.mem_filter.mp hother
    rw [hentry other hother (by simpa using hne)]

/-- A directory that can be listed is there. -/
theorem exists_walk_of_list (h : s.tree.list s.dir = .ok names) :
    ∃ here, s.tree.walk s.dir.parts = .ok here := by
  simp only [FileTree.list, FileTree.directory, bind, Except.bind] at h
  cases hcheck : FileTree.check s.dir with
  | error e =>
    rw [hcheck] at h
    cases h
  | ok u =>
    simp only [hcheck] at h
    cases hwalk : s.tree.walk s.dir.parts with
    | error e =>
      rw [hwalk] at h
      cases h
    | ok here => exact ⟨here, rfl⟩

/-- One file of a network that cannot be read is enough for none to be installed. -/
theorem boot_of_unread {e : StoreError} (f : Firewall) (hlist : s.tree.list s.dir = .ok names)
    (hname : name ∈ names) (hnet : isNetworkFile name = true)
    (hread : s.readFile (s.dir.child name) = .error e) :
    f.boot s = Table.all.foldl (Firewall.bootTable s) (f, {}) ∧
      (f.boot s).1.classifier = f.classifier ∧ (f.boot s).2.networks = 0 := by
  have herror : ∃ e', TableStore.readNetworks s = .error e' := by
    show ∃ e', s.networks = .error e'
    simp only [networks, hlist]
    cases hin : s.networksIn (names.filter isNetworkFile) with
    | error e' => exact ⟨e', rfl⟩
    | ok ns =>
      obtain ⟨content, hcontent⟩ := (networksIn_eq_ok.mp hin).1 name
        (List.mem_filter.mpr ⟨hname, hnet⟩)
      rw [hread] at hcontent
      cases hcontent
  obtain ⟨e', he'⟩ := herror
  exact Firewall.boot_of_error f he'

/-- Where one network is in the files, it is installed after the tables. -/
theorem boot_of_single {n : Address × Bytes} (f : Firewall)
    (hlist : s.tree.list s.dir = .ok names)
    (hfound : s.networksIn (names.filter isNetworkFile) = .ok [n]) :
    f.boot s = Firewall.bootNetwork (Table.all.foldl (Firewall.bootTable s) (f, {})) n := by
  have hnetworks : TableStore.readNetworks s = .ok [n] := by
    show s.networks = _
    rw [networks, hlist]
    simp only [hfound]
    exact congrArg Except.ok (List.mergeSort_singleton n)
  simp only [Firewall.boot, hnetworks]
  rfl

/-- Let a file of a network be in the data directory.  If it is read and holds no network that
can be installed, a start brings the same filter and the same report as if that file were not
there.  If it cannot be read, a start installs the tables, and no network at all. -/
theorem boot_entry (s : FileStore) (f : Firewall) {names : List String} {name : String}
    (hlist : s.tree.list s.dir = .ok names) (hname : name ∈ names)
    (hnet : isNetworkFile name = true) :
    (∀ data, s.readFile (s.dir.child name) = .ok (some data) → Faulty data →
        ∃ s', s.removeFile (s.dir.child name) = (s', .ok ()) ∧
          s'.tree.list s'.dir = .ok (names.filter (· ≠ name)) ∧ f.boot s' = f.boot s) ∧
      ∀ e, s.readFile (s.dir.child name) = .error e →
        f.boot s = Table.all.foldl (Firewall.bootTable s) (f, {}) ∧
          (f.boot s).1.classifier = f.classifier ∧ (f.boot s).2.networks = 0 := by
  obtain ⟨here, hdir⟩ := exists_walk_of_list hlist
  have hisName := isName_of_isNetworkFile hnet
  refine ⟨?_, ?_⟩
  · intro data hread hbad
    have htree : s.tree.read (s.dir.child name) = .ok data := by
      unfold readFile at hread
      split at hread
      · rename_i hok
        rwa [Option.some.inj (Except.ok.inj hread)] at hok
      · cases hread
      · cases hread
    obtain ⟨hfile, hnode⟩ := FileTree.file_child_of_read hdir hisName htree
    have hq : s.tree.node? (here ++ [name]) ≠ some .directory := by
      rw [hnode]
      simp
    refine ⟨{ s with tree := s.tree.erase (here ++ [name]) }, ?_,
      FileTree.list_erase hlist hdir hq, Firewall.boot_congr f (fun t => ?_)
      (networks_erase hlist hdir hq hread hbad)⟩
    · have hremove : s.tree.remove (s.dir.child name) = .ok (s.tree.erase (here ++ [name])) := by
        rw [FileTree.remove, hfile]
        rfl
      rw [removeFile, hremove]
    · -- no table is in the file of a network
      refine readFile_erase hdir hq (isName_tableFile t) ?_
      rintro rfl
      rw [isNetworkFile_tableFile] at hnet
      cases hnet
  · intro e hread
    exact boot_of_unread f hlist hname hnet hread

/-- A data directory with the file of one network, and another entry beside it. -/
def beside (other : Node) : FileStore where
  tree := ⟨[(["data"], .directory),
    (["data", "c0a80100.net"], .file (Bytes.ofU32 0xC0A80100 ++ List.replicate 256 7)),
    (["data", "x.net"], other)]⟩
  dir := .ofText "data"
  passwordFile := .ofText "pw"

theorem list_beside (other : Node) :
    (beside other).tree.list (beside other).dir = .ok ["c0a80100.net", "x.net"] := by
  have hdir : (beside .directory).tree.directory (.ofText "data") = .ok ["data"] := by
    decide +kernel
  have hsorted : ["c0a80100.net", "x.net"].Pairwise fun a b => decide (a ≤ b) = true := by
    decide +kernel
  rw [FileTree.list, show (beside other).tree.directory (beside other).dir = _ from hdir]
  exact congrArg Except.ok (List.mergeSort_of_pairwise hsorted)

/-- A file of one byte is left out; a directory named like the file of a network cannot be
read. -/
theorem boot_entry_beside :
    let f : Firewall := .withCapacity 1024
    (∃ s', (beside (.file [1])).removeFile (.ofText "data/x.net") = (s', .ok ()) ∧
        f.boot s' = f.boot (beside (.file [1]))) ∧
      (f.boot (beside (.file [1]))).2.networks = 1 ∧
      (f.boot (beside .directory)).1.classifier = f.classifier ∧
      (f.boot (beside .directory)).2.networks = 0 := by
  intro f
  have hread : (beside (.file [1])).readFile ((beside (.file [1])).dir.child "x.net") =
      .ok (some [1]) := by
    decide +kernel
  have herror : (beside .directory).readFile ((beside .directory).dir.child "x.net") =
      .error ⟨.opening, "data/x.net", "Is a directory (os error 21)"⟩ := by
    decide +kernel
  have hnet : isNetworkFile "x.net" = true := by decide +kernel
  obtain ⟨s', hremove, -, hboot⟩ := (boot_entry (beside (.file [1])) f (list_beside _) (by simp)
    hnet).1 [1] hread (.short (by decide))
  obtain ⟨-, hclassifier, hnetworks⟩ := (boot_entry (beside .directory) f (list_beside _)
    (by simp) hnet).2 _ herror
  have hfound : (beside (.file [1])).networksIn
      (["c0a80100.net", "x.net"].filter isNetworkFile) =
        .ok [(0xC0A80100, List.replicate 256 7)] := by
    decide +kernel
  have hone : (f.boot (beside (.file [1]))).2.networks = 1 := by
    rw [boot_of_single f (list_beside _) hfound]
    decide +kernel
  exact ⟨⟨s', hremove, hboot⟩, hone, hclassifier, hnetworks⟩

/-- A directory named like the file of a network costs the network beside it. -/
theorem boot_loses_networks :
    let f : Firewall := .withCapacity 1024
    let s := beside .directory
    let without : FileStore := { s with tree := s.tree.erase ["data", "x.net"] }
    s.readFile (.ofText "data/x.net") =
        .error ⟨.opening, "data/x.net", "Is a directory (os error 21)"⟩ ∧
      (f.boot s).2.networks = 0 ∧ (f.boot s).1.classifier.contains 0xC0A80100 = false ∧
      (f.boot without).2.networks = 1 ∧
      (f.boot without).1.classifier.hostTable 0xC0A80100 = .ok (List.replicate 256 7) := by
  intro f s without
  have hchild : s.dir.child "x.net" = .ofText "data/x.net" := by decide +kernel
  have herror : s.readFile (.ofText "data/x.net") =
      .error ⟨.opening, "data/x.net", "Is a directory (os error 21)"⟩ := by
    decide +kernel
  have hnet : isNetworkFile "x.net" = true := by decide +kernel
  obtain ⟨-, hclassifier, hnetworks⟩ := boot_of_unread f (list_beside .directory) (by simp) hnet
    (hchild ▸ herror)
  have hlist : without.tree.list without.dir = .ok ["c0a80100.net"] := by
    have hdir : without.tree.directory without.dir = .ok ["data"] := by decide +kernel
    rw [FileTree.list, hdir]
    exact congrArg Except.ok (List.mergeSort_singleton _)
  have hfound : without.networksIn (["c0a80100.net"].filter isNetworkFile) =
      .ok [(0xC0A80100, List.replicate 256 7)] := by
    decide +kernel
  refine ⟨herror, hnetworks, ?_, ?_⟩
  · rw [hclassifier]
    decide +kernel
  · rw [boot_of_single f hlist hfound]
    decide +kernel

end FileStore

end FilterBridge
