import FilterBridge.FileStore
import FilterBridge.Proofs.Channel
import Mathlib.Data.List.DropRight

/-!
# Passwords in files

A file that was written is read back as it was, but a password is read without the line ends
after it.  So a new password survives a restart exactly if it does not end in one.

## Main definitions

* `Agent.restart` — an agent starts with the password that is persisted.

## Main results

* `FileTree.read_of_replace` — a file that was replaced is read as it was written.
* `FileStore.readPassword_of_write` — a password is read without the line ends after it.
* `Agent.respond_newKeyAck` — a new password is acknowledged once it is persisted.
* `Agent.restart_after_newKey` — what a restart makes of it.
* `Agent.restart_loses_lineEnd` — a password that does not survive.
-/

namespace FilterBridge

/-! ### Files -/

namespace FileTree

variable {t t' : FileTree} {p : FilePath} {q : Path} {data : Bytes}

theorem lookup_filter_ne {q q' : Path} (h : q' ≠ q) (nodes : List (Path × Node)) :
    (nodes.filter (·.1 ≠ q)).lookup q' = nodes.lookup q' := by
  induction nodes with
  | nil => rfl
  | cons node nodes ih =>
    obtain ⟨r, n⟩ := node
    by_cases hr : r = q
    · have hne : (q' == r) = false := by simpa [hr] using h
      rw [List.filter_cons_of_neg (by simpa using hr), ih, List.lookup_cons, hne]
    · rw [List.filter_cons_of_pos (by simpa using hr), List.lookup_cons, List.lookup_cons, ih]

theorem node?_erase_of_ne {q' : Path} (h : q' ≠ q) : (t.erase q).node? q' = t.node? q' := by
  unfold node? erase
  rw [lookup_filter_ne h]

theorem node?_set_of_ne {q' : Path} (h : q' ≠ q) (n : Node) :
    (t.set q n).node? q' = t.node? q' := by
  have hne : (q' == q) = false := by simpa using h
  rw [← node?_erase_of_ne (t := t) h]
  unfold node? set
  rw [List.lookup_cons, hne]

/-- A step to a directory stays while the directories do. -/
theorem enter_mono (hdirs : ∀ r, t.node? r = some .directory → t'.node? r = some .directory)
    {here next : Path} {part : String} (h : t.enter here part = .ok next) :
    t'.enter here part = .ok next := by
  unfold enter at h ⊢
  by_cases hidle : FilePath.isIdle part = true
  · rwa [if_pos hidle] at h ⊢
  by_cases hup : part = FilePath.up
  · rwa [if_neg hidle, if_pos hup] at h ⊢
  by_cases hlong : nameLimit < part.utf8ByteSize
  · rw [if_neg hidle, if_neg hup, if_pos hlong] at h
    cases h
  rw [if_neg hidle, if_neg hup, if_neg hlong] at h ⊢
  split at h
  · rename_i hdir
    rwa [hdirs _ hdir]
  · cases h
  · cases h

theorem walk_mono (hdirs : ∀ r, t.node? r = some .directory → t'.node? r = some .directory)
    {parts : List String} {here next : Path} (h : parts.foldlM t.enter here = .ok next) :
    parts.foldlM t'.enter here = .ok next := by
  induction parts generalizing here with
  | nil => exact h
  | cons part parts ih =>
    rw [List.foldlM_cons] at h ⊢
    cases hpart : t.enter here part with
    | error e =>
      rw [hpart] at h
      cases h
    | ok next' =>
      rw [hpart] at h
      rw [enter_mono hdirs hpart]
      exact ih h

/-- The directories stay when something is put where none was. -/
theorem directories_set (hq : t.node? q ≠ some .directory) (n : Node) (r : Path)
    (h : t.node? r = some .directory) : (t.set q n).node? r = some .directory := by
  rw [node?_set_of_ne, h]
  rintro rfl
  exact hq h

/-- The directories stay when something else is taken away. -/
theorem directories_erase (hq : t.node? q ≠ some .directory) (r : Path)
    (h : t.node? r = some .directory) : (t.erase q).node? r = some .directory := by
  rw [node?_erase_of_ne, h]
  rintro rfl
  exact hq h

/-- A path ends at a name if the parts before it lead to a directory. -/
theorem locate_eq_named {slash : Bool} (h : t.locate p = .ok (.named q slash)) :
    ∃ parts here name, q = here ++ [name] ∧ t.walk parts = .ok here ∧
      ∀ t' : FileTree, t'.walk parts = .ok here → t'.locate p = .ok (.named q slash) := by
  simp only [locate, bind, Except.bind] at h ⊢
  cases hcheck : check p with
  | error e =>
    rw [hcheck] at h
    cases h
  | ok u =>
    rw [hcheck] at h
    dsimp only at h ⊢
    split at h
    · split at h <;> cases h
    rename_i hname
    split at h
    · cases h
    rename_i here hwalk
    split at h
    · cases h
    rename_i hlimit
    obtain ⟨rfl, rfl⟩ := Place.named.inj (Except.ok.inj h)
    refine ⟨_, here, _, rfl, hwalk, fun t' hwalk' => ?_⟩
    rw [if_neg hname, hwalk']
    dsimp only
    rw [if_neg hlimit]
    rfl

/-- A path to a name leads there still when a file is put there. -/
theorem locate_set (hq : t.node? q ≠ some .directory) (n : Node) {slash : Bool}
    (h : t.locate p = .ok (.named q slash)) : (t.set q n).locate p = .ok (.named q slash) := by
  obtain ⟨parts, here, name, -, hwalk, hlocate⟩ := locate_eq_named h
  exact hlocate _ (walk_mono (directories_set hq n) hwalk)

theorem write_eq_ok (h : t.write p data = .ok t') :
    ∃ q, t.locate p = .ok (.named q false) ∧ t.node? q ≠ some .directory ∧
      t' = t.set q (.file data) := by
  simp only [write, bind, Except.bind] at h
  split at h
  · cases h
  rename_i place hplace
  split at h
  · cases h
  rename_i q slash
  split at h
  · cases h
  rename_i hq
  split at h
  · cases h
  rename_i hslash
  rw [Bool.not_eq_true] at hslash
  subst hslash
  exact ⟨q, hplace, hq, (Except.ok.inj h).symm⟩

/-- A file that was written is read as it was written. -/
theorem read_of_write (h : t.write p data = .ok t') : t'.read p = .ok data := by
  obtain ⟨q, hplace, hq, rfl⟩ := write_eq_ok h
  obtain ⟨parts, here, name, hend, -, -⟩ := locate_eq_named hplace
  have hne : q ≠ [] := by
    rw [hend]
    exact List.append_ne_nil_of_right_ne_nil _ (List.cons_ne_nil _ _)
  have hfile : (t.set q (.file data)).file p = .ok (q, data) := by
    simp only [file, bind, Except.bind, locate_set hq _ hplace, node?_set_self t _ hne]
    rfl
  rw [read, hfile]
  rfl

theorem read_of_replace (h : t.replace p data = (t', .ok ())) : t'.read p = .ok data := by
  unfold replace at h
  split at h
  · unfold put at h
    rcases hway : t.makeParent p with ⟨t₁, e | ⟨⟩⟩
    · rw [hway] at h
      cases h
    · rw [hway] at h
      dsimp only at h
      split at h
      · rename_i hwrite
        obtain ⟨rfl, -⟩ := Prod.mk.inj h
        exact read_of_write hwrite
      · cases h
  · cases h

end FileTree

/-! ### The file of the password -/

namespace FileStore

variable {store store' : FileStore} {password : Bytes}

/-- A password is read without the line ends after it. -/
theorem readPassword_of_write
    (h : TableStore.writePassword store password = (store', .ok ())) :
    TableStore.readPassword store' = .ok (some (stripLineEnds password)) := by
  have hreplace : store.replace store.passwordFile password = (store', .ok ()) := h
  unfold replace at hreplace
  rcases ht : store.tree.replace store.passwordFile password with ⟨tree, e | ⟨⟩⟩
  · rw [ht] at hreplace
    cases hreplace
  · rw [ht] at hreplace
    obtain ⟨rfl, -⟩ := Prod.mk.inj hreplace
    have hread := FileTree.read_of_replace ht
    show (do return (← readFile _ _).map stripLineEnds) = _
    rw [readFile, hread]
    rfl

theorem stripLineEnds_eq_rdropWhile (password : Bytes) :
    stripLineEnds password = password.rdropWhile fun b => b = 10 || b = 13 := rfl

theorem stripLineEnds_eq_self_iff :
    stripLineEnds password = password ↔
      password.getLast? ≠ some 10 ∧ password.getLast? ≠ some 13 := by
  rw [stripLineEnds_eq_rdropWhile, List.rdropWhile_eq_self_iff]
  by_cases hne : password = []
  · simp [hne]
  · simp [hne, List.getLast?_eq_some_getLast hne]

theorem stripLineEnds_eq_nil_iff :
    stripLineEnds password = [] ↔ ∀ b ∈ password, b = 10 ∨ b = 13 := by
  rw [stripLineEnds_eq_rdropWhile, List.rdropWhile_eq_nil_iff]
  simp

end FileStore

/-! ### A new password -/

namespace Agent

variable {σ : Type} [TableStore σ] {a : Agent σ} {f : Firewall} {s : Suite}
  {challenge datagram : Bytes} {r : Response}

/-- An agent starts with the password that is persisted; if none can be read, there is
none. -/
def restart (store : σ) : Agent σ := start store (TableStore.readPassword store).toOption.join

/-- Only a request for a new password is acknowledged as one. -/
theorem respond_newKeyAck (hr : (a.respond f s challenge datagram).2.2 = some r)
    (hack : r.type = .newKeyAck) :
    ∃ payload, (a.respond f s challenge datagram).1 = (a.onNewKey payload).1 ∧
      r = (a.onNewKey payload).2 := by
  have hrefuse : ∀ code, (Response.refuse code).type ≠ .newKeyAck := by
    intro code h
    cases h
  -- what is acknowledged so is obeyed as such a request
  have hobey : ∀ type payload, (a.obey f s challenge datagram type payload).2.2 = some r →
      type = .newKey := by
    intro type payload hobeyed
    cases obey_answers hobeyed with
    | ack h body =>
      rename_i ack
      obtain rfl : ack = .newKeyAck := hack
      cases type <;> simp [MessageType.ack?] at h ⊢
    | refuse hcode => exact absurd hack (hrefuse _)
    | syncAck challenge => cases hack
    | lostSync => exact absurd hack (hrefuse _)
  have hreacts := a.reacts f s challenge datagram
  generalize a.respond f s challenge datagram = result at hr hreacts
  cases hreacts with
  | silent => cases hr
  | mismatch code =>
    obtain rfl := Option.some.inj hr
    exact absurd hack (hrefuse code)
  | dropped hup hpw hg hopen =>
    obtain rfl := Option.some.inj hr
    exact absurd hack (hrefuse _)
  | sync h payload hup hp hpw htype =>
    cases hobey .sync payload hr
  | opened key h payload type hup hg hkey hopen htype =>
    obtain rfl := hobey type payload hr
    exact ⟨payload, rfl, (Option.some.inj hr).symm⟩
  | plain payload type hpw htype =>
    obtain rfl := hobey type payload hr
    exact ⟨payload, rfl, (Option.some.inj hr).symm⟩

/-- A new password is acknowledged once it is persisted. -/
theorem onNewKey_ack {payload : Bytes} (hack : (a.onNewKey payload).2.type = .newKeyAck) :
    1 ≤ payload.length ∧ payload.length ≤ maxPasswordLen ∧
      (a.onNewKey payload).1.session.password = some payload ∧
      TableStore.writePassword a.store payload = ((a.onNewKey payload).1.store, .ok ()) := by
  unfold onNewKey at hack ⊢
  split at hack
  · cases hack
  rename_i hlen
  rw [if_neg hlen]
  rcases hw : TableStore.writePassword a.store payload with ⟨store, e | ⟨⟩⟩
  · rw [hw] at hack
    cases hack
  · rw [Bool.or_eq_true, not_or, decide_eq_true_eq, decide_eq_true_eq] at hlen
    exact ⟨List.length_pos_of_ne_nil hlen.1, Nat.le_of_not_lt hlen.2, rfl, rfl⟩

/-- A request for a new password that is sealed for an open session is obeyed. -/
theorem handle_newKey (hs : s.Invertible) (hopen : a.session.Open) (hup : a.rebooting = false)
    (nonce answerNonce : UInt16) (payload : Bytes) :
    a.handle f s answerNonce challenge
        (s.sealMessage a.session.key .newKey a.session.flags nonce payload) =
      ((a.onNewKey payload).1, f,
        some ((a.onNewKey payload).2.sealFor s (a.onNewKey payload).1.session answerNonce)) := by
  rw [handle, respond_sealMessage hs hopen (by decide), hup]
  rfl

/-- An agent over files was started and handled any datagrams.  If it acknowledges a new
password, this has 1 to 64 bytes and is in force, and it is read back without the line ends
after it.  So it is read back exactly if it does not end in one, and then an agent that
starts with what is persisted has the same password.  If there is anything before the line
ends, that agent has what stands there as its password; else it has none. -/
theorem restart_after_newKey (store : FileStore) (password : Option Bytes) (s : Suite)
    (es : List Incoming) :
    let a := (start store password).after s es
    ∀ (f : Firewall) (nonce : UInt16) (challenge datagram answer : Bytes),
      let b := (a.handle f s nonce challenge datagram).1
      (a.handle f s nonce challenge datagram).2.2 = some answer →
      answer.head? = some MessageType.newKeyAck.toByte →
      ∃ p, 1 ≤ p.length ∧ p.length ≤ 64 ∧ b.session.password = some p ∧
        TableStore.readPassword b.store = .ok (some (FileStore.stripLineEnds p)) ∧
        (TableStore.readPassword b.store = .ok (some p) ↔
          p.getLast? ≠ some 10 ∧ p.getLast? ≠ some 13) ∧
        ((restart b.store).session.password = some p ↔
          p.getLast? ≠ some 10 ∧ p.getLast? ≠ some 13) ∧
        ((restart b.store).session.passwordLoaded = true ↔ ∃ x ∈ p, x ≠ 10 ∧ x ≠ 13) := by
  intro a f nonce challenge datagram answer b hanswer hack
  obtain ⟨r, hr, rfl⟩ := Option.map_eq_some_iff.mp hanswer
  rw [Response.head?_sealFor] at hack
  have htype : r.type = .newKeyAck := MessageType.toByte_injective (Option.some.inj hack)
  obtain ⟨p, hb, rfl⟩ := respond_newKeyAck hr htype
  obtain ⟨hpos, hmax, hpassword, hwrite⟩ := onNewKey_ack htype
  have hb : b = (a.onNewKey p).1 := hb
  have hread : TableStore.readPassword b.store = .ok (some (FileStore.stripLineEnds p)) := by
    rw [hb]
    exact FileStore.readPassword_of_write hwrite
  have hrestart : (restart b.store).session.password =
      (some (FileStore.stripLineEnds p)).filter (· ≠ []) := by
    rw [restart, hread]
    rfl
  have hkept : FileStore.stripLineEnds p = p ↔ p.getLast? ≠ some 10 ∧ p.getLast? ≠ some 13 :=
    FileStore.stripLineEnds_eq_self_iff
  refine ⟨p, hpos, hmax, hb ▸ hpassword, hread, ?_, ?_, ?_⟩
  · rw [hread, ← hkept, Except.ok.injEq, Option.some.injEq]
  · rw [hrestart, ← hkept, Option.filter_eq_some_iff, Option.some.injEq, and_iff_left_iff_imp]
    -- what was taken is not empty
    intro _
    exact decide_eq_true (List.ne_nil_of_length_pos hpos)
  · rw [Session.passwordLoaded, hrestart, Option.isSome_filter, Option.any_some,
      decide_eq_true_eq, Ne, FileStore.stripLineEnds_eq_nil_iff]
    push Not
    rfl

/-- A password with a line end inside survives a restart. -/
theorem restart_after_newKey_inner :
    let store : FileStore := { dir := .ofText "data", passwordFile := .ofText "etc/pw" }
    let a := start store none
    let newKey := a.handle {} .standard 0 []
      (Suite.standard.sealMessage none .newKey 0 0 [112, 10, 119])
    ∃ answer, newKey.2.2 = some answer ∧ answer.head? = some MessageType.newKeyAck.toByte ∧
      (restart newKey.1.store).session.password = some [112, 10, 119] := by
  intro store a newKey
  have hopen : a.session.Open := rfl
  have hnewKey : newKey = ((a.onNewKey [112, 10, 119]).1, {}, some
      ((a.onNewKey [112, 10, 119]).2.sealFor .standard (a.onNewKey [112, 10, 119]).1.session 0)) :=
    handle_newKey Suite.standard_invertible hopen rfl 0 0 _
  have hpassword : newKey.1.session.password = some [112, 10, 119] := by
    rw [hnewKey]
    show (a.onNewKey [112, 10, 119]).1.session.password = _
    decide +kernel
  have hanswer := congrArg (·.2.2) hnewKey
  have hack : ((a.onNewKey [112, 10, 119]).2.sealFor .standard
      (a.onNewKey [112, 10, 119]).1.session 0).head? = some MessageType.newKeyAck.toByte := by
    rw [Response.head?_sealFor]
    decide +kernel
  obtain ⟨p, -, -, hp, -, -, hrestart, -⟩ :=
    restart_after_newKey store none .standard [] {} 0 [] _ _ hanswer hack
  obtain rfl := Option.some.inj (hpassword.symm.trans hp)
  exact ⟨_, hanswer, hack, hrestart.mpr (by decide)⟩

/-- Passwords that end in a line end are acknowledged and lost.  After a restart the first
lacks its line end, and as the second is nothing else, the agent answers anyone. -/
theorem restart_loses_lineEnd :
    let a : Agent FileStore :=
      start { dir := .ofText "data", passwordFile := .ofText "pw" } none
    let newKey := fun payload =>
      a.handle {} .standard 0 [] (Suite.standard.sealMessage none .newKey 0 0 payload)
    let first := newKey [112, 119, 10]
    let second := newKey [10]
    (first.2.2.bind (·.head?) = some MessageType.newKeyAck.toByte ∧
        first.1.session.password = some [112, 119, 10] ∧
        (restart first.1.store).session.password = some [112, 119]) ∧
      second.2.2.bind (·.head?) = some MessageType.newKeyAck.toByte ∧
      second.1.session.password = some [10] ∧
      (restart second.1.store).session.state = .insecure := by
  intro a newKey first second
  have hopen : a.session.Open := rfl
  have hnewKey : ∀ payload, (newKey payload).1 = (a.onNewKey payload).1 ∧
      (newKey payload).2.2.bind (·.head?) = some (a.onNewKey payload).2.type.toByte := by
    intro payload
    have hanswer : newKey payload = ((a.onNewKey payload).1, {}, some
        ((a.onNewKey payload).2.sealFor .standard (a.onNewKey payload).1.session 0)) :=
      handle_newKey Suite.standard_invertible hopen rfl 0 0 payload
    rw [hanswer]
    exact ⟨rfl, Response.head?_sealFor ..⟩
  obtain ⟨hfirst, hack⟩ := hnewKey [112, 119, 10]
  obtain ⟨hsecond, hack'⟩ := hnewKey [10]
  rw [hfirst, hack, hsecond, hack']
  decide +kernel

end Agent

end FilterBridge
