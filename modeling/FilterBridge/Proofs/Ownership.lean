import FilterBridge.Classifier
import FilterBridge.Proofs.Blocks
import FilterBridge.Proofs.Removal

/-!
# Who owns a host table

A host table is owned by the network that it is installed for, or else by whoever
took it.  No two owners share a table and every block of the arena has an owner,
so a change to one table is seen by its owner only.

## Main definitions

* `Classifier.loaded?` — what is loaded for a network.
* `Classifier.Sound` — the invariant.

## Main results

* `Classifier.Sound.alloc`, `Classifier.Sound.write`, `Classifier.Sound.free`,
  `Classifier.Sound.install_ok`, `Classifier.Sound.install_error`,
  `Classifier.Sound.release`, `Classifier.Sound.markClean` — what each operation
  does to the networks that are loaded, and that it keeps the invariant.
* `Classifier.Sound.inUse_eq` — the bytes in use are those of the tables that are owned.
-/

namespace FilterBridge

namespace Classifier

variable {c c' : Classifier} {own : List Slot} {n : Address} {s : Slot}

/-! ### What is loaded -/

/-- What is loaded for a network: its host table, and whether it changed since it
was last persisted. -/
def loaded? (c : Classifier) (n : Address) : Option (Bytes × Bool) :=
  (c.networks.get? n).bind fun e => (c.arena.block? e.table).map fun table => (table, e.dirty)

/-- The host table that is loaded for a network. -/
def hostMap (c : Classifier) (n : Address) : Option Bytes := (c.loaded? n).map (·.1)

theorem hostMap_eq (c : Classifier) (n : Address) :
    c.hostMap n = (c.networks.get? n).bind fun e => c.arena.block? e.table := by
  unfold hostMap loaded?
  cases c.networks.get? n with
  | none => rfl
  | some e => cases h : c.arena.block? e.table <;> simp [h]

theorem hostTable_eq_ok {table : Bytes} :
    c.hostTable n = .ok table ↔ c.hostMap n = some table := by
  rw [hostMap_eq, hostTable]
  cases c.networks.get? n with
  | none => simp
  | some e => cases h : c.arena.block? e.table <;> simp [h]

theorem hostMap_congr (h : c'.loaded? n = c.loaded? n) : c'.hostMap n = c.hostMap n := by
  rw [hostMap, h, hostMap]

/-! ### The invariant -/

/-- Every block belongs to one network, or else to the holder of `own`. -/
structure Sound (c : Classifier) (own : List Slot) : Prop where
  /-- The networks are found. -/
  networks : c.networks.WellFormed
  /-- The blocks are accounted for. -/
  arena : c.arena.WellFormed
  /-- There is a block where one is owned, and nowhere else. -/
  live : ∀ s, (c.arena.block? s).isSome ↔
    s ∈ own ∨ ∃ n e, c.networks.get? n = some e ∧ e.table = s
  /-- Two networks have two tables. -/
  injective : ∀ m n e e', c.networks.get? m = some e → c.networks.get? n = some e' →
    e.table = e'.table → m = n
  /-- No table is held twice. -/
  nodup : own.Nodup
  /-- The table of a network is held by no one else. -/
  apart : ∀ n e, c.networks.get? n = some e → e.table ∉ own

theorem sound_withCapacity (capacity : Nat) : (withCapacity capacity).Sound [] where
  networks := NetworkTable.wellFormed_withCapacity 1024
  arena := Arena.wellFormed_empty capacity
  live := by
    intro s
    simp [withCapacity, NetworkTable.empty]
  injective := by
    intro m n e e' h
    simp [withCapacity, NetworkTable.empty] at h
  nodup := List.nodup_nil
  apart := by simp

@[simp] theorem loaded?_withCapacity (capacity : Nat) (n : Address) :
    (withCapacity capacity).loaded? n = none := by
  simp [withCapacity, loaded?, NetworkTable.empty]

namespace Sound

theorem exists_block (h : c.Sound own) {e : NetworkEntry} (he : c.networks.get? n = some e) :
    ∃ b, c.arena.block? e.table = some b :=
  Option.isSome_iff_exists.mp ((h.live e.table).mpr (.inr ⟨n, e, he, rfl⟩))

theorem exists_block_of_mem (h : c.Sound own) (hs : s ∈ own) :
    ∃ b, c.arena.block? s = some b :=
  Option.isSome_iff_exists.mp ((h.live s).mpr (.inl hs))

/-- A network is loaded whenever it has an entry. -/
theorem loaded?_eq_none_iff (h : c.Sound own) :
    c.loaded? n = none ↔ c.networks.get? n = none := by
  unfold loaded?
  cases he : c.networks.get? n with
  | none => simp
  | some e =>
    obtain ⟨b, hb⟩ := h.exists_block he
    simp [hb]

theorem contains_eq (h : c.Sound own) (n : Address) :
    c.contains n = (c.hostMap n).isSome := by
  rw [contains, NetworkTable.contains, hostMap_eq]
  cases he : c.networks.get? n with
  | none => rfl
  | some e =>
    obtain ⟨b, hb⟩ := h.exists_block he
    simp [hb]

/-- The host table of a network is read as it is loaded. -/
theorem hostTable_congr {own' : List Slot} (h : c.Sound own) (h' : c'.Sound own')
    (hl : c'.loaded? n = c.loaded? n) : c'.hostTable n = c.hostTable n := by
  cases hm : c.hostMap n with
  | some table =>
    rw [hostTable_eq_ok.mpr hm, hostTable_eq_ok.mpr ((hostMap_congr hl).trans hm)]
  | none =>
    have hnone : c.loaded? n = none := Option.map_eq_none_iff.mp hm
    have hget := h.loaded?_eq_none_iff.mp hnone
    have hget' := h'.loaded?_eq_none_iff.mp (hl.trans hnone)
    simp only [hostTable, hget, hget']

/-- Changing blocks that networks do not own changes nothing that is loaded. -/
theorem loaded?_congr (hn : c'.networks = c.networks)
    (hb : ∀ m e, c.networks.get? m = some e → c'.arena.block? e.table = c.arena.block? e.table)
    (m : Address) : c'.loaded? m = c.loaded? m := by
  unfold loaded?
  rw [hn]
  cases he : c.networks.get? m with
  | none => rfl
  | some e => simp only [Option.bind_some, hb m e he]

/-- The invariant does not speak about the cache. -/
theorem of_cache (h : c.Sound own) (hn : c'.networks = c.networks) (ha : c'.arena = c.arena) :
    c'.Sound own := by
  obtain ⟨h₁, h₂, h₃, h₄, h₅, h₆⟩ := h
  exact ⟨hn ▸ h₁, ha ▸ h₂, hn ▸ ha ▸ h₃, hn ▸ h₄, h₅, hn ▸ h₆⟩

/-- The order in which tables are held does not matter. -/
theorem perm {own' : List Slot} (h : c.Sound own) (hp : own.Perm own') : c.Sound own' where
  networks := h.networks
  arena := h.arena
  live := by
    intro s
    rw [h.live, hp.mem_iff]
  injective := h.injective
  nodup := hp.nodup_iff.mp h.nodup
  apart := by
    intro n e he hmem
    exact h.apart n e he (hp.mem_iff.mpr hmem)

/-! ### Tables that are not installed -/

theorem alloc {len : Nat} (h : c.Sound own) (hr : c.alloc n = .ok (c', s))
    (hlen : n.tableLen? = some len) :
    c'.Sound (s :: own) ∧ c'.arena.block? s = some (Bytes.zeros len) ∧
      (∀ m, c'.loaded? m = c.loaded? m) ∧ c'.networks = c.networks ∧ c'.cache = c.cache ∧
      c'.arena.capacity = c.arena.capacity := by
  simp only [Classifier.alloc, hlen] at hr
  cases ha : c.arena.alloc len with
  | error e => simp [ha] at hr
  | ok r =>
    obtain ⟨arena, slot⟩ := r
    simp only [ha, Except.ok.injEq, Prod.mk.injEq] at hr
    obtain ⟨rfl, rfl⟩ := hr
    obtain ⟨hwf, hnone, hb, hcap, -⟩ := Arena.alloc_spec h.arena ha
    -- the slot was empty, so no one owned it
    have hfree : ¬ (slot ∈ own ∨ ∃ n e, c.networks.get? n = some e ∧ e.table = slot) := by
      rw [← h.live slot, hnone]
      simp
    rw [not_or] at hfree
    refine ⟨⟨h.networks, hwf, fun t => ?_, h.injective, ?_, ?_⟩, ?_, ?_, rfl, rfl, hcap⟩
    · rw [hb, List.mem_cons]
      by_cases ht : t = slot
      · simp [ht]
      · rw [if_neg ht, h.live t]
        simp [ht]
    · exact List.nodup_cons.mpr ⟨hfree.1, h.nodup⟩
    · intro m e he hmem
      rcases List.mem_cons.mp hmem with heq | hmem
      · exact hfree.2 ⟨m, e, he, heq⟩
      · exact h.apart m e he hmem
    · rw [hb, if_pos rfl]
    · refine loaded?_congr rfl fun m e he => ?_
      rw [hb, if_neg]
      intro heq
      exact hfree.2 ⟨m, e, he, heq⟩

theorem write {offset : Nat} {data : Bytes} (h : c.Sound own) (hs : s ∈ own)
    (hr : c.write s offset data = .ok c') :
    c'.Sound own ∧ (∃ b, (c.arena.block? s = some b ∧ offset + data.length ≤ b.length) ∧
        c'.arena.block? s = some (b.overlay offset data)) ∧
      (∀ m, c'.loaded? m = c.loaded? m) ∧ c'.networks = c.networks ∧ c'.cache = c.cache ∧
      c'.arena.capacity = c.arena.capacity := by
  simp only [Classifier.write, bind, Except.bind, pure, Except.pure] at hr
  cases ha : c.arena.write s offset data with
  | error e => simp [ha] at hr
  | ok arena =>
    simp only [ha, Except.ok.injEq] at hr
    subst hr
    obtain ⟨hwf, b, ⟨hsome, hle⟩, hb, hcap, -⟩ := Arena.write_spec h.arena ha
    refine ⟨⟨h.networks, hwf, fun t => ?_, h.injective, h.nodup, h.apart⟩,
      ⟨b, ⟨hsome, hle⟩, by rw [hb, if_pos rfl]⟩, ?_, rfl, rfl, hcap⟩
    · rw [hb]
      by_cases ht : t = s
      · simp [ht, hs]
      · rw [if_neg ht, h.live t]
    · refine loaded?_congr rfl fun m e he => ?_
      rw [hb, if_neg]
      rintro rfl
      exact h.apart m e he hs

theorem free (h : c.Sound own) (hs : s ∈ own) :
    (c.free s).Sound (own.erase s) ∧ (∀ m, (c.free s).loaded? m = c.loaded? m) ∧
      (c.free s).arena.capacity = c.arena.capacity := by
  obtain ⟨hwf, hb, hcap, -⟩ := Arena.release_spec h.arena s
  refine ⟨⟨h.networks, hwf, fun t => ?_, h.injective, h.nodup.erase s, ?_⟩, ?_, hcap⟩
  · show ((c.arena.release s).block? t).isSome ↔
      t ∈ own.erase s ∨ ∃ n e, c.networks.get? n = some e ∧ e.table = t
    rw [hb, h.nodup.mem_erase_iff]
    by_cases ht : t = s
    · subst ht
      simp only [if_true, Option.isSome_none, Bool.false_eq_true, ne_eq, not_true_eq_false,
        false_and, false_or, false_iff, not_exists, not_and]
      intro m e he heq
      exact h.apart m e he (heq ▸ hs)
    · rw [if_neg ht, h.live t]
      simp [ht]
  · intro m e he hmem
    exact h.apart m e he (List.mem_of_mem_erase hmem)
  · refine loaded?_congr rfl fun m e he => ?_
    show (c.arena.release s).block? e.table = _
    rw [hb, if_neg]
    rintro rfl
    exact h.apart m e he hs

/-! ### Tables that change owner -/

/-- The entry of one network changes: its new table comes from the holder, and its
old one goes there. -/
theorem reassign {networks : NetworkTable} {o : Option NetworkEntry} {own' : List Slot}
    (h : c.Sound own) (hwf : networks.WellFormed)
    (hget : ∀ m, networks.get? m = if m = n then o else c.networks.get? m)
    (ho : ∀ e, o = some e → e.table ∈ own)
    (hown : ∀ t, t ∈ own' ↔ (t ∈ own ∧ o.map (·.table) ≠ some t) ∨
      (c.networks.get? n).map (·.table) = some t)
    (hnodup : own'.Nodup) : { c with networks }.Sound own' := by
  have hself : networks.get? n = o := by rw [hget, if_pos rfl]
  have hother : ∀ m, m ≠ n → networks.get? m = c.networks.get? m := fun m hm => by
    rw [hget, if_neg hm]
  refine ⟨hwf, h.arena, fun t => ?_, fun m m' e e' he he' heq => ?_, hnodup, fun m e he hmem => ?_⟩
  · show (c.arena.block? t).isSome ↔ t ∈ own' ∨ ∃ n e, networks.get? n = some e ∧ e.table = t
    rw [h.live, hown]
    constructor
    · rintro (ht | ⟨m, e, he, rfl⟩)
      · by_cases hot : o.map (·.table) = some t
        · obtain ⟨e, rfl, rfl⟩ := Option.map_eq_some_iff.mp hot
          exact .inr ⟨n, e, hself, rfl⟩
        · exact .inl (.inl ⟨ht, hot⟩)
      · by_cases hm : m = n
        · subst hm
          exact .inl (.inr (by rw [he]; rfl))
        · exact .inr ⟨m, e, (hother m hm).trans he, rfl⟩
    · rintro ((⟨ht, -⟩ | hold) | ⟨m, e, he, rfl⟩)
      · exact .inl ht
      · obtain ⟨e, he, rfl⟩ := Option.map_eq_some_iff.mp hold
        exact .inr ⟨n, e, he, rfl⟩
      · by_cases hm : m = n
        · subst hm
          exact .inl (ho e (hself.symm.trans he))
        · exact .inr ⟨m, e, (hother m hm).symm.trans he, rfl⟩
  · change networks.get? m = some e at he
    change networks.get? m' = some e' at he'
    by_cases hm : m = n <;> by_cases hm' : m' = n
    · exact hm.trans hm'.symm
    · subst hm
      rw [hother m' hm'] at he'
      exact absurd (heq ▸ ho e (hself.symm.trans he)) (h.apart m' e' he')
    · subst hm'
      rw [hother m hm] at he
      exact absurd (heq ▸ ho e' (hself.symm.trans he')) (h.apart m e he)
    · rw [hother m hm] at he
      rw [hother m' hm'] at he'
      exact h.injective m m' e e' he he' heq
  · change networks.get? m = some e at he
    rcases (hown e.table).mp hmem with ⟨ht, hne⟩ | hold
    · by_cases hm : m = n
      · subst hm
        rw [← hself, he] at hne
        exact hne rfl
      · rw [hother m hm] at he
        exact h.apart m e he ht
    · obtain ⟨e', he', heq⟩ := Option.map_eq_some_iff.mp hold
      by_cases hm : m = n
      · subst hm
        exact h.apart m e' he' (heq ▸ ho e (hself.symm.trans he))
      · rw [hother m hm] at he
        exact hm (h.injective m n e e' he he' heq.symm)

/-- What is loaded after the entry of one network changed. -/
theorem loaded?_reassign {networks : NetworkTable} {o : Option NetworkEntry}
    (hget : ∀ m, networks.get? m = if m = n then o else c.networks.get? m) (m : Address) :
    { c with networks }.loaded? m =
      if m = n then o.bind fun e => (c.arena.block? e.table).map fun table => (table, e.dirty)
      else c.loaded? m := by
  unfold loaded?
  rw [hget]
  split <;> rfl

theorem install_error {e : TableFull} (h : c.Sound own) (hs : s ∈ own)
    (hr : c.install n s = (c', .error e)) :
    c'.Sound (own.erase s) ∧ (∀ m, c'.loaded? m = c.loaded? m) ∧ c'.networks = c.networks ∧
      c'.cache = c.cache ∧ c'.arena.capacity = c.arena.capacity := by
  have hc : c' = c.free s := by
    simp only [install, NetworkTable.insert] at hr
    cases hroom : c.networks.canInsert n with
    | true =>
      rcases hp : c.networks.place n s with ⟨networks, _ | old⟩ <;> simp [hroom, hp] at hr
    | false =>
      rw [hroom] at hr
      simp only [Bool.false_eq_true, if_false, Prod.mk.injEq] at hr
      exact hr.1.symm
  subst hc
  obtain ⟨hsound, hloaded, hcap⟩ := h.free hs
  exact ⟨hsound, hloaded, rfl, rfl, hcap⟩

theorem install_ok (h : c.Sound own) (hs : s ∈ own) (hr : c.install n s = (c', .ok ())) :
    c'.Sound (own.erase s) ∧
      (∀ m, c'.loaded? m =
        if m = n then (c.arena.block? s).map fun table => (table, true) else c.loaded? m) ∧
      c'.cache = c.cache.flush ∧ c'.arena.capacity = c.arena.capacity := by
  simp only [install, NetworkTable.insert] at hr
  cases hroom : c.networks.canInsert n with
  | false => simp [hroom] at hr
  | true =>
    obtain ⟨hwf, hget, hold, -⟩ := NetworkTable.place_spec h.networks hroom s
    rcases hp : c.networks.place n s with ⟨networks, old⟩
    rw [hp] at hwf hget hold
    simp only at hwf hget hold
    -- the table that is replaced goes to the holder first, and is given back then
    have hown : ∀ t, t ∈ old.toList ++ own.erase s ↔
        (t ∈ own ∧ (some (⟨n, s, true⟩ : NetworkEntry)).map (·.table) ≠ some t) ∨
          (c.networks.get? n).map (·.table) = some t := by
      intro t
      rw [List.mem_append, h.nodup.mem_erase_iff, Option.mem_toList, ← hold, or_comm]
      simp only [Option.map_some, ne_eq, Option.some.injEq, eq_comm (a := s), and_comm]
    have hnodup : (old.toList ++ own.erase s).Nodup := by
      cases hg : c.networks.get? n with
      | none => simpa [hold, hg] using h.nodup.erase s
      | some e =>
        simp only [hold, hg, Option.map_some, Option.toList_some, List.singleton_append]
        exact List.nodup_cons.mpr
          ⟨fun hm => h.apart n e hg (List.mem_of_mem_erase hm), h.nodup.erase s⟩
    have hsound : { c with networks }.Sound (old.toList ++ own.erase s) :=
      h.reassign hwf hget (by rintro _ ⟨⟩; exact hs) hown hnodup
    have hloaded := loaded?_reassign (c := c) hget
    cases old with
    | none =>
      simp only [hroom, if_true, hp, Prod.mk.injEq, and_true] at hr
      subst hr
      exact ⟨hsound.of_cache rfl rfl, hloaded, rfl, rfl⟩
    | some t =>
      simp only [hroom, if_true, hp, Prod.mk.injEq, and_true] at hr
      subst hr
      obtain ⟨hsound', hloaded', hcap⟩ := hsound.free (s := t) (by simp)
      simp only [Option.toList_some, List.singleton_append, List.erase_cons_head] at hsound'
      exact ⟨hsound'.of_cache rfl rfl, fun m => (hloaded' m).trans (hloaded m), rfl, hcap⟩

theorem release {b : Bool} (h : c.Sound own) (hr : c.release n = (c', b)) :
    c'.Sound own ∧ (∀ m, c'.loaded? m = if m = n then none else c.loaded? m) ∧
      b = (c.loaded? n).isSome ∧ c'.cache = (if b then c.cache.flush else c.cache) ∧
      c'.arena.capacity = c.arena.capacity := by
  simp only [Classifier.release] at hr
  cases he : c.networks.erase? n with
  | none =>
    have hnone := h.loaded?_eq_none_iff.mpr ((NetworkTable.erase?_eq_none_iff h.networks).mp he)
    simp only [he, Prod.mk.injEq] at hr
    obtain ⟨rfl, rfl⟩ := hr
    refine ⟨h, fun m => ?_, by simp [hnone], rfl, rfl⟩
    by_cases hm : m = n
    · simp [hm, hnone]
    · simp [hm]
  | some r =>
    obtain ⟨networks, entry⟩ := r
    obtain ⟨hwf, hentry, hget, -⟩ := NetworkTable.erase?_spec h.networks he
    simp only [he, Prod.mk.injEq] at hr
    obtain ⟨rfl, rfl⟩ := hr
    have hsome : (c.loaded? n).isSome := by
      rw [← Option.ne_none_iff_isSome, ne_eq, h.loaded?_eq_none_iff, hentry]
      simp
    -- in between, the table that was removed is held
    have hsound : { c with networks }.Sound (entry.table :: own) := by
      refine h.reassign hwf hget (by simp) (fun t => ?_) ?_
      · simp only [List.mem_cons, Option.map_none, ne_eq, reduceCtorEq, not_false_eq_true,
          and_true, hentry, Option.map_some, Option.some.injEq, eq_comm (a := t)]
        exact or_comm
      · exact List.nodup_cons.mpr ⟨h.apart n entry hentry, h.nodup⟩
    obtain ⟨hsound', hloaded', hcap⟩ := hsound.free (s := entry.table) (by simp)
    rw [List.erase_cons_head] at hsound'
    refine ⟨hsound'.of_cache rfl rfl, fun m => ?_, hsome.symm, rfl, hcap⟩
    exact (hloaded' m).trans (loaded?_reassign (c := c) hget m)

/-! ### Tables that are held -/

/-- Taking a host table leaves those alone that are held. -/
theorem block?_alloc {t : Slot} (h : c.Sound own) (ht : t ∈ own)
    (hr : c.alloc n = .ok (c', s)) : c'.arena.block? t = c.arena.block? t := by
  obtain ⟨b, hb⟩ := h.exists_block_of_mem ht
  unfold Classifier.alloc at hr
  cases hlen : n.tableLen? with
  | none => simp [hlen] at hr
  | some len =>
    cases ha : c.arena.alloc len with
    | error e => simp [hlen, ha] at hr
    | ok r =>
      obtain ⟨arena, slot⟩ := r
      obtain ⟨-, hnone, hblock, -⟩ := Arena.alloc_spec h.arena ha
      simp only [hlen, ha, Except.ok.injEq, Prod.mk.injEq] at hr
      obtain ⟨rfl, rfl⟩ := hr
      refine (hblock t).trans (if_neg ?_)
      rintro rfl
      rw [hnone] at hb
      simp at hb

/-- Writing into a host table leaves the others alone. -/
theorem block?_write {t : Slot} {offset : Nat} {data : Bytes} (h : c.Sound own) (ht : t ≠ s)
    (hr : c.write s offset data = .ok c') : c'.arena.block? t = c.arena.block? t := by
  simp only [Classifier.write, bind, Except.bind, pure, Except.pure] at hr
  cases ha : c.arena.write s offset data with
  | error e => simp [ha] at hr
  | ok arena =>
    obtain ⟨-, b, -, hblock, -⟩ := Arena.write_spec h.arena ha
    simp only [ha, Except.ok.injEq] at hr
    rw [← hr]
    exact (hblock t).trans (if_neg ht)

/-- Giving a host table back leaves the others alone. -/
theorem block?_free {t : Slot} (h : c.Sound own) (ht : t ≠ s) :
    (c.free s).arena.block? t = c.arena.block? t :=
  ((Arena.release_spec h.arena s).2.1 t).trans (if_neg ht)

/-- Installing a host table leaves the others alone that are held. -/
theorem block?_install {t : Slot} (h : c.Sound own) (ht : t ∈ own) (hs : t ≠ s) (n : Address) :
    (c.install n s).1.arena.block? t = c.arena.block? t := by
  simp only [Classifier.install, NetworkTable.insert]
  cases hroom : c.networks.canInsert n with
  | false => simpa only [Bool.false_eq_true, if_false] using h.block?_free hs
  | true =>
    obtain ⟨-, -, hold, -⟩ := NetworkTable.place_spec h.networks hroom s
    rcases hp : c.networks.place n s with ⟨networks, _ | old⟩
    · simp only [if_true]
      rfl
    · -- the table that is replaced was a network's
      rw [hp] at hold
      obtain ⟨e, he, rfl⟩ := Option.map_eq_some_iff.mp hold.symm
      have hne : t ≠ e.table := by
        rintro rfl
        exact h.apart n e he ht
      simp only [if_true]
      exact h.block?_free hne

/-- Removing a network leaves the host tables alone that are held. -/
theorem block?_release {b : Bool} (h : c.Sound own) (hs : s ∈ own)
    (hr : c.release n = (c', b)) : c'.arena.block? s = c.arena.block? s := by
  simp only [Classifier.release] at hr
  cases he : c.networks.erase? n with
  | none =>
    simp only [he, Prod.mk.injEq] at hr
    rw [← hr.1]
  | some r =>
    obtain ⟨networks, entry⟩ := r
    obtain ⟨-, hentry, -, -⟩ := NetworkTable.erase?_spec h.networks he
    obtain ⟨-, hb, -, -⟩ := Arena.release_spec h.arena entry.table
    simp only [he, Prod.mk.injEq] at hr
    rw [← hr.1]
    refine (hb s).trans (if_neg ?_)
    rintro rfl
    exact h.apart n entry hentry hs

theorem markClean (h : c.Sound own) (n : Address) :
    (c.markClean n).Sound own ∧ ∀ m, (c.markClean n).loaded? m =
      if m = n then (c.loaded? m).map fun l => (l.1, false) else c.loaded? m := by
  have hget := NetworkTable.get?_setDirty h.networks n false
  -- no entry gets another table
  have hold : ∀ m e, (c.markClean n).networks.get? m = some e →
      ∃ e', c.networks.get? m = some e' ∧ e'.table = e.table := by
    intro m e he
    have he' := (hget m).symm.trans he
    by_cases hm : m = n
    · rw [if_pos hm] at he'
      obtain ⟨e', hold, rfl⟩ := Option.map_eq_some_iff.mp he'
      exact ⟨e', hold, rfl⟩
    · rw [if_neg hm] at he'
      exact ⟨e, he', rfl⟩
  refine ⟨⟨h.networks.setDirty n false, h.arena, fun t => ?_, ?_, h.nodup, ?_⟩, fun m => ?_⟩
  · show (c.arena.block? t).isSome ↔ _
    rw [h.live]
    refine or_congr Iff.rfl ⟨?_, ?_⟩
    · rintro ⟨m, e, he, rfl⟩
      by_cases hm : m = n
      · exact ⟨m, { e with dirty := false }, (hget m).trans (by rw [if_pos hm, he]; rfl), rfl⟩
      · exact ⟨m, e, (hget m).trans (by simp [hm, he]), rfl⟩
    · rintro ⟨m, e, he, rfl⟩
      obtain ⟨e', he', heq⟩ := hold m e he
      exact ⟨m, e', he', heq⟩
  · intro m m' e e' he he' heq
    obtain ⟨a, ha, hae⟩ := hold m e he
    obtain ⟨a', ha', hae'⟩ := hold m' e' he'
    exact h.injective m m' a a' ha ha' (by rw [hae, hae', heq])
  · intro m e he hmem
    obtain ⟨a, ha, hae⟩ := hold m e he
    exact h.apart m a ha (hae ▸ hmem)
  · show (((c.networks.setDirty n false).get? m).bind fun e =>
      (c.arena.block? e.table).map fun table => (table, e.dirty)) = _
    rw [hget, loaded?]
    by_cases hm : m = n
    · rw [if_pos hm, if_pos hm]
      cases c.networks.get? m with
      | none => rfl
      | some e => cases hb : c.arena.block? e.table <;> simp [hb]
    · rw [if_neg hm, if_neg hm]

/-! ### Loading a whole table -/

/-- A network that is loaded gets the image as its table and counts as persisted. -/
theorem load_ok {image : Bytes} (h : c.Sound own) (hr : c.load n image = (c', .ok ())) :
    c'.Sound own ∧ n.tableLen? = some image.length ∧
      (∀ m, c'.loaded? m = if m = n then some (image, false) else c.loaded? m) ∧
      c'.cache = c.cache.flush ∧ c'.arena.capacity = c.arena.capacity := by
  unfold load at hr
  cases hlen : n.tableLen? with
  | none => simp [hlen] at hr
  | some len =>
    simp only [hlen] at hr
    by_cases hne : image.length ≠ len
    · simp [hne] at hr
    rw [if_neg hne] at hr
    -- the image fills a fresh table, and that is installed
    have heq : image.length = len := not_not.mp hne
    cases ha : c.alloc n with
    | error e => simp [ha] at hr
    | ok r =>
      obtain ⟨c₁, s⟩ := r
      simp only [ha] at hr
      obtain ⟨h₁, hblock, hloaded₁, -, hcache₁, hcap₁⟩ := h.alloc ha hlen
      cases hw : c₁.write s 0 image with
      | error e => simp [hw] at hr
      | ok c₂ =>
        simp only [hw] at hr
        obtain ⟨h₂, ⟨b, ⟨hb, -⟩, hblock₂⟩, hloaded₂, -, hcache₂, hcap₂⟩ := h₁.write (by simp) hw
        rw [hblock, Option.some.injEq] at hb
        subst hb
        rw [Bytes.overlay_zero (by simpa using heq)] at hblock₂
        rcases hi : c₂.install n s with ⟨c₃, e | u⟩
        · simp [hi] at hr
        · simp only [hi, Prod.mk.injEq, and_true] at hr
          obtain ⟨h₃, hloaded₃, hcache₃, hcap₃⟩ := h₂.install_ok (by simp) hi
          rw [List.erase_cons_head] at h₃
          obtain ⟨h₄, hloaded₄⟩ := h₃.markClean n
          subst hr
          refine ⟨h₄, by rw [heq], fun m => ?_, ?_, ?_⟩
          · rw [hloaded₄, hloaded₃, hblock₂]
            by_cases hm : m = n
            · simp [hm]
            · simp only [hm, if_false]
              rw [hloaded₂, hloaded₁]
          · exact hcache₃.trans (by rw [hcache₂, hcache₁])
          · exact hcap₃.trans (hcap₂.trans hcap₁)

/-- A network that cannot be loaded leaves all as it was. -/
theorem load_error {image : Bytes} {e : PolicyError} (h : c.Sound own)
    (hr : c.load n image = (c', .error e)) :
    c'.Sound own ∧ (∀ m, c'.loaded? m = c.loaded? m) ∧ c'.networks = c.networks ∧
      c'.cache = c.cache ∧ c'.arena.capacity = c.arena.capacity := by
  have hsame : c.Sound own ∧ (∀ m, c.loaded? m = c.loaded? m) ∧ c.networks = c.networks ∧
      c.cache = c.cache ∧ c.arena.capacity = c.arena.capacity := ⟨h, fun _ => rfl, rfl, rfl, rfl⟩
  unfold load at hr
  cases hlen : n.tableLen? with
  | none =>
    simp only [hlen, Prod.mk.injEq] at hr
    rwa [← hr.1]
  | some len =>
    simp only [hlen] at hr
    by_cases hne : image.length ≠ len
    · rw [if_pos hne, Prod.mk.injEq] at hr
      rwa [← hr.1]
    rw [if_neg hne] at hr
    cases ha : c.alloc n with
    | error e =>
      simp only [ha, Prod.mk.injEq] at hr
      rwa [← hr.1]
    | ok r =>
      obtain ⟨c₁, s⟩ := r
      simp only [ha] at hr
      obtain ⟨h₁, -, hloaded₁, hnet₁, hcache₁, hcap₁⟩ := h.alloc ha hlen
      cases hw : c₁.write s 0 image with
      | error e =>
        simp only [hw, Prod.mk.injEq] at hr
        obtain ⟨h₂, hloaded₂, hcap₂⟩ := h₁.free (s := s) (by simp)
        rw [List.erase_cons_head] at h₂
        rw [← hr.1]
        exact ⟨h₂, fun m => (hloaded₂ m).trans (hloaded₁ m), hnet₁, hcache₁, hcap₂.trans hcap₁⟩
      | ok c₂ =>
        simp only [hw] at hr
        obtain ⟨h₂, -, hloaded₂, hnet₂, hcache₂, hcap₂⟩ := h₁.write (by simp) hw
        rcases hi : c₂.install n s with ⟨c₃, e | u⟩
        · simp only [hi, Prod.mk.injEq] at hr
          obtain ⟨h₃, hloaded₃, hnet₃, hcache₃, hcap₃⟩ := h₂.install_error (by simp) hi
          rw [List.erase_cons_head] at h₃
          rw [← hr.1]
          exact ⟨h₃, fun m => (hloaded₃ m).trans ((hloaded₂ m).trans (hloaded₁ m)),
            hnet₃.trans (hnet₂.trans hnet₁), hcache₃.trans (hcache₂.trans hcache₁),
            hcap₃.trans (hcap₂.trans hcap₁)⟩
        · simp [hi] at hr

/-- Loading a network leaves the host tables alone that are held. -/
theorem block?_load {t : Slot} (h : c.Sound own) (ht : t ∈ own) (n : Address) (image : Bytes) :
    (c.load n image).1.arena.block? t = c.arena.block? t := by
  unfold load
  cases hlen : n.tableLen? with
  | none => rfl
  | some len =>
    simp only
    split
    · rfl
    cases ha : c.alloc n with
    | error e => rfl
    | ok r =>
      obtain ⟨c₁, s⟩ := r
      obtain ⟨h₁, -⟩ := h.alloc ha hlen
      have hb₁ := h.block?_alloc ht ha
      -- the table that was taken for the network is another one
      have hts : t ≠ s := by
        rintro rfl
        exact (List.nodup_cons.mp h₁.nodup).1 ht
      have ht₁ : t ∈ s :: own := List.mem_cons_of_mem s ht
      simp only
      cases hw : c₁.write s 0 image with
      | error e => exact (h₁.block?_free hts).trans hb₁
      | ok c₂ =>
        obtain ⟨h₂, -⟩ := h₁.write (by simp) hw
        have hb₂ := h₁.block?_write hts hw
        have hb₃ := h₂.block?_install ht₁ hts n
        simp only
        rcases hi : c₂.install n s with ⟨c₃, e | u⟩ <;> rw [hi] at hb₃ <;>
          exact hb₃.trans (hb₂.trans hb₁)

/-! ### All that is owned -/

/-- There is a block where a network or the holder owns one, and nowhere else. -/
theorem isSome_block?_iff (h : c.Sound own) (s : Slot) : (c.arena.block? s).isSome ↔
    s ∈ c.networks.toList.map (·.table) ++ own := by
  rw [h.live, List.mem_append, or_comm, List.mem_map]
  refine or_congr_left ⟨?_, ?_⟩
  · rintro ⟨n, e, he, rfl⟩
    exact ⟨e, ((NetworkTable.get?_eq_some_iff h.networks).mp he).1, rfl⟩
  · rintro ⟨e, he, rfl⟩
    exact ⟨e.network, e, NetworkTable.get?_of_mem h.networks he, rfl⟩

/-- No block is owned twice. -/
theorem nodup_slots (h : c.Sound own) : (c.networks.toList.map (·.table) ++ own).Nodup := by
  rw [List.nodup_append']
  refine ⟨?_, h.nodup, ?_⟩
  · -- two entries with one table would be for one network
    refine List.Nodup.map_on ?_ h.networks.nodup_networks.of_map
    intro e he e' he' htable
    refine List.inj_on_of_nodup_map h.networks.nodup_networks he he' ?_
    exact h.injective _ _ e e' (NetworkTable.get?_of_mem h.networks he)
      (NetworkTable.get?_of_mem h.networks he') htable
  · rintro s hs hmem
    obtain ⟨e, he, rfl⟩ := List.mem_map.mp hs
    exact h.apart e.network e (NetworkTable.get?_of_mem h.networks he) hmem

/-- The bytes in use are those that the networks and the holder own. -/
theorem inUse_eq (h : c.Sound own) : c.arena.inUse =
    ((c.networks.toList.map (·.table) ++ own).map c.arena.blockSize).sum :=
  (h.arena.sum_blockSize_eq h.nodup_slots fun s hs => (h.isSome_block?_iff s).mp hs).symm

end Sound

end Classifier

end FilterBridge
