import FilterBridge.Proofs.Faithful
import FilterBridge.Proofs.FilterRuns
import FilterBridge.Proofs.Releasing

/-!
# What a write does

A request to write goes through all that counts as changed, the tables of the policy first
and then the networks in the order of their table, and stops at the first that the store
cannot write.  What was written before that is persisted and no longer counts as changed; the
rest stays as it was, in the filter and in the store.  So the next request to write goes on
where this one stopped.

## Main definitions

* `Firewall.changed` — what counts as changed, in the order in which it is written.
* `TableStore.Records`, `TableStore.TakesAll` — a store keeps what it is told to write, or fails
  and keeps the old copy; a store that does not fail.
* `Unaltered` — filters that differ in flags only.
* `Agent.WritesUpTo` — writing one thing after another, up to the first that cannot be.
* `Agent.Commits` — what a request to write comes to.

## Main results

* `Agent.onWrite_writesUpTo` — a request to write goes through what counts as changed.
* `Agent.WritesUpTo.changed_eq`, `Agent.WritesUpTo.copies` — what it does to flags and copies.
* `Agent.onWrite_commits` — a request to write comes to nothing else.
* `Service.write_commits_prefix` — after any events, and when the store is mended.
-/

namespace FilterBridge

open Agent Policy

/-! ### What counts as changed -/

/-- What counts as changed, in the order in which it is written. -/
def Firewall.changed (f : Firewall) : List Releasable :=
  (Table.all.filter f.policy.isDirty).map .table ++ f.classifier.dirtyNetworks.map .network

/-- Something changed since it was last persisted. -/
def Firewall.CountsAsChanged (f : Firewall) : Releasable → Prop
  | .table t => f.policy.isDirty t = true
  | .network n => f.classifier.Changed n

/-- The image of a table, or the host table of a network if it is loaded. -/
def Firewall.image? (f : Firewall) : Releasable → Option Bytes
  | .table t => some (f.policy.encode t)
  | .network n => f.classifier.hostMap n

/-- The filter when something no longer counts as changed. -/
def Firewall.persist (f : Firewall) : Releasable → Firewall
  | .table t => { f with policy := f.policy.setDirty false t }
  | .network n => { f with classifier := f.classifier.markClean n }

namespace NetworkTable

variable {t : NetworkTable}

theorem slot_setDirty (h : t.WellFormed) (n : Address) (dirty : Bool) (i : Nat) :
    (t.setDirty n dirty).slot i =
      (t.slot i).map fun e => if e.network = n then { e with dirty } else e := by
  have hother : ∀ e, t.slot i = some e → t.position? n ≠ some i → e.network ≠ n := by
    intro e he hp hn
    exact hp ((position?_eq_some_iff h).mpr ⟨e, he, hn⟩)
  rw [setDirty]
  cases hp : t.position? n with
  | none =>
    cases he : t.slot i with
    | none => rfl
    | some e => simp [hother e he (by simp [hp])]
  | some j =>
    obtain ⟨e, he, hn⟩ := (position?_eq_some_iff h).mp hp
    simp only
    rw [slot_setSlot (slot_lt he)]
    by_cases hj : j = i
    · subst hj
      simp [he, hn]
    · rw [if_neg hj]
      cases he' : t.slot i with
      | none => rfl
      | some e' => simp [hother e' he' (by simpa [hp] using hj)]

/-- Setting a flag leaves the entries in their order. -/
theorem toList_setDirty (h : t.WellFormed) (n : Address) (dirty : Bool) :
    (t.setDirty n dirty).toList =
      t.toList.map fun e => if e.network = n then { e with dirty } else e := by
  have hsize : (t.setDirty n dirty).slots.size = t.slots.size := capacity_setDirty t n dirty
  have hslots : (t.setDirty n dirty).slots =
      t.slots.map (Option.map fun e => if e.network = n then { e with dirty } else e) := by
    refine Array.ext (by simpa using hsize) fun i hi hi' => ?_
    have hlt : i < t.slots.size := by simpa using hi'
    have hslot := slot_setDirty h n dirty i
    rw [slot, slot, Array.getElem?_eq_getElem hi, Array.getElem?_eq_getElem hlt] at hslot
    simpa using hslot
  rw [toList, toList, hslots, Array.toList_map, List.filterMap_map, List.map_filterMap]
  rfl

end NetworkTable

namespace Classifier

variable {c : Classifier} {own : List Slot}

/-- What was marked no longer counts as changed; everything else does as before. -/
theorem dirtyNetworks_markClean (h : c.networks.WellFormed) (n : Address) :
    (c.markClean n).dirtyNetworks = c.dirtyNetworks.filter (· ≠ n) := by
  unfold dirtyNetworks markClean
  simp only [NetworkTable.toList_setDirty h]
  induction c.networks.toList with
  | nil => rfl
  | cons e es ih =>
    by_cases hn : e.network = n
    · cases hd : e.dirty <;> simpa [hn, hd] using ih
    · cases hd : e.dirty <;> simpa [hn, hd] using ih

theorem Sound.nodup_dirtyNetworks (h : c.Sound own) : c.dirtyNetworks.Nodup :=
  (List.filter_sublist.map _).nodup h.networks.nodup_networks

end Classifier

namespace Firewall

variable {f : Firewall} {own : List Slot}

/-- Nothing is written twice. -/
theorem nodup_changed (h : f.classifier.Sound own) : f.changed.Nodup := by
  unfold changed
  refine List.nodup_append.mpr ⟨?_, ?_, ?_⟩
  · refine List.Nodup.map (fun t u => Releasable.table.inj) (List.Nodup.filter _ ?_)
    decide
  · exact List.Nodup.map (fun m n => Releasable.network.inj) h.nodup_dirtyNetworks
  · intro x hx y hy hxy
    obtain ⟨t, -, rfl⟩ := List.mem_map.mp hx
    obtain ⟨n, -, rfl⟩ := List.mem_map.mp hy
    cases hxy

/-- Nothing that counts as changed is left out. -/
theorem mem_changed (h : f.classifier.Sound own) {what : Releasable} :
    what ∈ f.changed ↔ f.CountsAsChanged what := by
  cases what with
  | table t => cases t <;> simp [changed, CountsAsChanged, Table.all]
  | network n => simp [changed, CountsAsChanged, h.mem_dirtyNetworks]

end Firewall

/-! ### What a store keeps -/

/-- The copy of something that a store keeps. -/
def Kept.copy? (k : Kept) : Releasable → Option Bytes
  | .table t => k.tables t
  | .network n => k.networks n

/-- What a store keeps when something has been written to it. -/
def Kept.put (k : Kept) (image : Bytes) : Releasable → Kept
  | .table t => ⟨Function.update k.tables t (some image), k.networks⟩
  | .network n => ⟨k.tables, Function.update k.networks n (some image)⟩

theorem Kept.copy?_put (k : Kept) (image : Bytes) (what other : Releasable) :
    (k.put image what).copy? other = if other = what then some image else k.copy? other := by
  cases what <;> cases other <;> simp [put, copy?, Function.update_apply]

namespace TableStore

variable {σ : Type} [TableStore σ]

/-- Write something to a store. -/
def write (store : σ) : Releasable → Bytes → σ × Except StoreError Unit
  | .table t, image => TableStore.writeTable store t image
  | .network n, image => TableStore.writeNetwork store n image

/-- A store keeps what is written to it, or fails and keeps the old copy. -/
structure Records (kept : σ → Kept) : Prop where
  /-- What was written is kept, and nothing else is touched. -/
  write_ok : ∀ {s s'} what image, TableStore.write s what image = (s', .ok ()) →
    kept s' = (kept s).put image what
  /-- What cannot be written leaves the old copy. -/
  write_error : ∀ {s s'} what image e, TableStore.write s what image = (s', .error e) →
    kept s' = kept s

/-- A store that is `sound` takes whatever is written to it, and stays so. -/
def TakesAll (sound : σ → Prop) : Prop :=
  ∀ s what image, sound s → ∃ s', TableStore.write s what image = (s', .ok ()) ∧ sound s'

end TableStore

namespace MapStore

/-- A store in memory keeps what is written to it, unless it is told to fail. -/
theorem records : TableStore.Records MapStore.kept where
  write_ok := by
    intro s s' what image hr
    cases what with
    | table t =>
      obtain rfl := attempt_ok hr
      simp only [kept, Kept.put, Kept.mk.injEq, and_true]
      funext u
      rw [Function.update_apply]
    | network n =>
      obtain rfl := attempt_ok hr
      simp only [kept, Kept.put, Kept.mk.injEq, true_and]
      funext m
      rw [Function.update_apply]
      exact lookup_insertNetwork n image s.networks m
  write_error := by
    intro s s' what image e hr
    cases what with
    | table t => rw [attempt_error hr]
    | network n => rw [attempt_error hr]

/-- A store in memory that is not told to fail takes everything. -/
theorem takesAll : TableStore.TakesAll fun s : MapStore => s.faults = [] := by
  intro s what image hs
  cases what with
  | table t =>
    refine ⟨{ s with tables := fun u => if u = t then some image else s.tables u }, ?_, hs⟩
    simp [TableStore.write, TableStore.writeTable, attempt, fault?, hs]
  | network n =>
    refine ⟨{ s with networks := insertNetwork n image s.networks }, ?_, hs⟩
    simp [TableStore.write, TableStore.writeNetwork, attempt, fault?, hs]

end MapStore

/-! ### What does not change -/

/-- Filters that differ in flags only: the same tables, host tables and networks, in the same
places, and the same answers and figures. -/
structure Unaltered (f f' : Firewall) : Prop where
  /-- The tables of the policy are the same. -/
  tables : ∀ t, Same t f'.policy f.policy
  /-- The same host tables are loaded. -/
  hosts : f'.classifier.hostMap = f.classifier.hostMap
  /-- The networks are in the same order. -/
  networks : f'.classifier.networks.toList.map (·.network) =
    f.classifier.networks.toList.map (·.network)
  /-- The memory is used as it was. -/
  arena : f'.classifier.arena = f.classifier.arena
  /-- The cache holds what it held. -/
  cache : f'.classifier.cache = f.classifier.cache
  /-- Every host has the same class. -/
  lookup : ∀ ip, (f'.lookup ip).2 = (f.lookup ip).2
  /-- No counter changed. -/
  report : f'.report = f.report

namespace Unaltered

variable {f f₁ f' : Firewall} {own : List Slot}

theorem refl (f : Firewall) : Unaltered f f :=
  ⟨fun t => .refl t _, rfl, rfl, rfl, rfl, fun _ => rfl, rfl⟩

theorem trans (h : Unaltered f f₁) (h' : Unaltered f₁ f') : Unaltered f f' where
  tables := fun t => (h'.tables t).trans (h.tables t)
  hosts := h'.hosts.trans h.hosts
  networks := h'.networks.trans h.networks
  arena := h'.arena.trans h.arena
  cache := h'.cache.trans h.cache
  lookup := fun ip => (h'.lookup ip).trans (h.lookup ip)
  report := h'.report.trans h.report

/-- What differs in flags only has the same images. -/
theorem image?_eq (h : Unaltered f f') (what : Releasable) : f'.image? what = f.image? what := by
  cases what with
  | table t => exact congrArg some (h.tables t).encode
  | network n => exact congrFun h.hosts n

/-- A flag is all that changes when something no longer counts as changed. -/
theorem persist (h : f.classifier.Consistent own) (what : Releasable) :
    Unaltered f (f.persist what) := by
  cases what with
  | table t =>
    exact ⟨fun u => same_setDirty f.policy false t u, rfl, rfl, rfl, rfl, fun _ => rfl, rfl⟩
  | network n =>
    have hosts := h.sound.hostMap_markClean n
    refine ⟨fun t => .refl t _, hosts, ?_, rfl, rfl, fun ip => ?_, rfl⟩
    · show ((f.classifier.networks.setDirty n false).toList.map _) = _
      rw [NetworkTable.toList_setDirty h.sound.networks, List.map_map]
      refine List.map_congr_left fun e _ => ?_
      show (if e.network = n then { e with dirty := false } else e).network = e.network
      split <;> rfl
    · exact ((h.markClean n).lookup_eq ip).trans
        ((congrArg (hostClass · ip) hosts).trans (h.lookup_eq ip).symm)

end Unaltered

namespace Firewall

variable {f : Firewall} {own : List Slot}

theorem consistent_persist (h : f.classifier.Consistent own) (what : Releasable) :
    (f.persist what).classifier.Consistent own := by
  cases what with
  | table t => exact h
  | network n => exact h.markClean n

/-- What was persisted no longer counts as changed; everything else does as before. -/
theorem changed_persist (h : f.classifier.Sound own) (what : Releasable) :
    (f.persist what).changed = f.changed.filter (· ≠ what) := by
  have hfilter : ∀ {α : Type} (inj : α → Releasable) (l : List α),
      (l.map inj).filter (· ≠ what) = (l.filter (inj · ≠ what)).map inj := by
    intro α inj l
    rw [List.filter_map]
    rfl
  rw [changed, changed, List.filter_append, hfilter, hfilter, List.filter_filter]
  cases what with
  | table t =>
    have htables : ∀ u, (f.persist (.table t)).policy.isDirty u =
        (decide (Releasable.table u ≠ .table t) && f.policy.isDirty u) := by
      intro u
      by_cases hut : u = t
      · subst hut
        simp [persist]
      · simp [persist, isDirty_setDirty_ne f.policy false hut, hut]
    have hnetworks : f.classifier.dirtyNetworks.filter (Releasable.network · ≠ .table t) =
        f.classifier.dirtyNetworks := List.filter_eq_self.mpr (by simp)
    rw [funext htables, hnetworks]
    rfl
  | network n =>
    have htables : ∀ u, (f.persist (.network n)).policy.isDirty u =
        (decide (Releasable.table u ≠ .network n) && f.policy.isDirty u) := by
      intro u
      simp [persist]
    have hnetworks : (f.persist (.network n)).classifier.dirtyNetworks =
        f.classifier.dirtyNetworks.filter (Releasable.network · ≠ .network n) := by
      simp [persist, Classifier.dirtyNetworks_markClean h.networks]
    rw [funext htables, hnetworks]

end Firewall

/-! ### Writing in order -/

namespace Agent

/-- One thing after another is written with its image, and no longer counts as changed, up to
the first that cannot be written; that one and the `rest` after it are left. -/
inductive WritesUpTo {σ : Type} [TableStore σ] :
    σ → Firewall → (done rest : List Releasable) → σ → Firewall → Option ErrorCode → Prop
  /-- Nothing is left to write. -/
  | all (store : σ) (f : Firewall) : WritesUpTo store f [] [] store f none
  /-- The store fails. -/
  | stops {store store' : σ} {f : Firewall} {what : Releasable} {image : Bytes} {e : StoreError}
      (rest : List Releasable) (himage : f.image? what = some image)
      (hwrite : TableStore.write store what image = (store', .error e)) :
      WritesUpTo store f [] (what :: rest) store' f (some e.dataCode)
  /-- Something is written, and so on. -/
  | next {store store₁ store' : σ} {f f' : Firewall} {done rest : List Releasable}
      {o : Option ErrorCode} {what : Releasable} {image : Bytes}
      (himage : f.image? what = some image)
      (hwrite : TableStore.write store what image = (store₁, .ok ()))
      (hnext : WritesUpTo store₁ (f.persist what) done rest store' f' o) :
      WritesUpTo store f (what :: done) rest store' f' o

variable {σ : Type} [TableStore σ] {kept : σ → Kept} {store store₁ store' : σ}
  {f f₁ f' : Firewall} {own : List Slot} {done rest : List Releasable} {o : Option ErrorCode}

namespace WritesUpTo

/-- There is an error if something is left. -/
theorem eq_none_iff (h : WritesUpTo store f done rest store' f' o) : o = none ↔ rest = [] := by
  induction h with
  | all store f => simp
  | stops rest himage hwrite => simp
  | next himage hwrite hnext ih => exact ih

/-- After all of it, writing goes on with what comes next. -/
theorem append {done' : List Releasable} (h : WritesUpTo store f done [] store₁ f₁ none)
    (h' : WritesUpTo store₁ f₁ done' rest store' f' o) :
    WritesUpTo store f (done ++ done') rest store' f' o := by
  generalize hrest : ([] : List Releasable) = left at h
  generalize ho : (none : Option ErrorCode) = end? at h
  induction h with
  | all store f => exact h'
  | stops rest himage hwrite => cases ho
  | next himage hwrite hnext ih => exact .next himage hwrite (ih h' hrest ho)

/-- What comes after a failure is left too. -/
theorem leave {code : ErrorCode} (more : List Releasable)
    (h : WritesUpTo store f done rest store' f' (some code)) :
    WritesUpTo store f done (rest ++ more) store' f' (some code) := by
  generalize ho : some code = end? at h ⊢
  induction h with
  | all store f => cases ho
  | stops rest himage hwrite => exact .stops (rest ++ more) himage hwrite
  | next himage hwrite hnext ih => exact .next himage hwrite (ih ho)

theorem consistent (h : WritesUpTo store f done rest store' f' o)
    (hc : f.classifier.Consistent own) : f'.classifier.Consistent own := by
  induction h with
  | all store f => exact hc
  | stops rest himage hwrite => exact hc
  | next himage hwrite hnext ih => exact ih (Firewall.consistent_persist hc _)

/-- Writing changes flags only. -/
theorem unaltered (h : WritesUpTo store f done rest store' f' o)
    (hc : f.classifier.Consistent own) : Unaltered f f' := by
  induction h with
  | all store f => exact .refl f
  | stops rest himage hwrite => exact .refl _
  | next himage hwrite hnext ih =>
    exact (Unaltered.persist hc _).trans (ih (Firewall.consistent_persist hc _))

/-- What still counts as changed is what was not written. -/
theorem changed_eq (h : WritesUpTo store f done rest store' f' o)
    (hc : f.classifier.Consistent own) (hf : f.changed = done ++ rest) : f'.changed = rest := by
  induction h with
  | all store f => exact hf
  | stops rest himage hwrite => exact hf
  | @next store store₁ store' f f' done rest o what image himage hwrite hnext ih =>
    refine ih (Firewall.consistent_persist hc what) ?_
    -- it is the first of what counted as changed, and is there once
    have hnodup := Firewall.nodup_changed hc.sound
    rw [hf] at hnodup
    obtain ⟨hwhat, -⟩ := List.nodup_cons.mp hnodup
    rw [Firewall.changed_persist hc.sound, hf, List.cons_append,
      List.filter_cons_of_neg (by simp)]
    refine List.filter_eq_self.mpr fun other hother => ?_
    simpa using ne_of_mem_of_not_mem hother hwhat

/-- What is written has an image. -/
theorem exists_image {what : Releasable} (h : WritesUpTo store f done rest store' f' o)
    (hc : f.classifier.Consistent own) (hwhat : what ∈ done) :
    ∃ image, f.image? what = some image := by
  induction h with
  | all store f => cases hwhat
  | stops rest himage hwrite => cases hwhat
  | @next store store₁ store' f f' done rest o first image himage hwrite hnext ih =>
    obtain rfl | hdone := List.mem_cons.mp hwhat
    · exact ⟨image, himage⟩
    · rw [← (Unaltered.persist hc first).image?_eq]
      exact ih (Firewall.consistent_persist hc first) hdone

/-- The store keeps the images of what was written, and its old copies of all else. -/
theorem copies (laws : TableStore.Records kept) (h : WritesUpTo store f done rest store' f' o)
    (hc : f.classifier.Consistent own) (what : Releasable) :
    (kept store').copy? what =
      if what ∈ done then f.image? what else (kept store).copy? what := by
  induction h with
  | all store f => simp
  | stops rest himage hwrite => simp [laws.write_error _ _ _ hwrite]
  | @next store store₁ store' f f' done rest o first image himage hwrite hnext ih =>
    rw [ih (Firewall.consistent_persist hc first), (Unaltered.persist hc first).image?_eq,
      laws.write_ok first image hwrite, Kept.copy?_put]
    by_cases hwhat : what = first
    · simp [hwhat, himage]
    · simp [hwhat]

/-- The first thing that is left is one that the store could not write. -/
theorem exists_error {what : Releasable} (laws : TableStore.Records kept)
    (h : WritesUpTo store f done (what :: rest) store' f' o) (hc : f.classifier.Consistent own) :
    ∃ image e before, f.image? what = some image ∧
      TableStore.write before what image = (store', .error e) ∧ kept before = kept store' ∧
      o = some e.dataCode := by
  generalize hleft : what :: rest = left at h
  induction h with
  | all store f => cases hleft
  | @stops store store' f first image e rest himage hwrite =>
    obtain ⟨rfl, -⟩ := List.cons.inj hleft
    exact ⟨image, e, store, himage, hwrite, (laws.write_error _ _ _ hwrite).symm, rfl⟩
  | @next store store₁ store' f f' done rest o first image himage hwrite hnext ih =>
    rw [← (Unaltered.persist hc first).image?_eq]
    exact ih (Firewall.consistent_persist hc first) hleft

/-- A store that takes everything leaves nothing. -/
theorem rest_eq_nil {sound : σ → Prop} (htakes : TableStore.TakesAll sound) (hs : sound store)
    (h : WritesUpTo store f done rest store' f' o) : rest = [] := by
  induction h with
  | all store f => rfl
  | @stops store store' f what image e rest himage hwrite =>
    obtain ⟨_, hok, -⟩ := htakes store what image hs
    cases hwrite.symm.trans hok
  | @next store store₁ store' f f' done rest o what image himage hwrite hnext ih =>
    obtain ⟨_, hok, hsound⟩ := htakes store what image hs
    cases hwrite.symm.trans hok
    exact ih hsound

end WritesUpTo

/-! ### The two loops -/

/-- The tables that count as changed are written in order. -/
theorem writeTables_writesUpTo (ts : List Table) (hts : ts.Nodup) (store : σ) (f : Firewall) :
    ∃ done rest, (ts.filter f.policy.isDirty).map Releasable.table = done ++ rest ∧
      WritesUpTo store f done rest (writeTables ts store f.policy).1
        { f with policy := (writeTables ts store f.policy).2.1 }
        (writeTables ts store f.policy).2.2 := by
  induction ts generalizing store f with
  | nil => exact ⟨[], [], rfl, .all store f⟩
  | cons t ts ih =>
    obtain ⟨ht, hts⟩ := List.nodup_cons.mp hts
    rw [writeTables]
    by_cases hd : f.policy.isDirty t = true
    · rw [if_pos hd, List.filter_cons_of_pos hd, List.map_cons]
      rcases hw : TableStore.writeTable store t (f.policy.encode t) with ⟨store₁, e | ⟨⟩⟩
      · exact ⟨[], _, rfl, .stops _ rfl hw⟩
      · obtain ⟨done, rest, hchanged, hwrites⟩ := ih hts store₁ (f.persist (.table t))
        -- the flags of the others are as before
        have hflags : ts.filter (f.persist (.table t)).policy.isDirty =
            ts.filter f.policy.isDirty := by
          refine List.filter_congr fun u hu => ?_
          exact isDirty_setDirty_ne f.policy false (ne_of_mem_of_not_mem hu ht)
        rw [← hflags, hchanged]
        exact ⟨.table t :: done, rest, rfl, .next rfl hw hwrites⟩
    · rw [if_neg hd, List.filter_cons_of_neg hd]
      exact ih hts store f

/-- The networks of a list are written in order, if all of them are loaded. -/
theorem writeNetworks_writesUpTo (ns : List Address) (store : σ) {f : Firewall}
    (hc : f.classifier.Consistent own) (hns : ∀ n ∈ ns, f.classifier.hostMap n ≠ none) :
    ∃ done rest, ns.map Releasable.network = done ++ rest ∧
      WritesUpTo store f done rest (writeNetworks ns store f.classifier).1
        { f with classifier := (writeNetworks ns store f.classifier).2.1 }
        (writeNetworks ns store f.classifier).2.2 := by
  induction ns generalizing store f with
  | nil => exact ⟨[], [], rfl, .all store f⟩
  | cons n ns ih =>
    obtain ⟨image, himage⟩ := Option.ne_none_iff_exists'.mp (hns n List.mem_cons_self)
    rw [writeNetworks, Classifier.hostTable_eq_ok.mpr himage, List.map_cons]
    simp only
    rcases hw : TableStore.writeNetwork store n image with ⟨store₁, e | ⟨⟩⟩
    · exact ⟨[], _, rfl, .stops _ himage hw⟩
    · have hloaded : ∀ m ∈ ns, (f.persist (.network n)).classifier.hostMap m ≠ none := by
        intro m hm
        rw [(Unaltered.persist hc (.network n)).hosts]
        exact hns m (List.mem_cons_of_mem n hm)
      obtain ⟨done, rest, heq, hwrites⟩ :=
        ih store₁ (Firewall.consistent_persist hc (.network n)) hloaded
      rw [heq]
      exact ⟨.network n :: done, rest, rfl, .next himage hw hwrites⟩

/-- A request to write goes through all that counts as changed, in order. -/
theorem onWrite_writesUpTo (a : Agent σ) (hc : f.classifier.Consistent own) :
    ∃ done rest store' f' o, f.changed = done ++ rest ∧
      WritesUpTo a.store f done rest store' f' o ∧
      a.onWrite f = ({ a with store := store' }, f',
        match o with
        | none => .reply .writeAck []
        | some code => .refuse code) := by
  obtain ⟨done, rest, htables, hwrites⟩ :=
    writeTables_writesUpTo Table.all (by decide) a.store f
  unfold onWrite Firewall.changed
  rw [htables]
  rcases hw : writeTables Table.all a.store f.policy with ⟨store₁, policy, _ | code⟩
  · rw [hw] at hwrites
    obtain rfl := hwrites.eq_none_iff.mp rfl
    have hloaded : ∀ n ∈ f.classifier.dirtyNetworks, f.classifier.hostMap n ≠ none := by
      intro n hn hnone
      have hchanged := hc.sound.mem_dirtyNetworks.mp hn
      simp [Classifier.Changed, Option.map_eq_none_iff.mp hnone] at hchanged
    obtain ⟨done', rest', hnetworks, hwrites'⟩ :=
      writeNetworks_writesUpTo (f := { f with policy }) f.classifier.dirtyNetworks store₁ hc hloaded
    refine ⟨done ++ done', rest', _, _, _, ?_, hwrites.append hwrites', ?_⟩
    · rw [hnetworks, List.append_nil, List.append_assoc]
    · simp only
      rcases writeNetworks f.classifier.dirtyNetworks store₁ f.classifier with
        ⟨store', c, _ | code⟩ <;> rfl
  · rw [hw] at hwrites
    exact ⟨done, _, _, _, _, List.append_assoc .., hwrites.leave _, rfl⟩

end Agent

/-! ### One request, and one more -/

namespace Agent

variable {σ : Type} [TableStore σ] {kept : σ → Kept} {f : Firewall} {own : List Slot}

/-- What a request to write comes to: what is `done` is persisted, the `rest` is as before. -/
structure Commits (kept : σ → Kept) (a : Agent σ) (f : Firewall)
    (r : Agent σ × Firewall × Response) (done rest : List Releasable) : Prop where
  /-- Together they are what counted as changed, in order. -/
  order : f.changed = done ++ rest
  /-- They are written in this order, and nothing else is. -/
  writes : ∃ o, WritesUpTo a.store f done rest r.1.store r.2.1 o
  /-- The rest still counts as changed, and nothing else does. -/
  changed : r.2.1.changed = rest
  /-- In the filter only flags changed. -/
  unaltered : Unaltered f r.2.1
  /-- In the agent only the store did. -/
  agent : r.1 = { a with store := r.1.store }
  /-- What is done is kept with the image that it has. -/
  images : ∀ what ∈ done, ∃ image, f.image? what = some image ∧
    (kept r.1.store).copy? what = some image
  /-- Everything else is kept as it was. -/
  copies : ∀ what, what ∉ done → (kept r.1.store).copy? what = (kept a.store).copy? what
  /-- The request is acknowledged if nothing is left. -/
  acknowledged : r.2.2 = .reply .writeAck [] ↔ rest = []
  /-- Otherwise it is refused with the code of the failure at the first that is left. -/
  refused : ∀ what more, rest = what :: more → ∃ image e before,
    f.image? what = some image ∧
    TableStore.write before what image = (r.1.store, .error e) ∧
    kept before = kept r.1.store ∧ r.2.2 = .refuse e.dataCode

/-- A request to write comes to nothing else. -/
theorem onWrite_commits (laws : TableStore.Records kept) (a : Agent σ)
    (hc : f.classifier.Consistent own) :
    ∃ done rest, Commits kept a f (a.onWrite f) done rest := by
  obtain ⟨done, rest, store', f', o, horder, hwrites, heq⟩ := onWrite_writesUpTo a hc
  rw [heq]
  refine ⟨done, rest, horder, ⟨o, hwrites⟩, hwrites.changed_eq hc horder, hwrites.unaltered hc,
    rfl, ?_, ?_, ?_, ?_⟩
  · intro what hwhat
    obtain ⟨image, himage⟩ := hwrites.exists_image hc hwhat
    have hcopy := hwrites.copies laws hc what
    rw [if_pos hwhat, himage] at hcopy
    exact ⟨image, himage, hcopy⟩
  · intro what hwhat
    exact (hwrites.copies laws hc what).trans (if_neg hwhat)
  · rw [← hwrites.eq_none_iff]
    cases o with
    | none => simp
    | some code => simp [Response.refuse]
  · rintro what more rfl
    obtain ⟨image, e, before, himage, hwrite, hkept, rfl⟩ := hwrites.exists_error laws hc
    exact ⟨image, e, before, himage, hwrite, hkept, rfl⟩

/-- A request to a store that takes everything persists all that counts as changed. -/
theorem onWrite_commits_all (laws : TableStore.Records kept) {sound : σ → Prop}
    (htakes : TableStore.TakesAll sound) (a : Agent σ) (hs : sound a.store)
    (hc : f.classifier.Consistent own) : Commits kept a f (a.onWrite f) f.changed [] := by
  obtain ⟨done, rest, h⟩ := onWrite_commits laws a hc
  obtain ⟨o, hwrites⟩ := h.writes
  obtain rfl := hwrites.rest_eq_nil htakes hs
  have hdone : f.changed = done := h.order.trans (List.append_nil done)
  rwa [hdone]

end Agent

namespace Service

variable {σ : Type} [TableStore σ] {kept : σ → Kept}

/-- Whatever happened to a filter, a request to write persists the first of the things that
count as changed, each with the image that it has, and these no longer count as changed.  The
rest is left, from the first that the store cannot write; nothing else is written, and nothing
but flags changes.  The request is acknowledged if there is no rest, and otherwise refused with
the code of that failure.  Once the store takes everything, the same request is acknowledged,
and persists that rest. -/
theorem write_commits_prefix (laws : TableStore.Records kept) (capacity : Nat)
    (events : List Event) (a : Agent σ) :
    let f := (run capacity events).firewall
    let r := a.onWrite f
    (∀ what, what ∈ f.changed ↔ f.CountsAsChanged what) ∧ f.changed.Nodup ∧
      ∃ done rest, Commits kept a f r done rest ∧
        ∀ (sound : σ → Prop) (mended : σ), TableStore.TakesAll sound → sound mended →
          kept mended = kept r.1.store →
          let b := { r.1 with store := mended }
          (b.onWrite r.2.1).2.2 = .reply .writeAck [] ∧
            Commits kept b r.2.1 (b.onWrite r.2.1) rest [] := by
  intro f r
  have hc := consistent_run capacity events
  obtain ⟨done, rest, h⟩ := onWrite_commits laws a hc
  refine ⟨fun what => Firewall.mem_changed hc.sound, Firewall.nodup_changed hc.sound, done, rest,
    h, ?_⟩
  intro sound mended htakes hs hkept b
  obtain ⟨o, hwrites⟩ := h.writes
  have hall := onWrite_commits_all laws htakes b hs (hwrites.consistent hc)
  rw [h.changed] at hall
  exact ⟨hall.acknowledged.mpr rfl, hall⟩

/-- The allow list cannot be written: the reject list before it is persisted, the network after
it is not, and the next request writes both. -/
theorem write_stops_at_allow :
    let policy := (({} : Policy).replaceReject [⟨0x0A000000, 0xFF000000⟩]).replaceAllow []
    let f := (run 4096 [.replace policy, .use (.alloc 0xC0000200),
      .use (.install 0xC0000200 0)]).firewall
    let a : Agent MapStore := .start { faults := [(.writeTable .allow, .writing)] } none
    let r := a.onWrite f
    let b := { r.1 with store := { r.1.store with faults := [] } }
    r.2.2 = .refuse .dataWrite ∧
      r.2.1.changed = [.table .allow, .network 0xC0000200] ∧
      r.1.store.kept.copy? (.table .reject) = some (policy.encode .reject) ∧
      r.1.store.kept.copy? (.network 0xC0000200) = none ∧
      (b.onWrite r.2.1).2.2 = .reply .writeAck [] ∧ (b.onWrite r.2.1).2.1.changed = [] ∧
      (b.onWrite r.2.1).1.store.kept.copy? (.network 0xC0000200) = some (Bytes.zeros 256) := by
  intro policy f a r b
  have hchanged : f.changed = [.table .reject, .table .allow, .network 0xC0000200] := by
    decide +kernel
  have hrest : r.2.1.changed = [.table .allow, .network 0xC0000200] := by decide +kernel
  have hrefused : r.2.2 = .refuse .dataWrite := by decide +kernel
  have hreject : f.image? (.table .reject) = some (policy.encode .reject) := by decide +kernel
  have hnetwork : r.2.1.image? (.network 0xC0000200) = some (Bytes.zeros 256) := by
    decide +kernel
  have hnone : a.store.kept.copy? (.network 0xC0000200) = none := rfl
  have hkept : b.store.kept = r.1.store.kept := rfl
  have hall := write_commits_prefix MapStore.records 4096
    [.replace policy, .use (.alloc 0xC0000200), .use (.install 0xC0000200 0)] a
  have hf : (run 4096 [.replace policy, .use (.alloc 0xC0000200),
    .use (.install 0xC0000200 0)]).firewall = f := rfl
  have hr : a.onWrite f = r := rfl
  simp only [hf, hr] at hall
  -- from here on it does not matter how the filter came about
  clear_value r f
  obtain ⟨-, -, done, rest, h, hagain⟩ := hall
  obtain rfl := h.changed.symm.trans hrest
  obtain rfl : [.table .reject] = done :=
    List.append_cancel_right (hchanged.symm.trans h.order)
  obtain ⟨image, himage, hcopy⟩ := h.images (.table .reject) (by simp)
  obtain ⟨hack, hall⟩ := hagain _ b.store MapStore.takesAll rfl hkept
  obtain ⟨image', himage', hcopy'⟩ := hall.images (.network 0xC0000200) (by simp)
  exact ⟨hrefused, hrest, hcopy.trans (himage.symm.trans hreject),
    (h.copies (.network 0xC0000200) (by simp)).trans hnone, hack, hall.changed,
    hcopy'.trans (himage'.symm.trans hnetwork)⟩

end Service

end FilterBridge
