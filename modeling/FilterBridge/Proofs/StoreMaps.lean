import FilterBridge.TableStore
import Mathlib.Data.List.Basic
import Mathlib.Logic.Function.Basic

/-!
# Stores that are maps

A store is a map if it is read as it was written last: a write either replaces the
copy that is kept or, when it fails, leaves it, and what is removed is gone.  Writes
may fail at any time.

## Main definitions

* `Kept` — what a store keeps: an image for some tables, and a host table for some
  networks.
* `TableStore.ActsAsMap` — a store is a map.
* `MapStore.Intact` — a store in memory of which only writes fail.

## Main results

* `MapStore.actsAsMap` — such a store is a map.
-/

namespace FilterBridge

/-- What a store keeps. -/
structure Kept where
  /-- The images of tables. -/
  tables : Table → Option Bytes
  /-- The host tables of networks. -/
  networks : Address → Option Bytes

theorem Kept.lookup_cons (x : Address × Bytes) (l : List (Address × Bytes)) (m : Address) :
    (x :: l).lookup m = if m = x.1 then some x.2 else l.lookup m := by
  rw [List.lookup_cons]
  by_cases hm : m = x.1
  · simp [hm]
  · have : (m == x.1) = false := by simpa using hm
    simp [hm, this]

/-- In a list that has each network once, a network is looked up as it is listed. -/
theorem Kept.lookup_eq_some_iff {l : List (Address × Bytes)} (hn : (l.map (·.1)).Nodup)
    {n : Address} {table : Bytes} : l.lookup n = some table ↔ (n, table) ∈ l := by
  induction l with
  | nil => simp
  | cons x l ih =>
    obtain ⟨hx, hl⟩ := List.nodup_cons.mp hn
    rw [lookup_cons, List.mem_cons]
    by_cases hm : n = x.1
    · subst hm
      rw [if_pos rfl, Option.some.injEq]
      constructor
      · rintro rfl
        exact .inl rfl
      · rintro (heq | hmem)
        · exact (congrArg Prod.snd heq).symm
        · exact absurd (List.mem_map_of_mem hmem) hx
    · rw [if_neg hm, ih hl]
      constructor
      · exact .inr
      · rintro (heq | hmem)
        · exact absurd (congrArg Prod.fst heq) hm
        · exact hmem

/-- As long as a store is `good`, it is a map, and keeps what `kept` says. -/
structure TableStore.ActsAsMap {σ : Type} [TableStore σ] (good : σ → Prop) (kept : σ → Kept) :
    Prop where
  /-- The image of a table is read as it is kept. -/
  readTable : ∀ {s}, good s → ∀ t, TableStore.readTable s t = .ok ((kept s).tables t)
  /-- The networks are read as they are kept, each once. -/
  readNetworks : ∀ {s}, good s → ∃ ns, TableStore.readNetworks s = .ok ns ∧
    (ns.map (·.1)).Nodup ∧ ∀ n, ns.lookup n = (kept s).networks n
  /-- An image that is written is kept. -/
  writeTable_ok : ∀ {s s'} t image, good s → TableStore.writeTable s t image = (s', .ok ()) →
    good s' ∧ kept s' = ⟨Function.update (kept s).tables t (some image), (kept s).networks⟩
  /-- An image that cannot be written leaves the old copy. -/
  writeTable_error : ∀ {s s'} t image e, good s →
    TableStore.writeTable s t image = (s', .error e) → good s' ∧ kept s' = kept s
  /-- A table that is removed is no longer kept. -/
  removeTable : ∀ {s} t, good s → ∃ s', TableStore.removeTable s t = (s', .ok ()) ∧ good s' ∧
    kept s' = ⟨Function.update (kept s).tables t none, (kept s).networks⟩
  /-- A host table that is written is kept. -/
  writeNetwork_ok : ∀ {s s'} n image, good s →
    TableStore.writeNetwork s n image = (s', .ok ()) →
    good s' ∧ kept s' = ⟨(kept s).tables, Function.update (kept s).networks n (some image)⟩
  /-- A host table that cannot be written leaves the old copy. -/
  writeNetwork_error : ∀ {s s'} n image e, good s →
    TableStore.writeNetwork s n image = (s', .error e) → good s' ∧ kept s' = kept s
  /-- A network that is removed is no longer kept. -/
  removeNetwork : ∀ {s} n, good s → ∃ s', TableStore.removeNetwork s n = (s', .ok ()) ∧
    good s' ∧ kept s' = ⟨(kept s).tables, Function.update (kept s).networks n none⟩
  /-- Writing the password does not touch the tables, whether it can be written or not. -/
  writePassword : ∀ {s s'} password r, good s →
    TableStore.writePassword s password = (s', r) → good s' ∧ kept s' = kept s

/-! ### A store in memory -/

/-- The actions that write. -/
def StoreAction.Writes : StoreAction → Prop
  | .writeTable _ | .writeNetwork _ | .writePassword => True
  | _ => False

namespace MapStore

variable {s s' : MapStore} {a : StoreAction} {n : Address} {l : List (Address × Bytes)}

/-- What is kept in memory. -/
def kept (s : MapStore) : Kept := ⟨s.tables, fun n => s.networks.lookup n⟩

/-- The networks ascend, and only writes fail. -/
structure Intact (s : MapStore) : Prop where
  /-- The networks ascend. -/
  ascending : s.networks.Pairwise (·.1 < ·.1)
  /-- Only writes fail. -/
  faults : ∀ fault ∈ s.faults, fault.1.Writes

theorem lookup_insertNetwork (n : Address) (image : Bytes) (l : List (Address × Bytes))
    (m : Address) :
    (insertNetwork n image l).lookup m = if m = n then some image else l.lookup m := by
  induction l with
  | nil => exact Kept.lookup_cons (n, image) [] m
  | cons x l ih =>
    unfold insertNetwork
    split
    · rename_i hx
      rw [Kept.lookup_cons, Kept.lookup_cons, hx]
      by_cases hm : m = n <;> simp [hm]
    · rename_i hx
      split
      · exact Kept.lookup_cons (n, image) (x :: l) m
      · rw [Kept.lookup_cons, Kept.lookup_cons, ih]
        by_cases hm : m = n
        · subst hm
          simp [Ne.symm hx]
        · simp [hm]

theorem lookup_filter (n : Address) (l : List (Address × Bytes)) (m : Address) :
    (l.filter (·.1 ≠ n)).lookup m = if m = n then none else l.lookup m := by
  induction l with
  | nil => simp
  | cons x l ih =>
    rw [Kept.lookup_cons]
    by_cases hx : x.1 = n
    · rw [List.filter_cons_of_neg (by simpa using hx), ih, hx]
      by_cases hm : m = n <;> simp [hm]
    · rw [List.filter_cons_of_pos (by simpa using hx), Kept.lookup_cons, ih]
      by_cases hm : m = n
      · subst hm
        simp [Ne.symm hx]
      · simp [hm]

theorem mem_insertNetwork {image : Bytes} {x : Address × Bytes}
    (hx : x ∈ insertNetwork n image l) : x = (n, image) ∨ x ∈ l := by
  induction l with
  | nil => simpa [insertNetwork] using hx
  | cons y l ih =>
    unfold insertNetwork at hx
    split at hx
    · rcases List.mem_cons.mp hx with rfl | hx
      · exact .inl rfl
      · exact .inr (List.mem_cons_of_mem y hx)
    · split at hx
      · exact List.mem_cons.mp hx
      · rcases List.mem_cons.mp hx with rfl | hx
        · exact .inr List.mem_cons_self
        · exact (ih hx).imp_right (List.mem_cons_of_mem y)

theorem ascending_insertNetwork (image : Bytes) (h : l.Pairwise (·.1 < ·.1)) :
    (insertNetwork n image l).Pairwise (·.1 < ·.1) := by
  induction l with
  | nil => exact List.pairwise_singleton _ _
  | cons y l ih =>
    obtain ⟨hy, hl⟩ := List.pairwise_cons.mp h
    unfold insertNetwork
    split
    · rename_i heq
      subst heq
      exact List.pairwise_cons.mpr ⟨hy, hl⟩
    · rename_i hne
      split
      · rename_i hlt
        refine List.pairwise_cons.mpr ⟨fun x hx => ?_, h⟩
        rcases List.mem_cons.mp hx with rfl | hx
        · exact hlt
        · exact UInt32.lt_trans hlt (hy x hx)
      · rename_i hge
        refine List.pairwise_cons.mpr ⟨fun x hx => ?_, ih hl⟩
        rcases mem_insertNetwork hx with rfl | hx
        · exact UInt32.lt_of_le_of_ne (UInt32.not_lt.mp hge) hne
        · exact hy x hx

theorem Intact.nodup (h : s.Intact) : (s.networks.map (·.1)).Nodup :=
  List.pairwise_map.mpr (h.ascending.imp fun hlt => UInt32.ne_of_lt hlt)

/-- Whatever does not write does not fail. -/
theorem Intact.fault?_eq_none (h : s.Intact) (ha : ¬ a.Writes) : s.fault? a = none := by
  rw [fault?, Option.map_eq_none_iff, List.lookup_eq_none_iff]
  intro fault hfault
  have hne : a ≠ fault.1 := fun heq => ha (heq ▸ h.faults fault hfault)
  simpa using hne

theorem attempt_ok {changed : MapStore} (hr : s.attempt a changed = (s', .ok ())) :
    s' = changed := by
  unfold attempt at hr
  split at hr
  · simp at hr
  · exact (Prod.mk.inj hr).1.symm

theorem attempt_error {changed : MapStore} {e : StoreError}
    (hr : s.attempt a changed = (s', .error e)) : s' = s := by
  unfold attempt at hr
  split at hr
  · exact (Prod.mk.inj hr).1.symm
  · simp at hr

/-- A store in memory of which only writes fail is a map. -/
theorem actsAsMap : TableStore.ActsAsMap Intact kept where
  readTable := by
    intro s h t
    simp [TableStore.readTable, fetch, h.fault?_eq_none (a := .readTable t) id, kept]
  readNetworks := by
    intro s h
    refine ⟨s.networks, ?_, h.nodup, fun n => rfl⟩
    simp [TableStore.readNetworks, fetch, h.fault?_eq_none (a := .readNetworks) id]
  writeTable_ok := by
    intro s s' t image h hr
    rw [attempt_ok hr]
    refine ⟨⟨h.ascending, h.faults⟩, ?_⟩
    rw [kept, Kept.mk.injEq]
    exact ⟨funext fun u => (Function.update_apply ..).symm, rfl⟩
  writeTable_error := by
    intro s s' t image e h hr
    rw [attempt_error hr]
    exact ⟨h, rfl⟩
  removeTable := by
    intro s t h
    refine ⟨{ s with tables := fun u => if u = t then none else s.tables u }, ?_,
      ⟨h.ascending, h.faults⟩, ?_⟩
    · simp [TableStore.removeTable, attempt, h.fault?_eq_none (a := .removeTable t) id]
    · rw [kept, Kept.mk.injEq]
      exact ⟨funext fun u => (Function.update_apply ..).symm, rfl⟩
  writeNetwork_ok := by
    intro s s' n image h hr
    rw [attempt_ok hr]
    refine ⟨⟨ascending_insertNetwork image h.ascending, h.faults⟩, ?_⟩
    rw [kept, Kept.mk.injEq]
    refine ⟨rfl, funext fun m => ?_⟩
    rw [lookup_insertNetwork, Function.update_apply]
    rfl
  writeNetwork_error := by
    intro s s' n image e h hr
    rw [attempt_error hr]
    exact ⟨h, rfl⟩
  removeNetwork := by
    intro s n h
    refine ⟨{ s with networks := s.networks.filter (·.1 ≠ n) }, ?_,
      ⟨h.ascending.filter _, h.faults⟩, ?_⟩
    · simp [TableStore.removeNetwork, attempt, h.fault?_eq_none (a := .removeNetwork n) id]
    · rw [kept, Kept.mk.injEq]
      refine ⟨rfl, funext fun m => ?_⟩
      rw [lookup_filter, Function.update_apply]
      rfl
  writePassword := by
    intro s s' password r h hr
    rcases r with e | ⟨⟩
    · rw [attempt_error hr]
      exact ⟨h, rfl⟩
    · rw [attempt_ok hr]
      exact ⟨⟨h.ascending, h.faults⟩, rfl⟩

end MapStore

end FilterBridge
