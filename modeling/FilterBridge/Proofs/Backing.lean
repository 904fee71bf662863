import FilterBridge.Agent
import FilterBridge.Proofs.BootRuns

/-!
# What a store backs

A table that does not count as changed is the one that the store would restore, and
a network that is kept is loaded.  Loading, writing and removing tables keep it so,
and after all that changed was written, the store restores everything.

## Main definitions

* `Backed` — the invariant.
* `LiveTables.Clean` — no table counts as changed.

## Main results

* `Backed.commit`, `Backed.writeTable`, `Backed.writeNetwork`, `Backed.reset`,
  `Backed.release` — what keeps the invariant.
* `Agent.writeTables_spec`, `Agent.writeNetworks_spec` — writing keeps it, wherever it
  ends, and at the end nothing counts as changed.
-/

namespace FilterBridge

open Policy

/-- What is live is what the store restores, as far as it does not count as changed. -/
structure Backed (k : Kept) (l : LiveTables) : Prop where
  /-- The tables are well formed. -/
  wellFormed : l.policy.WellFormed
  /-- A table that did not change is restored. -/
  restored : ∀ t, l.policy.isDirty t = false → Restored t (k.tables t) l.policy
  /-- Host tables have the length that their networks need. -/
  lengths : ∀ n table dirty, l.hosts n = some (table, dirty) → n.tableLen? = some table.length
  /-- What is not loaded is not kept. -/
  absent : ∀ n, l.hosts n = none → k.networks n = none
  /-- A host table that did not change is kept. -/
  hosts : ∀ n table, l.hosts n = some (table, false) → k.networks n = some table

/-- No table counts as changed. -/
structure LiveTables.Clean (l : LiveTables) : Prop where
  /-- No table of the policy does. -/
  tables : ∀ t, l.policy.isDirty t = false
  /-- No host table does. -/
  hosts : ∀ n table dirty, l.hosts n = some (table, dirty) → dirty = false

/-- When nothing counts as changed, what is kept of networks is what is loaded. -/
theorem Backed.networks_eq {k : Kept} {l : LiveTables} (h : Backed k l) (hc : l.Clean)
    (n : Address) : k.networks n = (l.hosts n).map (·.1) := by
  cases hn : l.hosts n with
  | none => exact h.absent n hn
  | some r =>
    obtain ⟨table, dirty⟩ := r
    obtain rfl := hc.hosts n table dirty hn
    exact h.hosts n table hn

/-! ### One table of the policy changes -/

namespace Policy

variable {p : Policy} {t u : Table}

theorem same_setDirty (p : Policy) (dirty : Bool) (t u : Table) :
    Same u (p.setDirty dirty t) p := by
  cases t <;> cases u <;> rfl

theorem isDirty_setDirty_ne (p : Policy) (dirty : Bool) (h : u ≠ t) :
    (p.setDirty dirty t).isDirty u = p.isDirty u := by
  cases t <;> cases u <;> first | rfl | exact absurd rfl h

theorem WellFormed.setDirty (h : p.WellFormed) (dirty : Bool) (t : Table) :
    (p.setDirty dirty t).WellFormed := by
  cases t <;> exact ⟨h.classes, h.allow, h.reject⟩

theorem same_reset_self (p : Policy) (t : Table) : Same t (p.reset t) {} := by
  cases t <;> rfl

theorem same_reset_ne (p : Policy) (h : u ≠ t) : Same u (p.reset t) p := by
  cases t <;> cases u <;> first | rfl | exact absurd rfl h

theorem isDirty_reset_ne (p : Policy) (h : u ≠ t) : (p.reset t).isDirty u = p.isDirty u := by
  cases t <;> cases u <;> first | rfl | exact absurd rfl h

theorem WellFormed.reset (h : p.WellFormed) (t : Table) : (p.reset t).WellFormed := by
  have hd := wellFormed_default
  cases t with
  | reject => exact ⟨h.classes, h.allow, hd.reject⟩
  | allow => exact ⟨h.classes, hd.allow, h.reject⟩
  | classes => exact ⟨hd.classes, h.allow, h.reject⟩

end Policy

namespace Backed

variable {k : Kept} {l l' : LiveTables} {n : Address} {t : Table} {image table : Bytes}

/-- Only one table of the policy changed, and what is kept of it. -/
theorem of_table {p : Policy} {o : Option Bytes} (h : Backed k l) (hwf : p.WellFormed)
    (ht : p.isDirty t = false → Restored t o p)
    (hu : ∀ u, u ≠ t → Same u p l.policy ∧ p.isDirty u = l.policy.isDirty u) :
    Backed ⟨Function.update k.tables t o, k.networks⟩ ⟨p, l.hosts⟩ := by
  refine ⟨hwf, fun u hd => ?_, h.lengths, h.absent, h.hosts⟩
  by_cases hut : u = t
  · subst hut
    simpa using ht hd
  · obtain ⟨hsame, hdirty⟩ := hu u hut
    rw [hdirty] at hd
    simpa [hut] using (h.restored u hd).congr hsame

/-- Only the host table of one network changed, and what is kept of it. -/
theorem of_host {r : Option (Bytes × Bool)} {o : Option Bytes} (h : Backed k l)
    (hlen : ∀ table dirty, r = some (table, dirty) → n.tableLen? = some table.length)
    (hnone : r = none → o = none) (hclean : ∀ table, r = some (table, false) → o = some table) :
    Backed ⟨k.tables, Function.update k.networks n o⟩
      ⟨l.policy, Function.update l.hosts n r⟩ := by
  refine ⟨h.wellFormed, h.restored, fun m table dirty hm => ?_, fun m hm => ?_,
    fun m table hm => ?_⟩
  · by_cases hmn : m = n
    · subst hmn
      exact hlen table dirty (by simpa using hm)
    · exact h.lengths m table dirty (by simpa [hmn] using hm)
  · by_cases hmn : m = n
    · subst hmn
      simpa using hnone (by simpa using hm)
    · simpa [hmn] using h.absent m (by simpa [hmn] using hm)
  · by_cases hmn : m = n
    · subst hmn
      simpa using hclean table (by simpa using hm)
    · simpa [hmn] using h.hosts m table (by simpa [hmn] using hm)

/-- Only one table of the policy changed, and counts as changed. -/
theorem of_changed {p : Policy} (h : Backed k l) (t : Table) (hwf : p.WellFormed)
    (ht : p.isDirty t = true)
    (hu : ∀ u, u ≠ t → Same u p l.policy ∧ p.isDirty u = l.policy.isDirty u) :
    Backed k ⟨p, l.hosts⟩ := by
  have := h.of_table (o := k.tables t) hwf (by simp [ht]) hu
  rwa [Function.update_eq_self] at this

/-- A table that was loaded counts as changed. -/
theorem commit {kind : TableKind} {index : UInt32} (h : Backed k l)
    (hlen : kind.tableLen? index = some image.length)
    (hc : l.commit kind index image = .ok l') : Backed k l' := by
  have hwf := h.wellFormed
  cases kind with
  | network =>
    obtain rfl := Except.ok.inj hc
    have hlen' : Address.tableLen? index = some image.length := by
      simp only [TableKind.tableLen?] at hlen
      split at hlen
      · exact hlen
      · simp at hlen
    have := h.of_host (n := index) (r := some (image, true)) (o := k.networks index)
      (by rintro _ _ ⟨⟩; exact hlen') (by simp) (by simp)
    rwa [Function.update_eq_self] at this
  | classRules =>
    obtain ⟨rules, hr, rfl⟩ := exists_of_map_eq_ok hc
    refine h.of_changed .classes ⟨fun c hmem => ?_, hwf.allow, hwf.reject⟩ rfl
      fun u hu => by cases u <;> first | exact ⟨rfl, rfl⟩ | exact absurd rfl hu
    rw [Vector.toList_setIfInBounds] at hmem
    rcases List.mem_or_eq_of_mem_set hmem with hold | rfl
    · exact hwf.classes c hold
    · exact ClassRules.wellFormed_of_ofImage hr
  | reject =>
    obtain ⟨rules, hr, rfl⟩ := exists_of_map_eq_ok hc
    exact h.of_changed .reject ⟨hwf.classes, hwf.allow, rejectRules_wellFormed hr⟩ rfl
      fun u hu => by cases u <;> first | exact ⟨rfl, rfl⟩ | exact absurd rfl hu
  | allow =>
    obtain ⟨rules, hr, rfl⟩ := exists_of_map_eq_ok hc
    exact h.of_changed .allow ⟨hwf.classes, allowRules_wellFormed hr, hwf.reject⟩ rfl
      fun u hu => by cases u <;> first | exact ⟨rfl, rfl⟩ | exact absurd rfl hu

/-- A table whose image was written is restored. -/
theorem writeTable (h : Backed k l) (t : Table) :
    Backed ⟨Function.update k.tables t (some (l.policy.encode t)), k.networks⟩
      ⟨l.policy.setDirty false t, l.hosts⟩ := by
  refine h.of_table (h.wellFormed.setDirty false t) (fun _ => ?_)
    fun u hu => ⟨same_setDirty l.policy false t u, isDirty_setDirty_ne l.policy false hu⟩
  obtain ⟨q, hq, hsame⟩ := install_encode h.wellFormed t {}
  exact ⟨q, hq, (same_setDirty l.policy false t t).trans hsame.symm⟩

/-- A table that was put back to its default is restored without an image. -/
theorem reset (h : Backed k l) (t : Table) :
    Backed ⟨Function.update k.tables t none, k.networks⟩ ⟨l.policy.reset t, l.hosts⟩ :=
  h.of_table (h.wellFormed.reset t) (fun _ => same_reset_self l.policy t)
    fun _ hu => ⟨same_reset_ne l.policy hu, isDirty_reset_ne l.policy hu⟩

/-- A host table that was written is kept. -/
theorem writeNetwork {dirty : Bool} (h : Backed k l) (hl : l.hosts n = some (table, dirty)) :
    Backed ⟨k.tables, Function.update k.networks n (some table)⟩
      ⟨l.policy, Function.update l.hosts n (some (table, false))⟩ :=
  h.of_host (by rintro _ _ ⟨⟩; exact h.lengths n table dirty hl) (by simp)
    (by rintro _ ⟨⟩; rfl)

/-- A network that was removed is neither loaded nor kept. -/
theorem release (h : Backed k l) (n : Address) :
    Backed ⟨k.tables, Function.update k.networks n none⟩
      ⟨l.policy, Function.update l.hosts n none⟩ :=
  h.of_host (by simp) (fun _ => rfl) (by simp)

end Backed

/-! ### Loading a table -/

/-- What is collected has the length of the table that it is collected for. -/
def Collected.Sized (s : Collected) : Prop :=
  ∀ kind index image, s kind = some (index, image) → kind.tableLen? index = some image.length

namespace Taken

variable {kind : TableKind} {part : Fragment} {s s' : Collected} {l l' : LiveTables}
  {r : Except LoadError Unit} {k : Kept}

/-- A part does not change the length of what it is put into. -/
theorem tableLen?_of_put? (hs : s.Sized) {image : Bytes} (h : s.put? kind part = some image) :
    kind.tableLen? part.index = some image.length := by
  unfold Collected.put? at h
  obtain ⟨old, hold, h⟩ := Option.bind_eq_some_iff.mp h
  have hlen : kind.tableLen? part.index = some old.length := by
    split at hold
    · obtain ⟨len, hlen, rfl⟩ := Option.map_eq_some_iff.mp hold
      rw [hlen, Bytes.length_zeros]
    · obtain ⟨⟨index, old'⟩, hc, rfl⟩ := Option.map_eq_some_iff.mp hold
      obtain ⟨hk, hindex⟩ := Option.filter_eq_some_iff.mp hc
      have hindex : index = kind.key part.index := by simpa using hindex
      rw [← kind.tableLen?_key, ← hindex]
      exact hs kind index old' hk
  split at h
  · rename_i hle
    obtain rfl := Option.some.inj h
    rw [hlen, Bytes.length_overlay hle]
  · simp at h

theorem sized (h : Taken kind part s l s' l' r) (hs : s.Sized) : s'.Sized := by
  intro k index image hk
  by_cases hkk : k = kind
  · subst hkk
    obtain ⟨-, rfl, hput⟩ := h.put?_eq hk
    rw [TableKind.tableLen?_key]
    exact tableLen?_of_put? hs hput
  · rw [h.other hkk] at hk
    exact hs k index image hk

theorem backed (h : Taken kind part s l s' l' r) (hs : s.Sized) (hb : Backed k l) :
    Backed k l' := by
  cases h with
  | refused e => exact hb
  | kept hput hend => exact hb
  | committed hput hend hcommit => exact hb.commit (tableLen?_of_put? hs hput) hcommit

end Taken

/-! ### Writing what changed -/

/-- The host table of a network counts as changed. -/
def Classifier.Changed (c : Classifier) (n : Address) : Prop :=
  (c.loaded? n).map (·.2) = some true

/-- The networks that count as changed are those that are written. -/
theorem Classifier.Sound.mem_dirtyNetworks {c : Classifier} {own : List Slot} (h : c.Sound own)
    {n : Address} : n ∈ c.dirtyNetworks ↔ c.Changed n := by
  unfold Changed loaded? dirtyNetworks
  simp only [List.mem_map, List.mem_filter]
  -- an entry and what is loaded for its network have the same flag
  constructor
  · rintro ⟨e, ⟨hmem, hd⟩, rfl⟩
    have he := (NetworkTable.get?_eq_some_iff h.networks).mpr ⟨hmem, rfl⟩
    obtain ⟨b, hb⟩ := h.exists_block he
    simp [he, hb, hd]
  · intro hd
    obtain ⟨⟨table, dirty⟩, hl, rfl⟩ := Option.map_eq_some_iff.mp hd
    obtain ⟨e, he, hm⟩ := Option.bind_eq_some_iff.mp hl
    obtain ⟨b, -, heq⟩ := Option.map_eq_some_iff.mp hm
    obtain ⟨hmem, rfl⟩ := (NetworkTable.get?_eq_some_iff h.networks).mp he
    exact ⟨e, ⟨hmem, (Prod.mk.inj heq).2⟩, rfl⟩

namespace Agent

variable {σ : Type} [TableStore σ] {good : σ → Prop} {kept : σ → Kept} {store store' : σ}
  {p p' : Policy} {c c' : Classifier} {own : List Slot} {o : Option ErrorCode}

/-- Wherever the writing of tables ends, the invariant holds; without an error none of
them counts as changed. -/
theorem writeTables_spec (h : TableStore.ActsAsMap good kept)
    {hosts : Address → Option (Bytes × Bool)} (ts : List Table) (hg : good store)
    (hb : Backed (kept store) ⟨p, hosts⟩) (hr : writeTables ts store p = (store', p', o)) :
    good store' ∧ Backed (kept store') ⟨p', hosts⟩ ∧
      (∀ t, p.isDirty t = false → p'.isDirty t = false) ∧
      (o = none → ∀ t ∈ ts, p'.isDirty t = false) := by
  induction ts generalizing store p with
  | nil =>
    simp only [writeTables, Prod.mk.injEq] at hr
    obtain ⟨rfl, rfl, -⟩ := hr
    exact ⟨hg, hb, fun _ => id, by simp⟩
  | cons t ts ih =>
    rw [writeTables] at hr
    split at hr
    · rcases hw : TableStore.writeTable store t (p.encode t) with ⟨s₁, e | ⟨⟩⟩
      · obtain ⟨hg₁, hk₁⟩ := h.writeTable_error t _ e hg hw
        simp only [hw, Prod.mk.injEq] at hr
        obtain ⟨rfl, rfl, rfl⟩ := hr
        exact ⟨hg₁, hk₁ ▸ hb, fun _ => id, by simp⟩
      · obtain ⟨hg₁, hk₁⟩ := h.writeTable_ok t _ hg hw
        simp only [hw] at hr
        obtain ⟨hg', hb', hclean, hall⟩ := ih hg₁ (hk₁ ▸ hb.writeTable t) hr
        -- writing one table does not make another one count as changed
        have hkeep : ∀ u, p.isDirty u = false → (p.setDirty false t).isDirty u = false := by
          intro u hu
          by_cases hut : u = t
          · rw [hut, isDirty_setDirty]
          · rwa [isDirty_setDirty_ne p false hut]
        exact ⟨hg', hb', fun u hu => hclean u (hkeep u hu),
          fun ho => List.forall_mem_cons.mpr ⟨hclean t (isDirty_setDirty ..), hall ho⟩⟩
    · rename_i hd
      obtain ⟨hg', hb', hclean, hall⟩ := ih hg hb hr
      exact ⟨hg', hb', hclean,
        fun ho => List.forall_mem_cons.mpr ⟨hclean t (by simpa using hd), hall ho⟩⟩

/-- Wherever the writing of networks ends, the invariant holds; without an error none of
them counts as changed. -/
theorem writeNetworks_spec (h : TableStore.ActsAsMap good kept) (ns : List Address)
    (hg : good store) (hc : c.Consistent own) (hb : Backed (kept store) ⟨p, c.loaded?⟩)
    (hr : writeNetworks ns store c = (store', c', o)) :
    good store' ∧ c'.Consistent own ∧ Backed (kept store') ⟨p, c'.loaded?⟩ ∧
      c'.bounds = c.bounds ∧ c'.arena = c.arena ∧
      (∀ n, ¬ c.Changed n → ¬ c'.Changed n) ∧ (o = none → ∀ n ∈ ns, ¬ c'.Changed n) := by
  induction ns generalizing store c with
  | nil =>
    simp only [writeNetworks, Prod.mk.injEq] at hr
    obtain ⟨rfl, rfl, -⟩ := hr
    exact ⟨hg, hc, hb, rfl, rfl, fun _ => id, by simp⟩
  | cons n ns ih =>
    rw [writeNetworks] at hr
    cases ht : c.hostTable n with
    | error e =>
      simp only [ht, Prod.mk.injEq] at hr
      obtain ⟨rfl, rfl, rfl⟩ := hr
      exact ⟨hg, hc, hb, rfl, rfl, fun _ => id, by simp⟩
    | ok table =>
      simp only [ht] at hr
      rcases hw : TableStore.writeNetwork store n table with ⟨s₁, e | ⟨⟩⟩
      · obtain ⟨hg₁, hk₁⟩ := h.writeNetwork_error n table e hg hw
        simp only [hw, Prod.mk.injEq] at hr
        obtain ⟨rfl, rfl, rfl⟩ := hr
        exact ⟨hg₁, hc, hk₁ ▸ hb, rfl, rfl, fun _ => id, by simp⟩
      · obtain ⟨hg₁, hk₁⟩ := h.writeNetwork_ok n table hg hw
        simp only [hw] at hr
        obtain ⟨⟨table', dirty⟩, hl, rfl⟩ :=
          Option.map_eq_some_iff.mp (Classifier.hostTable_eq_ok.mp ht)
        obtain ⟨-, hloaded⟩ := hc.sound.markClean n
        -- the table that was written is the one that is loaded
        have hlive : (c.markClean n).loaded? =
            Function.update c.loaded? n (some (table', false)) := by
          funext m
          rw [hloaded, Function.update_apply]
          by_cases hm : m = n
          · subst hm
            simp [hl]
          · simp [hm]
        have hb₁ : Backed (kept s₁) ⟨p, (c.markClean n).loaded?⟩ := by
          rw [hk₁, hlive]
          exact hb.writeNetwork hl
        obtain ⟨hg', hc', hb', hbounds, harena, hclean, hall⟩ := ih hg₁ (hc.markClean n) hb₁ hr
        have hself : ¬ c'.Changed n := hclean n (by simp [Classifier.Changed, hlive])
        refine ⟨hg', hc', hb', hbounds.trans (Classifier.bounds_markClean c n), harena,
          fun m hm => hclean m ?_, fun ho => List.forall_mem_cons.mpr ⟨hself, hall ho⟩⟩
        by_cases hmn : m = n
        · simp [Classifier.Changed, hlive, hmn]
        · simpa [Classifier.Changed, hlive, hmn] using hm

end Agent

end FilterBridge
