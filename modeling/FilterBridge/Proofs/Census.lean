import FilterBridge.Proofs.Backing

/-!
# No block is lost

A block of the arena belongs to a network that is loaded, or to the network whose host
table is being collected.  However tables are loaded, given up and removed, successfully
or not, every block has one owner, every owner has one block of the length that it needs,
and no byte is in use beyond those blocks.

## Main definitions

* `LiveTables.Sized` — host tables have the length that their networks need.
* `Hosting`, `Hosting.run` — a filter with what is being collected for it, and what is done
  to them one after another.
* `Hosting.owners` — the owners of blocks.
* `Hosting.Accounted` — the invariant.

## Main results

* `Hosting.Accounted.act` — whatever is done keeps the invariant.
* `Hosting.Accounted.inUse_eq` — the bytes in use are those that the owners need.
* `Hosting.blocks_run` — the blocks after any run are those of the owners.
-/

namespace FilterBridge

/-! ### Lengths of live host tables -/

/-- Every host table has the length that its network needs. -/
def LiveTables.Sized (l : LiveTables) : Prop :=
  ∀ n table dirty, l.hosts n = some (table, dirty) → n.tableLen? = some table.length

/-- Only network numbers can be loaded by parts. -/
theorem Uploads.isNetwork_of_loadable {n : Address} (h : loadable n = true) : n.IsNetwork := by
  rw [loadable, Option.any_eq_true] at h
  obtain ⟨split, hsplit, hn⟩ := h
  exact ⟨split, hsplit, of_decide_eq_true hn⟩

section Taken

variable {l l' : LiveTables} {kind : TableKind} {part : Fragment} {s s' : Collected}
  {r : Except LoadError Unit} {n : Address} {table : Bytes} {dirty : Bool}

/-- A host table that a part made live is for a network number, and has the length that it
needs. -/
theorem Taken.hosts_cases (ht : Taken kind part s l s' l' r) (hs : s.Sized)
    (hn : l'.hosts n = some (table, dirty)) :
    l.hosts n = some (table, dirty) ∨ n.IsNetwork ∧ n.tableLen? = some table.length := by
  cases ht with
  | refused e => exact .inl hn
  | kept hput hend => exact .inl hn
  | committed hput hend hcommit =>
    have hlen := Taken.tableLen?_of_put? hs hput
    -- only the image of a host table changes what is loaded for a network
    cases kind with
    | network =>
      obtain rfl := Except.ok.inj hcommit
      have hn : Function.update l.hosts part.index (some (_, true)) n = some (table, dirty) := hn
      by_cases hni : n = part.index
      · subst hni
        simp only [Function.update_self, Option.some.injEq, Prod.mk.injEq] at hn
        obtain ⟨rfl, -⟩ := hn
        simp only [TableKind.tableLen?] at hlen
        split at hlen
        · exact .inr ⟨Uploads.isNetwork_of_loadable ‹_›, hlen⟩
        · simp at hlen
      · rw [Function.update_of_ne hni] at hn
        exact .inl hn
    | classRules =>
      obtain ⟨rules, -, rfl⟩ := exists_of_map_eq_ok hcommit
      exact .inl hn
    | reject =>
      obtain ⟨rules, -, rfl⟩ := exists_of_map_eq_ok hcommit
      exact .inl hn
    | allow =>
      obtain ⟨rules, -, rfl⟩ := exists_of_map_eq_ok hcommit
      exact .inl hn

/-- A part keeps the lengths, however it is taken. -/
theorem LiveTables.Sized.taken (h : l.Sized) (hs : s.Sized) (ht : Taken kind part s l s' l' r) :
    l'.Sized := by
  intro n table dirty hn
  obtain hold | ⟨-, hlen⟩ := ht.hosts_cases hs hn
  · exact h n table dirty hold
  · exact hlen

end Taken

/-! ### What is done to a filter -/

/-- A filter, and what is being collected for it. -/
structure Hosting where
  /-- What is being collected. -/
  uploads : Uploads := {}
  /-- The filter. -/
  firewall : Firewall

namespace Hosting

/-- Something that is done to a filter. -/
inductive Act
  /-- Take a part of a table. -/
  | take (part : Fragment)
  /-- Give up the table of a kind that is being collected. -/
  | abort (kind : TableKind)
  /-- Install a network from an image. -/
  | load (network : Address) (image : Bytes)
  /-- Remove a network. -/
  | release (network : Address)
  /-- Look a class up. -/
  | lookup (ip : Address)
  deriving DecidableEq, Repr

/-- Do something to a filter. -/
def act (h : Hosting) : Act → Hosting
  | .take part =>
    ⟨(h.uploads.apply h.firewall part).1, (h.uploads.apply h.firewall part).2.1⟩
  | .abort kind => ⟨(h.uploads.abort h.firewall kind).1, (h.uploads.abort h.firewall kind).2⟩
  | .load n image =>
    { h with firewall :=
      { h.firewall with classifier := (h.firewall.classifier.load n image).1 } }
  | .release n =>
    { h with firewall := { h.firewall with classifier := (h.firewall.classifier.release n).1 } }
  | .lookup ip => { h with firewall := (h.firewall.lookup ip).1 }

/-- Do one thing after another. -/
def after (h : Hosting) (acts : List Act) : Hosting := acts.foldl act h

/-- Start with a new filter, over an arena of the given capacity. -/
def run (capacity : Nat) (acts : List Act) : Hosting :=
  after { firewall := .withCapacity capacity } acts

/-- The networks that own a block, each with its slot: those that are loaded, and the one
whose host table is being collected. -/
def owners (h : Hosting) : List (Address × Slot) :=
  h.firewall.classifier.networks.toList.map (fun e => (e.network, e.table)) ++
    h.uploads.network.toList.map fun up => (up.network, up.slot)

/-! ### The invariant -/

/-- Every block has one owner and the length that its owner needs. -/
structure Accounted (capacity : Nat) (h : Hosting) : Prop where
  /-- Every block has one owner. -/
  consistent : h.uploads.Consistent h.firewall []
  /-- A host table that is being collected has the length that it needs. -/
  collected : (h.uploads.collected h.firewall).Sized
  /-- So has one that is loaded. -/
  live : h.firewall.live.Sized
  /-- The arena has the capacity that it started with. -/
  bounds : h.firewall.classifier.bounds = (Classifier.withCapacity capacity).bounds

variable {capacity : Nat} {h : Hosting}

theorem accounted_start (capacity : Nat) :
    Accounted capacity { firewall := .withCapacity capacity } where
  consistent := Classifier.consistent_withCapacity capacity
  collected := by
    intro kind index image hc
    cases kind <;> simp [Uploads.collected] at hc
  live := by
    intro n table dirty hn
    have hn : (Classifier.withCapacity capacity).loaded? n = some (table, dirty) := hn
    rw [Classifier.loaded?_withCapacity] at hn
    simp at hn
  bounds := rfl

namespace Accounted

/-- Every block is owned by a network, or else is being collected. -/
theorem sound (hh : h.Accounted capacity) : h.firewall.classifier.Sound h.uploads.slots := by
  have hsound := hh.consistent.sound
  rwa [List.append_nil] at hsound

/-! ### What keeps the invariant -/

/-- The classifier changed, but not the table that is being collected. -/
theorem of_classifier {c : Classifier} (hh : h.Accounted capacity)
    (hc : c.Consistent (h.uploads.slots ++ []))
    (hb : ∀ s ∈ h.uploads.slots, c.arena.block? s = h.firewall.classifier.arena.block? s)
    (hl : LiveTables.Sized ⟨h.firewall.policy, c.loaded?⟩)
    (hbounds : c.bounds = h.firewall.classifier.bounds) :
    Accounted capacity { h with firewall := { h.firewall with classifier := c } } where
  consistent := hc
  collected := by
    rw [Uploads.collected_congr h.uploads (f := h.firewall) hb]
    exact hh.collected
  live := hl
  bounds := hbounds.trans hh.bounds

theorem take (hh : h.Accounted capacity) (part : Fragment) :
    (h.act (.take part)).Accounted capacity := by
  cases hk : TableKind.ofByte? part.kind with
  | none =>
    rw [act, Uploads.apply_of_unknown hk]
    exact hh
  | some kind =>
    have hbounds := Uploads.apply_bounds h.uploads h.firewall part
    obtain ⟨hc, ht⟩ := Uploads.apply_taken hh.consistent hk (r := _) rfl
    exact ⟨hc, ht.sized hh.collected, hh.live.taken hh.collected ht, hbounds.trans hh.bounds⟩

theorem abort (hh : h.Accounted capacity) (kind : TableKind) :
    (h.act (.abort kind)).Accounted capacity := by
  have hbounds := Uploads.abort_bounds h.uploads h.firewall kind
  show Accounted capacity ⟨(h.uploads.abort h.firewall kind).1, _⟩
  rcases hr : h.uploads.abort h.firewall kind with ⟨u, f⟩
  obtain ⟨hc, hl, hcollected⟩ := Uploads.abort_spec hh.consistent hr
  rw [hr] at hbounds
  refine ⟨hc, ?_, ?_, hbounds.trans hh.bounds⟩
  · intro k index image hk
    have hk : u.collected f k = some (index, image) := hk
    rw [hcollected] at hk
    -- what is given up is gone, and the rest is what it was
    by_cases hkk : k = kind
    · rw [hkk, Function.update_self] at hk
      simp at hk
    · rw [Function.update_of_ne hkk] at hk
      exact hh.collected k index image hk
  · show f.live.Sized
    rw [hl]
    exact hh.live

theorem load (hh : h.Accounted capacity) (n : Address) (image : Bytes) :
    (h.act (.load n image)).Accounted capacity := by
  refine hh.of_classifier (hh.consistent.load n image)
    (fun s hs => hh.sound.block?_load hs n image) ?_ (Classifier.bounds_load _ n image)
  intro m table dirty hm
  have hm : (h.firewall.classifier.load n image).1.loaded? m = some (table, dirty) := hm
  rcases hr : h.firewall.classifier.load n image with ⟨c, e | ⟨⟩⟩
  · obtain ⟨-, hloaded, -⟩ := hh.sound.load_error hr
    rw [hr, hloaded] at hm
    exact hh.live m table dirty hm
  · obtain ⟨-, hlen, hloaded, -⟩ := hh.sound.load_ok hr
    rw [hr, hloaded] at hm
    by_cases hmn : m = n
    · rw [if_pos hmn, Option.some.injEq, Prod.mk.injEq] at hm
      rw [hmn, hlen, hm.1]
    · rw [if_neg hmn] at hm
      exact hh.live m table dirty hm

/-- What is loaded after a network was removed. -/
theorem loaded?_release (hh : h.Accounted capacity) (n m : Address) :
    (h.act (.release n)).firewall.classifier.loaded? m =
      if m = n then none else h.firewall.classifier.loaded? m := by
  rcases hr : h.firewall.classifier.release n with ⟨c, b⟩
  obtain ⟨-, hloaded, -⟩ := hh.sound.release hr
  show (h.firewall.classifier.release n).1.loaded? m = _
  rw [hr]
  exact hloaded m

theorem release (hh : h.Accounted capacity) (n : Address) :
    (h.act (.release n)).Accounted capacity := by
  refine hh.of_classifier (hh.consistent.release n)
    (fun s hs => hh.sound.block?_release hs (Prod.mk.eta).symm) ?_
    (Classifier.bounds_release _ n)
  intro m table dirty hm
  have hm : (h.act (.release n)).firewall.classifier.loaded? m = some (table, dirty) := hm
  rw [hh.loaded?_release] at hm
  by_cases hmn : m = n
  · simp [hmn] at hm
  · rw [if_neg hmn] at hm
    exact hh.live m table dirty hm

theorem lookup (hh : h.Accounted capacity) (ip : Address) :
    (h.act (.lookup ip)).Accounted capacity := by
  obtain ⟨-, -, hn, ha⟩ := Classifier.lookup_spec hh.consistent.agrees ip
  have hloaded : (h.firewall.classifier.lookup ip).1.loaded? = h.firewall.classifier.loaded? := by
    funext n
    rw [Classifier.loaded?, hn, ha, Classifier.loaded?]
  refine hh.of_classifier (c := (h.firewall.classifier.lookup ip).1) (hh.consistent.lookup ip)
    (fun s _ => by rw [ha]) ?_ ?_
  · rw [hloaded]
    exact hh.live
  · rw [Classifier.bounds, hn, ha, Classifier.bounds]

/-- Whatever is done keeps the invariant. -/
theorem act (hh : h.Accounted capacity) (a : Act) : (h.act a).Accounted capacity := by
  cases a with
  | take part => exact hh.take part
  | abort kind => exact hh.abort kind
  | load n image => exact hh.load n image
  | release n => exact hh.release n
  | lookup ip => exact hh.lookup ip

theorem after (hh : h.Accounted capacity) (acts : List Act) :
    (h.after acts).Accounted capacity := by
  induction acts generalizing h with
  | nil => exact hh
  | cons a acts ih => exact ih (hh.act a)

/-! ### Owners and their blocks -/

theorem slots_owners (h : Hosting) : h.owners.map (·.2) =
    h.firewall.classifier.networks.toList.map (·.table) ++ h.uploads.slots := by
  simp only [owners, Uploads.slots, List.map_append, List.map_map]
  rfl

/-- There is a block where there is an owner, and nowhere else. -/
theorem isSome_block?_iff (hh : h.Accounted capacity) (s : Slot) :
    (h.firewall.classifier.arena.block? s).isSome ↔ s ∈ h.owners.map (·.2) := by
  rw [slots_owners]
  exact hh.sound.isSome_block?_iff s

/-- No two owners share a block. -/
theorem nodup_owners (hh : h.Accounted capacity) : (h.owners.map (·.2)).Nodup := by
  rw [slots_owners]
  exact hh.sound.nodup_slots

/-- The block of an owner has the length that the owner needs. -/
theorem tableLen?_of_owner (hh : h.Accounted capacity) {o : Address × Slot}
    (ho : o ∈ h.owners) :
    o.1.tableLen? = some (h.firewall.classifier.arena.blockSize o.2) := by
  have hsound := hh.sound
  rcases List.mem_append.mp ho with hmem | hmem
  · obtain ⟨e, he, rfl⟩ := List.mem_map.mp hmem
    have hget := NetworkTable.get?_of_mem hsound.networks he
    obtain ⟨b, hb⟩ := hsound.exists_block hget
    rw [Arena.blockSize_of_block? hb]
    refine hh.live e.network b e.dirty ?_
    simp only [Firewall.live, Classifier.loaded?, hget, Option.bind_some, hb, Option.map_some]
  · obtain ⟨up, hup, rfl⟩ := List.mem_map.mp hmem
    have hup : h.uploads.network = some up := Option.mem_toList.mp hup
    obtain ⟨b, hb⟩ := hsound.exists_block_of_mem (s := up.slot) (by simp [Uploads.slots, hup])
    rw [Arena.blockSize_of_block? hb]
    have hlen := hh.collected .network up.network b (by simp [Uploads.collected, hup, hb])
    simp only [TableKind.tableLen?] at hlen
    split at hlen
    · exact hlen
    · simp at hlen

/-- The bytes in use are those that the owners need. -/
theorem inUse_eq (hh : h.Accounted capacity) : h.firewall.classifier.arena.inUse =
    (h.owners.map fun o => o.1.tableLen?.getD 0).sum := by
  rw [hh.sound.inUse_eq, ← slots_owners, List.map_map]
  refine congrArg List.sum (List.map_congr_left fun o ho => ?_)
  rw [hh.tableLen?_of_owner ho, Option.getD_some]
  rfl

/-- Where nothing is loaded and nothing collected, no byte is in use. -/
theorem inUse_eq_zero (hh : h.Accounted capacity)
    (hn : ∀ n, h.firewall.classifier.contains n = false) (hu : h.uploads.network = none) :
    h.firewall.classifier.arena.inUse = 0 := by
  have hempty : h.firewall.classifier.networks.toList = [] := by
    refine List.eq_nil_iff_forall_not_mem.mpr fun e he => ?_
    have hc := hn e.network
    rw [Classifier.contains, NetworkTable.contains,
      NetworkTable.get?_of_mem hh.sound.networks he] at hc
    simp at hc
  rw [hh.inUse_eq, owners, hempty, hu]
  rfl

/-! ### Giving all back -/

/-- Removing networks leaves those that were loaded and are not among them. -/
theorem contains_after_release (hh : h.Accounted capacity) (ns : List Address) (n : Address) :
    (h.after (ns.map .release)).firewall.classifier.contains n = true →
      h.firewall.classifier.contains n = true ∧ n ∉ ns := by
  induction ns generalizing h with
  | nil =>
    intro hc
    exact ⟨hc, by simp⟩
  | cons m ns ih =>
    intro hc
    have hh₁ := hh.act (.release m)
    obtain ⟨hc₁, hn⟩ := ih hh₁ hc
    -- what is still loaded after one removal was loaded before, for another network
    rw [hh₁.sound.contains_eq, Classifier.hostMap, Option.isSome_map, hh.loaded?_release] at hc₁
    by_cases hnm : n = m
    · simp [hnm] at hc₁
    · rw [if_neg hnm] at hc₁
      refine ⟨?_, by simp [hnm, hn]⟩
      rw [hh.sound.contains_eq, Classifier.hostMap, Option.isSome_map]
      exact hc₁

/-- When all networks were removed and the loading of a host table is given up, no byte is in
use. -/
theorem inUse_after_release (hh : h.Accounted capacity) {ns : List Address}
    (hns : ∀ n, h.firewall.classifier.contains n = true → n ∈ ns) :
    (h.after (ns.map .release ++ [.abort .network])).firewall.classifier.arena.inUse = 0 := by
  have hreleased : (h.after (ns.map .release)).Accounted capacity := hh.after _
  have hafter : h.after (ns.map .release ++ [.abort .network]) =
      (h.after (ns.map .release)).act (.abort .network) := by
    simp only [Hosting.after, List.foldl_append, List.foldl_cons, List.foldl_nil]
  rw [hafter]
  obtain ⟨hu, -, hl⟩ := Uploads.abortNetwork_spec hreleased.consistent rfl
  have haborted := hreleased.act (.abort .network)
  refine haborted.inUse_eq_zero (fun n => ?_) (congrArg Uploads.network hu)
  -- giving up the loading leaves what is loaded
  have hhosts : ((h.after (ns.map .release)).act (.abort .network)).firewall.classifier.loaded? n
      = (h.after (ns.map .release)).firewall.classifier.loaded? n :=
    congrFun (congrArg LiveTables.hosts hl) n
  rw [haborted.sound.contains_eq, Classifier.hostMap_congr hhosts,
    ← hreleased.sound.contains_eq, Bool.eq_false_iff]
  intro hc
  obtain ⟨hc₁, hn⟩ := hh.contains_after_release ns n hc
  exact hn (hns n hc₁)

end Accounted

/-- Whatever was done to a new filter, the blocks of its arena are those of the networks
that are loaded and of the one whose host table is being collected.  No two of them share a
block.  Each has the length that its network needs, and the bytes in use, which are never
more than there are, are those lengths together.

When all networks are removed and the loading of a host table is given up, no byte is in
use. -/
theorem blocks_run (capacity : Nat) (acts : List Act) :
    let h := run capacity acts
    let arena := h.firewall.classifier.arena
    (∀ s, (arena.block? s).isSome ↔ s ∈ h.owners.map (·.2)) ∧
      (h.owners.map (·.2)).Nodup ∧
      (∀ o ∈ h.owners, ∃ len, o.1.tableLen? = some len ∧ arena.blockLen o.2 = .ok len) ∧
      arena.inUse = (h.owners.map fun o => o.1.tableLen?.getD 0).sum ∧
      (arena.capacity = capacity ∧ arena.inUse ≤ capacity) ∧
      ∀ ns : List Address, (∀ n, h.firewall.classifier.contains n = true → n ∈ ns) →
        (h.after (ns.map .release ++ [.abort .network])).firewall.classifier.arena.inUse = 0 := by
  intro h arena
  have hh : h.Accounted capacity := (accounted_start capacity).after acts
  have hcap : arena.capacity = capacity := (Prod.mk.inj hh.bounds).2
  have hle := hh.sound.arena.inUse_le
  refine ⟨hh.isSome_block?_iff, hh.nodup_owners, fun o ho => ?_, hh.inUse_eq,
    ⟨hcap, hcap ▸ hle⟩, fun ns hns => hh.inUse_after_release hns⟩
  obtain ⟨b, hb⟩ := Option.isSome_iff_exists.mp
    ((hh.isSome_block?_iff o.2).mpr (List.mem_map_of_mem ho))
  refine ⟨b.length, ?_, ?_⟩
  · rw [hh.tableLen?_of_owner ho, Arena.blockSize_of_block? hb]
  · show arena.blockLen o.2 = _
    rw [Arena.blockLen, show arena.block? o.2 = some b from hb]

end Hosting

end FilterBridge
