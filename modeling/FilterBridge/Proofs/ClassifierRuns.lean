import FilterBridge.Proofs.CachedClasses

/-!
# Runs of the classifier

Whoever uses the classifier may hold host tables that are not installed, and may
write, install or give back only those.  However the classifier is used in this way,
every host table has one owner and the cache tells what the host tables tell.

## Main definitions

* `Classifier.Consistent` — the invariant.
* `Classifier.Use`, `Holding`, `Holding.run` — uses of a classifier, one after
  another.

## Main results

* `Holding.consistent_run` — the invariant holds after any uses.
* `Holding.lookup_run` — then a class is looked up as the installed host tables tell
  it, and looking up changes no answer.
-/

namespace FilterBridge

namespace Classifier

variable {c c' : Classifier} {own own' : List Slot}

/-! ### The invariant -/

/-- Every host table has one owner, and the cache tells what the host tables tell. -/
structure Consistent (c : Classifier) (own : List Slot) : Prop where
  /-- Every host table has one owner. -/
  sound : c.Sound own
  /-- The cache tells what the host tables tell. -/
  agrees : c.cache.Agrees c.hostMap

theorem consistent_withCapacity (capacity : Nat) : (withCapacity capacity).Consistent [] :=
  ⟨sound_withCapacity capacity, ClassCache.agrees_new _⟩

namespace Consistent

/-- With an empty cache nothing else is to be shown. -/
theorem of_flush (h : c'.Sound own') (hc : c'.cache = c.cache.flush) : c'.Consistent own' :=
  ⟨h, hc ▸ ClassCache.agrees_flush c.cache _⟩

/-- The cache stays right while no host table changes. -/
theorem of_hostMap (h : c.Consistent own) (hs : c'.Sound own')
    (hm : ∀ n, c'.hostMap n = c.hostMap n) (hc : c'.cache = c.cache) : c'.Consistent own' := by
  refine ⟨hs, ?_⟩
  rw [hc, funext hm]
  exact h.agrees

theorem of_loaded (h : c.Consistent own) (hs : c'.Sound own')
    (hl : ∀ n, c'.loaded? n = c.loaded? n) (hc : c'.cache = c.cache) : c'.Consistent own' :=
  h.of_hostMap hs (fun n => hostMap_congr (hl n)) hc

theorem perm (h : c.Consistent own) (hp : own.Perm own') : c.Consistent own' :=
  ⟨h.sound.perm hp, h.agrees⟩

theorem lookup_eq (h : c.Consistent own) (ip : Address) :
    (c.lookup ip).2 = hostClass c.hostMap ip := (lookup_spec h.agrees ip).1

theorem lookup (h : c.Consistent own) (ip : Address) : (c.lookup ip).1.Consistent own := by
  obtain ⟨-, hcache, hn, ha⟩ := lookup_spec h.agrees ip
  have hm : (c.lookup ip).1.hostMap = c.hostMap := by
    funext n
    rw [hostMap_eq, hostMap_eq, hn, ha]
  exact ⟨h.sound.of_cache hn ha, hm ▸ hcache⟩

theorem alloc {n : Address} {s : Slot} (h : c.Consistent own) (hr : c.alloc n = .ok (c', s)) :
    c'.Consistent (s :: own) := by
  cases hlen : n.tableLen? with
  | none => simp [Classifier.alloc, hlen] at hr
  | some len =>
    obtain ⟨hs, -, hl, -, hc, -⟩ := h.sound.alloc hr hlen
    exact h.of_loaded hs hl hc

theorem write {s : Slot} {offset : Nat} {data : Bytes} (h : c.Consistent own) (hs : s ∈ own)
    (hr : c.write s offset data = .ok c') : c'.Consistent own := by
  obtain ⟨hsound, -, hl, -, hc, -⟩ := h.sound.write hs hr
  exact h.of_loaded hsound hl hc

theorem free {s : Slot} (h : c.Consistent own) (hs : s ∈ own) :
    (c.free s).Consistent (own.erase s) := by
  obtain ⟨hsound, hl, -⟩ := h.sound.free hs
  exact h.of_loaded hsound hl rfl

theorem install {s : Slot} (h : c.Consistent own) (hs : s ∈ own) (n : Address) :
    (c.install n s).1.Consistent (own.erase s) := by
  rcases hr : c.install n s with ⟨c', e | u⟩
  · obtain ⟨hsound, hl, -, hc, -⟩ := h.sound.install_error hs hr
    exact h.of_loaded hsound hl hc
  · obtain ⟨hsound, -, hc, -⟩ := h.sound.install_ok hs hr
    exact of_flush hsound hc

theorem load (h : c.Consistent own) (n : Address) (image : Bytes) :
    (c.load n image).1.Consistent own := by
  rcases hr : c.load n image with ⟨c', e | u⟩
  · obtain ⟨hsound, hl, -, hc, -⟩ := h.sound.load_error hr
    exact h.of_loaded hsound hl hc
  · obtain ⟨hsound, -, -, hc, -⟩ := h.sound.load_ok hr
    exact of_flush hsound hc

theorem release (h : c.Consistent own) (n : Address) : (c.release n).1.Consistent own := by
  rcases hr : c.release n with ⟨c', b⟩
  obtain ⟨hsound, hl, hb, hc, -⟩ := h.sound.release hr
  cases b with
  | true => exact of_flush hsound (by simpa using hc)
  | false =>
    -- nothing was loaded there, so nothing is lost
    have hnone : c.loaded? n = none := by simpa using hb.symm
    refine h.of_loaded hsound (fun m => ?_) (by simpa using hc)
    rw [hl]
    split
    · rename_i hm
      rw [hm, hnone]
    · rfl

theorem markClean (h : c.Consistent own) (n : Address) : (c.markClean n).Consistent own := by
  obtain ⟨hsound, hl⟩ := h.sound.markClean n
  refine h.of_hostMap hsound (fun m => ?_) rfl
  rw [hostMap, hl, hostMap]
  split
  · cases c.loaded? m <;> rfl
  · rfl

theorem flush (h : c.Consistent own) : c.flush.Consistent own :=
  of_flush (h.sound.of_cache rfl rfl) rfl

theorem clearCacheCounts (h : c.Consistent own) : c.clearCacheCounts.Consistent own :=
  ⟨h.sound.of_cache rfl rfl, h.agrees.of_sets rfl⟩

end Consistent

/-! ### Uses -/

/-- One use of a classifier. -/
inductive Use
  /-- Install a network from an image. -/
  | load (network : Address) (image : Bytes)
  /-- Take a host table. -/
  | alloc (network : Address)
  /-- Write into a host table that is held. -/
  | write (slot : Slot) (offset : Nat) (data : Bytes)
  /-- Give back a host table that is held. -/
  | free (slot : Slot)
  /-- Install a host table that is held. -/
  | install (network : Address) (slot : Slot)
  /-- Remove a network. -/
  | release (network : Address)
  /-- Mark a network as persisted. -/
  | markClean (network : Address)
  /-- Empty the cache. -/
  | flush
  /-- Set the counters of the cache to zero. -/
  | clearCounts
  /-- Look a class up. -/
  | lookup (ip : Address)
  deriving Repr

end Classifier

/-- A classifier and the host tables that its user holds. -/
structure Holding where
  /-- The classifier. -/
  classifier : Classifier
  /-- The host tables that were taken and neither installed nor given back. -/
  own : List Slot := []

namespace Holding

open Classifier

/-- Use the classifier once.  A host table that is not held cannot be named. -/
def use (h : Holding) : Use → Holding
  | .load n image => { h with classifier := (h.classifier.load n image).1 }
  | .alloc n =>
    match h.classifier.alloc n with
    | .ok (c, s) => ⟨c, s :: h.own⟩
    | .error _ => h
  | .write s offset data =>
    if s ∈ h.own then
      match h.classifier.write s offset data with
      | .ok c => ⟨c, h.own⟩
      | .error _ => h
    else h
  | .free s => if s ∈ h.own then ⟨h.classifier.free s, h.own.erase s⟩ else h
  | .install n s => if s ∈ h.own then ⟨(h.classifier.install n s).1, h.own.erase s⟩ else h
  | .release n => { h with classifier := (h.classifier.release n).1 }
  | .markClean n => { h with classifier := h.classifier.markClean n }
  | .flush => { h with classifier := h.classifier.flush }
  | .clearCounts => { h with classifier := h.classifier.clearCacheCounts }
  | .lookup ip => { h with classifier := (h.classifier.lookup ip).1 }

/-- Use a new classifier, over an arena of the given capacity, any number of times. -/
def run (capacity : Nat) (uses : List Use) : Holding :=
  uses.foldl use ⟨.withCapacity capacity, []⟩

/-- A single use keeps the invariant, and so does it when others hold host tables too. -/
theorem consistent_use {h : Holding} (others : List Slot)
    (hc : h.classifier.Consistent (others ++ h.own)) (u : Use) :
    (h.use u).classifier.Consistent (others ++ (h.use u).own) := by
  -- what others hold is apart from what is used here
  have herase : ∀ s ∈ h.own, (others ++ h.own).erase s = others ++ h.own.erase s := fun s hs =>
    List.erase_append_right _ fun hmem => List.disjoint_of_nodup_append hc.sound.nodup hmem hs
  have hheld : ∀ s ∈ h.own, s ∈ others ++ h.own := fun s hs => List.mem_append.mpr (.inr hs)
  cases u with
  | load n image => exact hc.load n image
  | alloc n =>
    unfold use
    cases hr : h.classifier.alloc n with
    | error e => simpa only [hr] using hc
    | ok r => simpa only [hr] using (hc.alloc hr).perm List.perm_middle.symm
  | write s offset data =>
    unfold use
    by_cases hs : s ∈ h.own
    · cases hr : h.classifier.write s offset data with
      | error e => simpa only [hs, if_true, hr] using hc
      | ok c => simpa only [hs, if_true, hr] using hc.write (hheld s hs) hr
    · simpa only [hs, if_false] using hc
  | free s =>
    unfold use
    by_cases hs : s ∈ h.own
    · simpa only [hs, if_true, herase s hs] using hc.free (hheld s hs)
    · simpa only [hs, if_false] using hc
  | install n s =>
    unfold use
    by_cases hs : s ∈ h.own
    · simpa only [hs, if_true, herase s hs] using hc.install (hheld s hs) n
    · simpa only [hs, if_false] using hc
  | release n => exact hc.release n
  | markClean n => exact hc.markClean n
  | flush => exact hc.flush
  | clearCounts => exact hc.clearCacheCounts
  | lookup ip => exact hc.lookup ip

theorem consistent_foldl_use {h : Holding} (hc : h.classifier.Consistent h.own)
    (uses : List Use) :
    (uses.foldl use h).classifier.Consistent (uses.foldl use h).own := by
  induction uses generalizing h with
  | nil => exact hc
  | cons u uses ih => exact ih (consistent_use [] hc u)

/-- The invariant holds however the classifier was used. -/
theorem consistent_run (capacity : Nat) (uses : List Use) :
    (run capacity uses).classifier.Consistent (run capacity uses).own :=
  consistent_foldl_use (consistent_withCapacity capacity) uses

/-- Any number of look-ups leave the networks and the host tables as they are. -/
theorem foldl_lookup {c : Classifier} {own : List Slot} (hc : c.Consistent own)
    (ips : List Address) :
    (ips.foldl (fun c ip => (c.lookup ip).1) c).Consistent own ∧
      (ips.foldl (fun c ip => (c.lookup ip).1) c).networks = c.networks ∧
      (ips.foldl (fun c ip => (c.lookup ip).1) c).arena = c.arena := by
  induction ips generalizing c with
  | nil => exact ⟨hc, rfl, rfl⟩
  | cons ip ips ih =>
    obtain ⟨-, -, hn, ha⟩ := lookup_spec hc.agrees ip
    obtain ⟨hc', hn', ha'⟩ := ih (hc.lookup ip)
    exact ⟨hc', hn'.trans hn, ha'.trans ha⟩

/-- However the classifier was used, the class that is looked up is the byte at the
host's number in the host table that is installed for its network, and 0 where there
is none.  A look-up changes neither networks nor host tables, and whatever was
looked up before, the answer is the same. -/
theorem lookup_run (capacity : Nat) (uses : List Use) (ip : Address) :
    let c := (run capacity uses).classifier
    (c.lookup ip).2 = hostClass c.hostMap ip ∧
      (∀ n table, c.hostMap n = some table ↔ c.hostTable n = .ok table) ∧
      (∀ n, c.contains n = (c.hostMap n).isSome) ∧
      (c.lookup ip).1.networks = c.networks ∧ (c.lookup ip).1.arena = c.arena ∧
      ∀ (ips : List Address) (ip' : Address),
        ((ips.foldl (fun c i => (c.lookup i).1) c).lookup ip').2 = (c.lookup ip').2 := by
  intro c
  have hc : c.Consistent (run capacity uses).own := consistent_run capacity uses
  obtain ⟨hclass, -, hn, ha⟩ := lookup_spec hc.agrees ip
  refine ⟨hclass, fun n table => hostTable_eq_ok.symm, fun n => hc.sound.contains_eq n, hn, ha,
    fun ips ip' => ?_⟩
  obtain ⟨hc', hn', ha'⟩ := foldl_lookup hc ips
  rw [hc'.lookup_eq, hc.lookup_eq]
  congr 1
  funext n
  rw [hostMap_eq, hostMap_eq, hn', ha']

end Holding

end FilterBridge
