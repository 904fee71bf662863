import FilterBridge.Proofs.Acceptance
import FilterBridge.Proofs.Room

/-!
# Installing a network from an image

To install a network, a block is taken, filled and handed to the network table, and the
block that the network had before is given back last.  There are four reasons for which this
fails, and the first of them that holds is the one that is reported.  Whatever was taken by
then is given back, so a failure leaves no trace.

## Main definitions

* `Classifier.Unloadable` — why a network cannot be installed.

## Main results

* `Classifier.Sound.load_error_iff` — the error that is reported.
* `Classifier.unloadable_iff` — the four reasons.
* `Holding.load_run` — however a classifier was used, what installing a network does.
-/

namespace FilterBridge

/-- Only addresses of class B and C are on a network with a host table. -/
theorem Address.tableLen?_eq_none_iff {ip : Address} :
    ip.tableLen? = none ↔ ip.classOf ≠ .b ∧ ip.classOf ≠ .c := by
  unfold Address.tableLen? Address.split?
  cases ip.classOf <;> simp

namespace Classifier

variable {c : Classifier} {own : List Slot} {n : Address} {image : Bytes} {e : PolicyError}

/-! ### The reasons -/

/-- Why a network cannot be installed from an image; each reason counts only if those before
it do not hold. -/
inductive Unloadable (c : Classifier) (n : Address) (image : Bytes) : PolicyError → Prop
  /-- The address is on no network with a host table. -/
  | address (hlen : n.tableLen? = none) : Unloadable c n image (.unsupportedAddress n)
  /-- The image does not have a byte for each host. -/
  | length {len : Nat} (hlen : n.tableLen? = some len) (hne : image.length ≠ len) :
    Unloadable c n image (.malformed (.hostTableLength n image.length len))
  /-- The arena has too few free bytes. -/
  | memory (hlen : n.tableLen? = some image.length)
    (hfew : c.arena.available < image.length) : Unloadable c n image .outOfMemory
  /-- The network is not there, and all slots but the last are taken. -/
  | slots (hlen : n.tableLen? = some image.length) (hbytes : image.length ≤ c.arena.available)
    (hfull : c.networks.canInsert n = false) :
    Unloadable c n image (.tableFull ⟨c.networks.capacity⟩)

/-- Either there is a reason, or there are an address, a length, bytes and a slot as needed. -/
theorem unloadable_or (c : Classifier) (n : Address) (image : Bytes) :
    (∃ e, c.Unloadable n image e) ∨ n.tableLen? = some image.length ∧
      image.length ≤ c.arena.available ∧ c.networks.canInsert n = true := by
  cases hlen : n.tableLen? with
  | none => exact .inl ⟨_, .address hlen⟩
  | some len =>
    by_cases hne : image.length = len
    · subst hne
      rcases Nat.lt_or_ge c.arena.available image.length with hfew | hbytes
      · exact .inl ⟨_, .memory hlen hfew⟩
      · cases hroom : c.networks.canInsert n with
        | false => exact .inl ⟨_, .slots hlen hbytes hroom⟩
        | true => exact .inr ⟨rfl, hbytes, rfl⟩
    · exact .inl ⟨_, .length hlen hne⟩

/-- There is no room for a network if it is absent and only one slot is empty. -/
theorem Sound.canInsert_eq_false_iff (h : c.Sound own) : c.networks.canInsert n = false ↔
    c.contains n = false ∧ c.networks.toList.length + 1 = c.networks.capacity := by
  have hlt := h.networks.count_lt
  rw [← Bool.not_eq_true, NetworkTable.canInsert_iff h.networks, h.networks.length_eq, contains,
    NetworkTable.contains, not_or, Bool.not_eq_true]
  constructor
  · rintro ⟨hcount, habsent⟩
    exact ⟨habsent, by omega⟩
  · rintro ⟨habsent, hcount⟩
    exact ⟨by omega, habsent⟩

/-- The four reasons, each by itself. -/
theorem unloadable_iff (h : c.Sound own) : (∃ e, c.Unloadable n image e) ↔
    (n.classOf ≠ .b ∧ n.classOf ≠ .c) ∨ n.tableLen? ≠ some image.length ∨
      c.arena.available < image.length ∨
      (c.contains n = false ∧ c.networks.toList.length + 1 = c.networks.capacity) := by
  rw [← Address.tableLen?_eq_none_iff, ← h.canInsert_eq_false_iff]
  constructor
  · rintro ⟨e, hlen | ⟨hlen, hne⟩ | ⟨hlen, hfew⟩ | ⟨hlen, hbytes, hfull⟩⟩
    · exact .inl hlen
    · refine .inr (.inl ?_)
      rw [hlen]
      exact fun heq => hne (Option.some.inj heq).symm
    · exact .inr (.inr (.inl hfew))
    · exact .inr (.inr (.inr hfull))
  · intro hreason
    rcases unloadable_or c n image with hu | ⟨hlen, hbytes, hroom⟩
    · exact hu
    · -- none of the four holds
      rcases hreason with hnone | hne | hfew | hfull
      · rw [hnone] at hlen
        cases hlen
      · exact absurd hlen hne
      · omega
      · rw [hfull] at hroom
        cases hroom

/-! ### What loading does -/

/-- Where there is a reason, it is reported, and no byte stays in use. -/
theorem Unloadable.load_eq (hu : c.Unloadable n image e) (h : c.Sound own) :
    (c.load n image).2 = .error e ∧ (c.load n image).1.arena.inUse = c.arena.inUse := by
  cases hu with
  | address hlen => simp only [load, hlen, and_self]
  | length hlen hne => simp only [load, hlen, ne_eq, hne, not_false_eq_true, if_true, and_self]
  | memory hlen hfew =>
    have halloc : c.alloc n = .error .outOfMemory := by
      simp only [alloc, hlen, Arena.alloc, hfew, if_true]
    simp only [load, hlen, ne_eq, not_true_eq_false, if_false, halloc, and_self]
  | slots hlen hbytes hfull =>
    obtain ⟨c₂, s, hload, h₂, hnetworks, hsize, huse⟩ := h.exists_staged hlen hbytes
    have hinstall : c₂.install n s = (c₂.free s, .error ⟨c.networks.capacity⟩) := by
      simp only [install, NetworkTable.insert, hnetworks, hfull, Bool.false_eq_true, if_false]
    rw [hinstall] at hload
    rw [hload]
    -- the block that was taken is given back
    obtain ⟨-, -, -, hfree⟩ := Arena.release_spec h₂.arena s
    refine ⟨rfl, ?_⟩
    show (c₂.arena.release s).inUse = c.arena.inUse
    omega

namespace Sound

/-- Where nothing is in the way, a network is installed. -/
theorem load_eq_ok (h : c.Sound own) (hlen : n.tableLen? = some image.length)
    (hbytes : image.length ≤ c.arena.available) (hroom : c.networks.canInsert n = true) :
    (c.load n image).2 = .ok () := by
  obtain ⟨c₂, s, hload, -, hnetworks, -⟩ := h.exists_staged hlen hbytes
  obtain ⟨c₃, hinstall⟩ := exists_install (c := c₂) (hnetworks ▸ hroom) s
  rw [hload, hinstall]
  rfl

/-- An error is reported just when it is the reason. -/
theorem load_error_iff (h : c.Sound own) :
    (c.load n image).2 = .error e ↔ c.Unloadable n image e := by
  constructor
  · intro herr
    rcases unloadable_or c n image with ⟨e', hu⟩ | ⟨hlen, hbytes, hroom⟩
    · obtain rfl := Except.error.inj ((hu.load_eq h).1.symm.trans herr)
      exact hu
    · rw [h.load_eq_ok hlen hbytes hroom] at herr
      cases herr
  · intro hu
    exact (hu.load_eq h).1

end Sound

/-- Hosts are looked up as before where the host table of their network is the same. -/
theorem Consistent.lookup_congr {c' : Classifier} {own' : List Slot} (h : c.Consistent own)
    (h' : c'.Consistent own') {ip : Address}
    (hl : ∀ split, ip.split? = some split → c'.loaded? split.network = c.loaded? split.network) :
    (c'.lookup ip).2 = (c.lookup ip).2 := by
  rw [h.lookup_eq, h'.lookup_eq]
  unfold hostClass
  cases hsplit : ip.split? with
  | none => rfl
  | some split => simp only [hostMap_congr (hl split hsplit)]

end Classifier

namespace Holding

open Classifier

/-- However a classifier was used, a network cannot be installed from an image just when its
address is not of class B or C, or the image does not have a byte for each of its hosts, or
fewer bytes are free — the host table that the network has already counts as used — or the
network is not there and all slots but one are taken.  Then the networks, what is loaded for
them, all look-ups and the bytes in use are what they were.  Otherwise the image is the host
table of the network, which counts as persisted, and the other networks and their hosts are
what they were. -/
theorem load_run (capacity : Nat) (uses : List Use) (n : Address) (image : Bytes) :
    let c := (run capacity uses).classifier
    let c' := (c.load n image).1
    c.arena.available = c.arena.capacity - ((c.networks.toList.map (·.table) ++
        (run capacity uses).own).map c.arena.blockSize).sum ∧
      ((∃ e, (c.load n image).2 = .error e) ↔
        (n.classOf ≠ .b ∧ n.classOf ≠ .c) ∨ n.tableLen? ≠ some image.length ∨
          c.arena.available < image.length ∨
          (c.contains n = false ∧ c.networks.toList.length + 1 = c.networks.capacity)) ∧
      (∀ e, (c.load n image).2 = .error e → c.Unloadable n image e ∧
        c'.networks = c.networks ∧ (∀ m, c'.loaded? m = c.loaded? m) ∧
        (∀ m, c'.hostTable m = c.hostTable m) ∧
        (∀ ip, (c'.lookup ip).2 = (c.lookup ip).2) ∧ c'.arena.inUse = c.arena.inUse) ∧
      ((c.load n image).2 = .ok () → c'.hostTable n = .ok image ∧
        c'.loaded? n = some (image, false) ∧
        (∀ m, m ≠ n → c'.loaded? m = c.loaded? m ∧ c'.hostTable m = c.hostTable m) ∧
        ∀ ip, ip.split?.map (·.network) ≠ some n → (c'.lookup ip).2 = (c.lookup ip).2) := by
  intro c c'
  have h : c.Consistent (run capacity uses).own := consistent_run capacity uses
  have h' : c'.Consistent (run capacity uses).own := h.load n image
  refine ⟨?_, ?_, ?_, ?_⟩
  · rw [← h.sound.inUse_eq, Arena.available]
  · rw [← unloadable_iff h.sound]
    exact exists_congr fun e => h.sound.load_error_iff
  · intro e herr
    have hu := h.sound.load_error_iff.mp herr
    have hload : c.load n image = (c', .error e) := Prod.ext rfl herr
    obtain ⟨-, hloaded, hnetworks, -⟩ := h.sound.load_error hload
    exact ⟨hu, hnetworks, hloaded, fun m => h.sound.hostTable_congr h'.sound (hloaded m),
      fun ip => h.lookup_congr h' fun split _ => hloaded split.network, (hu.load_eq h.sound).2⟩
  · intro hok
    have hload : c.load n image = (c', .ok ()) := Prod.ext rfl hok
    obtain ⟨-, -, hloaded, -⟩ := h.sound.load_ok hload
    have hself : c'.loaded? n = some (image, false) := (hloaded n).trans (if_pos rfl)
    have hother : ∀ m, m ≠ n → c'.loaded? m = c.loaded? m := fun m hm =>
      (hloaded m).trans (if_neg hm)
    refine ⟨hostTable_eq_ok.mpr (by rw [hostMap, hself]; rfl), hself, ?_, ?_⟩
    · intro m hm
      exact ⟨hother m hm, h.sound.hostTable_congr h'.sound (hother m hm)⟩
    · intro ip hip
      refine h.lookup_congr h' fun split hsplit => hother split.network ?_
      rintro rfl
      exact hip (by rw [hsplit]; rfl)

end Holding

end FilterBridge
