import FilterBridge.Proofs.Transactions

/-!
# Room for networks

The network table and the arena are bounded, and no operation moves the bounds.  So
whatever is loaded at one time can be loaded again, in any order, into a classifier
that knows no network and has the same bounds.

## Main definitions

* `Classifier.bounds` — how many slots the network table has, and how many bytes the
  arena.
* `Classifier.Unmoved` — a view of the classifier that loading does not change.
* `Classifier.loadResult` — how the loading of a network ends.
* `Classifier.loadAll` — load networks one after another.

## Main results

* `Uploads.apply_left`, `Uploads.apply_bounds` — a part of a table changes neither such a
  view nor the counters, and so does not move the bounds.
* `Classifier.Sound.sum_length_le`, `Classifier.Sound.length_le_count` — what is loaded
  fits.
* `Classifier.Sound.exists_staged` — where there is room, only the network table can refuse.
* `Classifier.Sound.loadAll_spec` — what loading networks does.
* `Classifier.Sound.exists_loadAll` — networks can be loaded if there is room.
-/

namespace FilterBridge

namespace NetworkTable

variable {t t' : NetworkTable} {n : Address} {e : NetworkEntry}

theorem capacity_place (t : NetworkTable) (n : Address) (table : Slot) :
    (t.place n table).1.capacity = t.capacity := by
  unfold place
  cases t.position? n with
  | some i => exact capacity_setSlot t i _
  | none => exact capacity_setSlot t _ (some ⟨n, table, true⟩)

/-- A network that comes new takes one slot. -/
theorem count_place_of_absent (h : t.WellFormed) (hn : t.get? n = none) (table : Slot) :
    (t.place n table).1.count = t.count + 1 := by
  have hp : t.position? n = none := by
    have := position?_isSome h n
    rwa [hn, Option.isSome_none, Option.isSome_eq_false_iff, Option.isNone_iff_eq_none] at this
  rw [place_of_absent hp]
  rfl

theorem capacity_closeGap (fuel hole i : Nat) (t : NetworkTable) :
    (t.closeGap fuel hole i).capacity = t.capacity := by
  induction fuel generalizing hole i t with
  | zero => rfl
  | succ fuel ih =>
    rw [closeGap]
    cases t.slot (t.next i) with
    | none => rfl
    | some e =>
      simp only
      split
      · exact ih hole _ t
      · -- moving an entry sets two slots
        rw [ih, capacity_setSlot, capacity_setSlot]

theorem capacity_erase? (hr : t.erase? n = some (t', e)) : t'.capacity = t.capacity := by
  simp only [erase?, bind, Option.bind_eq_some_iff, pure, Option.some.injEq, Prod.mk.injEq] at hr
  obtain ⟨i, -, a, -, rfl, -⟩ := hr
  rw [capacity_closeGap]
  exact capacity_setSlot t i none

end NetworkTable

namespace Arena

variable {a a' : Arena} {slot : Slot}

theorem capacity_alloc {size : Nat} (hr : a.alloc size = .ok (a', slot)) :
    a'.capacity = a.capacity := by
  unfold alloc at hr
  split at hr
  · simp at hr
  · cases hf : a.free with
    | nil =>
      simp only [hf, Except.ok.injEq, Prod.mk.injEq] at hr
      rw [← hr.1]
    | cons s rest =>
      simp only [hf, Except.ok.injEq, Prod.mk.injEq] at hr
      rw [← hr.1]

theorem capacity_release (a : Arena) (slot : Slot) : (a.release slot).capacity = a.capacity := by
  unfold release
  cases a.block? slot <;> rfl

end Arena

/-! ### The bounds -/

namespace Classifier

variable {c c' : Classifier} {n : Address} {s : Slot}

/-- How many slots the network table has, and how many bytes the arena. -/
def bounds (c : Classifier) : Nat × Nat := (c.networks.capacity, c.arena.capacity)

theorem bounds_alloc (hr : c.alloc n = .ok (c', s)) : c'.bounds = c.bounds := by
  unfold alloc at hr
  cases hlen : n.tableLen? with
  | none => simp [hlen] at hr
  | some len =>
    cases ha : c.arena.alloc len with
    | error e => simp [hlen, ha] at hr
    | ok r =>
      simp only [hlen, ha, Except.ok.injEq, Prod.mk.injEq] at hr
      rw [← hr.1, bounds, bounds, Arena.capacity_alloc ha]

theorem bounds_write {offset : Nat} {data : Bytes} (hr : c.write s offset data = .ok c') :
    c'.bounds = c.bounds := by
  simp only [write, bind, Except.bind, pure, Except.pure] at hr
  cases ha : c.arena.write s offset data with
  | error e => simp [ha] at hr
  | ok arena =>
    obtain ⟨b, -, rfl⟩ := Arena.write_eq_ok.mp ha
    simp only [ha, Except.ok.injEq] at hr
    rw [← hr]
    rfl

@[simp] theorem bounds_free (c : Classifier) (s : Slot) : (c.free s).bounds = c.bounds := by
  rw [bounds, free, Arena.capacity_release, bounds]

@[simp] theorem bounds_install (c : Classifier) (n : Address) (s : Slot) :
    (c.install n s).1.bounds = c.bounds := by
  have hcap := NetworkTable.capacity_place c.networks n s
  unfold install NetworkTable.insert
  split
  · exact bounds_free c s
  · rename_i networks heq
    split at heq
    · rw [Except.ok.injEq] at heq
      rw [heq] at hcap
      exact Prod.ext hcap rfl
    · simp at heq
  · rename_i networks old heq
    split at heq
    · rw [Except.ok.injEq] at heq
      rw [heq] at hcap
      exact Prod.ext hcap (Arena.capacity_release ..)
    · simp at heq

@[simp] theorem bounds_markClean (c : Classifier) (n : Address) :
    (c.markClean n).bounds = c.bounds :=
  Prod.ext (NetworkTable.capacity_setDirty ..) rfl

@[simp] theorem bounds_release (c : Classifier) (n : Address) :
    (c.release n).1.bounds = c.bounds := by
  unfold release
  cases he : c.networks.erase? n with
  | none => rfl
  | some r => exact Prod.ext (NetworkTable.capacity_erase? he) (Arena.capacity_release ..)

/-! ### What loading leaves alone -/

/-- What `view` shows of a classifier does not change while host tables are taken, written,
given back and installed, and networks marked as persisted. -/
structure Unmoved {α : Type} (view : Classifier → α) : Prop where
  /-- Taking a host table does not change it. -/
  alloc {c c' : Classifier} {n : Address} {s : Slot} (hr : c.alloc n = .ok (c', s)) :
    view c' = view c
  /-- Nor does writing into one. -/
  write {c c' : Classifier} {s : Slot} {offset : Nat} {data : Bytes}
    (hr : c.write s offset data = .ok c') : view c' = view c
  /-- Nor does giving one back. -/
  free (c : Classifier) (s : Slot) : view (c.free s) = view c
  /-- Nor does installing one. -/
  install (c : Classifier) (n : Address) (s : Slot) : view (c.install n s).1 = view c
  /-- Nor does marking a network. -/
  markClean (c : Classifier) (n : Address) : view (c.markClean n) = view c

theorem bounds_unmoved : Unmoved bounds where
  alloc := bounds_alloc
  write := bounds_write
  free := bounds_free
  install := bounds_install
  markClean := bounds_markClean

theorem Unmoved.load {α : Type} {view : Classifier → α} (hv : Unmoved view) (c : Classifier)
    (n : Address) (image : Bytes) : view (c.load n image).1 = view c := by
  unfold Classifier.load
  cases n.tableLen? with
  | none => rfl
  | some len =>
    simp only
    split
    · rfl
    cases ha : c.alloc n with
    | error e => rfl
    | ok r =>
      obtain ⟨c₁, s⟩ := r
      have h₁ := hv.alloc ha
      simp only
      cases hw : c₁.write s 0 image with
      | error e => exact (hv.free c₁ s).trans h₁
      | ok c₂ =>
        have h₂ := (hv.write hw).trans h₁
        have h₃ := (hv.install c₂ n s).trans h₂
        simp only
        rcases hi : c₂.install n s with ⟨c₃, e | u⟩
        · rwa [hi] at h₃
        · rw [hi] at h₃
          exact (hv.markClean c₃ n).trans h₃

@[simp] theorem bounds_load (c : Classifier) (n : Address) (image : Bytes) :
    (c.load n image).1.bounds = c.bounds := bounds_unmoved.load c n image

end Classifier

/-- What loading leaves alone: what `view` shows of the classifier, and the counters. -/
def Firewall.left {α : Type} (view : Classifier → α) (f : Firewall) : α × Counters :=
  (view f.classifier, f.counters)

namespace Uploads

variable {α : Type} {view : Classifier → α}

theorem abort_left (hv : Classifier.Unmoved view) (u : Uploads) (f : Firewall)
    (kind : TableKind) : (u.abort f kind).2.left view = f.left view := by
  cases kind with
  | network =>
    rw [abort, abortNetwork]
    cases u.network with
    | none => rfl
    | some up => exact Prod.ext (hv.free f.classifier up.slot) rfl
  | _ => rfl

private theorem beginNetwork_left (hv : Classifier.Unmoved view) (u : Uploads) (f : Firewall)
    (n : Address) : (u.beginNetwork f n).2.1.left view = f.left view := by
  have habort := abort_left hv u f .network
  rw [abort] at habort
  unfold beginNetwork
  rcases hb : u.abortNetwork f with ⟨u₁, f₁⟩
  rw [hb] at habort
  cases ha : f₁.classifier.alloc n with
  | error e => cases e <;> simpa only [ha] using habort
  | ok r =>
    have halloc : Firewall.left view { f₁ with classifier := r.1 } = f₁.left view :=
      Prod.ext (hv.alloc ha) rfl
    simpa only [ha] using halloc.trans habort

private theorem endNetwork_left (hv : Classifier.Unmoved view) (u : Uploads) (f : Firewall)
    (up : HostUpload) : (u.endNetwork f up).2.1.left view = f.left view := by
  have hi := hv.install f.classifier up.network up.slot
  unfold endNetwork
  rcases hr : f.classifier.install up.network up.slot with ⟨c, e | ⟨⟩⟩
  all_goals
    rw [hr] at hi
    exact Prod.ext hi rfl

private theorem continueNetwork_left (hv : Classifier.Unmoved view) (u : Uploads)
    (f : Firewall) (part : Fragment) :
    (u.continueNetwork f part).2.1.left view = f.left view := by
  unfold continueNetwork
  cases u.network.filter (·.network = part.index) with
  | none => rfl
  | some up =>
    simp only
    cases hw : f.classifier.write up.slot part.offset.toNat part.data with
    | error e => rfl
    | ok c =>
      have hb : Firewall.left view { f with classifier := c } = f.left view :=
        Prod.ext (hv.write hw) rfl
      simp only
      split
      · exact (endNetwork_left hv u { f with classifier := c } up).trans hb
      · exact hb

private theorem applyNetwork_left (hv : Classifier.Unmoved view) (u : Uploads) (f : Firewall)
    (part : Fragment) : (u.applyNetwork f part).2.1.left view = f.left view := by
  unfold applyNetwork
  split
  · rfl
  split
  · have hb := beginNetwork_left hv u f part.index
    rcases hr : u.beginNetwork f part.index with ⟨u', f', e | ⟨⟩⟩
    · rwa [hr] at hb
    · rw [hr] at hb
      exact (continueNetwork_left hv u' f' part).trans hb
  · exact continueNetwork_left hv u f part

private theorem applyImage_left (u : Uploads) (f : Firewall) (k : ImageKind)
    (part : Fragment) : (u.applyImage f k part).2.1.left view = f.left view := by
  -- only the policy changes, and only at the end
  unfold applyImage continueImage endImage
  simp only
  split
  · rfl
  split
  · rfl
  split
  · rfl
  split
  · split <;> rfl
  · rfl

private theorem applyKind_left (hv : Classifier.Unmoved view) (u : Uploads) (f : Firewall)
    (kind : TableKind) (part : Fragment) :
    (u.applyKind f kind part).2.1.left view = f.left view := by
  unfold applyKind
  split
  · rfl
  · cases kind with
    | network => exact applyNetwork_left hv u f part
    | classRules => exact applyImage_left u f .classRules part
    | reject => exact applyImage_left u f .reject part
    | allow => exact applyImage_left u f .allow part

/-- Taking a part of a table leaves alone what loading leaves alone. -/
theorem apply_left (hv : Classifier.Unmoved view) (u : Uploads) (f : Firewall)
    (part : Fragment) : (u.apply f part).2.1.left view = f.left view := by
  unfold apply
  cases TableKind.ofByte? part.kind with
  | none => rfl
  | some kind =>
    have hb := applyKind_left hv u f kind part
    simp only
    rcases hr : u.applyKind f kind part with ⟨u₁, f₁, e | ⟨⟩⟩
    · rw [hr] at hb
      exact (abort_left hv u₁ f₁ kind).trans hb
    · rwa [hr] at hb

theorem abort_bounds (u : Uploads) (f : Firewall) (kind : TableKind) :
    (u.abort f kind).2.classifier.bounds = f.classifier.bounds :=
  congrArg Prod.fst (abort_left Classifier.bounds_unmoved u f kind)

/-- A part of a table does not move the bounds. -/
theorem apply_bounds (u : Uploads) (f : Firewall) (part : Fragment) :
    (u.apply f part).2.1.classifier.bounds = f.classifier.bounds :=
  congrArg Prod.fst (apply_left Classifier.bounds_unmoved u f part)

end Uploads

namespace Classifier

variable {c c' : Classifier} {own : List Slot} {n : Address} {ns : List (Address × Bytes)}

/-! ### What is loaded fits -/

/-- The host tables of different networks have no more bytes than are in use. -/
theorem Sound.sum_length_le (h : c.Sound own) (hn : (ns.map (·.1)).Nodup)
    (hmem : ∀ x ∈ ns, c.hostMap x.1 = some x.2) :
    (ns.map (·.2.length)).sum ≤ c.arena.inUse := by
  have hentry : ∀ x ∈ ns, ∃ e, c.networks.get? x.1 = some e ∧
      c.arena.block? e.table = some x.2 := by
    intro x hx
    have := hmem x hx
    rwa [hostMap_eq, Option.bind_eq_some_iff] at this
  -- the slot of a network's host table
  let slotOf : Address × Bytes → Slot := fun x => ((c.networks.get? x.1).map (·.table)).getD 0
  have hslot : ∀ x ∈ ns, c.arena.blockSize (slotOf x) = x.2.length := by
    intro x hx
    obtain ⟨e, he, hb⟩ := hentry x hx
    simp only [slotOf, he, Option.map_some, Option.getD_some]
    exact Arena.blockSize_of_block? hb
  -- no two networks share a block, so no bytes are counted twice
  have hnodup : (ns.map slotOf).Nodup := by
    refine List.Nodup.map_on ?_ hn.of_map
    intro x hx y hy heq
    obtain ⟨e, he, -⟩ := hentry x hx
    obtain ⟨e', he', -⟩ := hentry y hy
    simp only [slotOf, he, he', Option.map_some, Option.getD_some] at heq
    have := h.injective x.1 y.1 e e' he he' heq
    exact List.inj_on_of_nodup_map hn hx hy this
  have hle := h.arena.sum_blockSize_le hnodup
  rwa [List.map_map, List.map_congr_left (g := fun x => x.2.length) hslot] at hle

/-- Different networks that are loaded are no more than the table counts. -/
theorem Sound.length_le_count (h : c.Sound own) (hn : (ns.map (·.1)).Nodup)
    (hmem : ∀ x ∈ ns, c.hostMap x.1 = some x.2) : ns.length ≤ c.networks.count := by
  -- every network has its own entry
  have hsub : ns.map (·.1) ⊆ c.networks.toList.map (·.network) := by
    intro n hmemn
    obtain ⟨x, hx, rfl⟩ := List.mem_map.mp hmemn
    have := hmem x hx
    rw [hostMap_eq, Option.bind_eq_some_iff] at this
    obtain ⟨e, he, -⟩ := this
    obtain ⟨hin, heq⟩ := (NetworkTable.get?_eq_some_iff h.networks).mp he
    exact List.mem_map.mpr ⟨e, hin, heq⟩
  have hle := (hn.subperm hsub).length_le
  rwa [List.length_map, List.length_map, h.networks.length_eq] at hle

/-! ### Loading networks -/

/-- How the loading of a network ends, by whether its host table could be installed. -/
def loadResult (n : Address) :
    Classifier × Except TableFull Unit → Classifier × Except PolicyError Unit
  | (c, .error e) => (c, .error (.tableFull e))
  | (c, .ok ()) => (c.markClean n, .ok ())

/-- Where there is room, a host table is taken and filled with an image, and what remains is
to install it. -/
theorem Sound.exists_staged {image : Bytes} (h : c.Sound own)
    (hlen : n.tableLen? = some image.length) (hbytes : image.length ≤ c.arena.available) :
    ∃ (c₂ : Classifier) (s : Slot), c.load n image = loadResult n (c₂.install n s) ∧
      c₂.Sound (s :: own) ∧ c₂.networks = c.networks ∧
      c₂.arena.blockSize s = image.length ∧
      c₂.arena.inUse = c.arena.inUse + image.length := by
  obtain ⟨arena, s, ha⟩ := Arena.exists_alloc hbytes
  obtain ⟨hwf, -, hb, -, huse⟩ := Arena.alloc_spec h.arena ha
  have hblock : arena.block? s = some (Bytes.zeros image.length) := by rw [hb, if_pos rfl]
  obtain ⟨arena', hw⟩ : ∃ arena', arena.write s 0 image = .ok arena' :=
    ⟨_, Arena.write_eq_ok.mpr ⟨_, ⟨hblock, by simp⟩, rfl⟩⟩
  obtain ⟨-, b, ⟨hb', hle⟩, hb₂, -, huse₂⟩ := Arena.write_spec hwf hw
  have hca : c.alloc n = .ok ({ c with arena }, s) := by
    simp only [Classifier.alloc, hlen, ha]
  have hcw : { c with arena }.write s 0 image = .ok { c with arena := arena' } := by
    simp only [Classifier.write, hw, bind, Except.bind, pure, Except.pure]
  obtain ⟨h₁, -⟩ := h.alloc hca hlen
  obtain ⟨h₂, -⟩ := h₁.write (by simp) hcw
  refine ⟨{ c with arena := arena' }, s, ?_, h₂, rfl, ?_, huse₂.trans huse⟩
  · simp only [load, hlen, ne_eq, not_true_eq_false, if_false, hca, hcw]
    rfl
  · rw [hblock, Option.some.injEq] at hb'
    subst hb'
    rw [Arena.blockSize_of_block? ((hb₂ s).trans (if_pos rfl)), Bytes.length_overlay hle]
    simp

/-- A network that is not loaded can be loaded if there is room, which it takes. -/
theorem Sound.load_fresh {image : Bytes} (h : c.Sound own) (hn : c.loaded? n = none)
    (hlen : n.tableLen? = some image.length) (hbytes : image.length ≤ c.arena.available)
    (hslot : c.networks.count + 1 < c.networks.capacity) :
    ∃ c', c.load n image = (c', .ok ()) ∧ c'.networks.count = c.networks.count + 1 ∧
      c'.arena.inUse = c.arena.inUse + image.length := by
  have habsent := h.loaded?_eq_none_iff.mp hn
  have hroom : c.networks.canInsert n = true :=
    (NetworkTable.canInsert_iff h.networks).mpr (.inl hslot)
  obtain ⟨c₂, s, hload, -, hnetworks, -, huse⟩ := h.exists_staged hlen hbytes
  have hold := (NetworkTable.place_spec h.networks hroom s).2.2.1
  have hcount := NetworkTable.count_place_of_absent h.networks habsent s
  rcases hp : c.networks.place n s with ⟨networks, old⟩
  rw [hp] at hold hcount
  simp only [habsent, Option.map_none] at hold
  subst hold
  have hinstall : c₂.install n s = ({ c₂ with networks }.flush, .ok ()) := by
    simp only [Classifier.install, NetworkTable.insert, hnetworks, hroom, if_true, hp]
  rw [hinstall] at hload
  exact ⟨_, hload, (NetworkTable.count_setDirty ..).trans hcount, huse⟩

/-- Load networks one after another; `none` if one of them cannot be loaded. -/
def loadAll (c : Classifier) : List (Address × Bytes) → Option Classifier
  | [] => some c
  | x :: rest =>
    match c.load x.1 x.2 with
    | (c, .ok ()) => c.loadAll rest
    | (_, .error _) => none

/-- What is loaded after different networks were loaded. -/
theorem Consistent.loadAll_spec (h : c.Consistent own) (hn : (ns.map (·.1)).Nodup)
    (hr : c.loadAll ns = some c') :
    c'.Consistent own ∧ (∀ x ∈ ns, x.1.tableLen? = some x.2.length) ∧ c'.bounds = c.bounds ∧
      ∀ n, c'.loaded? n = ((ns.lookup n).map fun table => (table, false)).or (c.loaded? n) := by
  induction ns generalizing c with
  | nil =>
    obtain rfl := Option.some.inj hr
    exact ⟨h, by simp, rfl, fun n => by simp⟩
  | cons x ns ih =>
    unfold loadAll at hr
    rcases hl : c.load x.1 x.2 with ⟨c₁, e | ⟨⟩⟩
    · simp [hl] at hr
    · simp only [hl] at hr
      rw [List.map_cons, List.nodup_cons] at hn
      have h₁ : c₁.Consistent own := by
        have := h.load x.1 x.2
        rwa [hl] at this
      have hb₁ : c₁.bounds = c.bounds := by
        have := bounds_load c x.1 x.2
        rwa [hl] at this
      obtain ⟨-, hlen, hloaded, -⟩ := h.sound.load_ok hl
      obtain ⟨h₂, hlens, hb₂, hall⟩ := ih h₁ hn.2 hr
      refine ⟨h₂, List.forall_mem_cons.mpr ⟨hlen, hlens⟩, hb₂.trans hb₁, fun n => ?_⟩
      rw [hall, hloaded, List.lookup_cons]
      by_cases hx : n = x.1
      · subst hx
        -- no later network replaces it
        have : ns.lookup x.1 = none := by
          rw [List.lookup_eq_none_iff]
          intro y hy
          have hne : x.1 ≠ y.1 := fun heq => hn.1 (heq ▸ List.mem_map_of_mem hy)
          simpa using hne
        simp [this]
      · have : (n == x.1) = false := by simpa using hx
        simp [this, hx]

/-- Different networks can be loaded if there is room for all of them. -/
theorem Consistent.exists_loadAll (h : c.Consistent own) (hn : (ns.map (·.1)).Nodup)
    (hfresh : ∀ x ∈ ns, c.loaded? x.1 = none)
    (hlen : ∀ x ∈ ns, x.1.tableLen? = some x.2.length)
    (hbytes : c.arena.inUse + (ns.map (·.2.length)).sum ≤ c.arena.capacity)
    (hslots : c.networks.count + ns.length < c.networks.capacity) :
    ∃ c', c.loadAll ns = some c' := by
  induction ns generalizing c with
  | nil => exact ⟨c, rfl⟩
  | cons x ns ih =>
    rw [List.map_cons, List.nodup_cons] at hn
    rw [List.map_cons, List.sum_cons] at hbytes
    rw [List.length_cons] at hslots
    have hx := List.mem_cons_self (a := x) (l := ns)
    have hroom : x.2.length ≤ c.arena.available := by
      unfold Arena.available
      omega
    obtain ⟨c₁, hl, hcount, huse⟩ :=
      h.sound.load_fresh (hfresh x hx) (hlen x hx) hroom (by omega)
    have h₁ : c₁.Consistent own := by
      have := h.load x.1 x.2
      rwa [hl] at this
    obtain ⟨hcap, hcap'⟩ : c₁.networks.capacity = c.networks.capacity ∧
        c₁.arena.capacity = c.arena.capacity := by
      have := bounds_load c x.1 x.2
      rw [hl] at this
      exact Prod.mk.inj this
    obtain ⟨-, -, hloaded, -⟩ := h.sound.load_ok hl
    simp only [loadAll, hl]
    -- the first network took what it needs, and left room for the others
    refine ih h₁ hn.2 (fun y hy => ?_) (fun y hy => hlen y (List.mem_cons_of_mem x hy))
      (by omega) (by omega)
    rw [hloaded, if_neg, hfresh y (List.mem_cons_of_mem x hy)]
    exact fun heq => hn.1 (heq ▸ List.mem_map_of_mem hy)

end Classifier

end FilterBridge
