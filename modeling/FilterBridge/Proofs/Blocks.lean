import FilterBridge.Arena
import Mathlib.Algebra.BigOperators.Group.Finset.Basic
import Mathlib.Algebra.GroupWithZero.Nat
import Mathlib.Algebra.Order.BigOperators.Group.Finset

/-!
# The arena is a map from slots to blocks

Taking, giving back and writing a block change the block of one slot and leave
those of all others alone.  A slot is taken only while it is empty, so no block is
handed out twice, and the bytes in use are those of the blocks together.

## Main definitions

* `Arena.blockSize` — the length of the block in a slot, 0 if there is none.
* `Arena.WellFormed` — the invariant.

## Main results

* `Arena.alloc_spec`, `Arena.release_spec`, `Arena.write_spec` — what each
  operation does to the blocks, and that it keeps the invariant.
* `Arena.WellFormed.sum_blockSize_le`, `Arena.WellFormed.sum_blockSize_eq` — blocks in
  different slots have no more bytes together than are in use, and all blocks have as many.
-/

namespace FilterBridge

namespace Arena

variable {a a' : Arena} {slot : Slot}

/-! ### The invariant -/

/-- The length of the block in a slot, 0 if there is none. -/
def blockSize (a : Arena) (slot : Slot) : Nat := ((a.block? slot).map List.length).getD 0

/-- The free slots are the empty ones, and the bytes in use are counted. -/
structure WellFormed (a : Arena) : Prop where
  /-- No slot is free twice. -/
  nodup_free : a.free.Nodup
  /-- The free slots are the empty ones. -/
  mem_free : ∀ s, s ∈ a.free ↔ s < a.blocks.size ∧ a.block? s = none
  /-- The bytes of all blocks are in use. -/
  inUse_eq : a.inUse = ∑ s ∈ Finset.range a.blocks.size, a.blockSize s
  /-- No more are in use than there are. -/
  inUse_le : a.inUse ≤ a.capacity

theorem block?_lt {b : Bytes} (h : a.block? slot = some b) : slot < a.blocks.size := by
  unfold block? at h
  rcases Nat.lt_or_ge slot a.blocks.size with hi | hi
  · exact hi
  · rw [Array.getElem?_eq_none hi] at h
    simp at h

theorem blockSize_of_block? {b : Bytes} (h : a.block? slot = some b) :
    a.blockSize slot = b.length := by
  simp [blockSize, h]

theorem wellFormed_empty (capacity : Nat) : ({ capacity } : Arena).WellFormed where
  nodup_free := List.nodup_nil
  mem_free := by simp
  inUse_eq := by simp
  inUse_le := Nat.zero_le _

@[simp] theorem block?_empty (capacity : Nat) (slot : Slot) :
    ({ capacity } : Arena).block? slot = none := by
  simp [block?]

/-- The blocks in different slots have no more bytes than are in use. -/
theorem WellFormed.sum_blockSize_le (h : a.WellFormed) {slots : List Slot} (hn : slots.Nodup) :
    (slots.map a.blockSize).sum ≤ a.inUse := by
  have hout : ∀ s, s ∉ Finset.range a.blocks.size → a.blockSize s = 0 := by
    intro s hs
    have hs' : a.blocks.size ≤ s := by simpa using hs
    simp [blockSize, block?, Array.getElem?_eq_none hs']
  rw [h.inUse_eq, ← List.sum_toFinset _ hn]
  calc ∑ s ∈ slots.toFinset, a.blockSize s
      ≤ ∑ s ∈ slots.toFinset ∪ Finset.range a.blocks.size, a.blockSize s :=
        Finset.sum_le_sum_of_subset Finset.subset_union_left
    _ = ∑ s ∈ Finset.range a.blocks.size, a.blockSize s :=
        (Finset.sum_subset Finset.subset_union_right fun s _ hs => hout s hs).symm

/-- Slots that hold all blocks hold all the bytes that are in use. -/
theorem WellFormed.sum_blockSize_eq (h : a.WellFormed) {slots : List Slot} (hn : slots.Nodup)
    (hall : ∀ s, (a.block? s).isSome → s ∈ slots) : (slots.map a.blockSize).sum = a.inUse := by
  apply Nat.le_antisymm (h.sum_blockSize_le hn)
  have hout : ∀ s, s ∉ slots.toFinset → a.blockSize s = 0 := by
    intro s hs
    have hnone : a.block? s = none := by
      by_contra hb
      exact hs (List.mem_toFinset.mpr (hall s (Option.isSome_iff_ne_none.mpr hb)))
    rw [blockSize, hnone, Option.map_none, Option.getD_none]
  rw [h.inUse_eq, ← List.sum_toFinset _ hn]
  calc ∑ s ∈ Finset.range a.blocks.size, a.blockSize s
      ≤ ∑ s ∈ Finset.range a.blocks.size ∪ slots.toFinset, a.blockSize s :=
        Finset.sum_le_sum_of_subset Finset.subset_union_left
    _ = ∑ s ∈ slots.toFinset, a.blockSize s :=
        (Finset.sum_subset Finset.subset_union_right fun s _ hs => hout s hs).symm

/-! ### Changing the block of one slot -/

theorem block?_setIfInBounds {i : Nat} (hi : i < a.blocks.size) {o : Option Bytes}
    (hb : a'.blocks = a.blocks.setIfInBounds i o) (s : Slot) :
    a'.block? s = if s = i then o else a.block? s := by
  unfold block?
  rw [hb]
  by_cases hs : i = s
  · subst hs
    simp [Array.getElem?_setIfInBounds_self_of_lt hi]
  · simp [Array.getElem?_setIfInBounds_ne hs, Ne.symm hs]

/-- When the block of one slot changes, the bytes of all blocks change by the
difference of the lengths. -/
private theorem sum_update {k i : Nat} (hi : i < k) {f g : Nat → Nat}
    (hfg : ∀ s, s ≠ i → f s = g s) :
    ∑ s ∈ Finset.range k, f s + g i = ∑ s ∈ Finset.range k, g s + f i := by
  have hmem : i ∈ Finset.range k := Finset.mem_range.mpr hi
  rw [← Finset.add_sum_erase _ f hmem, ← Finset.add_sum_erase _ g hmem]
  have heq : ∑ s ∈ (Finset.range k).erase i, f s = ∑ s ∈ (Finset.range k).erase i, g s :=
    Finset.sum_congr rfl fun s hs => hfg s (Finset.ne_of_mem_erase hs)
  omega

/-- An arena whose blocks differ in one slot is as good as before if that slot is
free when it is empty, and the bytes in use are counted anew. -/
theorem WellFormed.update (h : a.WellFormed) {i : Nat} (hi : i < a.blocks.size)
    {o : Option Bytes} (hblocks : a'.blocks = a.blocks.setIfInBounds i o)
    (hnodup : a'.free.Nodup) (hfree : ∀ s, s ∈ a'.free ↔ if s = i then o = none else s ∈ a.free)
    (huse : a'.inUse + a.blockSize i = a.inUse + (o.map List.length).getD 0)
    (hle : a'.inUse ≤ a'.capacity) : a'.WellFormed := by
  have hb := block?_setIfInBounds hi hblocks
  have hsize : a'.blocks.size = a.blocks.size := by rw [hblocks, Array.size_setIfInBounds]
  refine ⟨hnodup, fun s => ?_, ?_, hle⟩
  · rw [hfree, hb, hsize]
    by_cases hs : s = i
    · simp [hs, hi]
    · simpa [hs] using h.mem_free s
  · -- the other blocks keep their lengths
    have hsum := sum_update hi (f := a'.blockSize) (g := a.blockSize) fun s hs => by
      rw [blockSize, hb, if_neg hs, blockSize]
    have hnew : a'.blockSize i = (o.map List.length).getD 0 := by
      rw [blockSize, hb, if_pos rfl]
    have := h.inUse_eq
    rw [hsize]
    omega

/-! ### Operations -/

theorem exists_alloc {size : Nat} (hs : size ≤ a.available) :
    ∃ a' slot, a.alloc size = .ok (a', slot) := by
  unfold alloc
  rw [if_neg (by omega)]
  cases a.free with
  | nil => exact ⟨_, _, rfl⟩
  | cons s rest => exact ⟨_, _, rfl⟩

/-- Blocks may grow while no slot is free. -/
theorem WellFormed.push (h : a.WellFormed) (hf : a.free = []) {b : Bytes}
    (hblocks : a'.blocks = a.blocks.push (some b)) (hfree : a'.free = [])
    (huse : a'.inUse = a.inUse + b.length) (hle : a'.inUse ≤ a'.capacity) :
    a'.WellFormed ∧ ∀ s, a'.block? s = if s = a.blocks.size then some b else a.block? s := by
  have hb : ∀ s, a'.block? s = if s = a.blocks.size then some b else a.block? s := by
    intro s
    unfold block?
    rw [hblocks]
    by_cases hs : s = a.blocks.size
    · simp [hs]
    · simp [Array.getElem?_push, hs]
  refine ⟨⟨by simp [hfree], fun s => ?_, ?_, hle⟩, hb⟩
  · -- no slot is empty, neither before nor now
    have hm := h.mem_free s
    rw [hf, List.mem_nil_iff] at hm
    rw [hfree, hb, hblocks, Array.size_push, List.mem_nil_iff]
    by_cases hs : s = a.blocks.size
    · simp [hs]
    · rw [if_neg hs]
      constructor
      · exact False.elim
      · rintro ⟨hlt, hn⟩
        exact hm.mpr ⟨Nat.lt_of_le_of_ne (Nat.le_of_lt_succ hlt) hs, hn⟩
  · have hold : ∑ s ∈ Finset.range a.blocks.size, a'.blockSize s = a.inUse := by
      rw [h.inUse_eq]
      refine Finset.sum_congr rfl fun s hs => ?_
      have hlt := Finset.mem_range.mp hs
      rw [blockSize, hb, if_neg (Nat.ne_of_lt hlt), blockSize]
    rw [hblocks, Array.size_push, Finset.sum_range_succ, hold, huse, blockSize, hb, if_pos rfl]
    simp

/-- A block is taken in an empty slot, and is all zeros. -/
theorem alloc_spec {size : Nat} (h : a.WellFormed) (hr : a.alloc size = .ok (a', slot)) :
    a'.WellFormed ∧ a.block? slot = none ∧
      (∀ s, a'.block? s = if s = slot then some (Bytes.zeros size) else a.block? s) ∧
      a'.capacity = a.capacity ∧ a'.inUse = a.inUse + size := by
  have hle := h.inUse_le
  unfold alloc at hr
  by_cases hs : a.available < size
  · simp [hs] at hr
  rw [if_neg hs] at hr
  unfold available at hs
  have hroom : a.inUse + size ≤ a.capacity := by omega
  cases hf : a.free with
  | cons i rest =>
    -- the slot that was freed last is used again
    simp only [hf, Except.ok.injEq, Prod.mk.injEq] at hr
    obtain ⟨rfl, rfl⟩ := hr
    obtain ⟨hi, hnone⟩ := (h.mem_free i).mp (by simp [hf])
    have hnd := h.nodup_free
    rw [hf, List.nodup_cons] at hnd
    refine ⟨h.update hi rfl hnd.2 (fun s => ?_) ?_ hroom, hnone, block?_setIfInBounds hi rfl,
      rfl, rfl⟩
    · by_cases hsi : s = i
      · simp [hsi, hnd.1]
      · simp [hsi, hf]
    · simp [blockSize, hnone]
  | nil =>
    simp only [hf, Except.ok.injEq, Prod.mk.injEq] at hr
    obtain ⟨ha', rfl⟩ := hr
    have hnone : a.block? a.blocks.size = none := by simp [block?]
    have hblocks : a'.blocks = a.blocks.push (some (Bytes.zeros size)) := by rw [← ha']
    have hfree : a'.free = [] := by rw [← ha']
    have huse : a'.inUse = a.inUse + size := by rw [← ha']
    have hcap : a'.capacity = a.capacity := by rw [← ha']
    obtain ⟨hwf, hb⟩ := h.push hf hblocks hfree (by simpa using huse) (by omega)
    exact ⟨hwf, hnone, hb, hcap, huse⟩

/-- A block that is given back leaves its slot empty. -/
theorem release_spec (h : a.WellFormed) (slot : Slot) :
    (a.release slot).WellFormed ∧
      (∀ s, (a.release slot).block? s = if s = slot then none else a.block? s) ∧
      (a.release slot).capacity = a.capacity ∧
      (a.release slot).inUse + a.blockSize slot = a.inUse := by
  unfold release
  cases hb : a.block? slot with
  | none =>
    refine ⟨h, fun s => ?_, rfl, by simp [blockSize, hb]⟩
    by_cases hs : s = slot
    · simp [hs, hb]
    · simp [hs]
  | some b =>
    have hi := block?_lt hb
    have hsize := blockSize_of_block? hb
    have hone : b.length ≤ a.inUse := by
      have := h.sum_blockSize_le (List.nodup_singleton slot)
      simpa [hsize] using this
    -- a slot with a block is not free, so none becomes free twice
    have hnot : slot ∉ a.free := by
      intro hf
      have := ((h.mem_free slot).mp hf).2
      rw [hb] at this
      simp at this
    refine ⟨h.update hi rfl ?_ (fun s => ?_) ?_ ?_, block?_setIfInBounds hi rfl, rfl, ?_⟩
    · exact List.nodup_cons.mpr ⟨hnot, h.nodup_free⟩
    · by_cases hs : s = slot
      · simp [hs]
      · simp [hs]
    · simp only [hsize, Option.map_none, Option.getD_none]
      omega
    · have := h.inUse_le
      show a.inUse - b.length ≤ a.capacity
      omega
    · show a.inUse - b.length + a.blockSize slot = a.inUse
      omega

theorem blockFor_eq_ok {offset len : Nat} {b : Bytes} :
    a.blockFor slot offset len = .ok b ↔
      a.block? slot = some b ∧ offset + len ≤ b.length := by
  unfold blockFor
  cases hb : a.block? slot with
  | none => simp
  | some c =>
    by_cases hlt : c.length < offset + len
    · simp only [hlt, if_true, reduceCtorEq, false_iff, Option.some.injEq, not_and]
      rintro rfl
      omega
    · simp only [hlt, if_false, Except.ok.injEq, Option.some.injEq]
      constructor
      · rintro rfl
        exact ⟨rfl, by omega⟩
      · exact And.left

theorem write_eq_ok {offset : Nat} {data : Bytes} :
    a.write slot offset data = .ok a' ↔
      ∃ b, (a.block? slot = some b ∧ offset + data.length ≤ b.length) ∧
        a' = { a with
          blocks := a.blocks.setIfInBounds slot (some (b.overlay offset data)) } := by
  simp only [← blockFor_eq_ok, write, bind, Except.bind, pure, Except.pure]
  cases a.blockFor slot offset data.length with
  | error e => simp
  | ok b => simp [eq_comm]

/-- Writing replaces bytes inside one block. -/
theorem write_spec {offset : Nat} {data : Bytes} (h : a.WellFormed)
    (hr : a.write slot offset data = .ok a') :
    a'.WellFormed ∧ ∃ b, (a.block? slot = some b ∧ offset + data.length ≤ b.length) ∧
      (∀ s, a'.block? s = if s = slot then some (b.overlay offset data) else a.block? s) ∧
      a'.capacity = a.capacity ∧ a'.inUse = a.inUse := by
  obtain ⟨b, ⟨hb, hle⟩, rfl⟩ := write_eq_ok.mp hr
  have hi := block?_lt hb
  refine ⟨h.update hi rfl h.nodup_free (fun s => ?_) ?_ h.inUse_le, b, ⟨hb, hle⟩,
    block?_setIfInBounds hi rfl, rfl, rfl⟩
  · by_cases hs : s = slot
    · have := h.mem_free slot
      simp [hs, this, hb]
    · simp [hs]
  · simp [blockSize_of_block? hb, Bytes.length_overlay hle]

theorem read_eq_ok {offset len : Nat} {data : Bytes} :
    a.read slot offset len = .ok data ↔
      ∃ b, (a.block? slot = some b ∧ offset + len ≤ b.length) ∧ data = b.slice offset len := by
  simp only [← blockFor_eq_ok, read, bind, Except.bind, pure, Except.pure]
  cases a.blockFor slot offset len with
  | error e => simp
  | ok b => simp [eq_comm]

end Arena

end FilterBridge
