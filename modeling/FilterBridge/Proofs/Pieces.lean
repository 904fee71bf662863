import FilterBridge.Operator
import Mathlib.Data.List.GetD

/-!
# A table in pieces

An operator cuts the image of a table into pieces, and says with each of them where it
belongs.  The pieces can be put together in any order: what is not there yet is zero, and
once all are there the image is, with zeros up to the length of the table.

## Main definitions

* `Operator.partCount`, `Operator.part` — how many parts carry an image, and which they are.
* `Pieced` — a table that holds some of the pieces of an image, and zeros elsewhere.

## Main results

* `Operator.parts_eq`, `Operator.load_eq` — the parts and the requests of a load, by number.
* `Pieced.overlay` — one piece more.
* `Pieced.eq_padTo` — all the pieces make the image.
-/

namespace FilterBridge

/-! ### Reading single bytes -/

namespace Bytes

variable {bs data : Bytes} {off pos : Nat}

@[simp] theorem getD_zeros (n pos : Nat) : (zeros n).getD pos 0 = 0 := by
  rw [zeros, List.getD_eq_getElem?_getD, List.getElem?_replicate]
  split <;> rfl

theorem getD_slice {len : Nat} (h : pos < len) :
    (bs.slice off len).getD pos 0 = bs.getD (off + pos) 0 := by
  simp only [slice, List.getD_eq_getElem?_getD, List.getElem?_take_of_lt h, List.getElem?_drop]

/-- Data that lie over a string are read where they lie. -/
theorem getD_overlay (h : off + data.length ≤ bs.length) (pos : Nat) :
    (bs.overlay off data).getD pos 0 =
      if off ≤ pos ∧ pos < off + data.length then data.getD (pos - off) 0
      else bs.getD pos 0 := by
  have htake : (bs.take off).length = off := by
    rw [List.length_take]
    omega
  simp only [overlay, List.getD_eq_getElem?_getD, List.append_assoc]
  by_cases hbefore : pos < off
  · rw [List.getElem?_append_left (by omega), List.getElem?_take_of_lt hbefore,
      if_neg (by omega)]
  rw [List.getElem?_append_right (by omega), htake]
  by_cases hin : pos < off + data.length
  · rw [List.getElem?_append_left (by omega), if_pos (by omega)]
  · rw [List.getElem?_append_right (by omega), if_neg (by omega), List.getElem?_drop]
    congr 2
    omega

theorem getD_padTo {n : Nat} (h : bs.length ≤ n) (pos : Nat) :
    (bs.padTo n).getD pos 0 = bs.getD pos 0 := by
  rw [padTo, List.take_of_length_le h]
  by_cases hpos : pos < bs.length
  · rw [List.getD_append _ _ _ _ hpos]
  · rw [List.getD_append_right _ _ _ _ (by omega), getD_zeros,
      List.getD_eq_default _ _ (by omega)]

/-- Strings of one length are told apart by their bytes. -/
theorem ext_getD {as : Bytes} (hlen : as.length = bs.length)
    (h : ∀ pos < bs.length, as.getD pos 0 = bs.getD pos 0) : as = bs := by
  refine List.ext_getElem hlen fun pos h₁ h₂ => ?_
  rw [← List.getD_eq_getElem as 0 h₁, ← List.getD_eq_getElem bs 0 h₂, h pos h₂]

end Bytes

/-! ### Parts by number -/

namespace Operator

variable {kind : TableKind} {index : UInt32} {image : Bytes} {i : Nat}

/-- How many parts carry an image. -/
def partCount (image : Bytes) : Nat :=
  max 1 ((image.length + (maxFragmentLen - 1)) / maxFragmentLen)

/-- The part that carries the `i`-th piece of an image. -/
def part (kind : TableKind) (index : UInt32) (image : Bytes) (i : Nat) : Fragment where
  kind := kind.toByte
  flags := (if i = 0 then Fragment.beginFlag else 0) |||
    (if i + 1 = partCount image then Fragment.endFlag else 0)
  index := index
  offset := .ofNat (i * maxFragmentLen)
  data := image.slice (i * maxFragmentLen) maxFragmentLen

theorem partCount_pos (image : Bytes) : 0 < partCount image := by
  unfold partCount
  omega

/-- The pieces cover the image. -/
theorem lt_partCount {pos : Nat} (h : pos < image.length) :
    pos / maxFragmentLen < partCount image := by
  simp only [partCount, maxFragmentLen]
  omega

/-- All pieces but a first one have something to carry. -/
theorem lt_length_of_lt_partCount (hi : i < partCount image) (hpos : 0 < i) :
    i * maxFragmentLen < image.length := by
  simp only [partCount, maxFragmentLen] at *
  omega

theorem length_pieces (image : Bytes) : (pieces image).length = partCount image := by
  induction image using pieces.induct with
  | case1 image h =>
    rw [pieces, if_pos h]
    simp only [partCount, maxFragmentLen, List.length_singleton] at *
    omega
  | case2 image h ih =>
    rw [pieces, if_neg h, List.length_cons, ih]
    simp only [partCount, maxFragmentLen, List.length_drop] at *
    omega

theorem pieces_eq (image : Bytes) :
    pieces image = (List.range (partCount image)).map fun i =>
      image.slice (i * maxFragmentLen) maxFragmentLen := by
  rw [← length_pieces]
  induction image using pieces.induct with
  | case1 image h =>
    rw [pieces, if_pos h]
    simp [Bytes.slice, List.take_of_length_le h]
  | case2 image h ih =>
    rw [pieces, if_neg h, List.length_cons, List.range_succ_eq_map, List.map_cons, List.map_map]
    refine congrArg₂ List.cons ?_ (ih.trans (List.map_congr_left fun i _ => ?_))
    · simp [Bytes.slice]
    · simp only [Function.comp_apply, Bytes.slice, List.drop_drop, Nat.succ_eq_add_one,
        Nat.succ_mul, Nat.add_comm]

theorem partsFrom_eq (kind : TableKind) (index : UInt32) (i : Nat) (ps : List Bytes) :
    partsFrom kind index i ps = ps.mapIdx fun j piece =>
      ⟨kind.toByte, (if i + j = 0 then Fragment.beginFlag else 0) |||
        (if j + 1 = ps.length then Fragment.endFlag else 0), index,
        .ofNat ((i + j) * maxFragmentLen), piece⟩ := by
  induction ps generalizing i with
  | nil => rfl
  | cons piece ps ih =>
    rw [partsFrom, ih, List.mapIdx_cons]
    refine congrArg₂ List.cons ?_ ?_
    · simp only [Nat.add_zero, List.length_cons, Nat.zero_add, Nat.right_eq_add,
        List.length_eq_zero_iff]
    · have hnext : ∀ j, i + 1 + j = i + (j + 1) := fun j => by omega
      simp only [List.length_cons, Nat.add_right_cancel_iff, hnext]

theorem mapIdx_map_range {α β : Type} (n : Nat) (g : Nat → α) (F : Nat → α → β) :
    ((List.range n).map g).mapIdx F = (List.range n).map fun i => F i (g i) := by
  refine List.ext_getElem (by simp) fun i h₁ h₂ => ?_
  simp

theorem parts_eq (kind : TableKind) (index : UInt32) (image : Bytes) :
    parts kind index image = (List.range (partCount image)).map (part kind index image) := by
  rw [parts, partsFrom_eq, length_pieces, pieces_eq, mapIdx_map_range]
  simp only [Nat.zero_add]
  rfl

theorem load_eq (o : Operator) (s : Suite) (nonces : Nat → UInt16) (kind : TableKind)
    (index : UInt32) (image : Bytes) :
    o.load s nonces kind index image = (List.range (partCount image)).map fun i =>
      o.request s (nonces i) .load (part kind index image i).encode := by
  rw [load, parts_eq, mapIdx_map_range]

/-- The flags of a part tell whether it begins and whether it ends. -/
private theorem flags_and (first last : Prop) [Decidable first] [Decidable last] :
    let flags := (if first then Fragment.beginFlag else 0) |||
      (if last then Fragment.endFlag else 0)
    decide (flags &&& Fragment.beginFlag ≠ 0) = decide first ∧
      decide (flags &&& Fragment.endFlag ≠ 0) = decide last := by
  by_cases hf : first <;> by_cases hl : last <;> simp only [hf, hl, if_true, if_false] <;> decide

theorem isBegin_part : (part kind index image i).isBegin = decide (i = 0) :=
  (flags_and (i = 0) (i + 1 = partCount image)).1

theorem isBegin_part_of_ne (hi : i ≠ 0) : (part kind index image i).isBegin = false :=
  isBegin_part.trans (decide_eq_false hi)

theorem isEnd_part : (part kind index image i).isEnd = decide (i + 1 = partCount image) :=
  (flags_and (i = 0) (i + 1 = partCount image)).2

theorem ofByte?_part : TableKind.ofByte? (part kind index image i).kind = some kind :=
  TableKind.ofByte?_toByte kind

theorem length_data_part (kind : TableKind) (index : UInt32) (image : Bytes) (i : Nat) :
    (part kind index image i).data.length =
      min maxFragmentLen (image.length - i * maxFragmentLen) := by
  simp only [part, Bytes.slice, List.length_take, List.length_drop]

/-- The parts cover the image. -/
theorem length_le_partCount (image : Bytes) : image.length ≤ partCount image * maxFragmentLen := by
  simp only [partCount, maxFragmentLen]
  omega

/-- All parts of an image that fits lie inside the table. -/
theorem part_fits (kind : TableKind) (index : UInt32) {len : Nat} (hi : i < partCount image)
    (hlen : image.length ≤ len) :
    i * maxFragmentLen + (part kind index image i).data.length ≤ len := by
  rw [length_data_part]
  rcases Nat.eq_zero_or_pos i with rfl | hpos
  · omega
  · have := lt_length_of_lt_partCount hi hpos
    omega

theorem toNat_offset_part (h : i < 4194304) :
    (part kind index image i).offset.toNat = i * maxFragmentLen := by
  simp only [part, maxFragmentLen, UInt32.toNat_ofNat']
  omega

end Operator

/-! ### Tables with some of the pieces -/

/-- A table that holds the pieces of an image with the given numbers, and zeros elsewhere. -/
structure Pieced (image : Bytes) (len : Nat) (held : List Nat) (table : Bytes) : Prop where
  /-- Its length. -/
  length : table.length = len
  /-- Its bytes. -/
  bytes : ∀ pos < len, table.getD pos 0 =
    if pos / maxFragmentLen ∈ held then image.getD pos 0 else 0

namespace Pieced

variable {image table : Bytes} {len i : Nat} {held : List Nat}

theorem zeros (image : Bytes) (len : Nat) : Pieced image len [] (.zeros len) where
  length := Bytes.length_zeros len
  bytes pos _ := by rw [Bytes.getD_zeros, if_neg List.not_mem_nil]

/-- One piece more. -/
theorem overlay (h : Pieced image len held table)
    (hle : i * maxFragmentLen + (image.slice (i * maxFragmentLen) maxFragmentLen).length ≤ len) :
    Pieced image len (i :: held) (table.overlay (i * maxFragmentLen)
      (image.slice (i * maxFragmentLen) maxFragmentLen)) := by
  have hdata : (image.slice (i * maxFragmentLen) maxFragmentLen).length =
      min maxFragmentLen (image.length - i * maxFragmentLen) := by
    simp only [Bytes.slice, List.length_take, List.length_drop]
  refine ⟨(Bytes.length_overlay (h.length ▸ hle)).trans h.length, fun pos hpos => ?_⟩
  simp only [Bytes.getD_overlay (h.length.symm ▸ hle), h.bytes pos hpos, List.mem_cons]
  by_cases hpiece : pos / maxFragmentLen = i
  · simp only [hpiece, true_or, if_true]
    have hfrom : i * maxFragmentLen ≤ pos ∧ pos < i * maxFragmentLen + maxFragmentLen := by
      simp only [maxFragmentLen] at *
      omega
    split
    · rw [Bytes.getD_slice (by omega)]
      congr 1
      omega
    · -- the image ends inside the piece
      have hend : image.length ≤ pos := by omega
      rw [List.getD_eq_default _ _ hend]
      split <;> rfl
  · have hout : ¬ (i * maxFragmentLen ≤ pos ∧ pos < i * maxFragmentLen +
        (image.slice (i * maxFragmentLen) maxFragmentLen).length) := by
      simp only [maxFragmentLen] at *
      omega
    simp only [hout, hpiece, false_or, if_false]

/-- All the pieces make the image. -/
theorem eq_padTo (h : Pieced image len held table) (hlen : image.length ≤ len)
    (hall : ∀ i < Operator.partCount image, i ∈ held) : table = image.padTo len := by
  refine Bytes.ext_getD (by rw [h.length, Bytes.length_padTo]) fun pos hpos => ?_
  rw [Bytes.length_padTo] at hpos
  rw [h.bytes pos hpos, Bytes.getD_padTo hlen]
  by_cases hin : pos < image.length
  · rw [if_pos (hall _ (Operator.lt_partCount hin))]
  · rw [List.getD_eq_default _ _ (by omega), ite_self]

end Pieced

end FilterBridge
