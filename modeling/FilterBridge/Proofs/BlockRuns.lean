import FilterBridge.Proofs.Blocks
import Mathlib.Data.Finmap

/-!
# Runs of the arena

Whatever is done to an arena, one call after another, and whatever slots the calls name,
it answers as a map from slots to blocks does.  The map says nothing of slots that are
free; it permits any slot without a block to be taken.

## Main definitions

* `ArenaCall`, `ArenaAnswer` — calls and their answers.
* `Arena.call`, `Arena.run` — a call on the arena, and calls one after another.
* `Bytes.Overwrites` — a string differs from another by the data written over it.
* `BlockMap.Step`, `BlockMap.Run` — what a map of blocks permits.
* `Arena.Holds` — the arena and the map have the same blocks.

## Main results

* `Arena.Holds.inUse_eq` — the bytes in use are those of the blocks of the map.
* `Arena.Holds.call` — the map permits a single call, and has the same blocks after it.
* `Arena.isolated_run` — it permits all calls, from the empty arena on.
-/

namespace FilterBridge

/-! ### Calls -/

/-- A call on the arena. -/
inductive ArenaCall
  /-- Take a block of that many bytes. -/
  | alloc (size : Nat)
  /-- Give a block back. -/
  | release (slot : Slot)
  /-- Write into a block. -/
  | write (slot : Slot) (offset : Nat) (data : Bytes)
  /-- Read from a block. -/
  | read (slot : Slot) (offset len : Nat)
  /-- Ask for the length of a block. -/
  | blockLen (slot : Slot)
  deriving DecidableEq, Repr

/-- The answer to a call. -/
inductive ArenaAnswer
  /-- The block was taken, in that slot. -/
  | taken (slot : Slot)
  /-- The block was given back or written. -/
  | done
  /-- The bytes that were read. -/
  | bytes (data : Bytes)
  /-- The length of the block. -/
  | length (len : Nat)
  /-- The call failed. -/
  | failed (e : ArenaError)
  deriving DecidableEq, Repr

/-- The slot that a call reads or writes, with the bytes it is about: where they start in
the block and how many they are. -/
def ArenaCall.access? : ArenaCall → Option (Slot × Nat × Nat)
  | .write slot offset data => some (slot, offset, data.length)
  | .read slot offset len => some (slot, offset, len)
  | .blockLen slot => some (slot, 0, 0)
  | .alloc _ | .release _ => none

/-- Only writing, reading and measuring look at a block. -/
theorem ArenaCall.access?_eq_some {c : ArenaCall} {slot : Slot} {offset len : Nat}
    (h : c.access? = some (slot, offset, len)) :
    (∃ data, c = .write slot offset data ∧ len = data.length) ∨ c = .read slot offset len ∨
      (c = .blockLen slot ∧ offset = 0 ∧ len = 0) := by
  cases c with
  | alloc size => simp [access?] at h
  | release slot => simp [access?] at h
  | write slot offset data =>
    simp only [access?, Option.some.injEq, Prod.mk.injEq] at h
    obtain ⟨rfl, rfl, rfl⟩ := h
    exact .inl ⟨data, rfl, rfl⟩
  | read slot offset len =>
    simp only [access?, Option.some.injEq, Prod.mk.injEq] at h
    obtain ⟨rfl, rfl, rfl⟩ := h
    exact .inr (.inl rfl)
  | blockLen slot =>
    simp only [access?, Option.some.injEq, Prod.mk.injEq] at h
    obtain ⟨rfl, rfl, rfl⟩ := h
    exact .inr (.inr ⟨rfl, rfl, rfl⟩)

namespace Arena

/-- A call on the arena. -/
def call (a : Arena) : ArenaCall → Arena × ArenaAnswer
  | .alloc size =>
    match a.alloc size with
    | .ok (a', slot) => (a', .taken slot)
    | .error e => (a, .failed e)
  | .release slot => (a.release slot, .done)
  | .write slot offset data =>
    match a.write slot offset data with
    | .ok a' => (a', .done)
    | .error e => (a, .failed e)
  | .read slot offset len =>
    match a.read slot offset len with
    | .ok data => (a, .bytes data)
    | .error e => (a, .failed e)
  | .blockLen slot =>
    match a.blockLen slot with
    | .ok len => (a, .length len)
    | .error e => (a, .failed e)

/-- Calls one after another, with their answers. -/
def run : Arena → List ArenaCall → Arena × List ArenaAnswer
  | a, [] => (a, [])
  | a, c :: calls => ((run (a.call c).1 calls).1, (a.call c).2 :: (run (a.call c).1 calls).2)

end Arena

/-! ### A map of blocks -/

/-- `b'` is `b` with `data` written over the bytes from `offset` on. -/
structure Bytes.Overwrites (b : Bytes) (offset : Nat) (data b' : Bytes) : Prop where
  /-- The string is as long as before. -/
  length_eq : b'.length = b.length
  /-- The bytes from `offset` on are the data. -/
  inside : ∀ i < data.length, b'[offset + i]? = data[i]?
  /-- The bytes before and after them are the old ones. -/
  outside : ∀ i, i < offset ∨ offset + data.length ≤ i → b'[i]? = b[i]?

/-- Blocks by the slots that hold them. -/
abbrev BlockMap := Finmap fun _ : Slot => Bytes

namespace BlockMap

/-- How many bytes the blocks have together. -/
def bytes (m : BlockMap) : Nat := ∑ slot ∈ m.keys, ((m.lookup slot).map List.length).getD 0

/-- What a map of blocks with so many bytes at most permits: a call, its answer and the
map after it. -/
inductive Step (capacity : Nat) : BlockMap → ArenaCall → ArenaAnswer → BlockMap → Prop
  /-- A block of zeros is taken while there is room for it, in a slot without a block. -/
  | taken {m : BlockMap} {size : Nat} {slot : Slot} (hroom : size ≤ capacity - m.bytes)
    (hdead : slot ∉ m) :
    Step capacity m (.alloc size) (.taken slot) (m.insert slot (.zeros size))
  /-- A block for which there is no room is not taken. -/
  | exhausted {m : BlockMap} {size : Nat} (hfull : capacity - m.bytes < size) :
    Step capacity m (.alloc size) (.failed (.exhausted size (capacity - m.bytes))) m
  /-- The block in a slot is given back, if there is one. -/
  | released {m : BlockMap} {slot : Slot} : Step capacity m (.release slot) .done (m.erase slot)
  /-- Data are written into a block if they end inside it. -/
  | written {m : BlockMap} {slot : Slot} {offset : Nat} {data b b' : Bytes}
    (hb : m.lookup slot = some b) (hin : offset + data.length ≤ b.length)
    (hb' : b.Overwrites offset data b') :
    Step capacity m (.write slot offset data) .done (m.insert slot b')
  /-- Data are read from a block if they end inside it. -/
  | read {m : BlockMap} {slot : Slot} {offset len : Nat} {data b : Bytes}
    (hb : m.lookup slot = some b) (hin : offset + len ≤ b.length) (hlen : data.length = len)
    (hdata : ∀ i < len, data[i]? = b[offset + i]?) :
    Step capacity m (.read slot offset len) (.bytes data) m
  /-- A block has its length. -/
  | measured {m : BlockMap} {slot : Slot} {b : Bytes} (hb : m.lookup slot = some b) :
    Step capacity m (.blockLen slot) (.length b.length) m
  /-- A slot without a block is neither read nor written. -/
  | dead {m : BlockMap} {c : ArenaCall} {slot : Slot} {offset len : Nat}
    (hc : c.access? = some (slot, offset, len)) (hdead : slot ∉ m) :
    Step capacity m c (.failed (.invalidHandle slot)) m
  /-- Nor is a block past its end. -/
  | outside {m : BlockMap} {c : ArenaCall} {slot : Slot} {offset len : Nat} {b : Bytes}
    (hc : c.access? = some (slot, offset, len)) (hb : m.lookup slot = some b)
    (hout : b.length < offset + len) :
    Step capacity m c (.failed (.outOfBounds offset len b.length)) m

/-- What a map of blocks permits one after another. -/
inductive Run (capacity : Nat) :
    BlockMap → List ArenaCall → List ArenaAnswer → BlockMap → Prop
  /-- No call changes nothing. -/
  | nil {m : BlockMap} : Run capacity m [] [] m
  /-- One call, and then the others. -/
  | cons {m m' m'' : BlockMap} {c : ArenaCall} {calls : List ArenaCall}
    {answer : ArenaAnswer} {answers : List ArenaAnswer} (h : Step capacity m c answer m')
    (hr : Run capacity m' calls answers m'') :
    Run capacity m (c :: calls) (answer :: answers) m''

end BlockMap

/-! ### Single bytes -/

namespace Bytes

variable {b data : Bytes} {offset len : Nat}

theorem overwrites_overlay (h : offset + data.length ≤ b.length) :
    b.Overwrites offset data (b.overlay offset data) := by
  have htake : (b.take offset).length = offset := by
    rw [List.length_take]
    omega
  refine ⟨length_overlay h, fun i hi => ?_, fun i hi => ?_⟩
  · rw [overlay, List.append_assoc, List.getElem?_append_right (by omega),
      List.getElem?_append_left (by omega), htake, Nat.add_sub_cancel_left]
  · rcases hi with hlt | hge
    · rw [overlay, List.append_assoc, List.getElem?_append_left (by omega),
        List.getElem?_take_of_lt hlt]
    · have hlen : (b.take offset ++ data).length = offset + data.length := by
        rw [List.length_append, htake]
      rw [overlay, List.getElem?_append_right (by omega), hlen, List.getElem?_drop,
        Nat.add_sub_cancel' hge]

theorem getElem?_slice {i : Nat} (hi : i < len) :
    (b.slice offset len)[i]? = b[offset + i]? := by
  rw [slice, List.getElem?_take_of_lt hi, List.getElem?_drop]

end Bytes

namespace Arena

variable {a a' : Arena} {m m' : BlockMap} {slot : Slot} {c : ArenaCall}

/-! ### The arena as a map -/

/-- An arena and a map have the same blocks. -/
structure Holds (a : Arena) (m : BlockMap) : Prop where
  /-- The blocks are kept in order. -/
  wellFormed : a.WellFormed
  /-- The blocks in the slots are those of the map. -/
  block?_eq : ∀ slot, a.block? slot = m.lookup slot

/-- The map permits a call as the arena answers it, and has the same blocks after it. -/
def Follows (a : Arena) (m : BlockMap) (c : ArenaCall) : Prop :=
  ∃ m', BlockMap.Step a.capacity m c (a.call c).2 m' ∧ (a.call c).1.Holds m' ∧
    (a.call c).1.capacity = a.capacity

theorem holds_empty (capacity : Nat) : ({ capacity } : Arena).Holds ∅ where
  wellFormed := wellFormed_empty capacity
  block?_eq := by
    intro slot
    rw [block?_empty, Finmap.lookup_empty]

theorem alloc_of_lt {size : Nat} (h : a.available < size) :
    a.alloc size = .error (.exhausted size a.available) := by
  rw [alloc, if_pos h]

/-- An access fails at a slot without a block, or past the end of the block. -/
theorem blockFor_eq_error {offset len : Nat} {e : ArenaError} :
    a.blockFor slot offset len = .error e ↔
      (a.block? slot = none ∧ e = .invalidHandle slot) ∨
        ∃ b, a.block? slot = some b ∧ b.length < offset + len ∧
          e = .outOfBounds offset len b.length := by
  unfold blockFor
  cases hb : a.block? slot with
  | none => simp [eq_comm]
  | some b =>
    by_cases hlt : b.length < offset + len
    · simp [hlt, eq_comm]
    · simp [hlt]

/-- A slot that has no block has none to give back. -/
theorem release_of_dead (h : a.block? slot = none) : a.release slot = a := by
  rw [release, h]

/-- A call that fails leaves the arena as it was. -/
theorem call_failed {e : ArenaError} (h : (a.call c).2 = .failed e) : (a.call c).1 = a := by
  cases c with
  | alloc size =>
    cases hr : a.alloc size with
    | error e => simp only [call, hr]
    | ok r => simp [call, hr] at h
  | release slot => simp [call] at h
  | write slot offset data =>
    cases hr : a.write slot offset data with
    | error e => simp only [call, hr]
    | ok a' => simp [call, hr] at h
  | read slot offset len => cases hr : a.read slot offset len <;> simp only [call, hr]
  | blockLen slot => cases hr : a.blockLen slot <;> simp only [call, hr]

/-- An access that fails makes its call fail. -/
theorem call_of_blockFor_error {offset len : Nat} {e : ArenaError}
    (hc : c.access? = some (slot, offset, len)) (he : a.blockFor slot offset len = .error e) :
    a.call c = (a, .failed e) := by
  rcases ArenaCall.access?_eq_some hc with ⟨data, rfl, rfl⟩ | rfl | ⟨rfl, rfl, rfl⟩
  · simp only [call, write, he, bind, Except.bind]
  · simp only [call, Arena.read, he, bind, Except.bind]
  · -- no block is too short to have a length
    rcases blockFor_eq_error.mp he with ⟨hdead, rfl⟩ | ⟨b, -, hlt, -⟩
    · simp only [call, blockLen, hdead]
    · omega

/-- An access that does not fail lets its call succeed. -/
theorem call_of_blockFor_ok {offset len : Nat} {b : Bytes}
    (hc : c.access? = some (slot, offset, len)) (hb : a.blockFor slot offset len = .ok b)
    (e : ArenaError) : (a.call c).2 ≠ .failed e := by
  rcases ArenaCall.access?_eq_some hc with ⟨data, rfl, rfl⟩ | rfl | ⟨rfl, rfl, rfl⟩
  · simp [call, write_eq_ok.mpr ⟨b, blockFor_eq_ok.mp hb, rfl⟩]
  · simp [call, read_eq_ok.mpr ⟨b, blockFor_eq_ok.mp hb, rfl⟩]
  · simp [call, blockLen, (blockFor_eq_ok.mp hb).1]

namespace Holds

theorem notMem_iff (h : a.Holds m) : slot ∉ m ↔ a.block? slot = none := by
  rw [h.block?_eq, Finmap.lookup_eq_none]

/-- The bytes in use are those of the blocks. -/
theorem inUse_eq (h : a.Holds m) : a.inUse = m.bytes := by
  have hall : ∀ slot, (a.block? slot).isSome → slot ∈ m.keys.toList := by
    intro slot hs
    rw [h.block?_eq, Finmap.lookup_isSome] at hs
    exact Finset.mem_toList.mpr (Finmap.mem_keys.mpr hs)
  calc a.inUse = (m.keys.toList.map a.blockSize).sum :=
        (h.wellFormed.sum_blockSize_eq m.keys.nodup_toList hall).symm
    _ = ∑ slot ∈ m.keys, a.blockSize slot := Finset.sum_map_toList m.keys a.blockSize
    _ = m.bytes := Finset.sum_congr rfl fun slot _ => by rw [blockSize, h.block?_eq]

/-- A map whose block in one slot is another one is held by an arena that changed there
and nowhere else. -/
theorem of_insert {b : Bytes} (h : a.Holds m) (hwf : a'.WellFormed)
    (hb : ∀ s, a'.block? s = if s = slot then some b else a.block? s) :
    a'.Holds (m.insert slot b) := by
  refine ⟨hwf, fun s => ?_⟩
  rw [hb, h.block?_eq]
  by_cases hs : s = slot
  · rw [if_pos hs, hs, Finmap.lookup_insert]
  · rw [if_neg hs, Finmap.lookup_insert_of_ne _ hs]

/-! ### Calls on both -/

theorem of_eq {answer : ArenaAnswer} (hc : a.call c = (a', answer))
    (hs : BlockMap.Step a.capacity m c answer m') (h : a'.Holds m')
    (hcap : a'.capacity = a.capacity) : a.Follows m c := by
  refine ⟨m', ?_, ?_, ?_⟩
  · rw [hc]
    exact hs
  · rw [hc]
    exact h
  · rw [hc]
    exact hcap

/-- An access that fails changes nothing. -/
theorem refused {offset len : Nat} {e : ArenaError} (h : a.Holds m)
    (hc : c.access? = some (slot, offset, len)) (he : a.blockFor slot offset len = .error e) :
    a.Follows m c := by
  have hcall := call_of_blockFor_error hc he
  rcases blockFor_eq_error.mp he with ⟨hdead, rfl⟩ | ⟨b, hb, hout, rfl⟩
  · exact of_eq hcall (.dead hc (h.notMem_iff.mpr hdead)) h rfl
  · rw [h.block?_eq] at hb
    exact of_eq hcall (.outside hc hb hout) h rfl

theorem alloc (h : a.Holds m) (size : Nat) : a.Follows m (.alloc size) := by
  have havail : a.available = a.capacity - m.bytes := by rw [available, h.inUse_eq]
  by_cases hroom : size ≤ a.available
  · obtain ⟨a', slot, hr⟩ := exists_alloc hroom
    obtain ⟨hwf, hdead, hb, hcap, -⟩ := alloc_spec h.wellFormed hr
    have hc : a.call (.alloc size) = (a', .taken slot) := by simp only [call, hr]
    rw [havail] at hroom
    exact of_eq hc (.taken hroom (h.notMem_iff.mpr hdead)) (h.of_insert hwf hb) hcap
  · have hfull : a.available < size := Nat.lt_of_not_le hroom
    have hc : a.call (.alloc size) = (a, .failed (.exhausted size a.available)) := by
      simp only [call, alloc_of_lt hfull]
    rw [havail] at hc hfull
    exact of_eq hc (.exhausted hfull) h rfl

theorem release (h : a.Holds m) (slot : Slot) : a.Follows m (.release slot) := by
  obtain ⟨hwf, hb, hcap, -⟩ := release_spec h.wellFormed slot
  refine of_eq rfl .released ⟨hwf, fun s => ?_⟩ hcap
  rw [hb, h.block?_eq]
  by_cases hs : s = slot
  · rw [if_pos hs, hs, Finmap.lookup_erase]
  · rw [if_neg hs, Finmap.lookup_erase_ne hs]

theorem write (h : a.Holds m) (slot : Slot) (offset : Nat) (data : Bytes) :
    a.Follows m (.write slot offset data) := by
  cases hr : a.blockFor slot offset data.length with
  | error e => exact h.refused rfl hr
  | ok b =>
    obtain ⟨hlive, hin⟩ := blockFor_eq_ok.mp hr
    have hw := write_eq_ok.mpr ⟨b, ⟨hlive, hin⟩, rfl⟩
    obtain ⟨hwf, b', ⟨hlive', -⟩, hb, hcap, -⟩ := write_spec h.wellFormed hw
    obtain rfl : b' = b := Option.some.inj (hlive'.symm.trans hlive)
    rw [h.block?_eq] at hlive
    exact of_eq (by simp only [call, hw]) (.written hlive hin (Bytes.overwrites_overlay hin))
      (h.of_insert hwf hb) hcap

theorem read (h : a.Holds m) (slot : Slot) (offset len : Nat) :
    a.Follows m (.read slot offset len) := by
  cases hr : a.blockFor slot offset len with
  | error e => exact h.refused rfl hr
  | ok b =>
    obtain ⟨hlive, hin⟩ := blockFor_eq_ok.mp hr
    have hd := read_eq_ok.mpr ⟨b, ⟨hlive, hin⟩, rfl⟩
    rw [h.block?_eq] at hlive
    exact of_eq (by simp only [call, hd])
      (.read hlive hin (Bytes.length_slice hin) fun i hi => Bytes.getElem?_slice hi) h rfl

theorem blockLen (h : a.Holds m) (slot : Slot) : a.Follows m (.blockLen slot) := by
  cases hr : a.blockFor slot 0 0 with
  | error e => exact h.refused rfl hr
  | ok b =>
    have hlive := (blockFor_eq_ok.mp hr).1
    have hc : a.call (.blockLen slot) = (a, .length b.length) := by
      simp only [call, Arena.blockLen, hlive]
    rw [h.block?_eq] at hlive
    exact of_eq hc (.measured hlive) h rfl

/-- The map permits any call as the arena answers it. -/
theorem call (h : a.Holds m) (c : ArenaCall) : a.Follows m c := by
  cases c with
  | alloc size => exact h.alloc size
  | release slot => exact h.release slot
  | write slot offset data => exact h.write slot offset data
  | read slot offset len => exact h.read slot offset len
  | blockLen slot => exact h.blockLen slot

/-- It permits all calls one after another. -/
theorem run (h : a.Holds m) (calls : List ArenaCall) :
    ∃ m', BlockMap.Run a.capacity m calls (a.run calls).2 m' ∧ (a.run calls).1.Holds m' ∧
      (a.run calls).1.capacity = a.capacity := by
  induction calls generalizing a m with
  | nil => exact ⟨m, .nil, h, rfl⟩
  | cons c calls ih =>
    obtain ⟨m₁, hstep, hheld, hcap⟩ := h.call c
    obtain ⟨m₂, hrun, hheld', hcap'⟩ := ih hheld
    rw [hcap] at hrun hcap'
    exact ⟨m₂, .cons hstep hrun, hheld', hcap'⟩

end Holds

/-! ### What fails -/

/-- A block is taken exactly while there is room for it. -/
theorem exists_alloc_iff {size : Nat} :
    (∃ r, a.alloc size = .ok r) ↔ size ≤ a.capacity - a.inUse := by
  constructor
  · rintro ⟨r, hr⟩
    by_contra hfull
    rw [alloc_of_lt (Nat.lt_of_not_le hfull)] at hr
    simp at hr
  · intro hroom
    obtain ⟨a', slot, hr⟩ := exists_alloc hroom
    exact ⟨_, hr⟩

namespace Holds

/-- An access fails exactly at a slot without a block, or past the end of the block. -/
theorem failed_iff {offset len : Nat} (h : a.Holds m)
    (hc : c.access? = some (slot, offset, len)) :
    (∃ e, (a.call c).2 = .failed e) ↔ ∀ b, m.lookup slot = some b → b.length < offset + len := by
  cases hr : a.blockFor slot offset len with
  | error e =>
    refine iff_of_true ⟨e, by rw [call_of_blockFor_error hc hr]⟩ fun b hb => ?_
    rw [← h.block?_eq] at hb
    by_contra hin
    rw [blockFor_eq_ok.mpr ⟨hb, Nat.le_of_not_lt hin⟩] at hr
    simp at hr
  | ok b =>
    obtain ⟨hb, hin⟩ := blockFor_eq_ok.mp hr
    rw [h.block?_eq] at hb
    refine iff_of_false ?_ fun hout => Nat.not_lt.mpr hin (hout b hb)
    rintro ⟨e, he⟩
    exact call_of_blockFor_ok hc hr e he

/-- No block is longer than all blocks together may be. -/
theorem length_le {b : Bytes} (h : a.Holds m) (hb : m.lookup slot = some b) :
    b.length ≤ a.capacity := by
  rw [← h.block?_eq] at hb
  have hsum := h.wellFormed.sum_blockSize_le (List.nodup_singleton slot)
  rw [List.map_singleton, List.sum_singleton, blockSize_of_block? hb] at hsum
  exact hsum.trans h.wellFormed.inUse_le

end Holds

/-! ### Numbers of slots -/

/-- No call takes a slot away. -/
theorem size_le_call (a : Arena) (c : ArenaCall) :
    a.blocks.size ≤ (a.call c).1.blocks.size := by
  cases c with
  | alloc size =>
    unfold call alloc
    by_cases hfull : a.available < size
    · simp [hfull]
    · cases hf : a.free <;> simp [hfull]
  | release slot =>
    show a.blocks.size ≤ (a.release slot).blocks.size
    unfold release
    cases a.block? slot <;> simp
  | write slot offset data =>
    cases hr : a.write slot offset data with
    | error e => simp [call, hr]
    | ok a' =>
      obtain ⟨b, -, rfl⟩ := write_eq_ok.mp hr
      simp [call, hr]
  | read slot offset len => cases hr : a.read slot offset len <;> simp [call, hr]
  | blockLen slot => cases hr : a.blockLen slot <;> simp [call, hr]

theorem size_le_run (a : Arena) (calls : List ArenaCall) :
    a.blocks.size ≤ (a.run calls).1.blocks.size := by
  induction calls generalizing a with
  | nil => exact Nat.le_refl _
  | cons c calls ih => exact (a.size_le_call c).trans (ih (a.call c).1)

namespace Holds

/-- A slot that is taken is one of those that there are. -/
theorem taken_lt_call (h : a.Holds m) (hc : (a.call c).2 = .taken slot) :
    slot < (a.call c).1.blocks.size := by
  obtain ⟨m', hstep, hheld, -⟩ := h.call c
  rw [hc] at hstep
  cases hstep with
  | taken =>
    have hb := hheld.block?_eq slot
    rw [Finmap.lookup_insert] at hb
    exact block?_lt hb

/-- And it stays one. -/
theorem taken_lt_run (h : a.Holds m) (calls : List ArenaCall)
    (hslot : .taken slot ∈ (a.run calls).2) : slot < (a.run calls).1.blocks.size := by
  induction calls generalizing a m with
  | nil => simp [Arena.run] at hslot
  | cons c calls ih =>
    obtain ⟨m', -, hheld, -⟩ := h.call c
    rcases List.mem_cons.mp hslot with hc | hlater
    · exact (h.taken_lt_call hc.symm).trans_le (size_le_run (a.call c).1 calls)
    · exact ih hheld hlater

end Holds

/-- Whatever calls come to an empty arena, with whatever slots, it answers them as a map
from slots to blocks permits, and has the blocks of that map in the end.

The bytes in use are those of the blocks together, and no more than there are.  The free
slots are those without a block, each of them once, and every slot that was ever taken is
one of those that there are: its number fits into a word of 32 bits while these are no
more than `2 ^ 32`.

A block is taken exactly while there is room for it.  A block is written or read exactly
when it is there and the access ends inside it; so an access whose end does not fit into a
word fails when the capacity does.  A call that fails leaves the arena as it is, and so
does giving back a block that is not there. -/
theorem isolated_run (capacity : Nat) (calls : List ArenaCall) :
    let a := (run { capacity } calls).1
    let answers := (run { capacity } calls).2
    ∃ m : BlockMap,
      BlockMap.Run capacity ∅ calls answers m ∧
      (∀ slot, a.block? slot = m.lookup slot) ∧
      (a.inUse = m.bytes ∧ a.inUse ≤ capacity ∧ a.capacity = capacity) ∧
      (a.free.Nodup ∧ ∀ slot, slot ∈ a.free ↔ slot < a.blocks.size ∧ slot ∉ m) ∧
      (∀ slot, .taken slot ∈ answers → slot < a.blocks.size) ∧
      (∀ size, (∃ r, a.alloc size = .ok r) ↔ size ≤ capacity - a.inUse) ∧
      (∀ c slot offset len, c.access? = some (slot, offset, len) →
        ((∃ e, (a.call c).2 = .failed e) ↔
            ∀ b, m.lookup slot = some b → b.length < offset + len) ∧
          (capacity < offset + len → ∃ e, (a.call c).2 = .failed e)) ∧
      (∀ c e, (a.call c).2 = .failed e → (a.call c).1 = a) ∧
      ∀ slot, slot ∉ m → a.release slot = a := by
  intro a answers
  have hempty := holds_empty capacity
  obtain ⟨m, hrun, hheld, hcap⟩ := hempty.run calls
  have hwf : a.WellFormed := hheld.wellFormed
  have hacap : a.capacity = capacity := hcap
  refine ⟨m, hrun, hheld.block?_eq, ⟨hheld.inUse_eq, ?_, hacap⟩, ⟨hwf.nodup_free, ?_⟩,
    fun slot hslot => hempty.taken_lt_run calls hslot, ?_, ?_, fun c e he => call_failed he,
    fun slot hslot => release_of_dead (hheld.notMem_iff.mp hslot)⟩
  · rw [← hacap]
    exact hwf.inUse_le
  · intro slot
    rw [hheld.notMem_iff]
    exact hwf.mem_free slot
  · intro size
    rw [← hacap]
    exact exists_alloc_iff
  · intro c slot offset len hc
    have hfailed := hheld.failed_iff hc
    refine ⟨hfailed, fun hlt => hfailed.mpr fun b hb => ?_⟩
    rw [← hacap] at hlt
    exact (hheld.length_le hb).trans_lt hlt

/-- A slot that was given back is taken again, with zeros in it; giving it back twice
does not make it free twice. -/
example :
    (run { capacity := 8 }
      [.alloc 4, .write 0 1 [7], .release 0, .release 0, .alloc 3, .read 0 0 3, .alloc 2,
        .alloc 4, .read 0 2 2, .blockLen 9]).2 =
      [.taken 0, .done, .done, .done, .taken 0, .bytes [0, 0, 0], .taken 1,
        .failed (.exhausted 4 3), .failed (.outOfBounds 2 2 3), .failed (.invalidHandle 9)] := by
  decide

end Arena

end FilterBridge
