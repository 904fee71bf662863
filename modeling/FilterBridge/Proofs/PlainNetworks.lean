import FilterBridge.Proofs.Faults
import FilterBridge.Proofs.NetworkMap

/-!
# The network table in a plain array

The network table as a program keeps it: positions are cut down by a mask, loops go on until
they meet an empty slot, and a count goes up and down.  While the table is in order, every
position is a slot, every loop ends, and the count is never below the entries.  So no operation
meets a fault, and each does what the network table does.

## Main definitions

* `PlainNetworks` — the slots in a plain array, with the operations of the table.
* `NetworkTable.plain` — the plain array of a table.

## Main results

* `NetworkTable.WellFormed.get?_plain`, `NetworkTable.WellFormed.insert_plain`,
  `NetworkTable.WellFormed.setDirty_plain`, `NetworkTable.WellFormed.erase_plain` — the
  operations meet no fault.
-/

namespace FilterBridge

open Checked

/-! ### The operations -/

/-- The slots of the networks in a plain array. -/
structure PlainNetworks where
  /-- The slots. -/
  slots : Array (Option NetworkEntry)
  /-- The bits of a position that count. -/
  mask : Nat
  /-- How many slots are taken. -/
  count : Nat

/-- The table in a plain array. -/
def NetworkTable.plain (t : NetworkTable) : PlainNetworks := ⟨t.slots, t.capacity - 1, t.count⟩

namespace PlainNetworks

/-- The slot where the search for a network starts. -/
def home (t : PlainNetworks) (network : Address) : Nat :=
  (NetworkTable.hash network).toNat &&& t.mask

/-- The slot after slot `i`. -/
def next (t : PlainNetworks) (i : Nat) : Nat := (i + 1) &&& t.mask

/-- Search `fuel` slots from slot `i` on for a network, up to an empty slot. -/
def search (t : PlainNetworks) (network : Address) : Nat → Nat → Checked (Option Nat)
  | 0, _ => return none
  | fuel + 1, i => do
    match ← fetch t.slots i with
    | none => return none
    | some e => if e.network = network then return some i else t.search network fuel (t.next i)

/-- The slot that holds a network. -/
def position? (t : PlainNetworks) (network : Address) : Checked (Option Nat) :=
  t.search network t.slots.size (t.home network)

/-- The entry of a network. -/
def get? (t : PlainNetworks) (network : Address) : Checked (Option NetworkEntry) := do
  match ← t.position? network with
  | none => return none
  | some i => fetch t.slots i

/-- Whether a network is present or there is room for it. -/
def canInsert (t : PlainNetworks) (network : Address) : Checked Bool := do
  if t.count + 1 < t.slots.size then return true
  return (← t.position? network).isSome

/-- The first empty slot from slot `i` on.  A way round the table without one does not end. -/
def firstEmpty (t : PlainNetworks) : Nat → Nat → Checked Nat
  | 0, _ => .error .endless
  | fuel + 1, i => do
    if (← fetch t.slots i).isSome then t.firstEmpty fuel (t.next i) else return i

/-- Give a network a host table; the one that it had before comes back. -/
def insert (t : PlainNetworks) (network : Address) (table : Slot) :
    Checked (Except TableFull (PlainNetworks × Option Slot)) := do
  match ← t.position? network with
  | some i =>
    let entry ← fetch t.slots i
    let slots ← store t.slots i (entry.map fun e => { e with table, dirty := true })
    return .ok ({ t with slots }, entry.map (·.table))
  | none =>
    if t.slots.size ≤ t.count + 1 then return .error ⟨t.slots.size⟩
    let i ← t.firstEmpty t.slots.size (t.home network)
    let slots ← store t.slots i (some ⟨network, table, true⟩)
    return .ok ({ t with slots, count := t.count + 1 }, none)

/-- Set the flag of a network that is present. -/
def setDirty (t : PlainNetworks) (network : Address) (dirty : Bool) : Checked PlainNetworks := do
  match ← t.position? network with
  | none => return t
  | some i =>
    let entry ← fetch t.slots i
    let slots ← store t.slots i (entry.map fun e => { e with dirty })
    return { t with slots }

/-- Close the gap at slot `hole`, after slot `i` was looked at, up to an empty slot. -/
def closeGap (t : PlainNetworks) : Nat → Nat → Nat → Checked PlainNetworks
  | 0, _, _ => .error .endless
  | fuel + 1, hole, i => do
    let j := t.next i
    match ← fetch t.slots j with
    | none => return t
    | some e =>
      if NetworkTable.reachedBefore hole (t.home e.network) j then t.closeGap fuel hole j
      else
        let slots ← store t.slots hole (some e)
        let slots ← store slots j none
        closeGap { t with slots } fuel j j

/-- Remove a network; its entry comes back. -/
def erase (t : PlainNetworks) (network : Address) :
    Checked (PlainNetworks × Option NetworkEntry) := do
  match ← t.position? network with
  | none => return (t, none)
  | some i =>
    let removed ← fetch t.slots i
    let slots ← store t.slots i none
    let count ← minus t.count 1
    let t ← closeGap { t with slots, count } t.slots.size i i
    return (t, removed)

end PlainNetworks

/-! ### They meet no fault -/

namespace NetworkTable

variable {t : NetworkTable} {n : Address} {e : NetworkEntry} {i z : Nat}

theorem size_plain (t : NetworkTable) : t.plain.slots.size = t.capacity := rfl

theorem count_plain (t : NetworkTable) : t.plain.count = t.count := rfl

/-- A mask of ten bits takes the remainder. -/
theorem and_mask (hcap : t.capacity = 1024) (i : Nat) : i &&& t.plain.mask = i % t.capacity := by
  rw [plain, hcap]
  exact Nat.and_two_pow_sub_one_eq_mod i 10

theorem home_plain (hcap : t.capacity = 1024) (n : Address) : t.plain.home n = t.home n :=
  and_mask hcap _

theorem next_plain (hcap : t.capacity = 1024) (i : Nat) : t.plain.next i = t.next i :=
  and_mask hcap _

theorem fetch_slots (h : i < t.capacity) : fetch t.plain.slots i = .ok (t.slot i) := by
  rw [slot, plain, Array.getElem?_eq_getElem h]
  exact fetch_of_getElem? (Array.getElem?_eq_getElem h)

theorem store_slots (h : i < t.capacity) (o : Option NetworkEntry) :
    store t.plain.slots i o = .ok (t.setSlot i o).plain.slots := store_of_lt h o

theorem plain_setSlot (t : NetworkTable) (i : Nat) (o : Option NetworkEntry) :
    (t.setSlot i o).plain = { t.plain with slots := (t.setSlot i o).plain.slots } := by
  simp [plain, setSlot, capacity]

theorem search_plain (hcap : t.capacity = 1024) (n : Address) : ∀ fuel i, i < t.capacity →
    t.plain.search n fuel i = .ok (t.search n fuel i) := by
  intro fuel
  induction fuel with
  | zero => intro i _; rfl
  | succ fuel ih =>
    intro i hi
    rw [PlainNetworks.search, search, fetch_slots hi, ok_bind]
    cases t.slot i with
    | none => rfl
    | some e =>
      simp only
      split
      · rfl
      · rw [next_plain hcap]
        exact ih _ (next_lt hi)

namespace WellFormed

variable (h : t.WellFormed) (hcap : t.capacity = 1024)

include h hcap

theorem position?_plain (n : Address) : t.plain.position? n = .ok (t.position? n) := by
  rw [PlainNetworks.position?, home_plain hcap]
  exact search_plain hcap n _ _ (home_lt h.capacity_pos n)

theorem get?_plain (n : Address) : t.plain.get? n = .ok (t.get? n) := by
  rw [PlainNetworks.get?, position?_plain h hcap, ok_bind, get?]
  cases hp : t.position? n with
  | none => rfl
  | some i =>
    obtain ⟨e, he, -⟩ := (position?_eq_some_iff h).mp hp
    exact fetch_slots (slot_lt he)

theorem canInsert_plain (n : Address) : t.plain.canInsert n = .ok (t.canInsert n) := by
  rw [PlainNetworks.canInsert, position?_plain h hcap, canInsert, size_plain, count_plain]
  by_cases hroom : t.count + 1 < t.capacity
  · rw [decide_eq_true hroom, if_pos hroom]
    rfl
  · rw [decide_eq_false hroom, if_neg hroom]
    rfl

/-- The flag of a network is set, if it is present. -/
theorem setDirty_plain (n : Address) (dirty : Bool) :
    t.plain.setDirty n dirty = .ok (t.setDirty n dirty).plain := by
  rw [PlainNetworks.setDirty, position?_plain h hcap, ok_bind, NetworkTable.setDirty]
  cases hp : t.position? n with
  | none => rfl
  | some i =>
    obtain ⟨e, he, -⟩ := (position?_eq_some_iff h).mp hp
    have hlt := slot_lt he
    simp only
    rw [fetch_slots hlt, ok_bind, store_slots hlt, ok_bind, ← plain_setSlot]
    rfl

omit h in
/-- The way to an empty slot ends there. -/
theorem firstEmpty_plain (hz : z < t.capacity) (hempty : t.slot z = none) :
    ∀ fuel i, i < t.capacity → steps t.capacity i z < fuel →
      t.plain.firstEmpty fuel i = .ok (t.firstEmpty fuel i) := by
  intro fuel
  induction fuel with
  | zero =>
    intro i _ hf
    omega
  | succ fuel ih =>
    intro i hi hf
    rw [PlainNetworks.firstEmpty, fetch_slots hi, ok_bind, firstEmpty]
    cases he : t.slot i with
    | none => rfl
    | some e =>
      have hsteps := steps_next hi hz (ne_of_empty hempty he)
      rw [next_plain hcap]
      exact ih (t.next i) (next_lt hi) (by omega)

/-- Giving a network a host table meets no fault. -/
theorem insert_plain (n : Address) (table : Slot) :
    t.plain.insert n table = .ok ((t.insert n table).map fun q => (q.1.plain, q.2)) := by
  rw [PlainNetworks.insert, position?_plain h hcap, ok_bind, insert, canInsert, size_plain,
    count_plain]
  cases hp : t.position? n with
  | some i =>
    obtain ⟨e, he, rfl⟩ := (position?_eq_some_iff h).mp hp
    have hlt := slot_lt he
    simp only
    rw [fetch_slots hlt, ok_bind, he, store_slots hlt, ok_bind, place_of_present hp he]
    simp [Except.map, plain, capacity, setSlot]
  | none =>
    simp only [Option.isSome_none, Bool.or_false]
    by_cases hroom : t.count + 1 < t.capacity
    · have hhome := home_lt h.capacity_pos n
      obtain ⟨z, hz, hempty⟩ := h.exists_empty
      have hfirst := firstEmpty_plain hcap hz hempty t.capacity (t.home n) hhome (steps_lt hhome hz)
      have hlt := (firstEmpty_spec hz hempty t.capacity (t.home n) hhome (steps_lt hhome hz)).1
      rw [if_neg (Nat.not_le.mpr hroom), home_plain hcap, hfirst, ok_bind, store_slots hlt,
        ok_bind, if_pos (decide_eq_true hroom), place_of_absent hp]
      simp [Except.map, NetworkTable.filled, plain, capacity, setSlot]
    · rw [if_pos (Nat.not_lt.mp hroom), if_neg (by simpa using hroom)]
      rfl

omit h in
/-- Closing a gap ends at an empty slot. -/
theorem closeGap_plain (hz : z < t.capacity) (hempty : t.slot z = none) {hole : Nat}
    (hhole : hole < t.capacity) (hzh : z ≠ hole) : ∀ fuel i, i < t.capacity →
      steps t.capacity (t.next i) z < fuel →
        t.plain.closeGap fuel hole i = .ok (t.closeGap fuel hole i).plain := by
  intro fuel
  induction fuel generalizing t hole with
  | zero =>
    intro i _ hf
    omega
  | succ fuel ih =>
    intro i hi hf
    have hlt := next_lt hi
    rw [PlainNetworks.closeGap, next_plain hcap, fetch_slots hlt, ok_bind, NetworkTable.closeGap]
    cases he : t.slot (t.next i) with
    | none => rfl
    | some e =>
      have hzn := ne_of_empty hempty he
      have hsteps := steps_next hlt hz hzn
      simp only [home_plain hcap]
      by_cases hb : reachedBefore hole (t.home e.network) (t.next i) = true
      · rw [if_pos hb, if_pos hb]
        exact ih hcap hz hempty hhole hzh _ hlt (by omega)
      · have hlt' : t.next i < (t.setSlot hole (some e)).capacity := by simpa using hlt
        rw [if_neg hb, if_neg hb, store_slots hhole, ok_bind, store_slots hlt', ok_bind]
        -- the entry has moved, and its old slot is the hole
        have hmoved : (⟨((t.setSlot hole (some e)).setSlot (t.next i) none).plain.slots,
            t.plain.mask, t.plain.count⟩ : PlainNetworks) =
            ((t.setSlot hole (some e)).setSlot (t.next i) none).plain := by
          simp [plain, setSlot, capacity]
        have hnext : ((t.setSlot hole (some e)).setSlot (t.next i) none).next (t.next i) =
            t.next (t.next i) := by simp [next]
        have hz' : ((t.setSlot hole (some e)).setSlot (t.next i) none).slot z = none := by
          rw [slot_setSlot_ne hlt' none hzn, slot_setSlot_ne hhole _ hzh.symm, hempty]
        rw [hmoved]
        refine ih (by simpa using hcap) (by simpa using hz) hz' (by simpa using hlt) hzn.symm _
          (by simpa using hlt) ?_
        rw [hnext]
        simp only [capacity_setSlot]
        omega

/-- Removing a network meets no fault. -/
theorem erase_plain (n : Address) :
    t.plain.erase n = .ok (match t.erase? n with
      | some (t', e) => (t'.plain, some e)
      | none => (t.plain, none)) := by
  rw [PlainNetworks.erase, position?_plain h hcap, ok_bind]
  cases hp : t.position? n with
  | none => simp [erase?, hp]
  | some i =>
    obtain ⟨e, he, -⟩ := (position?_eq_some_iff h).mp hp
    have hlt := slot_lt he
    -- an entry is there, so it is counted
    have hcount : 1 ≤ t.plain.count := by
      rw [count_plain, ← h.length_eq]
      exact List.length_pos_of_mem (mem_toList.mpr ⟨i, he⟩)
    obtain ⟨z, hz, hempty⟩ := h.exists_empty
    have hzi := ne_of_empty hempty he
    have hnext : (t.emptied i).next i = t.next i := by simp [next]
    have hempty' : (t.emptied i).slot z = none := by
      rw [slot_emptied hlt, if_neg hzi, hempty]
    have hclose := closeGap_plain (t := t.emptied i) (by simpa using hcap) (by simpa using hz)
      hempty' (by simpa using hlt) hzi.symm t.capacity i (by simpa using hlt)
      (by rw [hnext, capacity_emptied]; exact steps_lt (next_lt hlt) hz)
    have hemptied : (⟨(t.setSlot i none).plain.slots, t.plain.mask, t.plain.count - 1⟩ :
        PlainNetworks) = (t.emptied i).plain := by
      simp [plain, emptied, setSlot, capacity]
    simp only
    rw [fetch_slots hlt, ok_bind, store_slots hlt, ok_bind, minus_of_le hcount, ok_bind, hemptied,
      size_plain, hclose, ok_bind, erase?_of_present hp he, he]
    rfl

end WellFormed

end NetworkTable

end FilterBridge
