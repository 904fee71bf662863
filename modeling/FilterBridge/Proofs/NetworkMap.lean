import FilterBridge.Proofs.Removal
import Mathlib.Data.Finmap

/-!
# Runs of the table of networks

Whatever is done to a table of networks, one call after another, it answers as a finite
map does that has room for all networks but one of its slots.  That one slot stays empty,
and so the loops of the table end by themselves: none of them needs the bound on its
steps.

## Main definitions

* `NetworkTable.Finds`, `NetworkTable.Reaches`, `NetworkTable.Closes` — the loops of the
  table without a bound on their steps.
* `TableCall`, `TableAnswer` — calls and their answers.
* `NetworkTable.call`, `NetworkMap.call` — a call on the table, and on a finite map.
* `NetworkTable.Represents` — the table and the map have the same entries.

## Main results

* `NetworkTable.Represents.call` — a single call is answered alike, and leaves the same
  entries.
* `NetworkTable.answers_run` — so are all calls, from the empty table on.
-/

namespace FilterBridge

namespace NetworkTable

variable {t : NetworkTable} {n : Address} {e : NetworkEntry} {i z : Nat}

/-! ### Loops without a bound -/

/-- The search for network `n` that has come to slot `i` ends with the slot of `n`, or
with none, for as long as it takes. -/
inductive Finds (t : NetworkTable) (n : Address) : Nat → Option Nat → Prop
  /-- An empty slot ends it. -/
  | absent {i : Nat} (h : t.slot i = none) : Finds t n i none
  /-- So does the slot of `n`. -/
  | here {i : Nat} {e : NetworkEntry} (h : t.slot i = some e) (hn : e.network = n) :
    Finds t n i (some i)
  /-- Any other entry is passed. -/
  | later {i : Nat} {e : NetworkEntry} {r : Option Nat} (h : t.slot i = some e)
    (hn : e.network ≠ n) (hr : Finds t n (t.next i) r) : Finds t n i r

/-- The way from slot `i` past the slots that are taken ends at slot `j`. -/
inductive Reaches (t : NetworkTable) : Nat → Nat → Prop
  /-- An empty slot ends it. -/
  | here {i : Nat} (h : t.slot i = none) : Reaches t i i
  /-- Any other slot is passed. -/
  | later {i j : Nat} (h : (t.slot i).isSome) (hr : Reaches t (t.next i) j) : Reaches t i j

/-- Closing the gap at slot `hole`, after slot `i` was looked at, ends with table `t'`. -/
inductive Closes : NetworkTable → Nat → Nat → NetworkTable → Prop
  /-- An empty slot ends it. -/
  | done {t : NetworkTable} {hole i : Nat} (h : t.slot (t.next i) = none) : Closes t hole i t
  /-- An entry that its search reaches without the hole stays. -/
  | stay {t t' : NetworkTable} {hole i : Nat} {e : NetworkEntry}
    (h : t.slot (t.next i) = some e)
    (hb : reachedBefore hole (t.home e.network) (t.next i) = true)
    (hr : Closes t hole (t.next i) t') : Closes t hole i t'
  /-- Any other entry moves into the hole, and leaves one. -/
  | move {t t' : NetworkTable} {hole i : Nat} {e : NetworkEntry}
    (h : t.slot (t.next i) = some e)
    (hb : ¬ reachedBefore hole (t.home e.network) (t.next i) = true)
    (hr : Closes ((t.setSlot hole (some e)).setSlot (t.next i) none) (t.next i) (t.next i) t') :
    Closes t hole i t'

/-- An entry is not in an empty slot. -/
theorem ne_of_empty (hz : t.slot z = none) (he : t.slot i = some e) : i ≠ z := by
  rintro rfl
  rw [hz] at he
  simp at he

/-- With an empty slot within reach, a bounded search ends before its bound. -/
theorem finds_search (hz : z < t.capacity) (hempty : t.slot z = none) (n : Address) :
    ∀ (fuel i : Nat), i < t.capacity → steps t.capacity i z < fuel →
      t.Finds n i (t.search n fuel i) := by
  intro fuel
  induction fuel with
  | zero =>
    intro i _ hf
    omega
  | succ fuel ih =>
    intro i hi hf
    rw [search]
    cases he : t.slot i with
    | none => exact .absent he
    | some e =>
      by_cases hn : e.network = n
      · simpa only [hn, if_true] using Finds.here he hn
      · have hsteps := steps_next hi hz (ne_of_empty hempty he)
        simp only [hn, if_false]
        exact .later he hn (ih (t.next i) (next_lt hi) (by omega))

/-- So does the way to an empty slot. -/
theorem reaches_firstEmpty (hz : z < t.capacity) (hempty : t.slot z = none) :
    ∀ (fuel i : Nat), i < t.capacity → steps t.capacity i z < fuel →
      t.Reaches i (t.firstEmpty fuel i) := by
  intro fuel
  induction fuel with
  | zero =>
    intro i _ hf
    omega
  | succ fuel ih =>
    intro i hi hf
    rw [firstEmpty]
    cases he : t.slot i with
    | none => simpa using Reaches.here he
    | some e =>
      have hsteps := steps_next hi hz (ne_of_empty hempty he)
      simp only [Option.isSome_some, if_true]
      exact .later (by rw [he]; rfl) (ih (t.next i) (next_lt hi) (by omega))

/-- And so does closing a gap: the empty slot stays where it is, behind the hole. -/
theorem closes_closeGap : ∀ (fuel hole i : Nat) (t : NetworkTable), hole < t.capacity →
    i < t.capacity → z < t.capacity → t.slot z = none → z ≠ hole →
      steps t.capacity (t.next i) z < fuel → Closes t hole i (t.closeGap fuel hole i) := by
  intro fuel
  induction fuel with
  | zero =>
    intro hole i t _ _ _ _ _ hf
    omega
  | succ fuel ih =>
    intro hole i t hhole hi hz hempty hzh hf
    have hlt := next_lt hi
    rw [closeGap]
    cases he : t.slot (t.next i) with
    | none => exact .done he
    | some e =>
      have hzn := ne_of_empty hempty he
      have hsteps := steps_next hlt hz hzn
      simp only
      by_cases hb : reachedBefore hole (t.home e.network) (t.next i) = true
      · rw [if_pos hb]
        exact .stay he hb (ih hole (t.next i) t hhole hlt hz hempty hzh (by omega))
      · rw [if_neg hb]
        have hnext : ((t.setSlot hole (some e)).setSlot (t.next i) none).next (t.next i)
            = t.next (t.next i) := by simp [next]
        have hz' : ((t.setSlot hole (some e)).setSlot (t.next i) none).slot z = none := by
          rw [slot_setSlot_ne (by simpa using hlt) none hzn,
            slot_setSlot_ne hhole _ hzh.symm, hempty]
        refine .move he hb (ih _ _ _ (by simpa using hlt) (by simpa using hlt)
          (by simpa using hz) hz' hzn.symm ?_)
        rw [hnext]
        simp only [capacity_setSlot]
        omega

namespace WellFormed

/-- The search for any network ends, and with its position. -/
theorem finds_position? (h : t.WellFormed) (n : Address) :
    t.Finds n (t.home n) (t.position? n) := by
  obtain ⟨z, hz, hempty⟩ := h.exists_empty
  have hhome := home_lt h.capacity_pos n
  exact finds_search hz hempty n t.capacity (t.home n) hhome (steps_lt hhome hz)

/-- The way from the home slot of any network to an empty slot ends. -/
theorem reaches_home (h : t.WellFormed) (n : Address) :
    t.Reaches (t.home n) (t.firstEmpty t.capacity (t.home n)) := by
  obtain ⟨z, hz, hempty⟩ := h.exists_empty
  have hhome := home_lt h.capacity_pos n
  exact reaches_firstEmpty hz hempty t.capacity (t.home n) hhome (steps_lt hhome hz)

/-- Closing the gap that an entry leaves ends. -/
theorem closes_emptied (h : t.WellFormed) (he : t.slot i = some e) :
    Closes (t.emptied i) i i ((t.emptied i).closeGap t.capacity i i) := by
  obtain ⟨z, hz, hempty⟩ := h.exists_empty
  have hlt := slot_lt he
  have hzi := ne_of_empty hempty he
  have hnext : (t.emptied i).next i = t.next i := by simp [next]
  refine closes_closeGap (z := z) t.capacity i i (t.emptied i) (by simpa using hlt)
    (by simpa using hlt) (by simpa using hz) ?_ hzi.symm ?_
  · rw [slot_emptied hlt, if_neg hzi, hempty]
  · rw [hnext, capacity_emptied]
    exact steps_lt (next_lt hlt) hz

end WellFormed

end NetworkTable

/-! ### Calls -/

/-- A call on a table of networks. -/
inductive TableCall
  /-- Give a network a host table. -/
  | insert (network : Address) (table : Slot)
  /-- Remove a network. -/
  | erase (network : Address)
  /-- Find a network. -/
  | get (network : Address)
  /-- Find a network and set its flag. -/
  | setDirty (network : Address) (dirty : Bool)
  /-- Ask whether there is room for a network. -/
  | canInsert (network : Address)
  deriving DecidableEq, Repr

/-- The answer to a call. -/
inductive TableAnswer
  /-- The host table was taken, in place of another one or of none. -/
  | inserted (old : Option Slot)
  /-- There is no room for it in that many slots. -/
  | full (slots : Nat)
  /-- The entry that was found or removed. -/
  | entry (found : Option NetworkEntry)
  /-- Whether there is room. -/
  | room (there : Bool)
  deriving DecidableEq, Repr

/-- Calls one after another, with their answers. -/
def TableCall.run {α : Type} (step : α → TableCall → α × TableAnswer) :
    α → List TableCall → α × List TableAnswer
  | x, [] => (x, [])
  | x, call :: calls =>
    ((run step (step x call).1 calls).1, (step x call).2 :: (run step (step x call).1 calls).2)

/-- A call on the table. -/
def NetworkTable.call (t : NetworkTable) : TableCall → NetworkTable × TableAnswer
  | .insert n table =>
    match t.insert n table with
    | .ok (t', old) => (t', .inserted old)
    | .error e => (t, .full e.slots)
  | .erase n =>
    match t.erase? n with
    | some (t', e) => (t', .entry (some e))
    | none => (t, .entry none)
  | .get n => (t, .entry (t.get? n))
  | .setDirty n dirty => (t.setDirty n dirty, .entry (t.get? n))
  | .canInsert n => (t, .room (t.canInsert n))

/-- A finite map from networks to host tables, each with its flag. -/
abbrev NetworkMap := Finmap fun _ : Address => Slot × Bool

namespace NetworkMap

/-- The entry of a network. -/
def entry? (m : NetworkMap) (n : Address) : Option NetworkEntry :=
  (m.lookup n).map fun v => ⟨n, v.1, v.2⟩

/-- A call on a map that has room for one network less than it has slots. -/
def call (slots : Nat) (m : NetworkMap) : TableCall → NetworkMap × TableAnswer
  | .insert n table =>
    match m.lookup n with
    | some (old, _) => (m.insert n (table, true), .inserted (some old))
    | none =>
      if m.keys.card = slots - 1 then (m, .full slots)
      else (m.insert n (table, true), .inserted none)
  | .erase n => (m.erase n, .entry (m.entry? n))
  | .get n => (m, .entry (m.entry? n))
  | .setDirty n dirty =>
    match m.lookup n with
    | some (table, _) => (m.insert n (table, dirty), .entry (m.entry? n))
    | none => (m, .entry none)
  | .canInsert n => (m, .room ((m.lookup n).isSome || m.keys.card ≠ slots - 1))

end NetworkMap

namespace NetworkTable

variable {t t' : NetworkTable} {m : NetworkMap} {n : Address} {e : NetworkEntry}

/-! ### The table as a map -/

/-- A table and a map have the same entries. -/
structure Represents (t : NetworkTable) (m : NetworkMap) : Prop where
  /-- The entries are found. -/
  wellFormed : t.WellFormed
  /-- The entries that are found are those of the map. -/
  get?_eq : ∀ n, t.get? n = m.entry? n

/-- A call does to the table what it does to the map. -/
structure Follows (t : NetworkTable) (m : NetworkMap) (c : TableCall) : Prop where
  /-- It leaves the same entries. -/
  represents : (t.call c).1.Represents (NetworkMap.call t.capacity m c).1
  /-- It is answered alike. -/
  answer : (t.call c).2 = (NetworkMap.call t.capacity m c).2
  /-- The table keeps its slots. -/
  capacity : (t.call c).1.capacity = t.capacity

theorem represents_withCapacity (k : Nat) : (withCapacity k).Represents ∅ where
  wellFormed := wellFormed_withCapacity k
  get?_eq := by
    intro n
    rw [get?_withCapacity, NetworkMap.entry?, Finmap.lookup_empty, Option.map_none]

namespace Represents

/-- An entry is in the table when the map has it. -/
theorem mem_toList (h : t.Represents m) :
    e ∈ t.toList ↔ m.lookup e.network = some (e.table, e.dirty) := by
  have hget := get?_eq_some_iff h.wellFormed (n := e.network) (e := e)
  rw [and_iff_left rfl, h.get?_eq, NetworkMap.entry?, Option.map_eq_some_iff] at hget
  rw [← hget]
  constructor
  · rintro ⟨v, hv, he⟩
    rw [hv, ← he]
  · intro hv
    exact ⟨_, hv, rfl⟩

/-- The networks of the map are those of the table. -/
theorem keys_eq (h : t.Represents m) : m.keys = (t.toList.map (·.network)).toFinset := by
  ext n
  rw [Finmap.mem_keys, Finmap.mem_iff, List.mem_toFinset, List.mem_map]
  constructor
  · rintro ⟨v, hv⟩
    exact ⟨⟨n, v.1, v.2⟩, h.mem_toList.mpr hv, rfl⟩
  · rintro ⟨e, he, rfl⟩
    exact ⟨_, h.mem_toList.mp he⟩

/-- The entries are counted. -/
theorem card_keys (h : t.Represents m) : m.keys.card = t.count := by
  rw [h.keys_eq, List.toFinset_card_of_nodup h.wellFormed.nodup_networks, List.length_map,
    h.wellFormed.length_eq]

/-- There is room while the taken slots are not all but one. -/
theorem room_iff (h : t.Represents m) :
    t.count + 1 < t.capacity ↔ m.keys.card ≠ t.capacity - 1 := by
  have := h.card_keys
  have := h.wellFormed.count_lt
  omega

/-- A map whose entry at one network is another one is represented by a table that changed
there and nowhere else. -/
theorem of_insert {v : Slot × Bool} (h : t.Represents m) (hwf : t'.WellFormed)
    (hget : ∀ k, t'.get? k = if k = n then some ⟨n, v.1, v.2⟩ else t.get? k) :
    t'.Represents (m.insert n v) := by
  refine ⟨hwf, fun k => ?_⟩
  rw [hget, h.get?_eq, NetworkMap.entry?, NetworkMap.entry?]
  by_cases hk : k = n
  · subst hk
    rw [if_pos rfl, Finmap.lookup_insert, Option.map_some]
  · rw [if_neg hk, Finmap.lookup_insert_of_ne _ hk]

/-! ### Calls on both -/

theorem of_eq {c : TableCall} {m' : NetworkMap} {a : TableAnswer} (ht : t.call c = (t', a))
    (hm : NetworkMap.call t.capacity m c = (m', a)) (h : t'.Represents m')
    (hcap : t'.capacity = t.capacity) : t.Follows m c := by
  refine ⟨?_, ?_, ?_⟩
  · rw [ht, hm]
    exact h
  · rw [ht, hm]
  · rw [ht]
    exact hcap

theorem insert (h : t.Represents m) (n : Address) (table : Slot) :
    t.Follows m (.insert n table) := by
  have hroom := canInsert_iff h.wellFormed (n := n)
  rw [h.get?_eq, NetworkMap.entry?, Option.isSome_map, h.room_iff] at hroom
  cases hi : t.canInsert n with
  | false =>
    -- an absent network, and all slots but one taken
    rw [hi, Bool.false_eq_true, false_iff, not_or, not_not, Bool.not_eq_true,
      Option.isSome_eq_false_iff, Option.isNone_iff_eq_none] at hroom
    obtain ⟨hfull, hnone⟩ := hroom
    have ht : t.call (.insert n table) = (t, .full t.capacity) := by
      simp [NetworkTable.call, NetworkTable.insert, hi]
    have hm : NetworkMap.call t.capacity m (.insert n table) = (m, .full t.capacity) := by
      simp only [NetworkMap.call, hnone, if_pos hfull]
    exact of_eq ht hm h rfl
  | true =>
    obtain ⟨hwf, hplace, hold, hcap⟩ := place_spec h.wellFormed hi table
    have ht : t.call (.insert n table) =
        ((t.place n table).1, .inserted ((m.lookup n).map (·.1))) := by
      rw [h.get?_eq, NetworkMap.entry?, Option.map_map] at hold
      simp only [NetworkTable.call, NetworkTable.insert, hi, if_true, hold]
      rfl
    have hm : NetworkMap.call t.capacity m (.insert n table) =
        (m.insert n (table, true), .inserted ((m.lookup n).map (·.1))) := by
      cases hv : m.lookup n with
      | some v => simp only [NetworkMap.call, hv, Option.map_some]
      | none =>
        have hne : m.keys.card ≠ t.capacity - 1 := by simpa [hi, hv] using hroom
        simp only [NetworkMap.call, hv, if_neg hne, Option.map_none]
    exact of_eq ht hm (h.of_insert hwf hplace) hcap

theorem erase (h : t.Represents m) (n : Address) : t.Follows m (.erase n) := by
  have hm : NetworkMap.call t.capacity m (.erase n) = (m.erase n, .entry (m.entry? n)) := rfl
  have herase : ∀ k, NetworkMap.entry? (m.erase n) k = if k = n then none else t.get? k := by
    intro k
    rw [h.get?_eq, NetworkMap.entry?, NetworkMap.entry?]
    by_cases hk : k = n
    · rw [if_pos hk, hk, Finmap.lookup_erase, Option.map_none]
    · rw [if_neg hk, Finmap.lookup_erase_ne hk]
  rw [← h.get?_eq] at hm
  cases he : t.erase? n with
  | none =>
    have hnone := (erase?_eq_none_iff h.wellFormed).mp he
    have ht : t.call (.erase n) = (t, .entry (t.get? n)) := by
      simp only [NetworkTable.call, he, hnone]
    refine of_eq ht hm ⟨h.wellFormed, fun k => ?_⟩ rfl
    rw [herase]
    by_cases hk : k = n
    · rw [if_pos hk, hk, hnone]
    · rw [if_neg hk]
  | some r =>
    obtain ⟨t', e⟩ := r
    obtain ⟨hwf, hentry, hother, hcap⟩ := erase?_spec h.wellFormed he
    have ht : t.call (.erase n) = (t', .entry (t.get? n)) := by
      simp only [NetworkTable.call, he, hentry]
    exact of_eq ht hm ⟨hwf, fun k => (hother k).trans (herase k).symm⟩ hcap

theorem setDirty (h : t.Represents m) (n : Address) (dirty : Bool) :
    t.Follows m (.setDirty n dirty) := by
  have ht : t.call (.setDirty n dirty) = (t.setDirty n dirty, .entry (m.entry? n)) :=
    congrArg (fun o => (t.setDirty n dirty, TableAnswer.entry o)) (h.get?_eq n)
  have hwf := h.wellFormed.setDirty n dirty
  have hset := get?_setDirty h.wellFormed n dirty
  have hcap := capacity_setDirty t n dirty
  cases hv : m.lookup n with
  | none =>
    have hnone : m.entry? n = none := by rw [NetworkMap.entry?, hv, Option.map_none]
    have hm : NetworkMap.call t.capacity m (.setDirty n dirty) = (m, .entry (m.entry? n)) := by
      simp only [NetworkMap.call, hv, hnone]
    refine of_eq ht hm ⟨hwf, fun k => ?_⟩ hcap
    rw [hset, h.get?_eq]
    by_cases hk : k = n
    · rw [if_pos hk, hk, hnone, Option.map_none]
    · rw [if_neg hk]
  | some v =>
    have hsome : m.entry? n = some ⟨n, v.1, v.2⟩ := by
      rw [NetworkMap.entry?, hv, Option.map_some]
    have hm : NetworkMap.call t.capacity m (.setDirty n dirty) =
        (m.insert n (v.1, dirty), .entry (m.entry? n)) := by
      simp only [NetworkMap.call, hv]
    refine of_eq ht hm (h.of_insert hwf fun k => ?_) hcap
    rw [hset]
    by_cases hk : k = n
    · rw [if_pos hk, if_pos hk, hk, h.get?_eq, hsome, Option.map_some]
    · rw [if_neg hk, if_neg hk]

theorem canInsert (h : t.Represents m) (n : Address) : t.Follows m (.canInsert n) := by
  have hroom : t.canInsert n = ((m.lookup n).isSome || m.keys.card ≠ t.capacity - 1) := by
    rw [Bool.eq_iff_iff, canInsert_iff h.wellFormed, h.get?_eq, NetworkMap.entry?,
      Option.isSome_map, h.room_iff]
    simp [or_comm]
  exact ⟨h, congrArg TableAnswer.room hroom, rfl⟩

/-- Any call does to the table what it does to the map. -/
theorem call (h : t.Represents m) (c : TableCall) : t.Follows m c := by
  cases c with
  | insert n table => exact h.insert n table
  | erase n => exact h.erase n
  | get n => exact ⟨h, congrArg TableAnswer.entry (h.get?_eq n), rfl⟩
  | setDirty n dirty => exact h.setDirty n dirty
  | canInsert n => exact h.canInsert n

/-- All calls are answered as the map answers them. -/
theorem run (h : t.Represents m) (calls : List TableCall) :
    (TableCall.run NetworkTable.call t calls).1.Represents
        (TableCall.run (NetworkMap.call t.capacity) m calls).1 ∧
      (TableCall.run NetworkTable.call t calls).2 =
        (TableCall.run (NetworkMap.call t.capacity) m calls).2 ∧
      (TableCall.run NetworkTable.call t calls).1.capacity = t.capacity := by
  induction calls generalizing t m with
  | nil => exact ⟨h, rfl, rfl⟩
  | cons c calls ih =>
    obtain ⟨hrep, hanswer, hcap⟩ := h.call c
    obtain ⟨hrep', hanswers, hcap'⟩ := ih hrep
    rw [hcap] at hrep' hanswers hcap'
    exact ⟨hrep', congrArg₂ List.cons hanswer hanswers, hcap'⟩

end Represents

/-- Whatever calls come to an empty table, it answers them as a finite map does that has
room for one network less than there are slots.  The table holds as many entries as the
map has networks, and lists each of them once.  A network can be given a host table
whenever the table says so.

One slot stays empty.  So the search for a network, the search for an empty slot and the
closing of a gap end by themselves, with the result that the bounded loops have. -/
theorem answers_run (k : Nat) (calls : List TableCall) :
    let slots := (withCapacity k).capacity
    let t := (TableCall.run call (withCapacity k) calls).1
    let m := (TableCall.run (NetworkMap.call slots) ∅ calls).1
    (TableCall.run call (withCapacity k) calls).2 =
        (TableCall.run (NetworkMap.call slots) ∅ calls).2 ∧
      t.count = m.keys.card ∧
      (t.toList.map (·.network)).Nodup ∧
      (∀ e, e ∈ t.toList ↔ m.lookup e.network = some (e.table, e.dirty)) ∧
      (∀ n table, t.canInsert n = true ↔ ∃ r, t.insert n table = .ok r) ∧
      (t.capacity = slots ∧ ∃ z < slots, t.slot z = none) ∧
      (∀ n, t.Finds n (t.home n) (t.position? n)) ∧
      (∀ n, t.Reaches (t.home n) (t.firstEmpty slots (t.home n))) ∧
      ∀ n i, t.position? n = some i →
        Closes (t.emptied i) i i ((t.emptied i).closeGap slots i i) := by
  intro slots t m
  obtain ⟨hrep, hanswers, hcap⟩ := (represents_withCapacity k).run calls
  have hwf : t.WellFormed := hrep.wellFormed
  have hslots : t.capacity = slots := hcap
  refine ⟨hanswers, hrep.card_keys.symm, hwf.nodup_networks, fun e => hrep.mem_toList,
    fun n table => ?_, ⟨hslots, ?_⟩, hwf.finds_position?, ?_, ?_⟩
  · rw [NetworkTable.insert]
    cases t.canInsert n <;> simp
  · rw [← hslots]
    exact hwf.exists_empty
  · rw [← hslots]
    exact hwf.reaches_home
  · intro n i hi
    obtain ⟨e, he, -⟩ := (position?_eq_some_iff hwf).mp hi
    rw [← hslots]
    exact hwf.closes_emptied he

/-- Three networks fill a table of four slots; there is room for a fourth one when one of
them is removed. -/
example :
    (TableCall.run call (withCapacity 3)
      [.insert 0xC0A80100 5, .insert 0xC0A80200 6, .insert 0xC0A80300 7, .insert 0xC0A80400 8,
        .erase 0xC0A80100, .insert 0xC0A80400 8, .get 0xC0A80200]).2 =
      [.inserted none, .inserted none, .inserted none, .full 4,
        .entry (some ⟨0xC0A80100, 5, true⟩), .inserted none,
        .entry (some ⟨0xC0A80200, 6, true⟩)] := by
  decide +kernel

end NetworkTable

end FilterBridge
