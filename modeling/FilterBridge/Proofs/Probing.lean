import FilterBridge.NetworkTable

/-!
# The table of networks is a finite map

A search walks around the circle of slots from the home slot of a network.  It
finds a network because no slot that it passes on the way is empty, and it ends
because some slot is.  Every operation keeps both facts, and so the table answers
as a finite map from networks to entries does.  Removals are treated apart.

## Main definitions

* `NetworkTable.Passes`, `NetworkTable.steps` — the way of a search.
* `NetworkTable.WellFormed` — the invariant.

## Main results

* `NetworkTable.get?_eq_some_iff` — the entry of a network is the one in the list
  of entries.
* `NetworkTable.place_spec` — giving a network a host table changes the map there
  and nowhere else.
* `NetworkTable.get?_setDirty`, `NetworkTable.WellFormed.setDirty` — so does setting
  a flag.
-/

namespace FilterBridge

namespace NetworkTable

variable {t : NetworkTable} {n : Address} {e : NetworkEntry} {i j : Nat}

/-! ### The circle of slots -/

/-- A search from slot `i` passes slot `p` before it comes to slot `j`. -/
def Passes (i p j : Nat) : Prop :=
  (i ≤ j ∧ i ≤ p ∧ p < j) ∨ (j < i ∧ (i ≤ p ∨ p < j))

/-- How many of `cap` slots a search from slot `i` passes before it comes to
slot `j`. -/
def steps (cap i j : Nat) : Nat := if i ≤ j then j - i else j + cap - i

theorem next_cases (hi : i < t.capacity) :
    (i + 1 = t.capacity ∧ t.next i = 0) ∨ (i + 1 < t.capacity ∧ t.next i = i + 1) := by
  rw [next]
  rcases Nat.lt_or_ge (i + 1) t.capacity with h | h
  · exact .inr ⟨h, Nat.mod_eq_of_lt h⟩
  · have : i + 1 = t.capacity := by omega
    exact .inl ⟨this, by rw [this, Nat.mod_self]⟩

theorem next_lt (hi : i < t.capacity) : t.next i < t.capacity := by
  rcases next_cases hi with ⟨_, h⟩ | ⟨_, h⟩ <;> omega

theorem steps_lt (hi : i < t.capacity) (hj : j < t.capacity) :
    steps t.capacity i j < t.capacity := by
  unfold steps
  split <;> omega

/-- One slot further on, there is one slot less to pass. -/
theorem steps_next (hi : i < t.capacity) (hj : j < t.capacity) (hne : i ≠ j) :
    steps t.capacity (t.next i) j + 1 = steps t.capacity i j := by
  unfold steps
  rcases next_cases hi with ⟨hc, h⟩ | ⟨hc, h⟩ <;> rw [h] <;> split <;> split <;> omega

theorem Passes.of_next {p : Nat} (hi : i < t.capacity) (hj : j < t.capacity) (hne : i ≠ j)
    (h : Passes (t.next i) p j) : Passes i p j := by
  unfold Passes at *
  rcases next_cases hi with ⟨_, hn⟩ | ⟨_, hn⟩ <;> omega

theorem passes_self (hne : i ≠ j) : Passes i i j := by
  unfold Passes
  omega

theorem home_lt (h : 0 < t.capacity) (n : Address) : t.home n < t.capacity :=
  Nat.mod_lt _ h

theorem reachedBefore_iff {hole home : Nat} : reachedBefore hole home i = true ↔
    (hole ≤ i ∧ hole < home ∧ home ≤ i) ∨ (i < hole ∧ (hole < home ∨ home ≤ i)) := by
  unfold reachedBefore
  split <;> simp only [Bool.and_eq_true, Bool.or_eq_true, decide_eq_true_eq] <;> omega

/-! ### Slots -/

theorem slot_lt (h : t.slot i = some e) : i < t.capacity := by
  unfold slot at h
  rcases Nat.lt_or_ge i t.slots.size with hi | hi
  · exact hi
  · rw [Array.getElem?_eq_none hi] at h
    simp at h

@[simp] theorem capacity_setSlot (t : NetworkTable) (i : Nat) (o : Option NetworkEntry) :
    (t.setSlot i o).capacity = t.capacity := by
  simp [setSlot, capacity]

@[simp] theorem count_setSlot (t : NetworkTable) (i : Nat) (o : Option NetworkEntry) :
    (t.setSlot i o).count = t.count := rfl

@[simp] theorem home_setSlot (t : NetworkTable) (i : Nat) (o : Option NetworkEntry)
    (n : Address) : (t.setSlot i o).home n = t.home n := by
  simp [home]

theorem slot_setSlot (hi : i < t.capacity) (o : Option NetworkEntry) (j : Nat) :
    (t.setSlot i o).slot j = if i = j then o else t.slot j := by
  unfold slot setSlot
  by_cases hj : i = j
  · subst hj
    simp only [Array.getElem?_setIfInBounds_self_of_lt hi, Option.join_some, if_true]
  · simp only [Array.getElem?_setIfInBounds_ne hj, if_neg hj]

theorem slot_setSlot_ne (hi : i < t.capacity) (o : Option NetworkEntry) (hne : i ≠ j) :
    (t.setSlot i o).slot j = t.slot j := by
  rw [slot_setSlot hi, if_neg hne]

theorem mem_toList : e ∈ t.toList ↔ ∃ i, t.slot i = some e := by
  simp only [toList, List.mem_filterMap, id_eq, exists_eq_right, Array.mem_toList_iff,
    Array.mem_iff_getElem?, slot, Option.join_eq_some_iff]

private theorem filterMap_set_perm {α : Type} (a : α) : ∀ (l : List (Option α)) (i : Nat),
    i < l.length → ((l.set i (some a)).filterMap id).Perm (a :: (l.set i none).filterMap id) := by
  intro l
  induction l with
  | nil => intro i hi; simp at hi
  | cons o l ih =>
    intro i hi
    cases i with
    | zero => simp
    | succ i =>
      have hp := ih i (by simpa using hi)
      cases o with
      | none => simpa using hp
      | some b => simpa using (hp.cons b).trans (List.Perm.swap a b _)

/-- Filling a slot adds an entry. -/
theorem toList_setSlot_some (hi : i < t.capacity) (e : NetworkEntry) :
    (t.setSlot i (some e)).toList.Perm (e :: (t.setSlot i none).toList) := by
  have hl : i < t.slots.toList.length := by simpa [capacity] using hi
  simpa [toList, setSlot] using filterMap_set_perm e t.slots.toList i hl

/-- A slot may be set to what it holds. -/
theorem setSlot_slot (t : NetworkTable) (i : Nat) : t.setSlot i (t.slot i) = t := by
  rcases t with ⟨slots, count⟩
  simp only [setSlot, slot, mk.injEq, and_true]
  rcases Nat.lt_or_ge i slots.size with hi | hi
  · rw [Array.getElem?_eq_getElem hi, Option.join_some, Array.setIfInBounds_def, dif_pos hi,
      Array.set_getElem_self]
  · rw [Array.setIfInBounds_def, dif_neg (by omega)]

/-- Emptying a slot takes its entry away. -/
theorem toList_setSlot_none (h : t.slot i = some e) :
    t.toList.Perm (e :: (t.setSlot i none).toList) := by
  have hp := toList_setSlot_some (slot_lt h) e
  rwa [← h, setSlot_slot] at hp

/-- Emptying an empty slot changes nothing. -/
theorem setSlot_none_of_empty (h : t.slot i = none) : t.setSlot i none = t := by
  rw [← h, setSlot_slot]

/-- The table with a slot emptied. -/
def emptied (t : NetworkTable) (i : Nat) : NetworkTable :=
  { t.setSlot i none with count := t.count - 1 }

/-- The table with an empty slot filled. -/
def filled (t : NetworkTable) (i : Nat) (e : NetworkEntry) : NetworkTable :=
  { t.setSlot i (some e) with count := t.count + 1 }

@[simp] theorem capacity_emptied (t : NetworkTable) (i : Nat) :
    (t.emptied i).capacity = t.capacity := capacity_setSlot t i none

@[simp] theorem capacity_filled (t : NetworkTable) (i : Nat) (e : NetworkEntry) :
    (t.filled i e).capacity = t.capacity := capacity_setSlot t i (some e)

@[simp] theorem home_emptied (t : NetworkTable) (i : Nat) (n : Address) :
    (t.emptied i).home n = t.home n := by
  simp [home]

@[simp] theorem home_filled (t : NetworkTable) (i : Nat) (e : NetworkEntry) (n : Address) :
    (t.filled i e).home n = t.home n := by
  simp [home]

theorem slot_emptied (hi : i < t.capacity) (j : Nat) :
    (t.emptied i).slot j = if i = j then none else t.slot j := slot_setSlot hi none j

theorem slot_filled (hi : i < t.capacity) (e : NetworkEntry) (j : Nat) :
    (t.filled i e).slot j = if i = j then some e else t.slot j := slot_setSlot hi (some e) j

theorem toList_emptied (h : t.slot i = some e) : t.toList.Perm (e :: (t.emptied i).toList) :=
  toList_setSlot_none h

theorem toList_filled (hi : i < t.capacity) (h : t.slot i = none) (e : NetworkEntry) :
    (t.filled i e).toList.Perm (e :: t.toList) := by
  have hp := toList_setSlot_some hi e
  rwa [setSlot_none_of_empty h] at hp

/-! ### The invariant -/

/-- The entries lie so that every search for one of them finds it. -/
structure WellFormed (t : NetworkTable) : Prop where
  /-- The entries are counted. -/
  length_eq : t.toList.length = t.count
  /-- One slot is empty. -/
  count_lt : t.count < t.capacity
  /-- No network has two slots. -/
  unique : ∀ i j e e', t.slot i = some e → t.slot j = some e' → e.network = e'.network → i = j
  /-- The search for an entry passes no empty slot. -/
  reached : ∀ j e, t.slot j = some e → ∀ p < t.capacity,
    Passes (t.home e.network) p j → (t.slot p).isSome

namespace WellFormed

theorem capacity_pos (h : t.WellFormed) : 0 < t.capacity := by
  have := h.count_lt
  omega

theorem exists_empty (h : t.WellFormed) : ∃ z < t.capacity, t.slot z = none := by
  by_cases hz : ∃ z < t.capacity, t.slot z = none
  · exact hz
  · -- otherwise there were as many entries as slots
    have hall : t.toList.length = t.slots.toList.length := by
      rw [toList, List.filterMap_length_eq_length]
      intro o ho
      obtain ⟨i, hi, rfl⟩ := List.mem_iff_getElem.mp ho
      have hi' : i < t.slots.size := by simpa using hi
      rw [id_eq, ← Option.ne_none_iff_isSome]
      intro hn
      refine hz ⟨i, hi', ?_⟩
      have : t.slots[i] = none := by simpa using hn
      rw [slot, Array.getElem?_eq_getElem hi', this]
      rfl
    have := h.count_lt
    have := h.length_eq
    rw [capacity] at *
    simp only [Array.length_toList] at hall
    omega

/-- No network is in the list of entries twice. -/
theorem nodup_networks (h : t.WellFormed) : (t.toList.map (·.network)).Nodup := by
  rw [List.Nodup, List.pairwise_map, toList, List.pairwise_filterMap, List.pairwise_iff_getElem]
  intro i j hi hj hlt e he e' he' heq
  have hslot : ∀ k (hk : k < t.slots.toList.length) (a : NetworkEntry),
      id t.slots.toList[k] = some a → t.slot k = some a := by
    intro k hk a ha
    have hk' : k < t.slots.size := by simpa using hk
    have : t.slots[k] = some a := by simpa using ha
    rw [slot, Array.getElem?_eq_getElem hk', this]
    rfl
  have := h.unique i j e e' (hslot i hi e he) (hslot j hj e' he') heq
  omega

end WellFormed

/-! ### Searching -/

theorem slot_of_search : ∀ (fuel i : Nat), t.search n fuel i = some j →
    ∃ e, t.slot j = some e ∧ e.network = n := by
  intro fuel
  induction fuel with
  | zero => intro i h; simp [search] at h
  | succ fuel ih =>
    intro i h
    rw [search] at h
    cases hs : t.slot i with
    | none => rw [hs] at h; simp at h
    | some e =>
      rw [hs] at h
      by_cases he : e.network = n
      · simp only [he, if_true, Option.some.injEq] at h
        subst h
        exact ⟨e, hs, he⟩
      · simp only [he, if_false] at h
        exact ih _ h

/-- A search finds the slot of a network if it passes no empty slot before it,
and goes far enough. -/
theorem search_eq_some (h : t.WellFormed) (hj : t.slot j = some e) :
    ∀ (fuel i : Nat), i < t.capacity → steps t.capacity i j < fuel →
      (∀ p < t.capacity, Passes i p j → (t.slot p).isSome) →
      t.search e.network fuel i = some j := by
  intro fuel
  induction fuel with
  | zero => intro i _ hf; omega
  | succ fuel ih =>
    intro i hi hf hpath
    rw [search]
    by_cases hij : i = j
    · subst hij
      simp [hj]
    · -- another entry is here, so the search goes on
      obtain ⟨e', he'⟩ := Option.isSome_iff_exists.mp (hpath i hi (passes_self hij))
      have hne : e'.network ≠ e.network := fun heq => hij (h.unique i j e' e he' hj heq)
      simp only [he', hne, if_false]
      have := steps_next hi (slot_lt hj) hij
      refine ih _ (next_lt hi) (by omega) fun p hp hpass => ?_
      exact hpath p hp (hpass.of_next hi (slot_lt hj) hij)

theorem position?_eq_some_iff (h : t.WellFormed) :
    t.position? n = some j ↔ ∃ e, t.slot j = some e ∧ e.network = n := by
  constructor
  · exact slot_of_search _ _
  · rintro ⟨e, he, rfl⟩
    have hhome := home_lt h.capacity_pos e.network
    exact search_eq_some h he _ _ hhome (steps_lt hhome (slot_lt he)) (h.reached j e he)

/-- The entry of a network is the one in the list of entries. -/
theorem get?_eq_some_iff (h : t.WellFormed) :
    t.get? n = some e ↔ e ∈ t.toList ∧ e.network = n := by
  rw [get?, Option.bind_eq_some_iff, mem_toList]
  constructor
  · rintro ⟨j, hj, he⟩
    obtain ⟨e', he', hn⟩ := (position?_eq_some_iff h).mp hj
    obtain rfl : e' = e := by simpa [he] using he'.symm
    exact ⟨⟨j, he⟩, hn⟩
  · rintro ⟨⟨j, he⟩, hn⟩
    exact ⟨j, (position?_eq_some_iff h).mpr ⟨e, he, hn⟩, he⟩

/-- An entry of the table is found at its network. -/
theorem get?_of_mem (h : t.WellFormed) (he : e ∈ t.toList) : t.get? e.network = some e :=
  (get?_eq_some_iff h).mpr ⟨he, rfl⟩

theorem get?_eq_none_iff (h : t.WellFormed) :
    t.get? n = none ↔ ∀ e ∈ t.toList, e.network ≠ n := by
  rw [Option.eq_none_iff_forall_ne_some]
  constructor
  · intro hn e he heq
    exact hn e ((get?_eq_some_iff h).mpr ⟨he, heq⟩)
  · intro hn e he
    obtain ⟨hm, heq⟩ := (get?_eq_some_iff h).mp he
    exact hn e hm heq

theorem position?_isSome (h : t.WellFormed) (n : Address) :
    (t.position? n).isSome = (t.get? n).isSome := by
  rw [get?]
  cases hp : t.position? n with
  | none => rfl
  | some j =>
    obtain ⟨e, he, -⟩ := (position?_eq_some_iff h).mp hp
    simp [he]

/-- Two tables with the same entries answer alike. -/
theorem get?_congr {t' : NetworkTable} (h : t.WellFormed) (h' : t'.WellFormed)
    (hm : ∀ e, e.network = n → (e ∈ t'.toList ↔ e ∈ t.toList)) : t'.get? n = t.get? n := by
  ext e
  rw [get?_eq_some_iff h, get?_eq_some_iff h']
  constructor
  · rintro ⟨he, hn⟩
    exact ⟨(hm e hn).mp he, hn⟩
  · rintro ⟨he, hn⟩
    exact ⟨(hm e hn).mpr he, hn⟩

/-! ### Changing an entry in its slot -/

/-- An entry may give way to another one of its network. -/
theorem WellFormed.replace {old : NetworkEntry} (h : t.WellFormed) (hi : t.slot i = some old)
    (hn : e.network = old.network) : (t.setSlot i (some e)).WellFormed where
  length_eq := by
    have h₁ := (toList_setSlot_some (slot_lt hi) e).length_eq
    have h₂ := (toList_setSlot_none hi).length_eq
    have := h.length_eq
    simp only [List.length_cons] at h₁ h₂
    rw [count_setSlot]
    omega
  count_lt := by simpa using h.count_lt
  unique := by
    intro j k a b ha hb hab
    rw [slot_setSlot (slot_lt hi)] at ha hb
    -- every slot holds the network that it held before
    have hold : ∀ l c, (if i = l then some e else t.slot l) = some c →
        ∃ c', t.slot l = some c' ∧ c'.network = c.network := by
      intro l c hc
      by_cases hl : i = l
      · rw [if_pos hl] at hc
        obtain rfl := Option.some.inj hc
        exact ⟨old, hl ▸ hi, hn.symm⟩
      · rw [if_neg hl] at hc
        exact ⟨c, hc, rfl⟩
    obtain ⟨a', ha', hna⟩ := hold j a ha
    obtain ⟨b', hb', hnb⟩ := hold k b hb
    exact h.unique j k a' b' ha' hb' (by rw [hna, hnb, hab])
  reached := by
    intro j a ha p hp hpass
    simp only [capacity_setSlot, home_setSlot] at hp hpass
    rw [slot_setSlot (slot_lt hi)] at ha ⊢
    -- no slot has become empty, and no search has become longer
    by_cases hip : i = p
    · simp [hip]
    · rw [if_neg hip]
      by_cases hj : i = j
      · rw [if_pos hj] at ha
        obtain rfl := Option.some.inj ha
        rw [hn] at hpass
        exact h.reached j old (hj ▸ hi) p hp hpass
      · rw [if_neg hj] at ha
        exact h.reached j a ha p hp hpass

theorem mem_toList_replace {old a : NetworkEntry} (h : t.WellFormed) (hi : t.slot i = some old)
    (hn : e.network = old.network) :
    a ∈ (t.setSlot i (some e)).toList ↔ a = e ∨ (a ∈ t.toList ∧ a.network ≠ e.network) := by
  rw [(toList_setSlot_some (slot_lt hi) e).mem_iff, (toList_setSlot_none hi).mem_iff,
    List.mem_cons, List.mem_cons]
  -- the entry that gives way was the only one of its network
  have hnd : (old :: (t.setSlot i none).toList |>.map (·.network)).Nodup :=
    ((toList_setSlot_none hi).map _).nodup_iff.mp h.nodup_networks
  rw [List.map_cons, List.nodup_cons] at hnd
  constructor
  · rintro (rfl | ha)
    · exact .inl rfl
    · refine .inr ⟨.inr ha, fun heq => hnd.1 ?_⟩
      rw [← hn, ← heq]
      exact List.mem_map_of_mem ha
  · rintro (rfl | ⟨rfl | ha, hne⟩)
    · exact .inl rfl
    · exact absurd hn.symm hne
    · exact .inr ha

theorem get?_replace {old : NetworkEntry} (h : t.WellFormed) (hi : t.slot i = some old)
    (hn : e.network = old.network) (m : Address) :
    (t.setSlot i (some e)).get? m = if m = e.network then some e else t.get? m := by
  have h' := h.replace hi hn
  by_cases hm : m = e.network
  · rw [if_pos hm, get?_eq_some_iff h']
    exact ⟨(mem_toList_replace h hi hn).mpr (.inl rfl), hm.symm⟩
  · rw [if_neg hm]
    refine get?_congr h h' fun a ha => ?_
    rw [mem_toList_replace h hi hn]
    constructor
    · rintro (rfl | ⟨ha', -⟩)
      · exact absurd ha.symm hm
      · exact ha'
    · intro ha'
      exact .inr ⟨ha', fun heq => hm (ha ▸ heq)⟩

/-- Setting a flag keeps the invariant. -/
theorem WellFormed.setDirty (h : t.WellFormed) (n : Address) (dirty : Bool) :
    (t.setDirty n dirty).WellFormed := by
  rw [NetworkTable.setDirty]
  cases hp : t.position? n with
  | none => exact h
  | some i =>
    obtain ⟨e, he, -⟩ := (position?_eq_some_iff h).mp hp
    simp only [he, Option.map_some]
    exact h.replace he rfl

theorem get?_setDirty (h : t.WellFormed) (n : Address) (dirty : Bool) (m : Address) :
    (t.setDirty n dirty).get? m =
      if m = n then (t.get? m).map fun e => { e with dirty } else t.get? m := by
  rw [NetworkTable.setDirty]
  cases hp : t.position? n with
  | none =>
    by_cases hm : m = n
    · simp [hm, get?, hp]
    · simp [hm]
  | some i =>
    obtain ⟨e, he, hn⟩ := (position?_eq_some_iff h).mp hp
    simp only [he, Option.map_some]
    rw [get?_replace (e := { e with dirty }) h he rfl]
    by_cases hm : m = n
    · have hg : t.get? m = some e := by simp [hm, get?, hp, he]
      rw [if_pos (hm.trans hn.symm), if_pos hm, hg, Option.map_some]
    · rw [if_neg (fun heq => hm (heq.trans hn)), if_neg hm]

@[simp] theorem capacity_setDirty (t : NetworkTable) (n : Address) (dirty : Bool) :
    (t.setDirty n dirty).capacity = t.capacity := by
  rw [NetworkTable.setDirty]
  split <;> simp

@[simp] theorem count_setDirty (t : NetworkTable) (n : Address) (dirty : Bool) :
    (t.setDirty n dirty).count = t.count := by
  rw [NetworkTable.setDirty]
  split <;> simp

/-! ### Adding an entry -/

/-- The slot that is taken for a new entry is empty, and the search for it passes
no empty slot. -/
theorem firstEmpty_spec {z : Nat} (hz : z < t.capacity) (hempty : t.slot z = none) :
    ∀ (fuel i : Nat), i < t.capacity → steps t.capacity i z < fuel →
      t.firstEmpty fuel i < t.capacity ∧ t.slot (t.firstEmpty fuel i) = none ∧
        ∀ p < t.capacity, Passes i p (t.firstEmpty fuel i) → (t.slot p).isSome := by
  intro fuel
  induction fuel with
  | zero => intro i _ hf; omega
  | succ fuel ih =>
    intro i hi hf
    rw [firstEmpty]
    cases hs : t.slot i with
    | none =>
      refine ⟨hi, by simp [hs], fun p _ hpass => ?_⟩
      unfold Passes at hpass
      simp only [Option.isSome_none, Bool.false_eq_true, if_false] at hpass
      omega
    | some e =>
      -- slot `z` is further on and bounds how far there is to look
      have hne : i ≠ z := by
        rintro rfl
        rw [hempty] at hs
        simp at hs
      have := steps_next hi hz hne
      obtain ⟨hlt, hnone, hpath⟩ := ih (t.next i) (next_lt hi) (by omega)
      simp only [Option.isSome_some, if_true]
      refine ⟨hlt, hnone, fun p hp hpass => ?_⟩
      by_cases hpi : p = i
      · simp [hpi, hs]
      · refine hpath p hp ?_
        generalize t.firstEmpty fuel (t.next i) = k at *
        unfold Passes at *
        rcases next_cases hi with ⟨hc, hn⟩ | ⟨hc, hn⟩ <;> omega

/-- A new entry may go into an empty slot that its search reaches. -/
theorem WellFormed.filled (h : t.WellFormed) (hroom : t.count + 1 < t.capacity)
    (hi : i < t.capacity) (hempty : t.slot i = none)
    (hpath : ∀ p < t.capacity, Passes (t.home e.network) p i → (t.slot p).isSome)
    (hnew : t.get? e.network = none) : (t.filled i e).WellFormed where
  length_eq := by
    rw [(toList_filled hi hempty e).length_eq, List.length_cons, h.length_eq]
    rfl
  count_lt := by
    rw [capacity_filled]
    exact hroom
  unique := by
    intro j k a b ha hb hab
    rw [slot_filled hi] at ha hb
    have hnone : ∀ l c, t.slot l = some c → c.network ≠ e.network := fun l c hc =>
      (get?_eq_none_iff h).mp hnew c (mem_toList.mpr ⟨l, hc⟩)
    -- of two entries for one network, at most one would be the new one
    by_cases hj : i = j <;> by_cases hk : i = k
    · exact hj.symm.trans hk
    · rw [if_pos hj] at ha
      rw [if_neg hk] at hb
      obtain rfl := Option.some.inj ha
      exact absurd hab.symm (hnone k b hb)
    · rw [if_neg hj] at ha
      rw [if_pos hk] at hb
      obtain rfl := Option.some.inj hb
      exact absurd hab (hnone j a ha)
    · rw [if_neg hj] at ha
      rw [if_neg hk] at hb
      exact h.unique j k a b ha hb hab
  reached := by
    intro j a ha p hp hpass
    simp only [capacity_filled, home_filled] at hp hpass
    rw [slot_filled hi] at ha ⊢
    by_cases hip : i = p
    · simp [hip]
    · rw [if_neg hip]
      by_cases hj : i = j
      · rw [if_pos hj] at ha
        obtain rfl := Option.some.inj ha
        exact hpath p hp (hj ▸ hpass)
      · rw [if_neg hj] at ha
        exact h.reached j a ha p hp hpass

theorem canInsert_iff (h : t.WellFormed) :
    t.canInsert n = true ↔ t.count + 1 < t.capacity ∨ (t.get? n).isSome := by
  rw [canInsert, Bool.or_eq_true, decide_eq_true_eq, position?_isSome h]

theorem place_of_present (hi : t.position? n = some i) (he : t.slot i = some e) (table : Slot) :
    t.place n table = (t.setSlot i (some ⟨n, table, true⟩), some e.table) := by
  simp [place, hi, he]

theorem place_of_absent (hi : t.position? n = none) (table : Slot) :
    t.place n table =
      (t.filled (t.firstEmpty t.capacity (t.home n)) ⟨n, table, true⟩, none) := by
  simp only [place, hi, filled, setSlot]

/-- Giving a network a host table keeps the invariant, and changes the map at that
network only. -/
theorem place_spec (h : t.WellFormed) (hroom : t.canInsert n = true) (table : Slot) :
    (t.place n table).1.WellFormed ∧
      (∀ m, (t.place n table).1.get? m = if m = n then some ⟨n, table, true⟩ else t.get? m) ∧
      (t.place n table).2 = (t.get? n).map (·.table) ∧
      (t.place n table).1.capacity = t.capacity := by
  cases hp : t.position? n with
  | some i =>
    obtain ⟨e, he, hn⟩ := (position?_eq_some_iff h).mp hp
    rw [place_of_present hp he]
    refine ⟨h.replace he hn.symm, get?_replace h he hn.symm, ?_, capacity_setSlot t i _⟩
    simp [get?, hp, he]
  | none =>
    have hget : t.get? n = none := by simp [get?, hp]
    have hcount : t.count + 1 < t.capacity := by
      simpa [hget] using (canInsert_iff h).mp hroom
    -- the new entry goes where the search for its network ends
    obtain ⟨z, hz, hempty⟩ := h.exists_empty
    have hhome := home_lt h.capacity_pos n
    obtain ⟨hlt, hnone, hpath⟩ := firstEmpty_spec hz hempty t.capacity (t.home n) hhome
      (steps_lt hhome hz)
    rw [place_of_absent hp]
    generalize t.firstEmpty t.capacity (t.home n) = k at *
    have hwf := h.filled (e := ⟨n, table, true⟩) hcount hlt hnone hpath hget
    refine ⟨hwf, fun m => ?_, by simp [hget], capacity_filled t k _⟩
    have hmem : ∀ a, a ∈ (t.filled k ⟨n, table, true⟩).toList ↔
        a = ⟨n, table, true⟩ ∨ a ∈ t.toList := by
      intro a
      rw [(toList_filled hlt hnone _).mem_iff, List.mem_cons]
    by_cases hm : m = n
    · rw [if_pos hm, get?_eq_some_iff hwf]
      exact ⟨(hmem _).mpr (.inl rfl), hm.symm⟩
    · rw [if_neg hm]
      refine get?_congr h hwf fun a ha => (hmem a).trans ⟨?_, .inr⟩
      rintro (rfl | ha')
      · exact absurd ha.symm hm
      · exact ha'

/-! ### The empty table -/

theorem capacity_withCapacity_pos (k : Nat) : 0 < (withCapacity k).capacity := by
  simp only [withCapacity, capacity, Array.size_replicate]
  exact Nat.pos_of_isPowerOfTwo (Nat.isPowerOfTwo_nextPowerOfTwo _)

theorem slot_withCapacity (k i : Nat) : (withCapacity k).slot i = none := by
  simp only [withCapacity, slot, Array.getElem?_replicate]
  split <;> rfl

theorem wellFormed_withCapacity (k : Nat) : (withCapacity k).WellFormed where
  length_eq := by
    have : (withCapacity k).toList = [] := by
      refine List.eq_nil_iff_forall_not_mem.mpr fun e he => ?_
      obtain ⟨i, hi⟩ := mem_toList.mp he
      rw [slot_withCapacity] at hi
      simp at hi
    rw [this]
    rfl
  count_lt := capacity_withCapacity_pos k
  unique := by
    intro i j e e' he
    rw [slot_withCapacity] at he
    simp at he
  reached := by
    intro j e he
    rw [slot_withCapacity] at he
    simp at he

@[simp] theorem get?_withCapacity (k : Nat) (n : Address) : (withCapacity k).get? n = none := by
  rw [get?_eq_none_iff (wellFormed_withCapacity k)]
  intro e he
  obtain ⟨i, hi⟩ := mem_toList.mp he
  rw [slot_withCapacity] at hi
  simp at hi

end NetworkTable

end FilterBridge
