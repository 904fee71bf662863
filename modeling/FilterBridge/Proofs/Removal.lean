import FilterBridge.Proofs.Probing

/-!
# Removing a network

A removed network leaves a gap, at which the searches for later entries of the
cluster would end.  Closing the gap looks at one slot after the other: an entry
whose search passes the gap moves into it and leaves a gap of its own, and the
first empty slot ends the cluster.

## Main definitions

* `NetworkTable.Gap` — the invariant while a gap is being closed.

## Main results

* `NetworkTable.closeGap_spec` — closing a gap keeps the entries and lets every
  search reach its entry again.
* `NetworkTable.erase?_spec` — a removal changes the map at one network only.
-/

namespace FilterBridge

namespace NetworkTable

variable {t : NetworkTable} {n : Address} {e : NetworkEntry} {i j : Nat}

/-! ### The invariant of a gap -/

/-- The table while slot `hole` is empty that should not be, and the slots after it
up to slot `i` were looked at: only searches for entries beyond slot `i` may pass
the hole. -/
structure Gap (t : NetworkTable) (hole i : Nat) : Prop where
  /-- The hole is a slot. -/
  hole_lt : hole < t.capacity
  /-- So is the slot looked at last. -/
  lt : i < t.capacity
  /-- The hole is empty. -/
  empty : t.slot hole = none
  /-- No network has two slots. -/
  unique : ∀ i j e e', t.slot i = some e → t.slot j = some e' → e.network = e'.network → i = j
  /-- The search for an entry passes no empty slot but the hole, and that only if
  it goes beyond slot `i`. -/
  reached : ∀ j e, t.slot j = some e → ∀ p < t.capacity,
    Passes (t.home e.network) p j →
      (t.slot p).isSome ∨ (p = hole ∧ ¬ reachedBefore hole j i)

/-- The first empty slot after those looked at ends the cluster, and with it the
searches that could pass the hole. -/
theorem Gap.reached_of_empty {hole : Nat} (g : t.Gap hole i) (hj : t.slot (t.next i) = none) :
    ∀ j e, t.slot j = some e → ∀ p < t.capacity,
      Passes (t.home e.network) p j → (t.slot p).isSome := by
  intro j e he p hp hpass
  rcases g.reached j e he p hp hpass with hs | ⟨rfl, hbeyond⟩
  · exact hs
  · rw [reachedBefore_iff] at hbeyond
    have hjlt := slot_lt he
    have hjp : j ≠ p := by
      rintro rfl
      rw [g.empty] at he
      simp at he
    have hjn : j ≠ t.next i := by
      rintro rfl
      rw [hj] at he
      simp at he
    have hnext := next_cases g.lt
    have hilt := g.lt
    -- the search passes the slot after `i` too, and that one is no hole
    have hpass' : Passes (t.home e.network) (t.next i) j := by
      unfold Passes at *
      omega
    rcases g.reached j e he _ (next_lt g.lt) hpass' with hs | ⟨hs, hb⟩
    · rw [hj] at hs
      simp at hs
    · exfalso
      omega

/-- An entry that its search reaches without the hole stays where it is. -/
theorem Gap.keep {hole : Nat} (g : t.Gap hole i) (he : t.slot (t.next i) = some e)
    (hb : reachedBefore hole (t.home e.network) (t.next i) = true) : t.Gap hole (t.next i) where
  hole_lt := g.hole_lt
  lt := next_lt g.lt
  empty := g.empty
  unique := g.unique
  reached := by
    intro j a ha p hp hpass
    rcases g.reached j a ha p hp hpass with hs | ⟨rfl, hbeyond⟩
    · exact .inl hs
    · refine .inr ⟨rfl, ?_⟩
      rw [reachedBefore_iff] at *
      have hnext := next_cases g.lt
      have hjlt := slot_lt ha
      have hilt := g.lt
      have hhole := g.hole_lt
      -- only the entry in the slot looked at is no longer beyond it
      by_cases hj : j = t.next i
      · subst hj
        obtain rfl : a = e := by simpa [he] using ha.symm
        unfold Passes at hpass
        omega
      · omega

/-- An entry whose search passes the hole moves into it, and leaves a hole where it
was. -/
theorem Gap.move {hole : Nat} (g : t.Gap hole i) (he : t.slot (t.next i) = some e)
    (hb : ¬ reachedBefore hole (t.home e.network) (t.next i) = true) :
    ((t.setSlot hole (some e)).setSlot (t.next i) none).Gap (t.next i) (t.next i) := by
  have hlt := next_lt g.lt
  have hne : hole ≠ t.next i := by
    intro heq
    rw [← heq, g.empty] at he
    simp at he
  -- the entry is in the hole now, and all others are where they were
  have hslot : ∀ k, ((t.setSlot hole (some e)).setSlot (t.next i) none).slot k =
      if t.next i = k then none else if hole = k then some e else t.slot k := by
    intro k
    rw [slot_setSlot (by simpa using hlt), slot_setSlot g.hole_lt]
  have hold : ∀ k a, ((t.setSlot hole (some e)).setSlot (t.next i) none).slot k = some a →
      t.next i ≠ k ∧ ((hole = k ∧ a = e) ∨ (hole ≠ k ∧ t.slot k = some a)) := by
    intro k a ha
    rw [hslot] at ha
    split at ha
    · simp at ha
    · split at ha
      · exact ⟨‹_›, .inl ⟨‹_›, (Option.some.inj ha).symm⟩⟩
      · exact ⟨‹_›, .inr ⟨‹_›, ha⟩⟩
  refine ⟨by simpa using hlt, by simpa using hlt, by rw [hslot, if_pos rfl], ?_, ?_⟩
  · intro k l a b ha hb' hab
    obtain ⟨hnk, hk⟩ := hold k a ha
    obtain ⟨hnl, hl⟩ := hold l b hb'
    rcases hk with ⟨rfl, rfl⟩ | ⟨hk, ha'⟩ <;> rcases hl with ⟨rfl, rfl⟩ | ⟨hl, hb''⟩
    · rfl
    · exact absurd (g.unique _ _ _ _ he hb'' hab) hnl
    · exact absurd (g.unique _ _ _ _ ha' he hab).symm hnk
    · exact g.unique _ _ _ _ ha' hb'' hab
  · intro k a ha p hp hpass
    simp only [capacity_setSlot, home_setSlot] at hp hpass
    obtain ⟨hnk, hk⟩ := hold k a ha
    by_cases hpn : t.next i = p
    · subst hpn
      refine .inr ⟨rfl, ?_⟩
      rw [reachedBefore_iff]
      omega
    · refine .inl ?_
      rw [hslot, if_neg hpn]
      by_cases hph : hole = p
      · simp [hph]
      · rw [if_neg hph]
        rcases hk with ⟨rfl, rfl⟩ | ⟨hk, ha'⟩
        · -- the entry in the hole: its search was a part of the one before
          have hhome := home_lt (t := t) (by have := g.lt; omega) a.network
          have hpass' : Passes (t.home a.network) p (t.next i) := by
            rw [reachedBefore_iff] at hb
            unfold Passes at *
            omega
          rcases g.reached _ _ he p hp hpass' with hs | ⟨hs, -⟩
          · exact hs
          · exact absurd hs.symm hph
        · rcases g.reached k a ha' p hp hpass with hs | ⟨hs, -⟩
          · exact hs
          · exact absurd hs.symm hph

/-! ### Closing it -/

/-- Closing a gap keeps the entries, and lets every search reach its entry again.
An empty slot `z` behind the hole bounds how far it has to look. -/
theorem closeGap_spec {z : Nat} : ∀ (fuel hole i : Nat) (t : NetworkTable), t.Gap hole i →
    z < t.capacity → t.slot z = none → z ≠ hole → steps t.capacity (t.next i) z < fuel →
      (t.closeGap fuel hole i).capacity = t.capacity ∧
      (t.closeGap fuel hole i).count = t.count ∧
      (t.closeGap fuel hole i).toList.Perm t.toList ∧
      (∀ j k e e', (t.closeGap fuel hole i).slot j = some e →
        (t.closeGap fuel hole i).slot k = some e' → e.network = e'.network → j = k) ∧
      ∀ j e, (t.closeGap fuel hole i).slot j = some e → ∀ p < t.capacity,
        Passes (t.home e.network) p j → ((t.closeGap fuel hole i).slot p).isSome := by
  intro fuel
  induction fuel with
  | zero => intro hole i t _ _ _ _ hf; omega
  | succ fuel ih =>
    intro hole i t g hz hempty hzh hf
    have hlt := next_lt g.lt
    rw [closeGap]
    cases he : t.slot (t.next i) with
    | none => exact ⟨rfl, rfl, .refl _, g.unique, g.reached_of_empty he⟩
    | some e =>
      have hzn : t.next i ≠ z := by
        rintro rfl
        rw [hempty] at he
        simp at he
      have hstep := steps_next hlt hz hzn
      simp only
      -- the entry stays, or it moves into the hole and leaves another one
      by_cases hb : reachedBefore hole (t.home e.network) (t.next i) = true
      · rw [if_pos hb]
        exact ih hole (t.next i) t (g.keep he hb) hz hempty hzh (by omega)
      · rw [if_neg hb]
        have hhole : (t.setSlot hole (some e)).slot (t.next i) = some e := by
          rw [slot_setSlot g.hole_lt]
          split
          · rfl
          · exact he
        have hperm : ((t.setSlot hole (some e)).setSlot (t.next i) none).toList.Perm t.toList := by
          have h₁ := toList_setSlot_none hhole
          have h₂ := toList_setSlot_some g.hole_lt e
          rw [setSlot_none_of_empty g.empty] at h₂
          exact (List.perm_cons e).mp (h₁.symm.trans h₂)
        have hz' : ((t.setSlot hole (some e)).setSlot (t.next i) none).slot z = none := by
          rw [slot_setSlot_ne (by simpa using hlt) none hzn,
            slot_setSlot_ne g.hole_lt _ hzh.symm, hempty]
        have hnext : ((t.setSlot hole (some e)).setSlot (t.next i) none).next (t.next i)
            = t.next (t.next i) := by simp [next]
        have := ih (t.next i) (t.next i) _ (g.move he hb) (by simpa using hz) hz' hzn.symm
          (by rw [hnext]; simp only [capacity_setSlot]; omega)
        simp only [capacity_setSlot, count_setSlot, home_setSlot] at this
        obtain ⟨hcap, hcount, hp, hu, hr⟩ := this
        exact ⟨hcap, hcount, hp.trans hperm, hu, hr⟩

/-- Taking an entry out leaves a gap, through which only searches beyond it pass. -/
theorem WellFormed.gap (h : t.WellFormed) (hi : t.slot i = some e) : (t.emptied i).Gap i i := by
  have hlt := slot_lt hi
  have hold : ∀ k a, (t.emptied i).slot k = some a → t.slot k = some a := by
    intro k a ha
    rw [slot_emptied hlt] at ha
    split at ha
    · simp at ha
    · exact ha
  refine ⟨by simpa using hlt, by simpa using hlt, by rw [slot_emptied hlt, if_pos rfl], ?_, ?_⟩
  · intro j k a b ha hb hab
    exact h.unique j k a b (hold j a ha) (hold k b hb) hab
  · intro j a ha p hp hpass
    simp only [capacity_emptied, home_emptied] at hp hpass
    by_cases hip : i = p
    · subst hip
      refine .inr ⟨rfl, ?_⟩
      rw [reachedBefore_iff]
      omega
    · left
      rw [slot_emptied hlt, if_neg hip]
      exact h.reached j a (hold j a ha) p hp hpass

/-! ### Removals -/

theorem erase?_eq_none_iff (h : t.WellFormed) : t.erase? n = none ↔ t.get? n = none := by
  simp only [erase?, get?, bind, pure]
  cases hp : t.position? n with
  | none => simp
  | some i =>
    obtain ⟨e, he, -⟩ := (position?_eq_some_iff h).mp hp
    simp [he]

theorem erase?_of_present (hi : t.position? n = some i) (he : t.slot i = some e) :
    t.erase? n = some ((t.emptied i).closeGap t.capacity i i, e) := by
  simp [erase?, hi, he, emptied]

/-- The table after a removal has the other entries, and is as good as before. -/
theorem WellFormed.closeGap (h : t.WellFormed) (he : t.slot i = some e) :
    ((t.emptied i).closeGap t.capacity i i).WellFormed ∧
      t.toList.Perm (e :: ((t.emptied i).closeGap t.capacity i i).toList) ∧
      ((t.emptied i).closeGap t.capacity i i).capacity = t.capacity := by
  have hlt := slot_lt he
  obtain ⟨z, hz, hempty⟩ := h.exists_empty
  have hzi : z ≠ i := by
    rintro rfl
    rw [hempty] at he
    simp at he
  have hz' : (t.emptied i).slot z = none := by rw [slot_emptied hlt, if_neg hzi.symm, hempty]
  have hnext : (t.emptied i).next i = t.next i := by simp [next]
  obtain ⟨hcap, hcount, hp, hunique, hreached⟩ :=
    closeGap_spec t.capacity i i (t.emptied i) (h.gap he) (by simpa using hz) hz' hzi
      (by rw [hnext, capacity_emptied]; exact steps_lt (next_lt hlt) hz)
  rw [capacity_emptied] at hcap hreached
  generalize (t.emptied i).closeGap t.capacity i i = u at *
  have hperm := (toList_emptied he).trans (hp.symm.cons e)
  have hcount' : u.count = t.count - 1 := hcount
  have hlen := hperm.length_eq
  have := h.length_eq
  have := h.count_lt
  rw [List.length_cons] at hlen
  refine ⟨⟨by omega, by omega, hunique, fun j b hb p hlp hpass => ?_⟩, hperm, hcap⟩
  refine hreached j b hb p (hcap ▸ hlp) ?_
  simpa [home, hcap] using hpass

/-- Removing a network keeps the invariant, and changes the map at that network
only. -/
theorem erase?_spec {t' : NetworkTable} (h : t.WellFormed) (hr : t.erase? n = some (t', e)) :
    t'.WellFormed ∧ t.get? n = some e ∧
      (∀ m, t'.get? m = if m = n then none else t.get? m) ∧ t'.capacity = t.capacity := by
  cases hp : t.position? n with
  | none => simp [erase?, hp] at hr
  | some i =>
    obtain ⟨a, ha, hn⟩ := (position?_eq_some_iff h).mp hp
    rw [erase?_of_present hp ha] at hr
    simp only [Option.some.injEq, Prod.mk.injEq] at hr
    obtain ⟨rfl, rfl⟩ := hr
    obtain ⟨hwf, hperm, hcap⟩ := h.closeGap ha
    -- the entry that was taken out was the only one of its network
    have hnd : (a :: ((t.emptied i).closeGap t.capacity i i).toList |>.map (·.network)).Nodup :=
      (hperm.map _).nodup_iff.mp h.nodup_networks
    rw [List.map_cons, List.nodup_cons] at hnd
    refine ⟨hwf, by simp [get?, hp, ha], fun m => ?_, hcap⟩
    by_cases hm : m = n
    · rw [if_pos hm, get?_eq_none_iff hwf]
      intro b hb heq
      refine hnd.1 ?_
      rw [hn, ← hm, ← heq]
      exact List.mem_map_of_mem hb
    · rw [if_neg hm]
      refine get?_congr h hwf fun b hb => ?_
      rw [hperm.mem_iff, List.mem_cons]
      constructor
      · exact .inr
      · rintro (rfl | hb')
        · exact absurd (hb.symm.trans hn) hm
        · exact hb'

end NetworkTable

end FilterBridge
