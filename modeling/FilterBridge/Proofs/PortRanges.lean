import FilterBridge.Proofs.Images

/-!
# Ranges of ports

An operator writes ranges of ports and means the ports that lie in one of them.  A port list is
not searched for such a range: the first row that ends at or above a port decides about it.  For
ranges in the order of their first ports that comes to the same, whether they overlap or touch,
and whatever their last ports are.  A port above the last one of a row cannot lie in that row;
and if the row that decides begins above the port, so do all rows after it.

The ranges beyond the 31st are left out, as the last row of an image is the final one.  So
nothing else is lost when the list is written and read again.

## Main definitions

* `PortRange.InOrder` — rows that are ranges, in the order of their first ports.
* `PortList.AdmitsJust` — a list admits the ports in some ranges, and no others.

## Main results

* `PortList.admitsRow_append_final_iff` — what rows in order admit.
* `PortList.wellFormed_ofRanges` — the image of a list holds all of it.
* `PortList.ofRanges_admitsJust` — a list admits the ports in its ranges, and so does what is
  read from its image.
-/

namespace FilterBridge

namespace PortRange

/-- The rows are ranges, none of them final, in the order of their first ports. -/
structure InOrder (rows : List PortRange) : Prop where
  /-- No row ends the list. -/
  isFinal : ∀ r ∈ rows, r.isFinal = false
  /-- The first ports do not go down. -/
  first_le : rows.Pairwise fun r s => r.first ≤ s.first

/-- Rows that are ranges and a final one fill an image with room for them. -/
theorem fill_append_final {n : Nat} {rows : List PortRange}
    (h : ∀ r ∈ rows, r.isFinal = false) (hn : rows.length < n) : Fill n (rows ++ [final]) := by
  induction rows generalizing n with
  | nil =>
    obtain ⟨n, rfl⟩ := Nat.exists_eq_succ_of_ne_zero (Nat.ne_of_gt hn)
    rw [List.nil_append, Fill, if_pos isFinal_final]
  | cons r rows ih =>
    obtain ⟨n, rfl⟩ := Nat.exists_eq_succ_of_ne_zero (Nat.ne_of_gt (Nat.zero_lt_of_lt hn))
    obtain ⟨hr, hrows⟩ := List.forall_mem_cons.mp h
    rw [List.cons_append, Fill, if_neg (by simp [hr])]
    exact ih hrows (Nat.lt_of_succ_lt_succ hn)

end PortRange

namespace PortList

variable {ranges : List (UInt16 × UInt16)}

/-- Rows in order and a final one admit a port if it lies in one of the rows. -/
theorem admitsRow_append_final_iff {rows : List PortRange} (h : PortRange.InOrder rows)
    (port : UInt16) : admitsRow port (rows ++ [.final]) = true ↔
      ∃ r ∈ rows, r.first ≤ port ∧ port ≤ r.last := by
  induction rows with
  | nil => simp [admitsRow]
  | cons r rows ih =>
    obtain ⟨hfinal, hrest⟩ := List.forall_mem_cons.mp h.isFinal
    obtain ⟨hfirst, hsorted⟩ := List.pairwise_cons.mp h.first_le
    rw [List.cons_append, admitsRow, if_neg (by simp [hfinal])]
    by_cases hlast : port ≤ r.last
    · -- this row decides, and no later one begins before it
      rw [if_pos hlast, decide_eq_true_iff]
      constructor
      · intro hle
        exact ⟨r, List.mem_cons_self, hle, hlast⟩
      · rintro ⟨s, hs, hle, -⟩
        obtain rfl | hs := List.mem_cons.mp hs
        · exact hle
        · exact UInt16.le_trans (hfirst s hs) hle
    · -- the port lies above this row
      rw [if_neg hlast, ih ⟨hrest, hsorted⟩]
      constructor
      · rintro ⟨s, hs, hin⟩
        exact ⟨s, List.mem_cons_of_mem _ hs, hin⟩
      · rintro ⟨s, hs, hin⟩
        obtain rfl | hs := List.mem_cons.mp hs
        · exact absurd hin.2 hlast
        · exact ⟨s, hs, hin⟩

/-- The rows of a list that is built from ranges. -/
def rowsOfRanges (ranges : List (UInt16 × UInt16)) : List PortRange :=
  (ranges.take 31).map fun r => ⟨r.1, r.2⟩

theorem rows_ofRanges (ranges : List (UInt16 × UInt16)) :
    (ofRanges ranges).rows = rowsOfRanges ranges ++ [.final] := rfl

theorem isFinal_rowsOfRanges (h : ∀ r ∈ ranges, r.1 ≠ 0) :
    ∀ r ∈ rowsOfRanges ranges, r.isFinal = false := by
  intro r hr
  obtain ⟨pair, hpair, rfl⟩ := List.mem_map.mp hr
  exact decide_eq_false (h pair (List.mem_of_mem_take hpair))

/-- The image of a list that is built from ranges holds all of it. -/
theorem wellFormed_ofRanges (h : ∀ r ∈ ranges, r.1 ≠ 0) : (ofRanges ranges).WellFormed := by
  have hroom : (rowsOfRanges ranges).length < maxRows := by
    rw [rowsOfRanges, List.length_map, List.length_take, maxRows]
    omega
  exact PortRange.fill_append_final (isFinal_rowsOfRanges h) hroom

/-- A list admits the ports that lie in one of the ranges, and no others. -/
def AdmitsJust (l : PortList) (ranges : List (UInt16 × UInt16)) : Prop :=
  ∀ port, l.admits port = true ↔ ∃ r ∈ ranges, r.1 ≤ port ∧ port ≤ r.2

/-- A list that is built from ranges in the order of their first ports admits the ports that lie
in one of the first 31 ranges, and no others, and so does what is read from its image.  No range
may begin at port 0, which would end the list.  The last ports need not be in order. -/
theorem ofRanges_admitsJust (hfirst : ∀ r ∈ ranges, r.1 ≠ 0)
    (horder : ranges.Pairwise fun r s => r.1 ≤ s.1) :
    (ofRanges ranges).AdmitsJust (ranges.take 31) ∧
      ∀ rest, ∃ l, decode ((ofRanges ranges).encode ++ rest) = .ok (l, rest) ∧
        l.AdmitsJust (ranges.take 31) := by
  have hrows : PortRange.InOrder (rowsOfRanges ranges) :=
    ⟨isFinal_rowsOfRanges hfirst, List.pairwise_map.mpr (horder.sublist (List.take_sublist _ _))⟩
  have hbuilt : (ofRanges ranges).AdmitsJust (ranges.take 31) := by
    intro port
    rw [admits, rows_ofRanges, admitsRow_append_final_iff hrows, rowsOfRanges]
    simp only [List.mem_map, exists_exists_and_eq_and]
  refine ⟨hbuilt, fun rest => ⟨ofRanges ranges, ?_, hbuilt⟩⟩
  rw [decode_encode, held_of_wellFormed (wellFormed_ofRanges hfirst)]

/-- Of 32 ranges, the last of which overlaps the others, that one is left out. -/
theorem ofRanges_admitsJust_overlapping :
    let ranges : List (UInt16 × UInt16) := List.replicate 31 (100, 200) ++ [(150, 250)]
    ((∀ r ∈ ranges, r.1 ≠ 0) ∧ ranges.Pairwise fun r s => r.1 ≤ s.1) ∧
      (ofRanges ranges).admits 175 = true ∧ (ofRanges ranges).admits 225 = false := by
  intro ranges
  have hfirst : ∀ r ∈ ranges, r.1 ≠ 0 := by
    intro r hr
    rcases List.mem_append.mp hr with hr | hr
    · rw [List.eq_of_mem_replicate hr]
      decide
    · rw [List.mem_singleton.mp hr]
      decide
  have horder : ranges.Pairwise fun r s => r.1 ≤ s.1 := by
    refine List.pairwise_append.mpr
      ⟨List.pairwise_replicate.mpr (.inr (by decide)), List.pairwise_singleton _ _, ?_⟩
    intro r hr s hs
    rw [List.eq_of_mem_replicate hr, List.mem_singleton.mp hs]
    decide
  have hkept : ranges.take 31 = List.replicate 31 (100, 200) := rfl
  obtain ⟨hjust, -⟩ := ofRanges_admitsJust hfirst horder
  rw [hkept] at hjust
  refine ⟨⟨hfirst, horder⟩, (hjust 175).mpr ⟨(100, 200), ?_, by decide⟩, ?_⟩
  · exact List.mem_replicate.mpr ⟨by decide, rfl⟩
  · rw [Bool.eq_false_iff, Ne, hjust 225]
    rintro ⟨r, hr, hin⟩
    rw [List.eq_of_mem_replicate hr] at hin
    exact absurd hin (by decide)

/-- A range that begins before the one that decides is not looked at. -/
example : (ofRanges [(100, 200), (50, 150)]).admits 60 = false := by decide

end PortList

end FilterBridge
