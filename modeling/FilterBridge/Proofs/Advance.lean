import FilterBridge.Proofs.Pieces
import FilterBridge.Proofs.Transactions

/-!
# How a load advances

The parts of one image are put together in what is collected of its kind.  A part that finds
what it is to be put into is refused, which ends the load; or it is kept; or it is the last
one, and makes the table live that the parts have made.

## Main definitions

* `Collected.Holds`, `Collected.Awaits` — some of the pieces are collected, and a part finds
  what it is to be put into.
* `Advance` — what becomes of a load when one part of it is taken.
* `LiveTables.Holds` — a table is live.

## Main results

* `Taken.advance` — a load that awaits a part advances by it.
* `LiveTables.holds_of_commit` — an image that was made live is live.
-/

namespace FilterBridge

open Operator

variable {kind : TableKind} {index : UInt32} {image : Bytes} {len i : Nat} {held : List Nat}

/-- No table is longer than that of a class B network. -/
theorem TableKind.tableLen?_le (h : kind.tableLen? index = some len) : len ≤ 65536 := by
  cases kind with
  | network =>
    simp only [tableLen?] at h
    split at h
    · obtain ⟨split, hsplit, rfl⟩ := Option.map_eq_some_iff.mp h
      obtain ⟨hl | hl, -⟩ := Address.split?_eq_some hsplit <;> omega
    · cases h
  | classRules =>
    simp only [tableLen?] at h
    split at h
    · rw [← Option.some.inj h]
      decide
    · cases h
  | reject =>
    rw [← Option.some.inj h]
    decide
  | allow =>
    rw [← Option.some.inj h]
    decide

/-- The parts of an image that fits have numbers that their offsets can tell. -/
theorem Operator.number_lt (hi : i < partCount image) (himage : image.length ≤ len)
    (hlen : kind.tableLen? index = some len) : i < 4194304 := by
  have := TableKind.tableLen?_le hlen
  simp only [partCount, maxFragmentLen] at hi
  omega

/-! ### What is collected of a load -/

namespace Collected

/-- The pieces of an image with the given numbers are collected. -/
def Holds (c : Collected) (kind : TableKind) (index : UInt32) (image : Bytes) (len : Nat)
    (held : List Nat) : Prop :=
  ∃ table, c kind = some (kind.key index, table) ∧ Pieced image len held table

/-- A part finds what it is to be put into: the first one needs nothing, and any other one
the pieces that came before. -/
def Awaits (c : Collected) (kind : TableKind) (index : UInt32) (image : Bytes) (len : Nat)
    (held : List Nat) (i : Nat) : Prop :=
  i = 0 ∧ held = [] ∨ i ≠ 0 ∧ c.Holds kind index image len held

/-- A part that finds what it is to be put into is put there, if it lies inside the table. -/
theorem Awaits.put?_eq {c : Collected} (h : c.Awaits kind index image len held i)
    (hlen : kind.tableLen? index = some len) (hi : i < 4194304) :
    ∃ table, Pieced image len held table ∧ c.put? kind (part kind index image i) =
      if i * maxFragmentLen + (part kind index image i).data.length ≤ len then
        some (table.overlay (i * maxFragmentLen) (part kind index image i).data)
      else none := by
  unfold put?
  rw [toNat_offset_part hi, isBegin_part]
  rcases h with ⟨rfl, rfl⟩ | ⟨hne, table, hc, hpieced⟩
  · refine ⟨Bytes.zeros len, .zeros image len, ?_⟩
    have hlen : kind.tableLen? (part kind index image 0).index = some len := hlen
    rw [if_pos (decide_eq_true rfl), hlen, Option.map_some, Option.bind_some,
      Bytes.length_zeros]
  · refine ⟨table, hpieced, ?_⟩
    have hkey : decide (kind.key index = kind.key (part kind index image i).index) = true :=
      decide_eq_true rfl
    rw [if_neg (by simp [hne]), hc, Option.filter_some, if_pos hkey, Option.map_some,
      Option.bind_some, hpieced.length]

end Collected

/-- What becomes of a load when the part with number `i` is taken. -/
inductive Advance (kind : TableKind) (index : UInt32) (image : Bytes) (len : Nat)
    (held : List Nat) (i : Nat) (l : LiveTables) :
    Collected → LiveTables → Except LoadError Unit → Prop
  /-- It is refused, and the load is over. -/
  | refused {c : Collected} (e : LoadError) (hc : c kind = none) :
    Advance kind index image len held i l c l (.error e)
  /-- It is kept, and more are to come. -/
  | kept {c : Collected}
    (hfits : i * maxFragmentLen + (part kind index image i).data.length ≤ len)
    (hmore : i + 1 ≠ partCount image) (hc : c.Holds kind index image len (i :: held)) :
    Advance kind index image len held i l c l (.ok ())
  /-- It is the last one, and makes live what is collected. -/
  | committed {c : Collected} {table : Bytes} {l' : LiveTables}
    (hfits : i * maxFragmentLen + (part kind index image i).data.length ≤ len)
    (hlast : i + 1 = partCount image) (hc : c kind = none)
    (htable : Pieced image len (i :: held) table) (hcommit : l.commit kind index table = .ok l') :
    Advance kind index image len held i l c l' (.ok ())

/-- A load that awaits a part advances by it. -/
theorem Taken.advance {c c' : Collected} {l l' : LiveTables} {r : Except LoadError Unit}
    (h : Taken kind (part kind index image i) c l c' l' r)
    (hawaits : c.Awaits kind index image len held i) (hlen : kind.tableLen? index = some len)
    (hi : i < 4194304) : Advance kind index image len held i l c' l' r := by
  obtain ⟨table, hpieced, hput⟩ := hawaits.put?_eq hlen hi
  have hinto : ∀ image', c.put? kind (part kind index image i) = some image' →
      i * maxFragmentLen + (part kind index image i).data.length ≤ len ∧
        Pieced image len (i :: held) image' := by
    intro image' himage'
    rw [hput] at himage'
    split at himage'
    · rename_i hfits
      obtain rfl := Option.some.inj himage'
      exact ⟨hfits, hpieced.overlay hfits⟩
    · cases himage'
  cases h with
  | refused e => exact .refused e (Function.update_self ..)
  | kept hput' hend =>
    obtain ⟨hfits, htable⟩ := hinto _ hput'
    rw [isEnd_part] at hend
    exact .kept hfits (of_decide_eq_false hend) ⟨_, Function.update_self .., htable⟩
  | committed hput' hend hcommit =>
    obtain ⟨hfits, htable⟩ := hinto _ hput'
    rw [isEnd_part] at hend
    exact .committed hfits (of_decide_eq_true hend) (Function.update_self ..) htable hcommit

/-! ### What is live -/

/-- A table is live: it is what its image says. -/
def LiveTables.Holds (l : LiveTables) (kind : TableKind) (index : UInt32) (table : Bytes) : Prop :=
  match kind with
  | .network => (l.hosts index).map (·.1) = some table
  | .classRules =>
    ∃ rules, ClassRules.ofImage table = .ok rules ∧ l.policy.classes[index.toNat]? = some rules
  | .reject => rejectRulesOfImage table = .ok l.policy.reject
  | .allow => allowRulesOfImage table = .ok l.policy.allow

/-- An image that was made live is live. -/
theorem LiveTables.holds_of_commit {l l' : LiveTables} {table : Bytes}
    (h : l.commit kind index table = .ok l') (hlen : kind.tableLen? index = some len) :
    l'.Holds kind index table := by
  cases kind with
  | network =>
    rw [← Except.ok.inj h]
    simp [Holds]
  | classRules =>
    have hindex : index.toNat < 256 := by
      by_contra hge
      rw [TableKind.tableLen?, if_neg hge] at hlen
      cases hlen
    obtain ⟨rules, hr, rfl⟩ := exists_of_map_eq_ok h
    exact ⟨rules, hr, by simp [hindex]⟩
  | reject =>
    obtain ⟨rules, hr, rfl⟩ := exists_of_map_eq_ok h
    exact hr
  | allow =>
    obtain ⟨rules, hr, rfl⟩ := exists_of_map_eq_ok h
    exact hr

end FilterBridge
