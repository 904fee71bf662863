import FilterBridge.Proofs.Corruption
import Mathlib.Algebra.BigOperators.Group.Finset.Basic
import Mathlib.Algebra.Group.Nat.Even

/-!
# The algebra of the checksum

Adding with end-around carry is adding modulo 65535, but for zero: the empty sum and a multiple
of 65535 are both zero modulo 65535, and fold to different words.  So a sum may be folded at any
place, and a message can be summed in parts; and a sum of which the complement is stored folds
to all ones.

The carries of a sum are lost when it is folded.  Whether it was zero is not, and that is all
that has to be remembered of them.

## Main definitions

* `carried` — what a checksum brings into the next computation.
* `chained` — the checksum of a message in parts.
* `checksum64` — the checksum as it is computed in 64 bits.

## Main results

* `fold_eq_fold_iff` — which sums fold to the same word.
* `checksum_append` — the checksum of two parts.
* `wordSum_eq_sum` — the sum that is folded is the sum of the words.
* `checksum64_eq` — sixty-four bits are enough.
* `checksum_algebra` — any number of parts, a stored checksum, and when a checksum is zero.
-/

namespace FilterBridge

/-! ### Folding -/

/-- Sums fold to the same word if they are equal modulo 65535 and not just one of them is
zero. -/
theorem fold_eq_fold_iff {m n : Nat} :
    fold m = fold n ↔ m % 65535 = n % 65535 ∧ (m = 0 ↔ n = 0) := by
  have hm := fold_mod m
  have hn := fold_mod n
  have hlt := fold_lt m
  have hlt' := fold_lt n
  rw [← fold_eq_zero_iff (n := m), ← fold_eq_zero_iff (n := n)]
  omega

/-- A sum may be folded before more is added. -/
theorem fold_add_fold (m n : Nat) : fold (fold m + n) = fold (m + n) := by
  have hmod := fold_mod m
  have hzero := fold_eq_zero_iff (n := m)
  rw [fold_eq_fold_iff]
  omega

/-- A sum folds to all ones if it is a multiple of 65535, and not zero. -/
theorem fold_eq_ones_iff {n : Nat} : fold n = 65535 ↔ 0 < n ∧ 65535 ∣ n := by
  have hones : fold 65535 = 65535 := fold_of_lt (by decide)
  rw [← hones, fold_eq_fold_iff, hones]
  omega

/-! ### Sums of words -/

/-- The sum of a byte string is the sum of its words one by one, a last odd byte followed by
zero. -/
theorem wordSum_eq_sum (bs : Bytes) :
    wordSum bs = ∑ i ∈ Finset.range ((bs.length + 1) / 2), (bs.wordAt (2 * i)).toNat := by
  fun_induction wordSum bs with
  | case1 => rfl
  | case2 b =>
    have hfirst : wordSum [b] = (Bytes.wordAt [b] 0).toNat + 0 := wordSum_eq_wordAt_add [b]
    rw [List.length_singleton, Finset.sum_range_one]
    exact hfirst
  | case3 b₁ b₀ rest ih =>
    have hlen : ((b₁ :: b₀ :: rest).length + 1) / 2 = (rest.length + 1) / 2 + 1 := by
      simp only [List.length_cons]
      omega
    have hnext : ∀ i, Bytes.wordAt (b₁ :: b₀ :: rest) (2 * (i + 1)) =
        Bytes.wordAt rest (2 * i) := by
      intro i
      rw [Nat.mul_succ, Nat.add_comm]
      exact (Bytes.wordAt_drop (b₁ :: b₀ :: rest) 2 (2 * i)).symm
    have hfirst : wordSum (b₁ :: b₀ :: rest) =
        (Bytes.wordAt (b₁ :: b₀ :: rest) 0).toNat + wordSum rest := wordSum_eq_wordAt_add _
    rw [hlen, Finset.sum_range_succ', Finset.sum_congr rfl fun i _ => by rw [hnext i], ← ih,
      ← wordSum_cons_cons, hfirst, Nat.add_comm]

/-- The sums of two strings add up if no word lies across both. -/
theorem wordSum_append {as bs : Bytes} (h : Even as.length) :
    wordSum (as ++ bs) = wordSum as + wordSum bs := by
  fun_induction wordSum as with
  | case1 => simp
  | case2 b => exact absurd h (by decide : ¬Even 1)
  | case3 b₁ b₀ rest ih =>
    have hrest : Even rest.length := by
      simpa [Nat.even_add_one] using h
    rw [List.cons_append, List.cons_append, wordSum_cons_cons, ih hrest,
      Nat.add_assoc _ _ (wordSum bs)]

/-- No word is more than all ones. -/
theorem wordSum_le (bs : Bytes) : wordSum bs ≤ (bs.length + 1) / 2 * 65535 := by
  fun_induction wordSum bs with
  | case1 => exact Nat.zero_le _
  | case2 b =>
    have := b.toNat_lt
    simp only [List.length_singleton]
    omega
  | case3 b₁ b₀ rest ih =>
    have := b₁.toNat_lt
    have := b₀.toNat_lt
    simp only [List.length_cons]
    omega

/-- A word that is entered where zeros were is added. -/
theorem wordSum_overlay_word {bs : Bytes} {off : Nat} (hoff : Even off)
    (hzero : bs.slice off 2 = [0, 0]) (w : UInt16) :
    wordSum (bs.overlay off (Bytes.ofU16 w)) = wordSum bs + w.toNat := by
  have hle : off + 2 ≤ bs.length := by
    have hlen := congrArg List.length hzero
    simp only [Bytes.slice, List.length_take, List.length_drop, List.length_cons,
      List.length_nil] at hlen
    omega
  have heven : Even (bs.take off).length := by
    rwa [List.length_take_of_le (by omega)]
  -- what was there adds nothing
  have hbs : bs = bs.take off ++ (Bytes.ofU16 0 ++ bs.drop (off + 2)) := by
    have hfield : (bs.drop off).take 2 = Bytes.ofU16 0 := hzero
    rw [← hfield, ← List.drop_drop, List.take_append_drop, List.take_append_drop]
  have hsum : wordSum bs = wordSum (bs.take off) + wordSum (bs.drop (off + 2)) := by
    conv_lhs => rw [hbs]
    rw [wordSum_append heven, wordSum_ofU16_append, UInt16.toNat_zero, Nat.zero_add]
  rw [Bytes.overlay, List.append_assoc, wordSum_append heven, wordSum_ofU16_append, hsum,
    Bytes.length_ofU16]
  omega

/-! ### Checksums -/

/-- What the checksum of the part before brings into a sum. -/
def carried (seed : Option UInt16) : Nat := (seed.map fun c => 65535 - c.toNat).getD 0

@[simp] theorem carried_none : carried none = 0 := rfl

theorem toNat_checksum_carried (bs : Bytes) (seed : Option UInt16) :
    (checksum bs seed).toNat = 65535 - fold (carried seed + wordSum bs) := by
  show (UInt16.ofNat (65535 - fold (carried seed + wordSum bs))).toNat = _
  rw [UInt16.toNat_ofNat']
  omega

/-- A checksum brings in the sum that it was made of, folded. -/
theorem carried_checksum (bs : Bytes) (seed : Option UInt16) :
    carried (some (checksum bs seed)) = fold (carried seed + wordSum bs) := by
  have hlt := fold_lt (carried seed + wordSum bs)
  rw [carried, Option.map_some, Option.getD_some, toNat_checksum_carried]
  omega

/-- A sum keeps to 64 bits if the message is shorter than `2 ^ 48` bytes. -/
theorem carried_add_wordSum_lt {bs : Bytes} (h : bs.length < 2 ^ 48) (seed : Option UInt16) :
    carried seed + wordSum bs < 2 ^ 64 := by
  have hwords := wordSum_le bs
  have hseed : carried seed ≤ 65535 := by
    cases seed with
    | none => exact Nat.zero_le _
    | some c => exact Nat.sub_le _ _
  omega

/-- The checksum of two parts is that of the second, continued from that of the first. -/
theorem checksum_append {as bs : Bytes} (h : Even as.length) (seed : Option UInt16) :
    checksum (as ++ bs) seed = checksum bs (some (checksum as seed)) := by
  rw [← UInt16.toNat_inj, toNat_checksum_carried, toNat_checksum_carried, carried_checksum,
    fold_add_fold, wordSum_append h, Nat.add_assoc]

/-- The checksum of a message in parts, each continued from the one before. -/
def chained (seed : Option UInt16) (parts : List Bytes) : Option UInt16 :=
  parts.foldl (fun c part => some (checksum part c)) seed

/-- The checksum of a message in parts is that of the whole message. -/
theorem chained_eq {parts : List Bytes} (hne : parts ≠ [])
    (heven : ∀ part ∈ parts.dropLast, Even part.length) (seed : Option UInt16) :
    chained seed parts = some (checksum parts.flatten seed) := by
  induction parts generalizing seed with
  | nil => exact absurd rfl hne
  | cons part parts ih =>
    cases parts with
    | nil => rw [List.flatten_singleton]; rfl
    | cons next rest =>
      have hpart : Even part.length := heven part (by simp)
      have hrest : ∀ p ∈ (next :: rest).dropLast, Even p.length := by
        intro p hp
        exact heven p (by rw [List.dropLast_cons_cons]; exact List.mem_cons_of_mem _ hp)
      calc chained seed (part :: next :: rest)
          = chained (some (checksum part seed)) (next :: rest) := rfl
        _ = some (checksum (next :: rest).flatten (some (checksum part seed))) :=
            ih (List.cons_ne_nil _ _) hrest _
        _ = some (checksum (part :: next :: rest).flatten seed) := by
            rw [← checksum_append hpart, ← List.flatten_cons]

/-- A checksum is zero if the sum is a multiple of 65535, and not zero. -/
theorem checksum_eq_zero_iff_dvd (bs : Bytes) (seed : Option UInt16) :
    checksum bs seed = 0 ↔
      0 < carried seed + wordSum bs ∧ 65535 ∣ carried seed + wordSum bs := by
  have hlt := fold_lt (carried seed + wordSum bs)
  rw [← UInt16.toNat_inj, toNat_checksum_carried, UInt16.toNat_zero, ← fold_eq_ones_iff]
  omega

/-- A message is sound once its checksum is entered where zeros were. -/
theorem checksum_overlay_checksum {bs : Bytes} {off : Nat} (hoff : Even off)
    (hzero : bs.slice off 2 = [0, 0]) (seed : Option UInt16) :
    checksum (bs.overlay off (Bytes.ofU16 (checksum bs seed))) seed = 0 := by
  rw [checksum_eq_zero_iff_dvd, ← fold_eq_ones_iff, wordSum_overlay_word hoff hzero,
    toNat_checksum_carried, ← Nat.add_assoc, fold_add_complement]

/-! ### Sixty-four bits -/

/-- The low 16 bits and the carries, added. -/
theorem toNat_carry64 (n : UInt64) :
    ((n &&& (0xFFFF : UInt64)) + (n >>> 16)).toNat = n.toNat % 65536 + n.toNat / 65536 := by
  have hlow : (n &&& (0xFFFF : UInt64)).toNat = n.toNat % 65536 := by
    rw [UInt64.toNat_and]
    exact Nat.and_two_pow_sub_one_eq_mod _ 16
  have hhigh : (n >>> 16).toNat = n.toNat / 65536 := by
    rw [UInt64.toNat_shiftRight]
    exact Nat.shiftRight_eq_div_pow _ 16
  have := n.toNat_lt
  rw [UInt64.toNat_add, hlow, hhigh]
  omega

theorem carry64_eq_zero_iff (n : UInt64) : n >>> 16 = 0 ↔ n.toNat < 65536 := by
  rw [← UInt64.toNat_inj, UInt64.toNat_shiftRight]
  show n.toNat >>> 16 = 0 ↔ _
  rw [Nat.shiftRight_eq_div_pow]
  omega

/-- A sum in 64 bits reduced to 16 bits by adding its carries back in. -/
def fold64 (n : UInt64) : UInt64 :=
  if n >>> 16 = 0 then n else fold64 ((n &&& (0xFFFF : UInt64)) + (n >>> 16))
  termination_by n.toNat
  decreasing_by
    rename_i hcarry
    rw [carry64_eq_zero_iff] at hcarry
    rw [toNat_carry64]
    omega

theorem toNat_fold64 (n : UInt64) : (fold64 n).toNat = fold n.toNat := by
  fun_induction fold64 n with
  | case1 n hcarry => rw [fold_of_lt ((carry64_eq_zero_iff n).mp hcarry)]
  | case2 n hcarry ih =>
    rw [ih, toNat_carry64]
    conv_rhs => rw [fold, if_neg (mt (carry64_eq_zero_iff n).mpr hcarry)]

/-- The words of a byte string added to a sum in 64 bits. -/
def sum64 (sum : UInt64) : Bytes → UInt64
  | [] => sum
  | [b] => sum + (b.toUInt64 <<< 8)
  | b₁ :: b₀ :: rest => sum64 (sum + (Bytes.u16 b₁ b₀).toUInt64) rest

/-- As long as there is room for the whole sum, nothing is lost on the way. -/
theorem toNat_sum64 {sum : UInt64} {bs : Bytes} (h : sum.toNat + wordSum bs < 2 ^ 64) :
    (sum64 sum bs).toNat = sum.toNat + wordSum bs := by
  fun_induction sum64 sum bs with
  | case1 sum => rfl
  | case2 sum b =>
    have hb := b.toNat_lt
    have hhigh : (b.toUInt64 <<< 8).toNat = b.toNat * 256 := by
      rw [UInt64.toNat_shiftLeft, UInt8.toNat_toUInt64]
      show b.toNat <<< 8 % 2 ^ 64 = _
      rw [Nat.shiftLeft_eq]
      omega
    rw [UInt64.toNat_add, hhigh]
    exact Nat.mod_eq_of_lt h
  | case3 sum b₁ b₀ rest ih =>
    have h₁ := b₁.toNat_lt
    have h₀ := b₀.toNat_lt
    have hword : (Bytes.u16 b₁ b₀).toUInt64.toNat = b₁.toNat * 256 + b₀.toNat := by
      rw [UInt16.toNat_toUInt64, Bytes.u16, UInt16.toNat_ofNat']
      omega
    rw [wordSum_cons_cons] at h ⊢
    have hnext : (sum + (Bytes.u16 b₁ b₀).toUInt64).toNat =
        sum.toNat + (b₁.toNat * 256 + b₀.toNat) := by
      rw [UInt64.toNat_add, hword]
      omega
    rw [ih (by omega), hnext, Nat.add_assoc]

/-- The checksum as it is computed in 64 bits. -/
def checksum64 (bs : Bytes) (seed : Option UInt16) : UInt16 :=
  ~~~(fold64 (sum64 ((seed.map fun c : UInt16 => (~~~c).toUInt64).getD 0) bs)).toUInt16

/-- Sixty-four bits are enough for any message shorter than `2 ^ 48` bytes. -/
theorem checksum64_eq {bs : Bytes} (h : bs.length < 2 ^ 48) (seed : Option UInt16) :
    checksum64 bs seed = checksum bs seed := by
  have hseed : ((seed.map fun c : UInt16 => (~~~c).toUInt64).getD 0).toNat = carried seed := by
    cases seed with
    | none => rfl
    | some c =>
      show (~~~c).toUInt64.toNat = 65535 - c.toNat
      rw [UInt16.toNat_toUInt64, UInt16.toNat_not]
      rfl
  have hroom := carried_add_wordSum_lt h seed
  have hlt := fold_lt (carried seed + wordSum bs)
  have hsum : (fold64 (sum64 ((seed.map fun c : UInt16 => (~~~c).toUInt64).getD 0) bs)).toNat =
      fold (carried seed + wordSum bs) := by
    rw [toNat_fold64, toNat_sum64 (by rwa [hseed]), hseed]
  rw [← UInt16.toNat_inj, toNat_checksum_carried, checksum64, UInt16.toNat_not,
    UInt64.toNat_toUInt16, hsum, Nat.mod_eq_of_lt hlt]
  rfl

/-! ### The laws -/

/-- A message of any number of parts, all but the last of even length, has the checksum of the
whole, when the checksum of each part is continued from that of the one before, and that of the
first from a given one or none.

When two bytes at an even place are zero and the checksum of the whole is entered there, the
checksum is zero, whether it is continued from another one or not.

A checksum that continues from none is zero if the sum of the words is a multiple of 65535, and
not zero.  So a message of zeros has another checksum than one of ones.

All this is so as well when the sum is kept in 64 bits, for any message shorter than `2 ^ 48`
bytes, which does not fill them. -/
theorem checksum_algebra :
    (∀ seed parts, parts ≠ [] → (∀ part ∈ parts.dropLast, Even part.length) →
      chained seed parts = some (checksum parts.flatten seed)) ∧
    (∀ (seed : Option UInt16) (bs : Bytes) (off : Nat), Even off → bs.slice off 2 = [0, 0] →
      checksum (bs.overlay off (Bytes.ofU16 (checksum bs seed))) seed = 0) ∧
    (∀ bs : Bytes,
      let sum := ∑ i ∈ Finset.range ((bs.length + 1) / 2), (bs.wordAt (2 * i)).toNat
      checksum bs none = 0 ↔ 0 < sum ∧ 65535 ∣ sum) ∧
    ∀ seed (bs : Bytes), bs.length < 2 ^ 48 → checksum64 bs seed = checksum bs seed := by
  refine ⟨fun seed parts hne heven => chained_eq hne heven seed,
    fun seed bs off hoff hzero => checksum_overlay_checksum hoff hzero seed, fun bs => ?_,
    fun seed bs hlen => checksum64_eq hlen seed⟩
  rw [← wordSum_eq_sum, checksum_eq_zero_iff_dvd, carried_none, Nat.zero_add]

/-- Three parts, the last of odd length; and a message that has nothing but its checksum. -/
theorem checksum_algebra_threeParts :
    let parts : List Bytes := [[0xAB, 0xCD, 0xFF, 0xFF], [], [1, 2, 3]]
    let blank : Bytes := [0, 0, 0, 0, 0]
    (parts ≠ [] ∧ (∀ part ∈ parts.dropLast, Even part.length) ∧
      chained (some 0x1234) parts =
        some (checksum [0xAB, 0xCD, 0xFF, 0xFF, 1, 2, 3] (some 0x1234))) ∧
      (Even 2 ∧ blank.slice 2 2 = [0, 0] ∧ checksum blank none ≠ 0 ∧
        checksum (blank.overlay 2 (Bytes.ofU16 (checksum blank none))) none = 0) := by
  intro parts blank
  have hne : parts ≠ [] := by decide
  have heven : ∀ part ∈ parts.dropLast, Even part.length := by decide
  have hplace : Even 2 := by decide
  have hzero : blank.slice 2 2 = [0, 0] := by decide
  have hblank : checksum blank none ≠ 0 := by
    intro h
    exact absurd ((checksum_algebra.2.2.1 blank).mp h).1 (by decide)
  exact ⟨⟨hne, heven, checksum_algebra.1 (some 0x1234) parts hne heven⟩,
    hplace, hzero, hblank, checksum_algebra.2.1 none blank 2 hplace hzero⟩

end FilterBridge
