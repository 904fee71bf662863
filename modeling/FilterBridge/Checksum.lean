import FilterBridge.Bytes

/-!
# The ones'-complement checksum

A byte string is read as 16-bit words, a last odd byte as the high half of a
word.  The words are added with end-around carry and the sum is complemented.
A result can seed the next computation, so a message in several parts of even
length has the checksum of the whole.

## Main definitions

* `wordSum` — the plain sum of the words of a byte string.
* `fold` — end-around carry: a sum reduced to 16 bits.
* `checksum` — the complement of the folded sum.

A folded sum fits in 16 bits (`fold_lt`), so no bit of it is lost when it is
complemented.
-/

namespace FilterBridge

/-- The sum of the big-endian 16-bit words of a byte string. -/
def wordSum : Bytes → Nat
  | [] => 0
  | [b] => b.toNat * 256
  | b₁ :: b₀ :: rest => b₁.toNat * 256 + b₀.toNat + wordSum rest

/-- A sum reduced to 16 bits by adding its carries back in. -/
def fold (n : Nat) : Nat :=
  if n < 65536 then n else fold (n % 65536 + n / 65536)
  termination_by n

/-- The checksum of a byte string, continuing from the checksum `seed` of what
came before. -/
def checksum (bs : Bytes) (seed : Option UInt16) : UInt16 :=
  let start := (seed.map fun c => 65535 - c.toNat).getD 0
  .ofNat (65535 - fold (start + wordSum bs))

@[simp] theorem wordSum_nil : wordSum [] = 0 := rfl

@[simp] theorem wordSum_cons_cons (b₁ b₀ : UInt8) (bs : Bytes) :
    wordSum (b₁ :: b₀ :: bs) = b₁.toNat * 256 + b₀.toNat + wordSum bs := rfl

theorem fold_lt (n : Nat) : fold n < 65536 := by
  induction n using fold.induct with
  | case1 n h => rw [fold, if_pos h]; exact h
  | case2 n h ih => rw [fold, if_neg h]; exact ih

theorem fold_of_lt {n : Nat} (h : n < 65536) : fold n = n := by rw [fold, if_pos h]

/-- Folding keeps the remainder modulo 65535. -/
theorem fold_mod (n : Nat) : fold n % 65535 = n % 65535 := by
  induction n using fold.induct with
  | case1 n h => rw [fold, if_pos h]
  | case2 n h ih => rw [fold, if_neg h, ih]; omega

end FilterBridge
