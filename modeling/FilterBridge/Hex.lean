/-!
# Hexadecimal text

Addresses appear in messages and file names as eight lower-case hexadecimal
digits.

## Main definitions

* `Hex.digit` — the character of one digit.
* `Hex.word` — a 32-bit word as eight digits.
-/

namespace FilterBridge.Hex

/-- The lower-case character of a digit below sixteen. -/
def digit (n : Nat) : Char :=
  if n < 10 then Char.ofNat (48 + n) else Char.ofNat (87 + n)

/-- The last `k` hexadecimal digits of `n`, most significant first. -/
def digits : Nat → Nat → List Char
  | 0, _ => []
  | k + 1, n => digits k (n / 16) ++ [digit (n % 16)]

@[simp] theorem length_digits (k n : Nat) : (digits k n).length = k := by
  induction k generalizing n with
  | zero => rfl
  | succ k ih => simp [digits, ih]

/-- A 32-bit word as eight digits. -/
def word (w : UInt32) : String := String.ofList (digits 8 w.toNat)

end FilterBridge.Hex
