/-!
# Byte strings

Every datagram, table image and frame is a list of bytes.  Words travel most
significant byte first.

## Main definitions

* `Bytes` — a byte string.
* `Bytes.ofU16`, `Bytes.ofU32`, `Bytes.ofU64` — a word as its bytes.
* `Bytes.u16`, `Bytes.u32`, `Bytes.u64` — the word that given bytes spell.
* `Bytes.slice`, `Bytes.overlay`, `Bytes.padTo` — reading and writing in place.

The two directions undo each other (`Bytes.u16_ofU16`, `Bytes.u32_ofU32`), and
overlaying keeps the length (`Bytes.length_overlay`).
-/

namespace FilterBridge

/-- A byte string. -/
abbrev Bytes := List UInt8

namespace Bytes

/-! ### Words -/

/-- The two bytes of a 16-bit word, high byte first. -/
def ofU16 (w : UInt16) : Bytes :=
  [.ofNat (w.toNat / 256), .ofNat w.toNat]

/-- The four bytes of a 32-bit word, highest first. -/
def ofU32 (w : UInt32) : Bytes :=
  [.ofNat (w.toNat / 16777216), .ofNat (w.toNat / 65536), .ofNat (w.toNat / 256), .ofNat w.toNat]

/-- The eight bytes of a 64-bit word, highest first. -/
def ofU64 (w : UInt64) : Bytes :=
  ofU32 (.ofNat (w.toNat / 4294967296)) ++ ofU32 (.ofNat w.toNat)

/-- The 16-bit word with the given bytes. -/
def u16 (b₁ b₀ : UInt8) : UInt16 :=
  .ofNat (b₁.toNat * 256 + b₀.toNat)

/-- The 32-bit word with the given bytes. -/
def u32 (b₃ b₂ b₁ b₀ : UInt8) : UInt32 :=
  .ofNat (b₃.toNat * 16777216 + b₂.toNat * 65536 + b₁.toNat * 256 + b₀.toNat)

/-- The 64-bit word with the given halves. -/
def u64 (hi lo : UInt32) : UInt64 :=
  .ofNat (hi.toNat * 4294967296 + lo.toNat)

@[simp] theorem length_ofU16 (w : UInt16) : (ofU16 w).length = 2 := rfl

@[simp] theorem length_ofU32 (w : UInt32) : (ofU32 w).length = 4 := rfl

@[simp] theorem length_ofU64 (w : UInt64) : (ofU64 w).length = 8 := rfl

theorem u16_ofU16 (w : UInt16) : u16 (.ofNat (w.toNat / 256)) (.ofNat w.toNat) = w := by
  apply UInt16.toNat_inj.mp
  have := w.toNat_lt
  simp only [u16, UInt8.toNat_ofNat', UInt16.toNat_ofNat']
  omega

theorem ofU16_u16 (b₁ b₀ : UInt8) : ofU16 (u16 b₁ b₀) = [b₁, b₀] := by
  have := b₁.toNat_lt
  have := b₀.toNat_lt
  simp only [ofU16, u16, UInt16.toNat_ofNat', List.cons.injEq, and_true]
  constructor <;> apply UInt8.toNat_inj.mp <;> simp only [UInt8.toNat_ofNat'] <;> omega

theorem u32_ofU32 (w : UInt32) :
    u32 (.ofNat (w.toNat / 16777216)) (.ofNat (w.toNat / 65536)) (.ofNat (w.toNat / 256))
      (.ofNat w.toNat) = w := by
  apply UInt32.toNat_inj.mp
  have := w.toNat_lt
  simp only [u32, UInt8.toNat_ofNat', UInt32.toNat_ofNat']
  omega

theorem ofU32_u32 (b₃ b₂ b₁ b₀ : UInt8) : ofU32 (u32 b₃ b₂ b₁ b₀) = [b₃, b₂, b₁, b₀] := by
  have := b₃.toNat_lt
  have := b₂.toNat_lt
  have := b₁.toNat_lt
  have := b₀.toNat_lt
  simp only [ofU32, u32, UInt32.toNat_ofNat', List.cons.injEq, and_true]
  refine ⟨?_, ?_, ?_, ?_⟩ <;> apply UInt8.toNat_inj.mp <;> simp only [UInt8.toNat_ofNat'] <;> omega

theorem u64_halves (w : UInt64) :
    u64 (.ofNat (w.toNat / 4294967296)) (.ofNat w.toNat) = w := by
  apply UInt64.toNat_inj.mp
  have := w.toNat_lt
  simp only [u64, UInt32.toNat_ofNat', UInt64.toNat_ofNat']
  omega

/-! ### Reading and writing in place -/

/-- `n` zero bytes. -/
def zeros (n : Nat) : Bytes := List.replicate n 0

/-- The `len` bytes from position `off` on, fewer when the string ends before. -/
def slice (bs : Bytes) (off len : Nat) : Bytes := (bs.drop off).take len

/-- The string with the bytes from position `off` on replaced by `data`. -/
def overlay (bs : Bytes) (off : Nat) (data : Bytes) : Bytes :=
  bs.take off ++ data ++ bs.drop (off + data.length)

/-- The string followed by zeros up to length `n`; a longer string is cut. -/
def padTo (n : Nat) (bs : Bytes) : Bytes :=
  bs.take n ++ zeros (n - bs.length)

@[simp] theorem length_zeros (n : Nat) : (zeros n).length = n := by simp [zeros]

theorem length_slice {bs : Bytes} {off len : Nat} (h : off + len ≤ bs.length) :
    (slice bs off len).length = len := by
  simp only [slice, List.length_take, List.length_drop]
  omega

theorem length_overlay {bs data : Bytes} {off : Nat} (h : off + data.length ≤ bs.length) :
    (overlay bs off data).length = bs.length := by
  simp only [overlay, List.length_append, List.length_take, List.length_drop]
  omega

/-- Replacing a whole string by one of the same length gives that one. -/
theorem overlay_zero {bs data : Bytes} (h : data.length = bs.length) :
    overlay bs 0 data = data := by
  simp [overlay, h]

@[simp] theorem length_padTo (n : Nat) (bs : Bytes) : (padTo n bs).length = n := by
  simp only [padTo, List.length_append, List.length_take, length_zeros]
  omega

end Bytes

end FilterBridge
