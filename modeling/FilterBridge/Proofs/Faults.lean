import FilterBridge.Bytes

/-!
# Faults

The filter takes bytes apart by pattern, keeps its tables in vectors and subtracts where
nothing is lost, so it cannot reach past an end.  A program that works on plain arrays can: it
relies on checks made elsewhere, and stops where one of them is missing.  Here are the accesses
of such a program.  Each of them may meet a fault, and when it meets none it does what the
filter does.

## Main definitions

* `Fault`, `Checked` — what stops a program, and programs that may be stopped.
* `Checked.fetch`, `Checked.store` — an element of an array is read or replaced.
* `Checked.cut`, `Checked.paste` — a piece of a byte string is read or replaced.
* `Checked.minus` — a difference.
* `Checked.takeU8`, `Checked.takeU16`, `Checked.takeU32` — a buffer is read from its front.
* `Fallible`, `Fallible.whole` — programs that may also fail in an orderly way.
-/

namespace FilterBridge

/-- What stops a program. -/
inductive Fault
  /-- An array has no element with that index. -/
  | index (i : Nat)
  /-- A byte string cannot be cut there. -/
  | cut (first last length : Nat)
  /-- A piece is to be replaced by one of another length. -/
  | copy (room length : Nat)
  /-- A buffer holds fewer bytes than are read. -/
  | buffer (need left : Nat)
  /-- A difference is below zero. -/
  | underflow (a b : Nat)
  /-- A loop does not end. -/
  | endless
  deriving DecidableEq, Repr, Inhabited

/-- A program that may be stopped by a fault. -/
abbrev Checked := Except Fault

namespace Checked

variable {α β : Type} {bs data : Bytes} {first last a b i : Nat}

@[simp] theorem ok_bind (x : α) (f : α → Checked β) : ((.ok x : Checked α) >>= f) = f x := rfl

@[simp] theorem pure_eq_ok (x : α) : (pure x : Checked α) = .ok x := rfl

/-- A program goes on from the end of its first part. -/
theorem bind_of_eq {p : Checked α} {x : α} (h : p = .ok x) (f : α → Checked β) :
    (p >>= f) = f x := by
  rw [h, ok_bind]

/-! ### Arrays -/

/-- An element of an array. -/
def fetch {coll : Type} {valid : coll → Nat → Prop} [GetElem? coll Nat α valid] (xs : coll)
    (i : Nat) : Checked α :=
  match xs[i]? with
  | some x => .ok x
  | none => .error (.index i)

theorem fetch_of_getElem? {coll : Type} {valid : coll → Nat → Prop} [GetElem? coll Nat α valid]
    {xs : coll} {x : α} (h : xs[i]? = some x) : fetch xs i = .ok x := by
  rw [fetch, h]

/-- An array with an element replaced. -/
def store (xs : Array α) (i : Nat) (x : α) : Checked (Array α) :=
  if i < xs.size then .ok (xs.setIfInBounds i x) else .error (.index i)

theorem store_of_lt {xs : Array α} (h : i < xs.size) (x : α) :
    store xs i x = .ok (xs.setIfInBounds i x) := if_pos h

/-! ### Byte strings -/

/-- The bytes from position `first` up to position `last`. -/
def cut (bs : Bytes) (first last : Nat) : Checked Bytes :=
  if first ≤ last ∧ last ≤ bs.length then .ok (bs.slice first (last - first))
  else .error (.cut first last bs.length)

theorem cut_of_le {len : Nat} (h : first + len ≤ bs.length) :
    cut bs first (first + len) = .ok (bs.slice first len) := by
  rw [cut, if_pos ⟨Nat.le_add_right first len, h⟩, Nat.add_sub_cancel_left]

/-- All bytes from position `first` on. -/
theorem cut_length (h : first ≤ bs.length) : cut bs first bs.length = .ok (bs.drop first) := by
  have hall : bs.slice first (bs.length - first) = bs.drop first :=
    List.take_of_length_le (Nat.le_of_eq List.length_drop)
  rw [cut, if_pos ⟨h, Nat.le_refl _⟩, hall]

/-- A byte string with the bytes from position `first` up to position `last` replaced. -/
def paste (bs : Bytes) (first last : Nat) (data : Bytes) : Checked Bytes := do
  let piece ← cut bs first last
  if piece.length = data.length then return bs.overlay first data
  else .error (.copy piece.length data.length)

theorem paste_of_le (h : first + data.length ≤ bs.length) :
    paste bs first (first + data.length) data = .ok (bs.overlay first data) := by
  rw [paste, cut_of_le h, ok_bind, if_pos (Bytes.length_slice h)]
  rfl

/-! ### Numbers -/

/-- The difference of two numbers. -/
def minus (a b : Nat) : Checked Nat := if b ≤ a then .ok (a - b) else .error (.underflow a b)

theorem minus_of_le (h : b ≤ a) : minus a b = .ok (a - b) := if_pos h

/-! ### Buffers -/

/-- The first byte of a buffer, and what comes after it. -/
def takeU8 : Bytes → Checked (UInt8 × Bytes)
  | b :: rest => .ok (b, rest)
  | bs => .error (.buffer 1 bs.length)

/-- The 16-bit word at the front of a buffer. -/
def takeU16 : Bytes → Checked (UInt16 × Bytes)
  | b₁ :: b₀ :: rest => .ok (Bytes.u16 b₁ b₀, rest)
  | bs => .error (.buffer 2 bs.length)

/-- The 32-bit word at the front of a buffer. -/
def takeU32 : Bytes → Checked (UInt32 × Bytes)
  | b₃ :: b₂ :: b₁ :: b₀ :: rest => .ok (Bytes.u32 b₃ b₂ b₁ b₀, rest)
  | bs => .error (.buffer 4 bs.length)

end Checked

/-! ### Orderly failures -/

/-- A program that may be stopped by a fault, and may fail with an error of its own. -/
abbrev Fallible (ε : Type) := ExceptT ε Checked

namespace Fallible

variable {ε α β : Type}

/-- The program that meets no fault and ends in a given way. -/
def whole (r : Except ε α) : Fallible ε α := ExceptT.mk (.ok r)

/-- Programs without a fault, one after the other, are such a program. -/
theorem whole_bind (r : Except ε α) (f : α → Except ε β) :
    whole (r >>= f) = whole r >>= fun x => whole (f x) := by
  cases r <;> rfl

theorem whole_pure (x : α) : (whole (pure x) : Fallible ε α) = pure x := rfl

theorem lift_ok (x : α) : (liftM (.ok x : Checked α) : Fallible ε α) = pure x := rfl

end Fallible

end FilterBridge
