import FilterBridge.Bytes

/-!
# The ChaCha20 key stream

A key, a nonce and a block counter fill sixteen words.  Twenty rounds stir them,
and the sum of the words before and after gives 64 bytes of key stream.

## Main definitions

* `ChaCha20.block` — one block of the key stream.
* `ChaCha20.keystream` — the first bytes of the key stream.
* `ChaCha20.apply` — data with the key stream added to it bit by bit.
-/

namespace FilterBridge.ChaCha20

/-- The sixteen words. -/
abbrev State := Vector UInt32 16

/-- A word rotated left by `n` bits, `0 < n < 32`. -/
def rotateLeft (w : UInt32) (n : UInt32) : UInt32 := (w <<< n) ||| (w >>> (32 - n))

/-- Stir four of the words. -/
def quarterRound (s : State) (a b c d : Fin 16) : State :=
  let wa := s[a] + s[b]
  let wd := rotateLeft (s[d] ^^^ wa) 16
  let wc := s[c] + wd
  let wb := rotateLeft (s[b] ^^^ wc) 12
  let wa := wa + wb
  let wd := rotateLeft (wd ^^^ wa) 8
  let wc := wc + wd
  let wb := rotateLeft (wb ^^^ wc) 7
  (((s.set a wa).set b wb).set c wc).set d wd

/-- Stir the columns and then the diagonals of the words. -/
def doubleRound (s : State) : State :=
  let s := quarterRound s 0 4 8 12
  let s := quarterRound s 1 5 9 13
  let s := quarterRound s 2 6 10 14
  let s := quarterRound s 3 7 11 15
  let s := quarterRound s 0 5 10 15
  let s := quarterRound s 1 6 11 12
  let s := quarterRound s 2 7 8 13
  quarterRound s 3 4 9 14

/-- The words of a byte string, the low byte first. -/
def words : Bytes → List UInt32
  | a :: b :: c :: d :: rest => Bytes.u32 d c b a :: words rest
  | _ => []

/-- The words before the rounds: four constants, the key, the counter and the
nonce. -/
def initial (key nonce : Bytes) (counter : UInt32) : State :=
  let ws := [0x61707865, 0x3320646e, 0x79622d32, 0x6b206574] ++ words key ++ counter :: words nonce
  Vector.ofFn fun i => ws.getD i 0

/-- The block of the key stream with the given counter. -/
def block (key nonce : Bytes) (counter : UInt32) : Bytes :=
  let s := initial key nonce counter
  let stirred := Nat.repeat doubleRound 10 s
  (Vector.zipWith (· + ·) s stirred).toList.flatMap fun w => (Bytes.ofU32 w).reverse

/-- The first `n` bytes of the key stream, its counter starting at 0. -/
def keystream (key nonce : Bytes) (n : Nat) : Bytes :=
  ((List.range ((n + 63) / 64)).flatMap fun i => block key nonce (.ofNat i)).take n

/-- Data with the key stream added to it; doing it twice gives the data back. -/
def apply (key nonce data : Bytes) : Bytes :=
  List.zipWith (· ^^^ ·) data (keystream key nonce data.length)

end FilterBridge.ChaCha20
