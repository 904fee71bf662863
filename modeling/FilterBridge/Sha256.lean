import FilterBridge.Bytes

/-!
# SHA-256 and keyed hashing

The secure hash of 256 bits, the message authentication code HMAC over it, and
the key derivation HKDF over that.

## Main definitions

* `Sha256.hash` — the hash of a byte string.
* `Sha256.hmac` — the authentication code of a message under a key.
* `Sha256.hkdf` — key bytes from a salt, a secret and a label.
-/

namespace FilterBridge.Sha256

/-- The constants of the 64 rounds: the first 32 bits of the fractional parts of
the cube roots of the first 64 primes. -/
def roundConstants : List UInt32 :=
  [0x428a2f98, 0x71374491, 0xb5c0fbcf, 0xe9b5dba5, 0x3956c25b, 0x59f111f1, 0x923f82a4, 0xab1c5ed5,
    0xd807aa98, 0x12835b01, 0x243185be, 0x550c7dc3, 0x72be5d74, 0x80deb1fe, 0x9bdc06a7, 0xc19bf174,
    0xe49b69c1, 0xefbe4786, 0x0fc19dc6, 0x240ca1cc, 0x2de92c6f, 0x4a7484aa, 0x5cb0a9dc, 0x76f988da,
    0x983e5152, 0xa831c66d, 0xb00327c8, 0xbf597fc7, 0xc6e00bf3, 0xd5a79147, 0x06ca6351, 0x14292967,
    0x27b70a85, 0x2e1b2138, 0x4d2c6dfc, 0x53380d13, 0x650a7354, 0x766a0abb, 0x81c2c92e, 0x92722c85,
    0xa2bfe8a1, 0xa81a664b, 0xc24b8b70, 0xc76c51a3, 0xd192e819, 0xd6990624, 0xf40e3585, 0x106aa070,
    0x19a4c116, 0x1e376c08, 0x2748774c, 0x34b0bcb5, 0x391c0cb3, 0x4ed8aa4a, 0x5b9cca4f, 0x682e6ff3,
    0x748f82ee, 0x78a5636f, 0x84c87814, 0x8cc70208, 0x90befffa, 0xa4506ceb, 0xbef9a3f7, 0xc67178f2]

/-- The eight words of a hash. -/
structure Digest where
  a : UInt32
  b : UInt32
  c : UInt32
  d : UInt32
  e : UInt32
  f : UInt32
  g : UInt32
  h : UInt32
  deriving DecidableEq, Repr

/-- The hash before the first block: the first 32 bits of the fractional parts
of the square roots of the first eight primes. -/
def initial : Digest :=
  ⟨0x6a09e667, 0xbb67ae85, 0x3c6ef372, 0xa54ff53a, 0x510e527f, 0x9b05688c, 0x1f83d9ab, 0x5be0cd19⟩

/-- A word rotated right by `n` bits, `0 < n < 32`. -/
def rotateRight (w : UInt32) (n : UInt32) : UInt32 := (w >>> n) ||| (w <<< (32 - n))

/-- Add two hashes word by word. -/
def Digest.add (x y : Digest) : Digest :=
  ⟨x.a + y.a, x.b + y.b, x.c + y.c, x.d + y.d, x.e + y.e, x.f + y.f, x.g + y.g, x.h + y.h⟩

/-- The bytes of a hash. -/
def Digest.bytes (x : Digest) : Bytes :=
  [x.a, x.b, x.c, x.d, x.e, x.f, x.g, x.h].flatMap Bytes.ofU32

/-- One round with its constant and its word of the schedule. -/
def round (x : Digest) (k w : UInt32) : Digest :=
  let s₁ := rotateRight x.e 6 ^^^ rotateRight x.e 11 ^^^ rotateRight x.e 25
  let choice := (x.e &&& x.f) ^^^ (~~~x.e &&& x.g)
  let t₁ := x.h + s₁ + choice + k + w
  let s₀ := rotateRight x.a 2 ^^^ rotateRight x.a 13 ^^^ rotateRight x.a 22
  let majority := (x.a &&& x.b) ^^^ (x.a &&& x.c) ^^^ (x.b &&& x.c)
  ⟨t₁ + (s₀ + majority), x.a, x.b, x.c, x.d + t₁, x.e, x.f, x.g⟩

/-- The word of the schedule that follows the given ones, the last of which comes
first. -/
def nextWord (ws : List UInt32) : UInt32 :=
  let at_ := fun i => ws.getD i 0
  let s₀ := rotateRight (at_ 14) 7 ^^^ rotateRight (at_ 14) 18 ^^^ (at_ 14 >>> 3)
  let s₁ := rotateRight (at_ 1) 17 ^^^ rotateRight (at_ 1) 19 ^^^ (at_ 1 >>> 10)
  at_ 15 + s₀ + at_ 6 + s₁

/-- Add `n` words to a schedule, the last of which comes first. -/
def extend : Nat → List UInt32 → List UInt32
  | 0, ws => ws
  | n + 1, ws => extend n (nextWord ws :: ws)

/-- Take a block of sixteen words into a hash. -/
def compress (x : Digest) (block : List UInt32) : Digest :=
  let schedule := (extend 48 block.reverse).reverse
  x.add ((roundConstants.zip schedule).foldl (fun y kw => round y kw.1 kw.2) x)

/-- The words of a byte string of whole words. -/
def words : Bytes → List UInt32
  | a :: b :: c :: d :: rest => Bytes.u32 a b c d :: words rest
  | _ => []

/-- Words in blocks of sixteen, as many as `n`. -/
def blocks : Nat → List UInt32 → List (List UInt32)
  | 0, _ => []
  | n + 1, ws => ws.take 16 :: blocks n (ws.drop 16)

/-- A message with a one bit, zeros and its length in bits behind it, so that it
consists of whole blocks. -/
def pad (message : Bytes) : Bytes :=
  message ++ 0x80 :: Bytes.zeros ((119 - message.length % 64) % 64) ++
    Bytes.ofU64 (.ofNat (message.length * 8))

/-- The hash of a message. -/
def hash (message : Bytes) : Bytes :=
  let padded := pad message
  ((blocks (padded.length / 64) (words padded)).foldl compress initial).bytes

/-- The length of a block of bytes. -/
def blockLen : Nat := 64

/-- The authentication code of a message.  A key longer than a block is hashed
first. -/
def hmac (key message : Bytes) : Bytes :=
  let key := Bytes.padTo blockLen (if blockLen < key.length then hash key else key)
  let inner := hash (key.map (· ^^^ 0x36) ++ message)
  hash (key.map (· ^^^ 0x5c) ++ inner)

/-- Up to `n` blocks of key bytes, the block number `i` first, each made from the
one before. -/
def expand (secret label : Bytes) : Nat → UInt8 → Bytes → Bytes
  | 0, _, _ => []
  | n + 1, i, previous =>
    let block := hmac secret (previous ++ label ++ [i])
    block ++ expand secret label n (i + 1) block

/-- The `len` key bytes derived from a secret under a salt and a label. -/
def hkdf (salt secret label : Bytes) (len : Nat) : Bytes :=
  (expand (hmac salt secret) label ((len + 31) / 32) 1 []).take len

end FilterBridge.Sha256
