import FilterBridge.ChaCha20
import FilterBridge.Sha256

/-!
# Session keys

Both ends of a session draw a challenge.  Each challenge, with the password that
both know, gives key material, and the material of both challenges together
gives the key.  How material is derived and how data is encrypted is a parameter
of the protocol.

## Main definitions

* `SessionKey`, `SessionKey.combine` — keys, and the key from two materials.
* `Suite` — a way to derive material and to encrypt.
* `Suite.standard` — HKDF over SHA-256, and ChaCha20.
-/

namespace FilterBridge

/-- The key of a session. -/
structure SessionKey where
  /-- Its bytes. -/
  bytes : Bytes
  deriving DecidableEq, Repr, Inhabited

namespace SessionKey

/-- The length of a key. -/
def len : Nat := 32

/-- The key from the material of both ends; their order does not matter. -/
def combine (a b : Bytes) : SessionKey := ⟨List.zipWith (· ^^^ ·) a b⟩

/-- The text of a key in messages, which tells nothing about it. -/
def redacted (_ : SessionKey) : String := "SessionKey(..)"

theorem combine_comm (a b : Bytes) : combine a b = combine b a := by
  rw [combine, combine, List.zipWith_comm]
  simp only [UInt8.xor_comm]

end SessionKey

/-- A way to derive key material and to encrypt. -/
structure Suite where
  /-- Key material from a password and a challenge. -/
  derive (password challenge : Bytes) : Bytes
  /-- Data encrypted under a key. -/
  encrypt (key : SessionKey) (data : Bytes) : Bytes
  /-- Data decrypted under a key. -/
  decrypt (key : SessionKey) (data : Bytes) : Bytes

namespace Suite

/-- The label under which session keys are derived. -/
def keyLabel : Bytes := "drawbridge management session v1".toUTF8.toList

/-- The text for a key that cannot be derived. -/
def derivationMessage : String := "key derivation failed"

/-- Material by HKDF with the challenge as salt, and ChaCha20 with a nonce of
zeros as cipher. -/
def standard : Suite where
  derive password challenge := Sha256.hkdf challenge password keyLabel SessionKey.len
  encrypt key data := ChaCha20.apply key.bytes (Bytes.zeros 12) data
  decrypt key data := ChaCha20.apply key.bytes (Bytes.zeros 12) data

/-- The key of the end that drew the challenge `own` and received `peer`. -/
def agree (s : Suite) (password own peer : Bytes) : SessionKey :=
  .combine (s.derive password own) (s.derive password peer)

/-- Both ends agree on one key. -/
theorem agree_comm (s : Suite) (password own peer : Bytes) :
    s.agree password own peer = s.agree password peer own :=
  SessionKey.combine_comm _ _

end Suite

end FilterBridge
