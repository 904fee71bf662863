import FilterBridge.Checksum
import FilterBridge.Message
import FilterBridge.SessionKey

/-!
# Sealed datagrams

A datagram carries a checksum over all that follows its type and flags.  Under a
key that part is encrypted, the checksum with it; error messages always travel
in the clear.

## Main definitions

* `Suite.sealMessage` — a datagram with the given type and payload.
* `Suite.openMessage` — the header and the payload of a datagram, if its checksum holds.
* `verifies` — whether the checksum of a datagram in the clear holds.
-/

namespace FilterBridge

/-- How many bytes of a datagram are never encrypted: its type and flags. -/
def clearLen : Nat := 2

/-- The key that messages of a type are encrypted with, if any. -/
def cipherKey (key : Option SessionKey) (type : UInt8) : Option SessionKey :=
  if type = MessageType.error.toByte then none else key

/-- Whether the checksum of a datagram in the clear holds. -/
def verifies (datagram : Bytes) : Bool := checksum (datagram.drop clearLen) none = 0

/-- The part of a datagram under checksum, with its checksum in place. -/
def sealedBody (nonce : UInt16) (payload : Bytes) : Bytes :=
  let sum := checksum (Bytes.ofU16 nonce ++ Bytes.ofU16 0 ++ payload) none
  Bytes.ofU16 nonce ++ Bytes.ofU16 sum ++ payload

namespace Suite

/-- The datagram of a type and payload. -/
def sealMessage (s : Suite) (key : Option SessionKey) (type : MessageType) (flags : UInt8)
    (nonce : UInt16) (payload : Bytes) : Bytes :=
  let body := sealedBody nonce payload
  type.toByte :: flags ::
    match cipherKey key type.toByte with
    | some k => s.encrypt k body
    | none => body

/-- A datagram decrypted. -/
def plain (s : Suite) (key : Option SessionKey) (datagram : Bytes) : Bytes :=
  match (datagram.head?.bind fun type => cipherKey key type) with
  | some k => datagram.take clearLen ++ s.decrypt k (datagram.drop clearLen)
  | none => datagram

/-- The header and the payload of a datagram. -/
def openMessage (s : Suite) (key : Option SessionKey) (datagram : Bytes) :
    Except MessageError (Header × Bytes) := do
  let _ ← Header.parse datagram
  let plain := s.plain key datagram
  if verifies plain then Header.parse plain else .error .checksum

end Suite

end FilterBridge
