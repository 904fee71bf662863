import FilterBridge.Message
import FilterBridge.SessionKey

/-!
# Sessions

The filter has a password or none, and with a password it may have agreed on a
session key.

## Main definitions

* `Session` — password and key.
* `Session.state` — which of the three situations holds.
-/

namespace FilterBridge

/-- How requests are protected. -/
inductive SessionState
  /-- There is no password: requests travel in the clear. -/
  | insecure
  /-- There is a password, but no key yet. -/
  | awaitingSync
  /-- There is a key. -/
  | secure
  deriving DecidableEq, Repr, Inhabited

/-- The name of a situation. -/
def SessionState.name : SessionState → String
  | insecure => "Insecure"
  | awaitingSync => "AwaitingSync"
  | secure => "Secure"

/-- The password and the key of one end. -/
structure Session where
  /-- The password. -/
  password : Option Bytes
  /-- The key, while it is valid. -/
  key : Option SessionKey := none
  deriving DecidableEq, Repr, Inhabited

/-- The flags of an end with the given password. -/
def flagsFor (password : Option Bytes) : UInt8 := if password.isSome then passwordFlag else 0

namespace Session

/-- The session at the start; an empty password is none. -/
def start (password : Option Bytes) : Session := { password := password.filter (· ≠ []) }

/-- The situation. -/
def state (s : Session) : SessionState :=
  match s.password, s.key with
  | none, _ => .insecure
  | some _, none => .awaitingSync
  | some _, some _ => .secure

/-- Whether there is a password. -/
def passwordLoaded (s : Session) : Bool := s.password.isSome

/-- Whether there is a key. -/
def isValid (s : Session) : Bool := s.key.isSome

/-- The flags of sent messages. -/
def flags (s : Session) : UInt8 := flagsFor s.password

/-- Take a new password; the key stays. -/
def setPassword (s : Session) (password : Bytes) : Session := { s with password := some password }

/-- Take a key. -/
def establish (s : Session) (key : SessionKey) : Session := { s with key := some key }

/-- Drop the key. -/
def invalidate (s : Session) : Session := { s with key := none }

end Session

end FilterBridge
