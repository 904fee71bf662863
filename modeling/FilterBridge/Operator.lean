import FilterBridge.Counters
import FilterBridge.Datagram
import FilterBridge.Session

/-!
# The operator's end

An operator agrees on a key with a filter, seals requests and opens replies.  How
datagrams travel is not its business, and the random numbers in them are inputs.

## Main definitions

* `Operator` — the password, the key agreement under way, and the key.
* `Operator.sync`, `Operator.completeSync` — the two halves of a key agreement.
* `Operator.request`, `Operator.query`, `Operator.load`, … — requests.
* `Operator.openReply` — the reply in a datagram.
* `OperatorError` — why a call fails.
-/

namespace FilterBridge

/-- Why a call fails. -/
inductive OperatorError
  /-- The reply cannot be read. -/
  | message (cause : MessageError)
  /-- No key can be derived. -/
  | derivation
  /-- A key agreement needs a password. -/
  | noPassword
  /-- No key agreement is under way. -/
  | noSyncPending
  /-- The filter refused. -/
  | refused (code : ErrorCode)
  /-- The reply is of another type. -/
  | unexpected (type : UInt8)
  deriving DecidableEq, Repr, Inhabited

/-- The text of an error. -/
def OperatorError.text : OperatorError → String
  | message cause => cause.message
  | derivation => Suite.derivationMessage
  | noPassword => "no password configured"
  | noSyncPending => "no SYNC in progress"
  | refused code => "filter refused: " ++ code.name
  | unexpected type => s!"unexpected reply type {type.toNat}"

/-- A reply. -/
structure Reply where
  /-- Its type. -/
  type : MessageType
  /-- Its payload. -/
  payload : Bytes
  deriving DecidableEq, Repr, Inhabited

/-- The code at the front of the payload of a refusal. -/
def errorCode? (payload : Bytes) : Option ErrorCode := payload.head?.bind ErrorCode.ofByte?

/-- The code of a reply that refuses. -/
def Reply.errorCode? (r : Reply) : Option ErrorCode :=
  if r.type = .error then FilterBridge.errorCode? r.payload else none

/-- An operator of one filter. -/
structure Operator where
  /-- The password. -/
  password : Option Bytes
  /-- The operator's own key material, while a key agreement is under way. -/
  pending : Option Bytes := none
  /-- The key. -/
  key : Option SessionKey := none
  deriving DecidableEq, Repr, Inhabited

namespace Operator

/-- The operator at the start; an empty password is none. -/
def start (password : Option Bytes) : Operator := { password := password.filter (· ≠ []) }

/-- The flags of sent messages. -/
def flags (o : Operator) : UInt8 := flagsFor o.password

/-- Whether there is a key. -/
def isSynced (o : Operator) : Bool := o.key.isSome

/-- Forget the key. -/
def reset (o : Operator) : Operator := { o with key := none, pending := none }

/-! ### Key agreement -/

/-- Begin to agree on a key: the datagram carries a challenge in the clear. -/
def sync (o : Operator) (s : Suite) (nonce : UInt16) (challenge : Bytes) :
    Except OperatorError (Operator × Bytes) :=
  match o.password with
  | none => .error .noPassword
  | some password =>
    .ok ({ o with pending := some (s.derive password challenge), key := none },
      s.sealMessage none .sync o.flags nonce challenge)

/-- The filter's challenge in the answer to a key agreement. -/
def challengeOf (datagram : Bytes) : Except OperatorError Bytes :=
  match Header.parse datagram with
  | .error e => .error (.message e)
  | .ok (h, payload) =>
    if !verifies datagram then .error (.message .checksum)
    else
      match MessageType.ofByte? h.type with
      | some .syncAck =>
        if payload.length < challengeLen then
          .error (.message (.truncated challengeLen payload.length))
        else .ok (payload.take challengeLen)
      | some .error =>
        match errorCode? payload with
        | some code => .error (.refused code)
        | none => .error (.unexpected h.type)
      | _ => .error (.unexpected h.type)

/-- End a key agreement with the answer of the filter. -/
def completeSync (o : Operator) (s : Suite) (datagram : Bytes) : Except OperatorError Operator :=
  match challengeOf datagram with
  | .error e => .error e
  | .ok challenge =>
    match o.password, o.pending with
    | none, _ => .error .noPassword
    | some _, none => .error .noSyncPending
    | some password, some own =>
      .ok { o with
        pending := none
        key := some (.combine own (s.derive password challenge)) }

/-! ### Requests and replies -/

/-- The datagram of a request. -/
def request (o : Operator) (s : Suite) (nonce : UInt16) (type : MessageType) (payload : Bytes) :
    Bytes :=
  s.sealMessage o.key type o.flags nonce payload

/-- The reply in a datagram. -/
def openReply (o : Operator) (s : Suite) (datagram : Bytes) : Except OperatorError Reply :=
  match s.openMessage o.key datagram with
  | .error e => .error (.message e)
  | .ok (h, payload) =>
    match MessageType.ofByte? h.type with
    | some type => .ok ⟨type, payload⟩
    | none => .error (.unexpected h.type)

/-- The request to read a table. -/
def query (o : Operator) (s : Suite) (nonce : UInt16) (kind : QueryKind) (arg : UInt32) : Bytes :=
  o.request s nonce .query (Query.encode ⟨kind.toByte, arg⟩)

/-- The request to put a table back to its default. -/
def release (o : Operator) (s : Suite) (nonce : UInt16) (kind : TableKind) (index : UInt32) :
    Bytes :=
  o.request s nonce .release (Release.encode ⟨kind.toByte, index⟩)

/-- The request for the counters. -/
def statistics (o : Operator) (s : Suite) (nonce : UInt16) (clear : Bool) : Bytes :=
  o.request s nonce .statistics [if clear then 1 else 0]

/-! ### Loading a table -/

/-- A table in pieces that fit into messages; an empty table is one empty
piece. -/
def pieces (image : Bytes) : List Bytes :=
  if image.length ≤ maxFragmentLen then [image]
  else image.take maxFragmentLen :: pieces (image.drop maxFragmentLen)
  termination_by image.length
  decreasing_by
    simp only [maxFragmentLen, List.length_drop] at *
    omega

/-- The parts that carry the given pieces, of which `i` came before. -/
def partsFrom (kind : TableKind) (index : UInt32) : Nat → List Bytes → List Fragment
  | _, [] => []
  | i, piece :: rest =>
    let first := if i = 0 then Fragment.beginFlag else 0
    let last := if rest = [] then Fragment.endFlag else 0
    ⟨kind.toByte, first ||| last, index, .ofNat (i * maxFragmentLen), piece⟩ ::
      partsFrom kind index (i + 1) rest

/-- The parts that carry a table, in order. -/
def parts (kind : TableKind) (index : UInt32) (image : Bytes) : List Fragment :=
  partsFrom kind index 0 (pieces image)

/-- The requests that load a table, in order; `nonces i` is the nonce of the
`i`-th. -/
def load (o : Operator) (s : Suite) (nonces : Nat → UInt16) (kind : TableKind) (index : UInt32)
    (image : Bytes) : List Bytes :=
  (parts kind index image).mapIdx fun i part => o.request s (nonces i) .load part.encode

end Operator

end FilterBridge
