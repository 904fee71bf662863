import FilterBridge.Datagram
import FilterBridge.Session
import FilterBridge.TableStore
import FilterBridge.Upload

/-!
# The management agent

The agent of the filter answers the datagrams of its operators, one reply at most
to each.  With a password it accepts only datagrams that open under the session
key, apart from those that agree on a key.  After it has accepted a restart it
answers no more.

The random numbers of a reply, its nonce and the challenge of a key agreement,
are inputs.

## Main definitions

* `Agent` — the store, the session, what is being loaded, and whether a restart
  is due.
* `Response` — the reply to a request, before it is sealed.
* `Agent.onQuery`, `Agent.onWrite`, … — the requests.
* `Agent.handle` — the answer to a datagram.
* `Agent.drawsChallenge` — whether a datagram makes the agent draw a challenge.
-/

namespace FilterBridge

/-- The agent of the filter. -/
structure Agent (σ : Type) where
  /-- Where tables and password are persisted. -/
  store : σ
  /-- The session. -/
  session : Session
  /-- The tables that are being loaded. -/
  uploads : Uploads := {}
  /-- Whether a restart is due. -/
  rebooting : Bool := false

/-- A reply before it is sealed. -/
inductive Response
  /-- A reply that is encrypted if there is a key. -/
  | reply (type : MessageType) (payload : Bytes)
  /-- A reply in the clear. -/
  | clear (type : MessageType) (payload : Bytes)
  deriving DecidableEq, Repr, Inhabited

namespace Response

/-- The reply that refuses a request. -/
def refuse (code : ErrorCode) : Response := clear .error [code.toByte]

/-- The datagram of a reply. -/
def sealFor (r : Response) (s : Suite) (session : Session) (nonce : UInt16) : Bytes :=
  match r with
  | reply type payload => s.sealMessage session.key type session.flags nonce payload
  | clear type payload => s.sealMessage none type session.flags nonce payload

end Response

namespace Agent

variable {σ : Type}

/-- The agent at the start, with a password or none. -/
def start (store : σ) (password : Option Bytes) : Agent σ :=
  { store, session := .start password }

/-! ### Key agreement -/

/-- The challenge in the payload of a request to agree on a key. -/
def peerChallenge? (payload : Bytes) : Option Bytes :=
  if payload.length < challengeLen then none else some (payload.take challengeLen)

/-- Agree on a key: the answer is a challenge of the agent's own, in the clear.
A request that is damaged ends the session. -/
def onSync (a : Agent σ) (s : Suite) (challenge datagram payload : Bytes) :
    Agent σ × Response :=
  match a.session.password with
  | none => (a, .refuse .insecure)
  | some password =>
    if !verifies datagram then ({ a with session := a.session.invalidate }, .refuse .lostSync)
    else
      match peerChallenge? payload with
      | none => (a, .refuse .command)
      | some peer =>
        ({ a with session := a.session.establish (s.agree password challenge peer) },
          .clear .syncAck challenge)

/-! ### Requests -/

/-- Restart soon. -/
def onReboot (a : Agent σ) : Agent σ × Response :=
  ({ a with rebooting := true }, .reply .rebootAck [])

/-- Replace the password, if it can be persisted.  The key stays. -/
def onNewKey [TableStore σ] (a : Agent σ) (payload : Bytes) : Agent σ × Response :=
  if payload = [] || maxPasswordLen < payload.length then (a, .refuse .command)
  else
    match TableStore.writePassword a.store payload with
    | (store, .ok ()) =>
      ({ a with store, session := a.session.setPassword payload }, .reply .newKeyAck [])
    | (store, .error e) => ({ a with store }, .refuse e.passwordCode)

/-- The answer to a query for a table; `none` refuses it. -/
def queryBody (f : Firewall) (q : Query) : Firewall × Option Bytes :=
  match QueryKind.ofByte? q.kind with
  | some .networks =>
    (f, some (encodeNetworks (f.classifier.networks.toList.map (·.network))))
  | some .host =>
    match f.lookup q.arg with
    | (f, k) => (f, some [k])
  | some .reject => (f, some (f.policy.encode .reject))
  | some .allow => (f, some (f.policy.encode .allow))
  | some .classRules =>
    if q.arg.toNat < 256 then (f, some (f.policy.rules (.ofNat q.arg.toNat)).encode) else (f, none)
  | none => (f, none)

/-- Read a table. -/
def onQuery (f : Firewall) (payload : Bytes) : Firewall × Response :=
  match Query.parse payload with
  | .error _ => (f, .refuse .command)
  | .ok q =>
    match queryBody f q with
    | (f, some body) => (f, .reply .queryAck body)
    | (f, none) => (f, .refuse .command)

/-- Take a part of a table. -/
def onLoad (a : Agent σ) (f : Firewall) (payload : Bytes) : Agent σ × Firewall × Response :=
  match Fragment.parse payload with
  | .error _ => (a, f, .refuse .command)
  | .ok part =>
    match a.uploads.apply f part with
    | (uploads, f, .ok ()) => ({ a with uploads }, f, .reply .loadAck part.ack)
    | (uploads, f, .error e) => ({ a with uploads }, f, .refuse e.code)

/-- Persist the tables that changed, in order, up to the first that cannot be. -/
def writeTables [TableStore σ] : List Table → σ → Policy → σ × Policy × Option ErrorCode
  | [], store, p => (store, p, none)
  | t :: ts, store, p =>
    if p.isDirty t then
      match TableStore.writeTable store t (p.encode t) with
      | (store, .ok ()) => writeTables ts store (p.setDirty false t)
      | (store, .error e) => (store, p, some e.dataCode)
    else writeTables ts store p

/-- Persist the given networks, in order, up to the first that cannot be. -/
def writeNetworks [TableStore σ] :
    List Address → σ → Classifier → σ × Classifier × Option ErrorCode
  | [], store, c => (store, c, none)
  | n :: ns, store, c =>
    match c.hostTable n with
    | .error _ => (store, c, some .dataWrite)
    | .ok image =>
      match TableStore.writeNetwork store n image with
      | (store, .ok ()) => writeNetworks ns store (c.markClean n)
      | (store, .error e) => (store, c, some e.dataCode)

/-- Persist all that changed: the tables first, then the networks. -/
def onWrite [TableStore σ] (a : Agent σ) (f : Firewall) : Agent σ × Firewall × Response :=
  match writeTables Table.all a.store f.policy with
  | (store, policy, some code) => ({ a with store }, { f with policy }, .refuse code)
  | (store, policy, none) =>
    match writeNetworks f.classifier.dirtyNetworks store f.classifier with
    | (store, classifier, some code) =>
      ({ a with store }, { f with policy, classifier }, .refuse code)
    | (store, classifier, none) =>
      ({ a with store }, { f with policy, classifier }, .reply .writeAck [])

/-- The table of the policy that a kind stands for; host tables are not in the
policy. -/
def tableOf? : TableKind → Option Table
  | .network => none
  | .classRules => some .classes
  | .reject => some .reject
  | .allow => some .allow

/-- The reply to a release, by how the persisted copy was removed. -/
def released (r : σ × Except StoreError Unit) (a : Agent σ) : Agent σ × Response :=
  match r with
  | (store, .ok ()) => ({ a with store }, .reply .releaseAck [])
  | (store, .error e) => ({ a with store }, .refuse e.dataCode)

/-- Put a table back to its default, and forget its persisted copy. -/
def onRelease [TableStore σ] (a : Agent σ) (f : Firewall) (payload : Bytes) :
    Agent σ × Firewall × Response :=
  match Release.parse payload with
  | .error _ => (a, f, .refuse .command)
  | .ok r =>
    match TableKind.ofByte? r.kind with
    | none => (a, f, .refuse .command)
    | some kind =>
      match tableOf? kind with
      | some t =>
        match released (TableStore.removeTable a.store t) a with
        | (a, response) => (a, { f with policy := f.policy.reset t }, response)
      | none =>
        match f.classifier.release r.index with
        | (classifier, true) =>
          match released (TableStore.removeNetwork a.store r.index) a with
          | (a, response) => (a, { f with classifier }, response)
        | (_, false) => (a, f, .refuse .noNetwork)

/-- Report the counters, and clear them if the first byte says so. -/
def onStatistics (f : Firewall) (payload : Bytes) : Firewall × Response :=
  let response := .reply .statisticsAck f.report.encode
  if payload.head?.any (· ≠ 0) then (f.clearCounters, response) else (f, response)

/-! ### Datagrams -/

/-- Obey a request of a known type; replies are not answered. -/
def obey [TableStore σ] (a : Agent σ) (f : Firewall) (s : Suite) (challenge datagram : Bytes)
    (type : MessageType) (payload : Bytes) : Agent σ × Firewall × Option Response :=
  match type with
  | .sync =>
    match a.onSync s challenge datagram payload with
    | (a, response) => (a, f, some response)
  | .reboot =>
    match a.onReboot with
    | (a, response) => (a, f, some response)
  | .newKey =>
    match a.onNewKey payload with
    | (a, response) => (a, f, some response)
  | .query =>
    match onQuery f payload with
    | (f, response) => (a, f, some response)
  | .load =>
    match a.onLoad f payload with
    | (a, f, response) => (a, f, some response)
  | .write =>
    match a.onWrite f with
    | (a, f, response) => (a, f, some response)
  | .release =>
    match a.onRelease f payload with
    | (a, f, response) => (a, f, some response)
  | .statistics =>
    match onStatistics f payload with
    | (f, response) => (a, f, some response)
  | _ => (a, f, none)

/-- The payload of a datagram that the agent accepts, or the code of its refusal.
With a password, all but a key agreement must open under the session key. -/
def accept (a : Agent σ) (s : Suite) (h : Header) (payload datagram : Bytes) :
    Except ErrorCode Bytes :=
  if h.passwordLoaded ≠ a.session.passwordLoaded then
    .error (if a.session.passwordLoaded then .secure else .insecure)
  else if a.session.passwordLoaded && h.type ≠ MessageType.sync.toByte then
    match a.session.key with
    | none => .error .lostSync
    | some key =>
      match s.openMessage (some key) datagram with
      | .error _ => .error .lostSync
      | .ok (_, payload) => .ok payload
  else .ok payload

/-- The session after a datagram was refused: a datagram that does not open under
the key ends it. -/
def afterRefusal (a : Agent σ) (code : ErrorCode) : Agent σ :=
  if code = .lostSync then { a with session := a.session.invalidate } else a

/-- The response to a datagram. -/
def respond [TableStore σ] (a : Agent σ) (f : Firewall) (s : Suite) (challenge datagram : Bytes) :
    Agent σ × Firewall × Option Response :=
  if a.rebooting then (a, f, none)
  else
    match Header.parse datagram with
    | .error _ => (a, f, none)
    | .ok (h, payload) =>
      match a.accept s h payload datagram with
      | .error code => (a.afterRefusal code, f, some (.refuse code))
      | .ok payload =>
        match MessageType.ofByte? h.type with
        | none => (a, f, none)
        | some type => a.obey f s challenge datagram type payload

/-- The answer to a datagram: the agent and the filter after it, and the reply. -/
def handle [TableStore σ] (a : Agent σ) (f : Firewall) (s : Suite) (nonce : UInt16)
    (challenge datagram : Bytes) : Agent σ × Firewall × Option Bytes :=
  match a.respond f s challenge datagram with
  | (a, f, response) => (a, f, response.map (·.sealFor s a.session nonce))

/-- Whether a datagram makes the agent draw a challenge: a key agreement that is
sound, at an agent with a password. -/
def drawsChallenge (a : Agent σ) (datagram : Bytes) : Bool :=
  match Header.parse datagram with
  | .error _ => false
  | .ok (h, payload) =>
    !a.rebooting && a.session.passwordLoaded && h.passwordLoaded &&
      h.type = MessageType.sync.toByte && verifies datagram && (peerChallenge? payload).isSome

end Agent

end FilterBridge
