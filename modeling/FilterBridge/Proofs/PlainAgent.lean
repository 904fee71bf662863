import FilterBridge.Agent
import FilterBridge.Proofs.PlainUploads

/-!
# Datagrams answered from plain arrays

The agent as a program runs it: a datagram is cut at the length of a header, its body is summed
and decrypted in place, a class is found by its number, and a reply is put together in place.
The header is read first, and what cannot be read is not answered, so every cut falls into the
datagram.  No datagram makes the program meet a fault, whatever its bytes and whatever the
session.

## Main definitions

* `PlainAgent` — the agent, with what is being collected in an array.
* `Response.sealBytes` — the datagram of a reply, put together in place.
* `PlainAgent.handle` — the answer to a datagram.

## Main results

* `Agent.respond_plain`, `Agent.handle_plain` — no datagram meets a fault, and arena and network
  table stay in order.
-/

namespace FilterBridge

open Checked Fallible

/-- The agent, with what is being collected in an array. -/
structure PlainAgent (σ : Type) where
  /-- Where tables and password are persisted. -/
  store : σ
  /-- The session. -/
  session : Session
  /-- The tables that are being loaded. -/
  uploads : PlainUploads
  /-- Whether a restart is due. -/
  rebooting : Bool

/-- The agent, with what is being collected in an array. -/
def Agent.plain {σ : Type} (a : Agent σ) : PlainAgent σ :=
  ⟨a.store, a.session, a.uploads.plain, a.rebooting⟩

/-! ### The counters -/

namespace PlainFirewall

/-- The counters at this moment. -/
def report (f : PlainFirewall) : Report :=
  f.counters.report f.classifier.cache.accesses f.classifier.cache.misses

/-- Set all counters to zero, those of the cache too. -/
def clearCounters (f : PlainFirewall) : PlainFirewall :=
  { f with
    counters := {}
    classifier := { f.classifier with
      cache := { f.classifier.cache with accesses := 0, misses := 0 } } }

end PlainFirewall

/-- The datagram of a reply, put together in place. -/
def Response.sealBytes (r : Response) (s : Suite) (session : Session) (nonce : UInt16) :
    Checked Bytes :=
  match r with
  | reply type payload => s.sealBytes session.key type session.flags nonce payload
  | clear type payload => s.sealBytes none type session.flags nonce payload

theorem Response.sealBytes_eq (r : Response) (s : Suite) (session : Session) (nonce : UInt16) :
    r.sealBytes s session nonce = .ok (r.sealFor s session nonce) := by
  cases r <;> exact s.sealBytes_eq _ _ _ _ _

/-! ### Requests -/

namespace PlainAgent

variable {σ : Type}

/-- Agree on a key. -/
def onSync (a : PlainAgent σ) (s : Suite) (challenge datagram payload : Bytes) :
    Checked (PlainAgent σ × Response) :=
  match a.session.password with
  | none => return (a, .refuse .insecure)
  | some password => do
    let sum ← bodySum datagram
    if sum ≠ 0 then return ({ a with session := a.session.invalidate }, .refuse .lostSync)
    match Agent.peerChallenge? payload with
    | none => return (a, .refuse .command)
    | some peer =>
      return ({ a with session := a.session.establish (s.agree password challenge peer) },
        .clear .syncAck challenge)

/-- Replace the password, if it can be persisted. -/
def onNewKey [TableStore σ] (a : PlainAgent σ) (payload : Bytes) : PlainAgent σ × Response :=
  if payload = [] || maxPasswordLen < payload.length then (a, .refuse .command)
  else
    match TableStore.writePassword a.store payload with
    | (store, .ok ()) =>
      ({ a with store, session := a.session.setPassword payload }, .reply .newKeyAck [])
    | (store, .error e) => ({ a with store }, .refuse e.passwordCode)

/-- The answer to a query for a table. -/
def queryBody (f : PlainFirewall) (q : Query) : Checked (PlainFirewall × Option Bytes) :=
  match QueryKind.ofByte? q.kind with
  | some .networks =>
    let networks := (f.classifier.networks.slots.toList.filterMap id).map (·.network)
    return (f, some (encodeNetworks networks))
  | some .host => do
    let (classifier, k) ← f.classifier.lookup q.arg
    return ({ f with classifier }, some [k])
  | some .reject => return (f, some (f.policy.encode .reject))
  | some .allow => return (f, some (f.policy.encode .allow))
  | some .classRules =>
    if q.arg.toNat < 256 then do
      let rules ← f.policy.rules (.ofNat q.arg.toNat)
      return (f, some rules.encode)
    else return (f, none)
  | none => return (f, none)

/-- Read a table. -/
def onQuery (f : PlainFirewall) (payload : Bytes) : Checked (PlainFirewall × Response) := do
  match ← (Query.read payload).run with
  | .error _ => return (f, .refuse .command)
  | .ok q =>
    match ← queryBody f q with
    | (f, some body) => return (f, .reply .queryAck body)
    | (f, none) => return (f, .refuse .command)

/-- Take a part of a table. -/
def onLoad (a : PlainAgent σ) (f : PlainFirewall) (payload : Bytes) :
    Checked (PlainAgent σ × PlainFirewall × Response) := do
  match ← (Fragment.read payload).run with
  | .error _ => return (a, f, .refuse .command)
  | .ok part =>
    match ← a.uploads.apply f part with
    | (uploads, f, .ok ()) => return ({ a with uploads }, f, .reply .loadAck part.ack)
    | (uploads, f, .error e) => return ({ a with uploads }, f, .refuse e.code)

/-- Persist the tables that changed, in order, up to the first that cannot be. -/
def writeTables [TableStore σ] :
    List Table → σ → PlainPolicy → σ × PlainPolicy × Option ErrorCode
  | [], store, p => (store, p, none)
  | t :: ts, store, p =>
    if p.isDirty t then
      match TableStore.writeTable store t (p.encode t) with
      | (store, .ok ()) => writeTables ts store (p.setDirty false t)
      | (store, .error e) => (store, p, some e.dataCode)
    else writeTables ts store p

/-- Persist the given networks, in order, up to the first that cannot be. -/
def writeNetworks [TableStore σ] :
    List Address → σ → PlainClassifier → Checked (σ × PlainClassifier × Option ErrorCode)
  | [], store, c => return (store, c, none)
  | n :: ns, store, c => do
    match ← c.hostTable n with
    | .error _ => return (store, c, some .dataWrite)
    | .ok image =>
      match TableStore.writeNetwork store n image with
      | (store, .ok ()) => writeNetworks ns store (← c.markClean n)
      | (store, .error e) => return (store, c, some e.dataCode)

/-- Persist all that changed. -/
def onWrite [TableStore σ] (a : PlainAgent σ) (f : PlainFirewall) :
    Checked (PlainAgent σ × PlainFirewall × Response) :=
  match writeTables Table.all a.store f.policy with
  | (store, policy, some code) => return ({ a with store }, { f with policy }, .refuse code)
  | (store, policy, none) => do
    match ← writeNetworks f.classifier.dirtyNetworks store f.classifier with
    | (store, classifier, some code) =>
      return ({ a with store }, { f with policy, classifier }, .refuse code)
    | (store, classifier, none) =>
      return ({ a with store }, { f with policy, classifier }, .reply .writeAck [])

/-- The reply to a release, by how the persisted copy was removed. -/
def released (r : σ × Except StoreError Unit) (a : PlainAgent σ) : PlainAgent σ × Response :=
  match r with
  | (store, .ok ()) => ({ a with store }, .reply .releaseAck [])
  | (store, .error e) => ({ a with store }, .refuse e.dataCode)

/-- Put a table back to its default, and forget its persisted copy. -/
def onRelease [TableStore σ] (a : PlainAgent σ) (f : PlainFirewall) (payload : Bytes) :
    Checked (PlainAgent σ × PlainFirewall × Response) := do
  match ← (Release.read payload).run with
  | .error _ => return (a, f, .refuse .command)
  | .ok r =>
    match TableKind.ofByte? r.kind with
    | none => return (a, f, .refuse .command)
    | some kind =>
      match Agent.tableOf? kind with
      | some t =>
        let (a, response) := released (TableStore.removeTable a.store t) a
        return (a, { f with policy := f.policy.reset t }, response)
      | none =>
        match ← f.classifier.release r.index with
        | (classifier, true) =>
          let (a, response) := released (TableStore.removeNetwork a.store r.index) a
          return (a, { f with classifier }, response)
        | (classifier, false) => return (a, { f with classifier }, .refuse .noNetwork)

/-- Report the counters, and clear them if the first byte says so. -/
def onStatistics (f : PlainFirewall) (payload : Bytes) : PlainFirewall × Response :=
  let response := .reply .statisticsAck f.report.encode
  if payload.head?.any (· ≠ 0) then (f.clearCounters, response) else (f, response)

/-! ### Datagrams -/

/-- Obey a request of a known type. -/
def obey [TableStore σ] (a : PlainAgent σ) (f : PlainFirewall) (s : Suite)
    (challenge datagram : Bytes) (type : MessageType) (payload : Bytes) :
    Checked (PlainAgent σ × PlainFirewall × Option Response) :=
  match type with
  | .sync => do
    let (a, response) ← a.onSync s challenge datagram payload
    return (a, f, some response)
  | .reboot => return ({ a with rebooting := true }, f, some (.reply .rebootAck []))
  | .newKey =>
    match a.onNewKey payload with
    | (a, response) => return (a, f, some response)
  | .query => do
    let (f, response) ← onQuery f payload
    return (a, f, some response)
  | .load => do
    let (a, f, response) ← a.onLoad f payload
    return (a, f, some response)
  | .write => do
    let (a, f, response) ← a.onWrite f
    return (a, f, some response)
  | .release => do
    let (a, f, response) ← a.onRelease f payload
    return (a, f, some response)
  | .statistics =>
    match onStatistics f payload with
    | (f, response) => return (a, f, some response)
  | _ => return (a, f, none)

/-- The payload of a datagram that the agent accepts, or the code of its refusal. -/
def accept (a : PlainAgent σ) (s : Suite) (h : Header) (datagram : Bytes) :
    Checked (Except ErrorCode Bytes) :=
  if h.passwordLoaded ≠ a.session.passwordLoaded then
    return .error (if a.session.passwordLoaded then .secure else .insecure)
  else if a.session.passwordLoaded && h.type ≠ MessageType.sync.toByte then
    match a.session.key with
    | none => return .error .lostSync
    | some key => do
      match ← (s.openBytes (some key) datagram).run with
      | .error _ => return .error .lostSync
      | .ok (_, payload) => return .ok payload
  else do
    let payload ← cut datagram headerLen datagram.length
    return .ok payload

/-- The session after a datagram was refused. -/
def afterRefusal (a : PlainAgent σ) (code : ErrorCode) : PlainAgent σ :=
  if code = .lostSync then { a with session := a.session.invalidate } else a

/-- The response to a datagram. -/
def respond [TableStore σ] (a : PlainAgent σ) (f : PlainFirewall) (s : Suite)
    (challenge datagram : Bytes) : Checked (PlainAgent σ × PlainFirewall × Option Response) := do
  if a.rebooting then return (a, f, none)
  match ← (Header.read datagram).run with
  | .error _ => return (a, f, none)
  | .ok h =>
    match ← a.accept s h datagram with
    | .error code => return (a.afterRefusal code, f, some (.refuse code))
    | .ok payload =>
      match MessageType.ofByte? h.type with
      | none => return (a, f, none)
      | some type => a.obey f s challenge datagram type payload

/-- The answer to a datagram. -/
def handle [TableStore σ] (a : PlainAgent σ) (f : PlainFirewall) (s : Suite) (nonce : UInt16)
    (challenge datagram : Bytes) : Checked (PlainAgent σ × PlainFirewall × Option Bytes) := do
  match ← a.respond f s challenge datagram with
  | (a, f, none) => return (a, f, none)
  | (a, f, some response) =>
    let reply ← response.sealBytes s a.session nonce
    return (a, f, some reply)

end PlainAgent

/-! ### They meet no fault -/

/-- A network that is not there is not removed. -/
theorem Classifier.release_of_false {c c' : Classifier} {n : Address}
    (h : c.release n = (c', false)) : c' = c := by
  unfold release at h
  split at h
  · cases h
  · exact (Prod.mk.inj h).1.symm

namespace Agent

variable {σ : Type} {a : Agent σ} {f : Firewall} {s : Suite} {challenge datagram payload : Bytes}

theorem onSync_plain (h : clearLen ≤ datagram.length) :
    a.plain.onSync s challenge datagram payload =
      .ok ((a.onSync s challenge datagram payload).1.plain,
        (a.onSync s challenge datagram payload).2) := by
  unfold PlainAgent.onSync onSync
  have hsession : a.plain.session = a.session := rfl
  rw [hsession]
  cases a.session.password with
  | none => rfl
  | some password =>
    simp only
    rw [bodySum_eq h, ok_bind, verifies]
    by_cases hsum : checksum (datagram.drop clearLen) none = 0
    · rw [if_neg (not_not.mpr hsum), decide_eq_true hsum]
      simp only [Bool.not_true, Bool.false_eq_true, if_false]
      cases peerChallenge? payload <;> rfl
    · rw [if_pos hsum, decide_eq_false hsum]
      rfl

section Store

variable [TableStore σ]

theorem onNewKey_plain (a : Agent σ) (payload : Bytes) :
    a.plain.onNewKey payload = ((a.onNewKey payload).1.plain, (a.onNewKey payload).2) := by
  unfold PlainAgent.onNewKey onNewKey
  split
  · rfl
  · have hstore : a.plain.store = a.store := rfl
    rw [hstore]
    rcases TableStore.writePassword a.store payload with ⟨store, e | ⟨⟩⟩ <;> rfl

theorem writeTables_plain (ts : List Table) (store : σ) (p : Policy) :
    PlainAgent.writeTables ts store p.plain =
      ((writeTables ts store p).1, (writeTables ts store p).2.1.plain,
        (writeTables ts store p).2.2) := by
  induction ts generalizing store p with
  | nil => rfl
  | cons t ts ih =>
    rw [PlainAgent.writeTables, writeTables, Policy.isDirty_plain, Policy.encode_plain]
    cases p.isDirty t with
    | false => exact ih store p
    | true =>
      simp only [if_true]
      rcases TableStore.writeTable store t (p.encode t) with ⟨store', e | ⟨⟩⟩
      · rfl
      · simp only
        rw [Policy.setDirty_plain]
        exact ih store' _

theorem writeNetworks_plain {c : Classifier} (h : c.Sturdy) (ns : List Address) (store : σ) :
    PlainAgent.writeNetworks ns store c.plain =
        .ok ((writeNetworks ns store c).1, (writeNetworks ns store c).2.1.plain,
          (writeNetworks ns store c).2.2) ∧
      (writeNetworks ns store c).2.1.Sturdy := by
  induction ns generalizing store c with
  | nil => exact ⟨rfl, h⟩
  | cons n ns ih =>
    rw [PlainAgent.writeNetworks, writeNetworks, h.hostTable_plain, ok_bind]
    cases c.hostTable n with
    | error e => exact ⟨rfl, h⟩
    | ok image =>
      simp only
      rcases TableStore.writeNetwork store n image with ⟨store', e | ⟨⟩⟩
      · exact ⟨rfl, h⟩
      · obtain ⟨hclean, hsturdy⟩ := h.markClean_plain n
        simp only
        rw [hclean, ok_bind]
        exact ih hsturdy store'

omit [TableStore σ] in
theorem released_plain (r : σ × Except StoreError Unit) (a : Agent σ) :
    PlainAgent.released r a.plain = ((released r a).1.plain, (released r a).2) := by
  rcases r with ⟨store, e | ⟨⟩⟩ <;> rfl

end Store

section Filter

variable (h : f.classifier.Sturdy)

include h

theorem queryBody_plain (q : Query) :
    PlainAgent.queryBody f.plain q = .ok ((queryBody f q).1.plain, (queryBody f q).2) ∧
      (queryBody f q).1.classifier.Sturdy := by
  unfold PlainAgent.queryBody queryBody
  cases QueryKind.ofByte? q.kind with
  | none => exact ⟨rfl, h⟩
  | some kind =>
    cases kind with
    | host =>
      exact ⟨bind_of_eq (h.lookup_plain q.arg) _, h.lookup q.arg⟩
    | classRules =>
      simp only
      by_cases hk : q.arg.toNat < 256
      · rw [if_pos hk, if_pos hk]
        exact ⟨bind_of_eq (f.policy.rules_plain _) _, h⟩
      · rw [if_neg hk, if_neg hk]
        exact ⟨rfl, h⟩
    | _ => exact ⟨rfl, h⟩

theorem onQuery_plain (payload : Bytes) :
    PlainAgent.onQuery f.plain payload =
        .ok ((onQuery f payload).1.plain, (onQuery f payload).2) ∧
      (onQuery f payload).1.classifier.Sturdy := by
  rw [PlainAgent.onQuery, Query.read_eq, onQuery]
  cases Query.parse payload with
  | error e => exact ⟨rfl, h⟩
  | ok q =>
    obtain ⟨heq, hsturdy⟩ := queryBody_plain h q
    change (PlainAgent.queryBody f.plain q >>= _) = _ ∧ _
    rw [heq, ok_bind]
    rcases hb : queryBody f q with ⟨f', _ | body⟩
    all_goals
      rw [hb] at hsturdy
      simp only
      rw [hb]
      exact ⟨rfl, hsturdy⟩

theorem onLoad_plain (a : Agent σ) (payload : Bytes) :
    a.plain.onLoad f.plain payload =
        .ok ((a.onLoad f payload).1.plain, (a.onLoad f payload).2.1.plain,
          (a.onLoad f payload).2.2) ∧
      (a.onLoad f payload).2.1.classifier.Sturdy := by
  rw [PlainAgent.onLoad, Fragment.read_eq, onLoad]
  cases Fragment.parse payload with
  | error e => exact ⟨rfl, h⟩
  | ok part =>
    obtain ⟨heq, hsturdy⟩ := Uploads.apply_plain h a.uploads part
    change (a.uploads.plain.apply f.plain part >>= _) = _ ∧ _
    rw [heq, ok_bind]
    rcases hr : a.uploads.apply f part with ⟨u, f', e | ⟨⟩⟩
    all_goals
      rw [hr] at hsturdy
      simp only
      rw [hr]
      exact ⟨rfl, hsturdy⟩

theorem onStatistics_plain (payload : Bytes) :
    PlainAgent.onStatistics f.plain payload =
        ((onStatistics f payload).1.plain, (onStatistics f payload).2) ∧
      (onStatistics f payload).1.classifier.Sturdy := by
  unfold PlainAgent.onStatistics onStatistics
  cases payload.head?.any (· ≠ 0) with
  | false => exact ⟨rfl, h⟩
  | true => exact ⟨rfl, h.of_cache rfl rfl⟩

variable [TableStore σ]

theorem onWrite_plain (a : Agent σ) :
    a.plain.onWrite f.plain =
        .ok ((a.onWrite f).1.plain, (a.onWrite f).2.1.plain, (a.onWrite f).2.2) ∧
      (a.onWrite f).2.1.classifier.Sturdy := by
  have htables : PlainAgent.writeTables Table.all a.plain.store f.plain.policy = _ :=
    writeTables_plain Table.all a.store f.policy
  unfold PlainAgent.onWrite onWrite
  rw [htables]
  rcases writeTables Table.all a.store f.policy with ⟨store, policy, _ | code⟩
  · obtain ⟨heq, hsturdy⟩ := writeNetworks_plain h f.classifier.dirtyNetworks store
    change (PlainAgent.writeNetworks f.classifier.dirtyNetworks store f.classifier.plain >>= _) =
      _ ∧ _
    rw [heq, ok_bind]
    rcases hw : writeNetworks f.classifier.dirtyNetworks store f.classifier with
      ⟨store', c, _ | code⟩
    all_goals
      rw [hw] at hsturdy
      simp only
      rw [hw]
      exact ⟨rfl, hsturdy⟩
  · exact ⟨rfl, h⟩

theorem onRelease_plain (a : Agent σ) (payload : Bytes) :
    a.plain.onRelease f.plain payload =
        .ok ((a.onRelease f payload).1.plain, (a.onRelease f payload).2.1.plain,
          (a.onRelease f payload).2.2) ∧
      (a.onRelease f payload).2.1.classifier.Sturdy := by
  have hstore : a.plain.store = a.store := rfl
  rw [PlainAgent.onRelease, Release.read_eq, onRelease]
  cases Release.parse payload with
  | error e => exact ⟨rfl, h⟩
  | ok r =>
    simp only [Fallible.whole, ExceptT.run, ExceptT.mk, ok_bind]
    cases TableKind.ofByte? r.kind with
    | none => exact ⟨rfl, h⟩
    | some kind =>
      simp only
      cases tableOf? kind with
      | some t =>
        have hreset : f.plain.policy.reset t = (f.policy.reset t).plain :=
          Policy.reset_plain f.policy t
        simp only
        rw [hstore, released_plain, hreset]
        exact ⟨rfl, h⟩
      | none =>
        obtain ⟨heq, hsturdy⟩ := h.release_plain r.index
        change (f.classifier.plain.release r.index >>= _) = _ ∧ _
        rw [heq, ok_bind]
        rcases hr : f.classifier.release r.index with ⟨c, _ | _⟩
        · obtain rfl := Classifier.release_of_false hr
          exact ⟨rfl, h⟩
        · rw [hr] at hsturdy
          simp only
          rw [hstore, released_plain]
          exact ⟨rfl, hsturdy⟩

/-- Obeying a request meets no fault. -/
theorem obey_plain (a : Agent σ) (hlen : clearLen ≤ datagram.length) (type : MessageType) :
    a.plain.obey f.plain s challenge datagram type payload =
        .ok ((a.obey f s challenge datagram type payload).1.plain,
          (a.obey f s challenge datagram type payload).2.1.plain,
          (a.obey f s challenge datagram type payload).2.2) ∧
      (a.obey f s challenge datagram type payload).2.1.classifier.Sturdy := by
  cases type with
  | sync =>
    exact ⟨bind_of_eq (onSync_plain hlen) _, h⟩
  | newKey =>
    refine ⟨?_, h⟩
    rw [PlainAgent.obey, onNewKey_plain]
    rfl
  | query =>
    obtain ⟨heq, hsturdy⟩ := onQuery_plain h payload
    exact ⟨bind_of_eq heq _, hsturdy⟩
  | load =>
    obtain ⟨heq, hsturdy⟩ := onLoad_plain h a payload
    exact ⟨bind_of_eq heq _, hsturdy⟩
  | write =>
    obtain ⟨heq, hsturdy⟩ := onWrite_plain h a
    exact ⟨bind_of_eq heq _, hsturdy⟩
  | release =>
    obtain ⟨heq, hsturdy⟩ := onRelease_plain h a payload
    exact ⟨bind_of_eq heq _, hsturdy⟩
  | statistics =>
    obtain ⟨heq, hsturdy⟩ := onStatistics_plain h payload
    refine ⟨?_, hsturdy⟩
    rw [PlainAgent.obey, heq]
    rfl
  | _ => exact ⟨rfl, h⟩

omit h [TableStore σ] in
/-- Neither does accepting a datagram whose header can be read. -/
theorem accept_plain {header : Header} (hp : Header.parse datagram = .ok (header, payload)) :
    a.plain.accept s header datagram = .ok (a.accept s header payload datagram) := by
  unfold PlainAgent.accept accept
  have hsession : a.plain.session = a.session := rfl
  rw [hsession]
  split
  · rfl
  split
  · cases a.session.key with
    | none => rfl
    | some key =>
      simp only
      rw [Suite.openBytes_eq]
      cases s.openMessage (some key) datagram <;> rfl
  · rw [Header.cut_of_parse hp]
    rfl

omit h [TableStore σ] in
theorem afterRefusal_plain (a : Agent σ) (code : ErrorCode) :
    a.plain.afterRefusal code = (a.afterRefusal code).plain := by
  unfold PlainAgent.afterRefusal afterRefusal
  split <;> rfl

/-- The response to a datagram meets no fault. -/
theorem respond_plain (a : Agent σ) (s : Suite) (challenge datagram : Bytes) :
    a.plain.respond f.plain s challenge datagram =
        .ok ((a.respond f s challenge datagram).1.plain,
          (a.respond f s challenge datagram).2.1.plain,
          (a.respond f s challenge datagram).2.2) ∧
      (a.respond f s challenge datagram).2.1.classifier.Sturdy := by
  unfold PlainAgent.respond respond
  have hrebooting : a.plain.rebooting = a.rebooting := rfl
  rw [hrebooting, Header.read_eq]
  cases a.rebooting with
  | true => exact ⟨rfl, h⟩
  | false =>
    simp only [Bool.false_eq_true, if_false, Fallible.whole, ExceptT.run, ExceptT.mk, ok_bind]
    cases hp : Header.parse datagram with
    | error e => exact ⟨rfl, h⟩
    | ok q =>
      obtain ⟨header, payload⟩ := q
      -- a header was there, so there is a body to be summed
      have hlen : clearLen ≤ datagram.length := by
        rw [← Header.encode_of_parse hp]
        exact header.clearLen_le payload
      simp only [Except.map]
      rw [accept_plain hp, ok_bind]
      cases a.accept s header payload datagram with
      | error code =>
        refine ⟨?_, h⟩
        simp only
        rw [afterRefusal_plain]
        rfl
      | ok payload =>
        simp only
        cases MessageType.ofByte? header.type with
        | none => exact ⟨rfl, h⟩
        | some type => exact obey_plain h a hlen type

/-- No datagram meets a fault. -/
theorem handle_plain (a : Agent σ) (s : Suite) (nonce : UInt16) (challenge datagram : Bytes) :
    a.plain.handle f.plain s nonce challenge datagram =
        .ok ((a.handle f s nonce challenge datagram).1.plain,
          (a.handle f s nonce challenge datagram).2.1.plain,
          (a.handle f s nonce challenge datagram).2.2) ∧
      (a.handle f s nonce challenge datagram).2.1.classifier.Sturdy := by
  obtain ⟨heq, hsturdy⟩ := respond_plain h a s challenge datagram
  refine ⟨?_, hsturdy⟩
  rw [PlainAgent.handle, heq, ok_bind, handle]
  rcases a.respond f s challenge datagram with ⟨a', f', _ | response⟩
  · rfl
  · simp only
    exact bind_of_eq (response.sealBytes_eq s a'.session nonce) _

end Filter

end Agent

end FilterBridge
