import FilterBridge.Proofs.Channel

/-!
# Operator and agent in step

An operator and an agent that know the same password agree on a key, whatever went on
before at either end.  They stay in step after that: every request opens at the agent as
it was sealed, and every reply opens at the operator as it was made.

## Main definitions

* `Operator.receive` — a datagram comes that may end a key agreement.
* `Operator.Call`, `Operator.send` — a request, and the datagram that comes in with it.
* `InStep` — operator and agent have one key.

## Main results

* `inStep_sync` — a key agreement brings operator and agent in step.
* `InStep.respond_request` — the agent obeys exactly what was requested.
* `InStep.after` — requests keep operator and agent in step.
* `InStep.reads` — the operator reads exactly what was replied.
* `Operator.sync_run` — all of it, for any requests after a key agreement.
-/

namespace FilterBridge

variable {σ : Type} {s : Suite} {o o₁ : Operator} {a : Agent σ} {password own peer : Bytes}
  {key : SessionKey}

/-! ### Key agreement -/

namespace Operator

/-- A datagram comes that may end a key agreement.  One that does not is rejected and
changes nothing. -/
def receive (s : Suite) (o : Operator) (datagram : Bytes) : Operator :=
  match o.completeSync s datagram with
  | .ok o => o
  | .error _ => o

theorem foldl_receive {junk : List Bytes}
    (h : ∀ d ∈ junk, ∃ e, o.completeSync s d = .error e) : junk.foldl (receive s) o = o := by
  induction junk with
  | nil => rfl
  | cons d junk ih =>
    obtain ⟨⟨e, hd⟩, hjunk⟩ := List.forall_mem_cons.mp h
    rw [List.foldl_cons, receive, hd]
    exact ih hjunk

/-- The operator that began to agree on a key. -/
theorem sync_eq (ho : o.password = some password) (nonce : UInt16) :
    o.sync s nonce own =
      .ok ({ o with pending := some (s.derive password own), key := none },
        s.sealMessage none .sync passwordFlag nonce own) := by
  rw [sync, ho]
  simp only [flags, flagsFor, ho, Option.isSome_some, if_true]

/-- The challenge of the agent ends a key agreement. -/
theorem completeSync_syncAck (hpw : o₁.password = some password)
    (hpending : o₁.pending = some (s.derive password own)) (hpeer : peer.length = challengeLen)
    (flags : UInt8) (nonce : UInt16) :
    o₁.completeSync s (s.sealMessage none .syncAck flags nonce peer) =
      .ok { o₁ with pending := none, key := some (s.agree password own peer) } := by
  have hchallenge : challengeOf (s.sealMessage none .syncAck flags nonce peer) = .ok peer := by
    rw [Suite.sealMessage_clear (cipherKey_none _), challengeOf, Header.parse_encode]
    have htype : (sealedHeader .syncAck flags nonce peer).type = MessageType.syncAck.toByte := rfl
    simp only [verifies_sealedHeader, Bool.not_true, Bool.false_eq_true, if_false, htype,
      MessageType.ofByte?_toByte, hpeer, Nat.lt_irrefl]
    rw [← hpeer, List.take_length]
  rw [completeSync, hchallenge]
  simp only [hpw, hpending]
  rfl

end Operator

/-! ### One key -/

/-- Operator and agent have one key, and both have a password. -/
structure InStep (o : Operator) (a : Agent σ) (key : SessionKey) : Prop where
  /-- The key of the operator. -/
  operator : o.key = some key
  /-- The key of the agent. -/
  agent : a.session.key = some key
  /-- The operator has a password. -/
  flags : o.flags = passwordFlag
  /-- The agent has a password, not necessarily the same. -/
  password : a.session.passwordLoaded = true

namespace Operator

/-- A request of an operator, with the filter that it meets and the random numbers of
request and answer. -/
structure Call where
  /-- Its type. -/
  type : MessageType
  /-- Its payload. -/
  payload : Bytes
  /-- The nonce of the request. -/
  nonce : UInt16
  /-- The filter that the request meets. -/
  filter : Firewall
  /-- The nonce of the answer. -/
  answerNonce : UInt16
  /-- The challenge that is drawn, if one is. -/
  challenge : Bytes

/-- What comes in with a request. -/
def send (o : Operator) (s : Suite) (c : Call) : Agent.Incoming where
  filter := c.filter
  nonce := c.answerNonce
  challenge := c.challenge
  datagram := o.request s c.nonce c.type c.payload

end Operator

open Operator

namespace InStep

/-- A request opens at the agent as it was sealed. -/
theorem openMessage_request (hs : s.Invertible) (h : InStep o a key) (c : Call) :
    s.openMessage a.session.key (o.request s c.nonce c.type c.payload) =
      .ok (sealedHeader c.type passwordFlag c.nonce c.payload, c.payload) := by
  rw [request, h.operator, h.agent, h.flags, hs.openMessage_sealMessage]

theorem connected (h : InStep o a key) : Connected o a where
  key := h.operator.trans h.agent.symm
  flags := by
    have hpw : a.session.password.isSome = true := h.password
    rw [h.flags, Session.flags, flagsFor, hpw, if_pos rfl]
  isOpen := by
    rw [Session.Open, h.agent, h.password]
    rfl

/-- The operator reads exactly what was replied, and the session was not lost. -/
theorem openReply_sealFor (hs : s.Invertible) (h : InStep o a key) {type : MessageType}
    {r : Response} (hr : r.Answers type) (htype : type ≠ .sync) (nonce : UInt16) :
    o.openReply s (r.sealFor s a.session nonce) = .ok ⟨r.type, r.payload⟩ ∧
      (Reply.mk r.type r.payload).errorCode? ≠ some .lostSync :=
  ⟨h.connected.openReply_sealFor hs hr htype nonce, hr.errorCode?_ne_lostSync htype⟩

variable [TableStore σ]

/-- The agent obeys exactly what was requested, unless a restart is due. -/
theorem respond_request (hs : s.Invertible) (h : InStep o a key) {c : Call}
    (hc : c.type ≠ .sync) :
    a.respond c.filter s c.challenge (o.request s c.nonce c.type c.payload) =
      if a.rebooting then (a, c.filter, none)
      else a.obey c.filter s c.challenge (o.request s c.nonce c.type c.payload) c.type
        c.payload :=
  h.connected.respond_request hs hc c.filter c.challenge c.nonce c.payload

/-- A request keeps operator and agent in step, and only one of them makes a restart due. -/
theorem request (hs : s.Invertible) (h : InStep o a key) {c : Call} (hc : c.type ≠ .sync) :
    let a' := (a.respond c.filter s c.challenge (o.request s c.nonce c.type c.payload)).1
    InStep o a' key ∧ a'.rebooting = (a.rebooting || decide (c.type = .reboot)) := by
  intro a'
  have ha' : a' = (if a.rebooting then (a, c.filter, none)
      else a.obey c.filter s c.challenge (o.request s c.nonce c.type c.payload) c.type
        c.payload).1 := congrArg Prod.fst (h.respond_request hs hc)
  cases hup : a.rebooting with
  | true =>
    rw [if_pos hup] at ha'
    rw [ha']
    exact ⟨h, hup⟩
  | false =>
    rw [if_neg (by simp [hup])] at ha'
    rw [ha']
    refine ⟨⟨h.operator, ?_, h.flags, (Agent.obey_session hc).2.1 h.password⟩, ?_⟩
    · rw [(Agent.obey_session hc).1, h.agent]
    · rw [(Agent.obey_session hc).2.2, hup]

/-- Requests keep operator and agent in step, and a restart is due if one was requested. -/
theorem after (hs : s.Invertible) (h : InStep o a key) (calls : List Call)
    (hcalls : ∀ c ∈ calls, c.type ≠ .sync) :
    InStep o (a.after s (calls.map (o.send s))) key ∧
      ((a.after s (calls.map (o.send s))).rebooting = true ↔
        a.rebooting = true ∨ ∃ c ∈ calls, c.type = .reboot) := by
  induction calls generalizing a with
  | nil =>
    refine ⟨h, ?_⟩
    show a.rebooting = true ↔ _
    simp
  | cons c calls ih =>
    obtain ⟨hc, hcalls⟩ := List.forall_mem_cons.mp hcalls
    obtain ⟨hstep, hreboot⟩ := h.request hs hc
    obtain ⟨hrun, hdue⟩ := ih hstep hcalls
    refine ⟨hrun, ?_⟩
    show (Agent.after _ s (calls.map (o.send s))).rebooting = true ↔ _
    rw [List.exists_mem_cons_iff, ← or_assoc]
    refine hdue.trans (or_congr_left ?_)
    rw [hreboot, Bool.or_eq_true, decide_eq_true_iff]

/-- If there is a reply, the operator reads it as it was made, and it does not say that the
session was lost. -/
theorem reads (hs : s.Invertible) (h : InStep o a key) {c : Call} (hc : c.type ≠ .sync) :
    let d := o.request s c.nonce c.type c.payload
    let r := a.respond c.filter s c.challenge d
    (a.handle c.filter s c.answerNonce c.challenge d).2.2.map (o.openReply s) =
        r.2.2.map (fun reply => .ok ⟨reply.type, reply.payload⟩) ∧
      ∀ reply, r.2.2 = some reply →
        (Reply.mk reply.type reply.payload).errorCode? ≠ some .lostSync := by
  intro d r
  have hr : r = (if a.rebooting then (a, c.filter, none)
      else a.obey c.filter s c.challenge d c.type c.payload) := h.respond_request hs hc
  -- the reply is sealed in the session after the request
  obtain ⟨hstep, -⟩ := h.request hs hc
  have hreads : ∀ reply, r.2.2 = some reply →
      o.openReply s (reply.sealFor s r.1.session c.answerNonce) =
        .ok ⟨reply.type, reply.payload⟩ ∧
      (Reply.mk reply.type reply.payload).errorCode? ≠ some .lostSync := by
    intro reply hreply
    refine hstep.openReply_sealFor hs ?_ hc c.answerNonce
    rw [hr] at hreply
    split at hreply
    · cases hreply
    · exact Agent.obey_answers hreply
  refine ⟨?_, fun reply hreply => (hreads reply hreply).2⟩
  show (r.2.2.map fun reply => reply.sealFor s r.1.session c.answerNonce).map (o.openReply s) = _
  cases hreply : r.2.2 with
  | none => rfl
  | some reply => exact congrArg some (hreads reply hreply).1

end InStep

/-! ### After a key agreement -/

variable [TableStore σ]

/-- An agent with a password answers the request for a key agreement with a challenge. -/
theorem Agent.respond_sync (ha : a.session.password = some password) (hup : a.rebooting = false)
    (hown : own.length = challengeLen) (f : Firewall) (nonce : UInt16) (peer : Bytes) :
    a.respond f s peer (s.sealMessage none .sync passwordFlag nonce own) =
      ({ a with session := a.session.establish (s.agree password peer own) }, f,
        some (.clear .syncAck peer)) := by
  have hflag : (sealedHeader .sync passwordFlag nonce own).passwordLoaded = true := by
    show decide (passwordFlag &&& passwordFlag ≠ 0) = true
    decide
  have hpw : a.session.passwordLoaded = true := by
    rw [Session.passwordLoaded, ha]
    rfl
  have hpeer : peerChallenge? own = some own := by
    rw [peerChallenge?, if_neg (by omega), ← hown, List.take_length]
  have htype : (sealedHeader .sync passwordFlag nonce own).type = MessageType.sync.toByte := rfl
  rw [Suite.sealMessage_clear (cipherKey_none _), respond, if_neg (by simp [hup]),
    Header.parse_encode]
  simp only [accept, hflag, hpw, htype, ne_eq, not_true_eq_false, if_false, decide_false,
    Bool.and_false, Bool.false_eq_true, MessageType.ofByte?_toByte, obey, onSync, ha,
    verifies_sealedHeader, Bool.not_true, hpeer]

/-- An operator and an agent that know the same password agree on a key. -/
theorem inStep_sync (ho : o.password = some password) (ha : a.session.password = some password)
    (hup : a.rebooting = false) (hown : own.length = challengeLen)
    (hpeer : peer.length = challengeLen) (f : Firewall) (nonce answerNonce : UInt16) :
    ∃ o₁ request a₁ answer o₂,
      o.sync s nonce own = .ok (o₁, request) ∧
      a.handle f s answerNonce peer request = (a₁, f, some answer) ∧
      o₁.completeSync s answer = .ok o₂ ∧
      InStep o₂ a₁ (s.agree password own peer) ∧ a₁.rebooting = false := by
  let o₁ : Operator := { o with pending := some (s.derive password own), key := none }
  let a₁ : Agent σ := { a with session := a.session.establish (s.agree password peer own) }
  let o₂ : Operator := { o₁ with pending := none, key := some (s.agree password own peer) }
  let answer := s.sealMessage none .syncAck passwordFlag answerNonce peer
  have hflags : a₁.session.flags = passwordFlag := by
    show (if a.session.password.isSome then passwordFlag else 0) = _
    rw [ha]
    rfl
  have hanswer : a.handle f s answerNonce peer (s.sealMessage none .sync passwordFlag nonce own) =
      (a₁, f, some answer) := by
    rw [Agent.handle, Agent.respond_sync ha hup hown]
    show (a₁, f, some (s.sealMessage none .syncAck a₁.session.flags answerNonce peer)) = _
    rw [hflags]
  have ho₁ : o₁.password = some password := ho
  have hdone : o₁.completeSync s answer = .ok o₂ :=
    completeSync_syncAck ho₁ rfl hpeer passwordFlag answerNonce
  refine ⟨o₁, _, a₁, answer, o₂, sync_eq ho nonce, hanswer, hdone, ⟨rfl, ?_, ?_, ?_⟩, hup⟩
  · -- each end combines the material of both in its own order
    show some (s.agree password peer own) = _
    rw [Suite.agree_comm]
  · show flagsFor o.password = _
    rw [ho]
    rfl
  · show a.session.password.isSome = true
    rw [ha]
    rfl

/-- An operator and an agent that answers know the same password.  Whatever they did before,
the operator begins to agree on a key, the agent answers, and the answer reaches the operator,
be it after any number of datagrams that it rejects.  Then both have the same key.

Whatever requests follow, all but a key agreement, one after another, and each meeting any
filter: the key stays; the next request opens at the agent as it was sealed; the agent obeys
just that, unless one of the requests before made a restart due; and its reply, if there is
one, opens at the operator as it was made, and does not say that the session was lost. -/
theorem Operator.sync_run (hs : s.Invertible) (ho : o.password = some password)
    (ha : a.session.password = some password) (hup : a.rebooting = false)
    (hown : own.length = challengeLen) (hpeer : peer.length = challengeLen)
    (f : Firewall) (nonce answerNonce : UInt16) :
    ∃ o₁ request a₁ answer,
      o.sync s nonce own = .ok (o₁, request) ∧
      a.handle f s answerNonce peer request = (a₁, f, some answer) ∧
      ∀ junk : List Bytes, (∀ d ∈ junk, ∃ e, o₁.completeSync s d = .error e) →
        ∃ o₂ key, (junk.foldl (receive s) o₁).completeSync s answer = .ok o₂ ∧
          o₂.key = some key ∧ a₁.session.key = some key ∧
          ∀ (calls : List Call) (c : Call), (∀ c ∈ calls, c.type ≠ .sync) → c.type ≠ .sync →
            let b := a₁.after s (calls.map (o₂.send s))
            let d := o₂.request s c.nonce c.type c.payload
            let r := b.respond c.filter s c.challenge d
            b.session.key = some key ∧
            (b.rebooting = true ↔ ∃ c ∈ calls, c.type = .reboot) ∧
            (∃ h, s.openMessage b.session.key d = .ok (h, c.payload) ∧
              h.type = c.type.toByte) ∧
            r = (if b.rebooting then (b, c.filter, none)
              else b.obey c.filter s c.challenge d c.type c.payload) ∧
            (b.handle c.filter s c.answerNonce c.challenge d).2.2.map (o₂.openReply s) =
              r.2.2.map (fun reply => .ok ⟨reply.type, reply.payload⟩) ∧
            ∀ reply, r.2.2 = some reply →
              (Reply.mk reply.type reply.payload).errorCode? ≠ some .lostSync := by
  obtain ⟨o₁, request, a₁, answer, o₂, hsync, hanswer, hdone, hstep, hup₁⟩ :=
    inStep_sync (s := s) ho ha hup hown hpeer f nonce answerNonce
  refine ⟨o₁, request, a₁, answer, hsync, hanswer, ?_⟩
  intro junk hjunk
  refine ⟨o₂, _, by rw [foldl_receive hjunk, hdone], hstep.operator, hstep.agent, ?_⟩
  intro calls c hcalls hc b d r
  obtain ⟨hb, hdue⟩ := hstep.after hs calls hcalls
  obtain ⟨hreads, hvalid⟩ := hb.reads hs hc
  refine ⟨hb.agent, hdue.trans ⟨?_, .inr⟩, ⟨_, hb.openMessage_request hs c, rfl⟩,
    hb.respond_request hs hc, hreads, hvalid⟩
  rintro (h | h)
  · exact absurd (hup₁.symm.trans h) Bool.false_ne_true
  · exact h

/-- The answer to a key agreement comes after a datagram without a header and a damaged one.
Then the password is replaced, and a query for the networks is answered all the same. -/
theorem Operator.sync_run_newKey :
    let o : Operator := .start (some [112, 119])
    let a : Agent MapStore := .start {} (some [112, 119])
    let f : Firewall := .withCapacity 512
    let own := Bytes.zeros challengeLen
    let peer := List.replicate challengeLen 1
    let newKey : Call := ⟨.newKey, [115], 7, f, 8, []⟩
    let query : Call := ⟨.query, Query.encode ⟨QueryKind.networks.toByte, 0⟩, 9, f, 10, []⟩
    ∃ o₁ request a₁ answer,
      o.sync .standard 3 own = .ok (o₁, request) ∧
      a.handle f .standard 5 peer request = (a₁, f, some answer) ∧
      ∃ o₂ key,
        ([[], [2, 1, 0, 0, 0, 0]].foldl (receive .standard) o₁).completeSync .standard answer =
          .ok o₂ ∧
        o₂.key = some key ∧ a₁.session.key = some key ∧
        let b := a₁.after .standard ([newKey].map (o₂.send .standard))
        let d := o₂.request .standard query.nonce query.type query.payload
        b.session.key = some key ∧
        (b.handle f .standard query.answerNonce [] d).2.2.map (o₂.openReply .standard) =
          some (.ok ⟨.queryAck, [0, 0]⟩) := by
  intro o a f own peer newKey query
  obtain ⟨o₁, request, a₁, answer, hsync, hanswer, hdone⟩ :=
    sync_run Suite.standard_invertible (o := o) (a := a) rfl rfl rfl
      (show own.length = challengeLen from rfl) (show peer.length = challengeLen from rfl) f 3 5
  have hdamaged : verifies [2, 1, 0, 0, 0, 0] = false := by decide +kernel
  obtain ⟨o₂, key, hsynced, ho, ha, hcalls⟩ := hdone [[], [2, 1, 0, 0, 0, 0]] (by
    intro d hd
    obtain rfl | rfl := List.mem_pair.mp hd
    · exact ⟨_, rfl⟩
    · refine ⟨.message .checksum, ?_⟩
      simp [completeSync, challengeOf, Header.parse, hdamaged])
  obtain ⟨hkey, hdue, -, hrespond, hreply, -⟩ :=
    hcalls [newKey] query (by simp [newKey]) (by simp [query])
  have hup : ¬ (a₁.after .standard ([newKey].map (o₂.send .standard))).rebooting = true := by
    rw [hdue]
    simp [newKey]
  have hnetworks : (Agent.onQuery f query.payload).2 = .reply .queryAck [0, 0] := by
    decide +kernel
  refine ⟨o₁, request, a₁, answer, hsync, hanswer, o₂, key, hsynced, ho, ha, hkey, ?_⟩
  refine hreply.trans ?_
  rw [hrespond, if_neg hup]
  show some (Except.ok (Reply.mk (Agent.onQuery f query.payload).2.type
    (Agent.onQuery f query.payload).2.payload)) = _
  rw [hnetworks]
  rfl

end FilterBridge
