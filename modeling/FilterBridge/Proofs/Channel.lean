import FilterBridge.Operator
import FilterBridge.Proofs.AgentRuns
import FilterBridge.Proofs.Guard
import FilterBridge.Proofs.Sealing

/-!
# An open channel

Requests come through to an agent without a password in the clear, and to an agent with
one under its key.  On either channel the agent obeys what was sealed, and its reply opens
to what it replied.

## Main definitions

* `Session.Open` — requests can come through: there is a key exactly if there is a password.
* `Connected` — an operator seals requests for the session of an agent.

## Main results

* `Agent.respond_sealMessage` — what is sealed for the session is obeyed.
* `Response.Answers.openMessage_sealFor` — a reply opens to what was replied.
* `Connected.respond_request`, `Connected.openReply_sealFor` — both, for an operator.
-/

namespace FilterBridge

/-- A session that requests can come through: there is a key exactly if there is a
password. -/
def Session.Open (session : Session) : Prop := session.key.isSome = session.passwordLoaded

/-- The flags of a session tell whether there is a password. -/
theorem flagsFor_and_passwordFlag (password : Option Bytes) :
    decide (flagsFor password &&& passwordFlag ≠ 0) = password.isSome := by
  cases password with
  | none => decide
  | some password =>
    show decide (passwordFlag &&& passwordFlag ≠ 0) = true
    decide

variable {σ : Type} {s : Suite} {o : Operator} {a : Agent σ} {type : MessageType}

/-- A reply to anything but a key agreement opens to what was replied. -/
theorem Response.Answers.openMessage_sealFor (hs : s.Invertible) {r : Response}
    (hr : r.Answers type) (htype : type ≠ .sync) (session : Session) (nonce : UInt16) :
    s.openMessage session.key (r.sealFor s session nonce) =
      .ok (sealedHeader r.type session.flags nonce r.payload, r.payload) := by
  cases hr with
  | ack hack payload => exact hs.openMessage_sealMessage ..
  | refuse hcode => exact s.openMessage_sealMessage_error ..
  | syncAck challenge => exact absurd rfl htype
  | lostSync => exact absurd rfl htype

/-- Only a request for a key agreement is refused for want of a session. -/
theorem Response.Answers.errorCode?_ne_lostSync {r : Response} (hr : r.Answers type)
    (htype : type ≠ .sync) : (Reply.mk r.type r.payload).errorCode? ≠ some .lostSync := by
  cases hr with
  | ack hack payload =>
    rename_i t
    -- no request is acknowledged by an error
    have hne : t ≠ .error := by
      rintro rfl
      cases type <;> simp [MessageType.ack?] at hack
    simp [Reply.errorCode?, Response.type, hne]
  | refuse hcode =>
    simpa [Reply.errorCode?, errorCode?, Response.refuse, Response.type, Response.payload]
      using hcode
  | syncAck challenge => exact absurd rfl htype
  | lostSync => exact absurd rfl htype

/-- What is sealed for an open session is obeyed, unless a restart is due. -/
theorem Agent.respond_sealMessage [TableStore σ] (hs : s.Invertible) (h : a.session.Open)
    (htype : type ≠ .sync) (f : Firewall) (challenge : Bytes) (nonce : UInt16)
    (payload : Bytes) :
    let d := s.sealMessage a.session.key type a.session.flags nonce payload
    a.respond f s challenge d =
      if a.rebooting then (a, f, none) else a.obey f s challenge d type payload := by
  intro d
  unfold respond
  cases hup : a.rebooting with
  | true => rfl
  | false =>
  obtain ⟨header, body, hp, hbyte, hflags⟩ :=
    hs.parse_sealMessage a.session.key type a.session.flags nonce payload
  have hflag : header.passwordLoaded = a.session.passwordLoaded := by
    rw [Header.passwordLoaded, hflags]
    exact flagsFor_and_passwordFlag a.session.password
  have hne : header.type ≠ MessageType.sync.toByte := by
    intro heq
    exact htype (MessageType.toByte_injective (hbyte.symm.trans heq))
  have haccept : a.accept s header body d = .ok payload := by
    unfold accept
    rw [if_neg (not_not_intro hflag)]
    cases hpw : a.session.passwordLoaded with
    | false =>
      -- without a key nothing is encrypted
      have hkey : a.session.key = none := by
        rw [← Option.isNone_iff_eq_none, ← Option.not_isSome, h, hpw]
        rfl
      rw [hkey, Suite.sealMessage_clear (cipherKey_none _), Header.parse_encode] at hp
      rw [Bool.false_and, if_neg Bool.false_ne_true, (Prod.mk.inj (Except.ok.inj hp)).2]
    | true =>
      obtain ⟨key, hkey⟩ := Option.isSome_iff_exists.mp (h.trans hpw)
      have hopen : s.openMessage (some key) d =
          .ok (sealedHeader type a.session.flags nonce payload, payload) := by
        rw [← hkey]
        exact hs.openMessage_sealMessage ..
      simp only [hne, hkey, hopen, ne_eq, not_false_eq_true, decide_true, Bool.and_true, if_true]
  have hp : Header.parse d = .ok (header, body) := hp
  simp only [hp, haccept, hbyte, MessageType.ofByte?_toByte, Bool.false_eq_true, if_false]

/-! ### Operators -/

/-- An operator seals requests for the session of an agent, and requests can come through. -/
structure Connected (o : Operator) (a : Agent σ) : Prop where
  /-- They have the same key, or none. -/
  key : o.key = a.session.key
  /-- Both have a password, not necessarily the same, or neither has. -/
  flags : o.flags = a.session.flags
  /-- Requests can come through. -/
  isOpen : a.session.Open

namespace Connected

theorem request_eq (h : Connected o a) (nonce : UInt16) (type : MessageType) (payload : Bytes) :
    o.request s nonce type payload =
      s.sealMessage a.session.key type a.session.flags nonce payload := by
  rw [Operator.request, h.key, h.flags]

/-- The agent obeys exactly what was requested, unless a restart is due. -/
theorem respond_request [TableStore σ] (hs : s.Invertible) (h : Connected o a)
    (htype : type ≠ .sync) (f : Firewall) (challenge : Bytes) (nonce : UInt16)
    (payload : Bytes) :
    a.respond f s challenge (o.request s nonce type payload) =
      if a.rebooting then (a, f, none)
      else a.obey f s challenge (o.request s nonce type payload) type payload := by
  rw [h.request_eq]
  exact Agent.respond_sealMessage hs h.isOpen htype f challenge nonce payload

/-- The operator reads exactly what was replied. -/
theorem openReply_sealFor (hs : s.Invertible) (h : Connected o a) {r : Response}
    (hr : r.Answers type) (htype : type ≠ .sync) (nonce : UInt16) :
    o.openReply s (r.sealFor s a.session nonce) = .ok ⟨r.type, r.payload⟩ := by
  rw [Operator.openReply, h.key, hr.openMessage_sealFor hs htype]
  simp only [sealedHeader, MessageType.ofByte?_toByte]

end Connected

end FilterBridge
