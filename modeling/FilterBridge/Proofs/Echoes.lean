import FilterBridge.Proofs.Channel
import FilterBridge.Proofs.Restart

/-!
# Replies that are answered

A reply is no request, so nothing is done about it.  But the checks on the mode, the session
and the integrity of a datagram come before its type is looked at, and a datagram that fails
one of them is answered by an error, be it a reply or not.  When two ends hand each other
their replies, that is over after two errors, unless the ends are in different modes, or both
have passwords and neither has a key.  Then every error is answered by another.

## Main definitions

* `MessageType.isReply` — the types of replies.
* `Agent.Fault` — the fault that the checks find with a datagram.
* `Agent.StandOff` — two ends each find fault with the errors of the other.
* `Appliance.volley` — the replies that two ends hand each other.

## Main results

* `Agent.respond_reply` — a reply is answered exactly if a check finds fault with it.
* `Agent.fault_refuse_iff` — the fault that an end finds with an error of another.
* `Appliance.length_volley_of_standOff`, `Appliance.length_volley_le` — how long errors go back
  and forth.
* `Appliance.volley_reply` — what follows a reply.
-/

namespace FilterBridge

/-- Whether messages of a type are replies: they acknowledge a request or refuse it. -/
def MessageType.isReply (type : MessageType) : Bool := type.ack?.isNone

/-- No acknowledgement is a request, and neither is an error. -/
theorem Response.Answers.isReply {r : Response} {type : MessageType} (h : r.Answers type) :
    r.type.isReply = true := by
  cases h with
  | @ack _ ack hack payload =>
    show ack.isReply = true
    revert hack
    cases type <;> cases ack <;> decide
  | refuse hcode => rfl
  | syncAck challenge => rfl
  | lostSync => rfl

namespace Agent

variable {σ τ : Type} {a : Agent σ} {b : Agent τ} {f : Firewall} {s : Suite}
  {challenge datagram : Bytes} {type : MessageType}

/-! ### One datagram -/

/-- The fault that the checks before its type find with a datagram that asks for no key
agreement. -/
inductive Fault (a : Agent σ) (s : Suite) (datagram : Bytes) : ErrorCode → Prop
  /-- The agent has a password and the sender has none. -/
  | secure {h : Header} {body : Bytes} (hp : Header.parse datagram = .ok (h, body))
      (hsender : h.passwordLoaded = false) (hagent : a.session.passwordLoaded = true) :
      Fault a s datagram .secure
  /-- The sender has a password and the agent has none. -/
  | insecure {h : Header} {body : Bytes} (hp : Header.parse datagram = .ok (h, body))
      (hsender : h.passwordLoaded = true) (hagent : a.session.passwordLoaded = false) :
      Fault a s datagram .insecure
  /-- Both have passwords, but there is no key under which the datagram opens. -/
  | lostSync {h : Header} {body : Bytes} (hp : Header.parse datagram = .ok (h, body))
      (hsender : h.passwordLoaded = true) (hagent : a.session.passwordLoaded = true)
      (hopen : ∀ key, a.session.key = some key →
        ∃ e, s.openMessage (some key) datagram = .error e) :
      Fault a s datagram .lostSync

/-- The fault of a datagram with a header. -/
theorem fault_iff {h : Header} {body : Bytes} {code : ErrorCode}
    (hp : Header.parse datagram = .ok (h, body)) : a.Fault s datagram code ↔
      (code = .secure ∧ h.passwordLoaded = false ∧ a.session.passwordLoaded = true) ∨
      (code = .insecure ∧ h.passwordLoaded = true ∧ a.session.passwordLoaded = false) ∨
      (code = .lostSync ∧ h.passwordLoaded = true ∧ a.session.passwordLoaded = true ∧
        ∀ key, a.session.key = some key → ∃ e, s.openMessage (some key) datagram = .error e) := by
  have hsame : ∀ {h' body'}, Header.parse datagram = .ok (h', body') → h' = h := by
    intro h' body' hp'
    exact (Prod.mk.inj (Except.ok.inj (hp'.symm.trans hp))).1
  constructor
  · intro hf
    cases hf with
    | secure hp' hsender hagent => exact .inl ⟨rfl, hsame hp' ▸ hsender, hagent⟩
    | insecure hp' hsender hagent => exact .inr (.inl ⟨rfl, hsame hp' ▸ hsender, hagent⟩)
    | lostSync hp' hsender hagent hopen =>
      exact .inr (.inr ⟨rfl, hsame hp' ▸ hsender, hagent, hopen⟩)
  · rintro (⟨rfl, hsender, hagent⟩ | ⟨rfl, hsender, hagent⟩ | ⟨rfl, hsender, hagent, hopen⟩)
    · exact .secure hp hsender hagent
    · exact .insecure hp hsender hagent
    · exact .lostSync hp hsender hagent hopen

/-- A datagram is accepted exactly if it has no fault. -/
theorem accept_eq_error_iff {h : Header} {body : Bytes} {code : ErrorCode}
    (hp : Header.parse datagram = .ok (h, body)) (hsync : h.type ≠ MessageType.sync.toByte) :
    a.accept s h body datagram = .error code ↔ a.Fault s datagram code := by
  rw [fault_iff hp, accept]
  cases hsender : h.passwordLoaded <;> cases hagent : a.session.passwordLoaded
  case false.false => simp
  case false.true => simp [eq_comm]
  case true.false => simp [eq_comm]
  case true.true =>
    simp only [hsync, ne_eq, not_true_eq_false, if_false, not_false_eq_true, decide_true,
      Bool.and_true, if_true, Bool.true_eq_false, and_false, false_and, false_or, true_and]
    cases hkey : a.session.key with
    | none => simp [eq_comm]
    | some key =>
      cases hopen : s.openMessage (some key) datagram with
      | error e => simp [hopen, @eq_comm _ code]
      | ok q => simp [hopen]

/-- A reply is answered exactly if the checks find fault with it, and then by that fault. -/
theorem respond_reply [TableStore σ] (f : Firewall) (s : Suite) (challenge : Bytes)
    (htype : datagram.head? = some type.toByte) (hreply : type.isReply = true) :
    (a.respond f s challenge datagram = (a, f, none) ∧
      (a.rebooting = true ∨ ∀ code, ¬ a.Fault s datagram code)) ∨
    ∃ code, a.rebooting = false ∧ a.Fault s datagram code ∧
      a.respond f s challenge datagram = (a.afterRefusal code, f, some (.refuse code)) := by
  unfold respond
  cases hup : a.rebooting with
  | true => exact .inl ⟨if_pos rfl, .inl rfl⟩
  | false =>
  simp only [Bool.false_eq_true, if_false]
  cases hp : Header.parse datagram with
  | error e =>
    refine .inl ⟨rfl, .inr ?_⟩
    rintro code (⟨hp', -, -⟩ | ⟨hp', -, -⟩ | ⟨hp', -, -, -⟩) <;> cases hp.symm.trans hp'
  | ok q =>
  obtain ⟨h, body⟩ := q
  have hbyte : h.type = type.toByte := by
    unfold Header.parse at hp
    split at hp
    · obtain ⟨rfl, -⟩ := Prod.mk.inj (Except.ok.inj hp)
      exact Option.some.inj htype
    · cases hp
  have hsync : h.type ≠ MessageType.sync.toByte := by
    intro heq
    obtain rfl := MessageType.toByte_injective (hbyte.symm.trans heq)
    simp [MessageType.isReply, MessageType.ack?] at hreply
  simp only
  cases ha : a.accept s h body datagram with
  | error code => exact .inr ⟨code, trivial, (accept_eq_error_iff hp hsync).mp ha, rfl⟩
  | ok payload =>
    refine .inl ⟨?_, .inr fun code hf => ?_⟩
    · simp only [hbyte, MessageType.ofByte?_toByte]
      -- what is no request is not obeyed
      cases type <;> first | rfl | simp [MessageType.isReply, MessageType.ack?] at hreply
    · rw [← accept_eq_error_iff hp hsync, ha] at hf
      cases hf

/-! ### Errors of the other end -/

/-- The fault that an end finds with an error of another. -/
theorem fault_refuse_iff {session : Session} {nonce : UInt16} {code code' : ErrorCode} :
    a.Fault s ((Response.refuse code).sealFor s session nonce) code' ↔
      (code' = .secure ∧ session.passwordLoaded = false ∧ a.session.passwordLoaded = true) ∨
      (code' = .insecure ∧ session.passwordLoaded = true ∧ a.session.passwordLoaded = false) ∨
      (code' = .lostSync ∧ session.passwordLoaded = true ∧ a.session.passwordLoaded = true ∧
        a.session.key = none) := by
  have hclear := s.sealMessage_clear (cipherKey_none MessageType.error.toByte) session.flags
    nonce [code.toByte]
  have hopen := fun key => s.openMessage_sealMessage_error key session.flags nonce [code.toByte]
  rw [Response.refuse, Response.sealFor]
  have hp : Header.parse (s.sealMessage none .error session.flags nonce [code.toByte]) =
      .ok (sealedHeader .error session.flags nonce [code.toByte], [code.toByte]) := by
    rw [hclear, Header.parse_encode]
  have hflag : (sealedHeader .error session.flags nonce [code.toByte]).passwordLoaded =
      session.passwordLoaded := flagsFor_and_passwordFlag session.password
  rw [fault_iff hp, hflag]
  -- an error opens under any key there is
  have hkey : (∀ key, a.session.key = some key →
      ∃ e, s.openMessage (some key) (s.sealMessage none .error session.flags nonce
        [code.toByte]) = .error e) ↔ a.session.key = none := by
    cases a.session.key with
    | none => simp
    | some key => simp [hopen]
  rw [hkey]

/-- Two ends each find fault with the errors of the other, and neither is about to restart:
they are in different modes, or both have passwords and neither has a key. -/
structure StandOff (a : Agent σ) (b : Agent τ) : Prop where
  /-- The first end answers. -/
  left_up : a.rebooting = false
  /-- So does the second. -/
  right_up : b.rebooting = false
  /-- Neither accepts what the other sends. -/
  deaf : a.session.passwordLoaded ≠ b.session.passwordLoaded ∨
    (a.session.passwordLoaded = true ∧ b.session.passwordLoaded = true ∧
      a.session.key = none ∧ b.session.key = none)

theorem StandOff.symm (h : StandOff a b) : StandOff b a where
  left_up := h.right_up
  right_up := h.left_up
  deaf := h.deaf.imp Ne.symm fun ⟨ha, hb, hka, hkb⟩ => ⟨hb, ha, hkb, hka⟩

/-- A refusal does not end a stand-off. -/
theorem StandOff.afterRefusal (h : StandOff a b) (code : ErrorCode) :
    StandOff (a.afterRefusal code) b := by
  unfold Agent.afterRefusal
  split
  · refine ⟨h.left_up, h.right_up, h.deaf.imp id ?_⟩
    rintro ⟨hpa, hpb, -, hkb⟩
    exact ⟨hpa, hpb, rfl, hkb⟩
  · exact h

/-- In a stand-off the first end finds fault with every error of the second. -/
theorem StandOff.exists_fault (h : StandOff a b) (s : Suite) (nonce : UInt16)
    (code : ErrorCode) :
    ∃ code', a.Fault s ((Response.refuse code).sealFor s b.session nonce) code' := by
  obtain ⟨-, -, hmode | ⟨hpa, hpb, hkey, -⟩⟩ := h
  · cases hpb : b.session.passwordLoaded with
    | false =>
      have hpa : a.session.passwordLoaded = true := by simpa [hpb] using hmode
      exact ⟨.secure, fault_refuse_iff.mpr (.inl ⟨rfl, hpb, hpa⟩)⟩
    | true =>
      have hpa : a.session.passwordLoaded = false := by simpa [hpb] using hmode
      exact ⟨.insecure, fault_refuse_iff.mpr (.inr (.inl ⟨rfl, hpb, hpa⟩))⟩
  · exact ⟨.lostSync, fault_refuse_iff.mpr (.inr (.inr ⟨rfl, hpb, hpa, hkey⟩))⟩

/-- If an end finds fault with an error and the other with its answer, that is a stand-off. -/
theorem StandOff.of_faults {nonce nonce' : UInt16} {code code₁ code₂ : ErrorCode}
    (ha : a.rebooting = false) (hb : b.rebooting = false)
    (hfa : a.Fault s ((Response.refuse code).sealFor s b.session nonce) code₁)
    (hfb : b.Fault s ((Response.refuse code₁).sealFor s (a.afterRefusal code₁).session nonce')
      code₂) : StandOff a b := by
  have hmode : (a.afterRefusal code₁).session.passwordLoaded = a.session.passwordLoaded := by
    unfold Agent.afterRefusal
    split <;> rfl
  rw [fault_refuse_iff] at hfa hfb
  rw [hmode] at hfb
  refine ⟨ha, hb, ?_⟩
  obtain ⟨-, hpb, hpa⟩ | ⟨-, hpb, hpa⟩ | ⟨-, hpb, hpa, hka⟩ := hfa
  · exact .inl (by simp [hpa, hpb])
  · exact .inl (by simp [hpa, hpb])
  · obtain ⟨-, hpa', -⟩ | ⟨-, -, hpb'⟩ | ⟨-, -, -, hkb⟩ := hfb
    · exact absurd (hpa.symm.trans hpa') (by decide)
    · exact absurd (hpb.symm.trans hpb') (by decide)
    · exact .inr ⟨hpa, hpb, hka, hkb⟩

/-- Whatever an agent answers is a reply. -/
theorem isReply_of_respond [TableStore σ] {r : Response}
    (hr : (a.respond f s challenge datagram).2.2 = some r) : r.type.isReply = true := by
  have hreacts := a.reacts f s challenge datagram
  generalize a.respond f s challenge datagram = q at hreacts hr
  cases hreacts with
  | silent => cases hr
  | mismatch code =>
    obtain rfl := Option.some.inj hr
    rfl
  | dropped =>
    obtain rfl := Option.some.inj hr
    rfl
  | sync h payload hup hp hpw htype =>
    have hanswers : r.Answers .sync := obey_answers hr
    exact hanswers.isReply
  | opened key h payload type => exact (obey_answers hr).isReply
  | plain payload type => exact (obey_answers hr).isReply

end Agent

/-! ### Replies handed back and forth -/

namespace Appliance

/-- Two ends hand each other their replies: the first answers a datagram, the second answers
its reply, and so on while there is one.  Each answer takes the next of the random numbers. -/
def volley (s : Suite) : List (UInt16 × Bytes) → {σ τ : Type} → [TableStore σ] →
    [TableStore τ] → Appliance σ → Appliance τ → Bytes → List Bytes
  | [], _, _, _, _, _, _, _ => []
  | (nonce, challenge) :: draws, _, _, _, _, x, y, datagram =>
    match x.answer s ⟨nonce, challenge, datagram⟩ with
    | (_, none) => []
    | (x', some reply) => reply :: volley s draws y x' reply

variable {σ τ : Type} [TableStore σ] [TableStore τ] {x : Appliance σ} {y : Appliance τ}
  {s : Suite} {session : Session} {nonce : UInt16} {code : ErrorCode}

/-- A reply is not answered, or by the error of the check that finds fault with it. -/
theorem answer_reply {e : Exchange} {type : MessageType}
    (htype : e.datagram.head? = some type.toByte) (hreply : type.isReply = true) :
    (x.answer s e = (x, none) ∧
      (x.agent.rebooting = true ∨ ∀ code, ¬ x.agent.Fault s e.datagram code)) ∨
    ∃ code x', x.agent.rebooting = false ∧ x.agent.Fault s e.datagram code ∧
      x' = ⟨x.agent.afterRefusal code, x.filter⟩ ∧
      x.answer s e = (x', some ((Response.refuse code).sealFor s x'.agent.session e.nonce)) := by
  obtain ⟨heq, hwhy⟩ | ⟨code, hup, hf, heq⟩ :=
    x.agent.respond_reply x.filter s e.challenge htype hreply
  · refine .inl ⟨?_, hwhy⟩
    rw [answer, Agent.handle, heq]
    rfl
  · refine .inr ⟨code, _, hup, hf, rfl, ?_⟩
    rw [answer, Agent.handle, heq]
    rfl

/-- In a stand-off every error is answered by an error. -/
theorem length_volley_of_standOff (h : Agent.StandOff x.agent y.agent)
    (draws : List (UInt16 × Bytes)) :
    (volley s draws x y ((Response.refuse code).sealFor s y.agent.session nonce)).length =
      draws.length := by
  induction draws generalizing σ τ nonce code with
  | nil => rfl
  | cons draw draws ih =>
    obtain ⟨n, challenge⟩ := draw
    generalize hd : (Response.refuse code).sealFor s y.agent.session nonce = datagram
    have htype : datagram.head? = some MessageType.error.toByte :=
      hd ▸ Response.head?_sealFor (.refuse code) s y.agent.session nonce
    obtain ⟨-, hup | hno⟩ | ⟨code', x', -, hf, hx', heq⟩ :=
      answer_reply (x := x) (s := s) (e := ⟨n, challenge, datagram⟩) htype rfl
    · exact absurd hup (by simp [h.left_up])
    · obtain ⟨code', hf⟩ := h.exists_fault s nonce code
      exact absurd (hd ▸ hf) (hno code')
    · have hstill : Agent.StandOff y.agent x'.agent := hx' ▸ (h.afterRefusal code').symm
      rw [volley, heq]
      exact congrArg (· + 1) (ih hstill)

/-- Without one the first end answers an error of the second at most, and gets no answer. -/
theorem length_volley_le (h : ¬ Agent.StandOff x.agent y.agent) (draws : List (UInt16 × Bytes)) :
    (volley s draws x y ((Response.refuse code).sealFor s y.agent.session nonce)).length ≤ 1 := by
  cases draws with
  | nil => simp [volley]
  | cons draw draws =>
  obtain ⟨n, challenge⟩ := draw
  generalize hd : (Response.refuse code).sealFor s y.agent.session nonce = datagram
  have htype : datagram.head? = some MessageType.error.toByte :=
    hd ▸ Response.head?_sealFor (.refuse code) s y.agent.session nonce
  obtain ⟨heq, -⟩ | ⟨code₁, x', hup, hf, hx', heq⟩ :=
    answer_reply (x := x) (s := s) (e := ⟨n, challenge, datagram⟩) htype rfl
  · simp [volley, heq]
  rw [volley, heq]
  cases draws with
  | nil => simp [volley]
  | cons draw' draws =>
  obtain ⟨n', challenge'⟩ := draw'
  generalize hd' : (Response.refuse code₁).sealFor s x'.agent.session n = reply
  have htype' : reply.head? = some MessageType.error.toByte :=
    hd' ▸ Response.head?_sealFor (.refuse code₁) s x'.agent.session n
  obtain ⟨heq', -⟩ | ⟨code₂, y', hup', hf', -, -⟩ :=
    answer_reply (x := y) (s := s) (e := ⟨n', challenge', reply⟩) htype' rfl
  · simp [volley, heq']
  · subst hx'
    exact absurd (Agent.StandOff.of_faults hup hup' (hd ▸ hf) (hd' ▸ hf')) h

/-- Whatever is answered is answered by a reply.  A reply is not answered, and changes nothing,
exactly if a restart is due or no check finds fault with it.  Else the answer is the error of
that check, nothing changes but the session, and if the answer is handed to a second end, that
answers by at most one error, which is not answered, unless the two ends are in a stand-off.
Then errors go back and forth as often as the ends are given leave to. -/
theorem volley_reply (s : Suite) (x : Appliance σ) (y : Appliance τ) (e : Exchange)
    (draws : List (UInt16 × Bytes)) {type : MessageType}
    (htype : e.datagram.head? = some type.toByte) (hreply : type.isReply = true) :
    (∀ e' reply, (x.answer s e').2 = some reply →
      ∃ type' : MessageType, reply.head? = some type'.toByte ∧ type'.isReply = true) ∧
    let r := x.answer s e
    r.1.filter = x.filter ∧
      (r.2 = none ↔ x.agent.rebooting = true ∨ ∀ code, ¬ x.agent.Fault s e.datagram code) ∧
      (r.2 = none → r.1 = x) ∧
      ∀ reply, r.2 = some reply →
        (∃ code, x.agent.Fault s e.datagram code ∧ r.1.agent = x.agent.afterRefusal code ∧
          reply = (Response.refuse code).sealFor s r.1.agent.session e.nonce) ∧
        (Agent.StandOff y.agent r.1.agent → (volley s draws y r.1 reply).length = draws.length) ∧
        (¬ Agent.StandOff y.agent r.1.agent → (volley s draws y r.1 reply).length ≤ 1) := by
  refine ⟨?_, ?_⟩
  · intro e' reply hr
    unfold answer Agent.handle at hr
    obtain ⟨r, ho, rfl⟩ := Option.map_eq_some_iff.mp hr
    exact ⟨r.type, r.head?_sealFor s _ e'.nonce, Agent.isReply_of_respond ho⟩
  intro r
  obtain ⟨heq, hwhy⟩ | ⟨code, x', hup, hf, hx', heq⟩ := answer_reply (x := x) (s := s) htype hreply
  · have hr : r = (x, none) := heq
    rw [hr]
    exact ⟨rfl, iff_of_true rfl hwhy, fun _ => rfl, by simp⟩
  · have hr : r = (x', _) := heq
    rw [hr]
    have hsome : ¬ (x.agent.rebooting = true ∨ ∀ code, ¬ x.agent.Fault s e.datagram code) := by
      rintro (hdue | hno)
      · exact absurd (hup.symm.trans hdue) (by decide)
      · exact hno code hf
    refine ⟨by rw [hx'], iff_of_false (by simp) hsome, by simp, ?_⟩
    intro reply hreply'
    obtain rfl := Option.some.inj hreply'
    exact ⟨⟨code, hf, by rw [hx'], rfl⟩, fun h => length_volley_of_standOff h draws,
      fun h => length_volley_le h draws⟩

/-- An end without a password is handed an error of an end with one.  From then on errors go
back and forth, here for a thousand rounds. -/
theorem volley_reply_endless :
    let x : Appliance MapStore := start {} none 4096
    let y : Appliance MapStore := start {} (some [1]) 4096
    let r := x.answer .standard ⟨0, [], [MessageType.error.toByte, 1, 0, 0, 0, 0]⟩
    ∃ reply, r.2 = some reply ∧
      (volley .standard (List.replicate 1000 (0, [])) y r.1 reply).length = 1000 := by
  intro x y r
  have hsome : r.2.isSome = true := by decide +kernel
  obtain ⟨reply, hr⟩ := Option.isSome_iff_exists.mp hsome
  have htype : [MessageType.error.toByte, 1, 0, 0, 0, 0].head? =
    some MessageType.error.toByte := rfl
  obtain ⟨-, -, -, -, hall⟩ := volley_reply .standard x y
    ⟨0, [], [MessageType.error.toByte, 1, 0, 0, 0, 0]⟩ (List.replicate 1000 (0, [])) htype rfl
  have hlocked : Agent.StandOff y.agent r.1.agent :=
    ⟨rfl, by decide +kernel, .inl (by decide +kernel)⟩
  exact ⟨reply, hr, ((hall reply hr).2.1 hlocked).trans (List.length_replicate ..)⟩

/-- An end without a password answers an error, which is a reply, by another. -/
theorem reply_answered :
    MessageType.error.isReply = true ∧
      (((start {} none 4096 : Appliance MapStore).answer .standard
        ⟨0, [], [MessageType.error.toByte, 1, 0, 0, 0, 0]⟩).2.map fun d => (d.head?, d.drop 6)) =
        some (some MessageType.error.toByte, [ErrorCode.insecure.toByte]) := by
  decide +kernel

end Appliance

end FilterBridge
