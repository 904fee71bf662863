import FilterBridge.Proofs.Channel

/-!
# Requests in the clear and under a key

What an agent does with a request depends on its store, on what is being loaded and on the
filter, not on its session.  So an agent with a password and a key answers a request under
that key just as one without a password answers it in the clear.

## Main definitions

* `Agent.Alike` — agents that differ in their sessions only.

## Main results

* `Agent.Alike.obey` — alike agents obey a request alike.
* `Agent.keyed_simulates_clear` — the same for sealed requests and the replies to them.
-/

namespace FilterBridge

namespace Agent

variable {σ : Type} {a b : Agent σ} {s : Suite} {key : SessionKey} {type : MessageType}

/-- Agents that differ in their sessions only. -/
structure Alike (a b : Agent σ) : Prop where
  /-- They have the same store. -/
  store : b.store = a.store
  /-- They have taken the same parts of tables. -/
  uploads : b.uploads = a.uploads
  /-- A restart is due at both or at neither. -/
  rebooting : b.rebooting = a.rebooting

namespace Alike

theorem onLoad (h : Alike a b) (f : Firewall) (payload : Bytes) :
    Alike (a.onLoad f payload).1 (b.onLoad f payload).1 ∧
      (b.onLoad f payload).2 = (a.onLoad f payload).2 := by
  unfold Agent.onLoad
  cases Fragment.parse payload with
  | error e => exact ⟨h, rfl⟩
  | ok part =>
    dsimp only
    rw [h.uploads]
    rcases a.uploads.apply f part with ⟨uploads, f', e | ⟨⟩⟩
    · exact ⟨⟨h.store, rfl, h.rebooting⟩, rfl⟩
    · exact ⟨⟨h.store, rfl, h.rebooting⟩, rfl⟩

theorem released (h : Alike a b) (q : σ × Except StoreError Unit) :
    Alike (Agent.released q a).1 (Agent.released q b).1 ∧
      (Agent.released q b).2 = (Agent.released q a).2 := by
  obtain ⟨store, e | ⟨⟩⟩ := q
  · exact ⟨⟨rfl, h.uploads, h.rebooting⟩, rfl⟩
  · exact ⟨⟨rfl, h.uploads, h.rebooting⟩, rfl⟩

variable [TableStore σ]

theorem onNewKey (h : Alike a b) (payload : Bytes) :
    Alike (a.onNewKey payload).1 (b.onNewKey payload).1 ∧
      (b.onNewKey payload).2 = (a.onNewKey payload).2 := by
  unfold Agent.onNewKey
  split
  · exact ⟨h, rfl⟩
  rw [h.store]
  rcases TableStore.writePassword a.store payload with ⟨store, e | ⟨⟩⟩
  · exact ⟨⟨rfl, h.uploads, h.rebooting⟩, rfl⟩
  · exact ⟨⟨rfl, h.uploads, h.rebooting⟩, rfl⟩

theorem onWrite (h : Alike a b) (f : Firewall) :
    Alike (a.onWrite f).1 (b.onWrite f).1 ∧ (b.onWrite f).2 = (a.onWrite f).2 := by
  unfold Agent.onWrite
  rw [h.store]
  rcases writeTables Table.all a.store f.policy with ⟨store, policy, _ | code⟩
  · dsimp only
    rcases writeNetworks f.classifier.dirtyNetworks store f.classifier with
      ⟨store', classifier, _ | code⟩
    · exact ⟨⟨rfl, h.uploads, h.rebooting⟩, rfl⟩
    · exact ⟨⟨rfl, h.uploads, h.rebooting⟩, rfl⟩
  · exact ⟨⟨rfl, h.uploads, h.rebooting⟩, rfl⟩

theorem onRelease (h : Alike a b) (f : Firewall) (payload : Bytes) :
    Alike (a.onRelease f payload).1 (b.onRelease f payload).1 ∧
      (b.onRelease f payload).2 = (a.onRelease f payload).2 := by
  unfold Agent.onRelease
  cases Release.parse payload with
  | error e => exact ⟨h, rfl⟩
  | ok r =>
    dsimp only
    rw [h.store]
    cases TableKind.ofByte? r.kind with
    | none => exact ⟨h, rfl⟩
    | some kind =>
      dsimp only
      cases tableOf? kind with
      | some t =>
        obtain ⟨halike, hresponse⟩ := h.released (TableStore.removeTable a.store t)
        exact ⟨halike, Prod.ext rfl hresponse⟩
      | none =>
        rcases f.classifier.release r.index with ⟨classifier, _ | _⟩
        · exact ⟨h, rfl⟩
        · obtain ⟨halike, hresponse⟩ := h.released (TableStore.removeNetwork a.store r.index)
          exact ⟨halike, Prod.ext rfl hresponse⟩

/-- Alike agents obey a request alike, all but a key agreement. -/
theorem obey (h : Alike a b) (htype : type ≠ .sync) (f : Firewall)
    (challenge challenge' datagram datagram' payload : Bytes) :
    Alike (a.obey f s challenge datagram type payload).1
        (b.obey f s challenge' datagram' type payload).1 ∧
      (b.obey f s challenge' datagram' type payload).2 =
        (a.obey f s challenge datagram type payload).2 := by
  cases type with
  | sync => exact absurd rfl htype
  | reboot => exact ⟨⟨h.store, h.uploads, rfl⟩, rfl⟩
  | newKey =>
    obtain ⟨halike, hresponse⟩ := h.onNewKey payload
    exact ⟨halike, congrArg (fun r => (f, some r)) hresponse⟩
  | load =>
    obtain ⟨halike, hresponse⟩ := h.onLoad f payload
    exact ⟨halike, congrArg (fun r => (r.1, some r.2)) hresponse⟩
  | write =>
    obtain ⟨halike, hresponse⟩ := h.onWrite f
    exact ⟨halike, congrArg (fun r => (r.1, some r.2)) hresponse⟩
  | release =>
    obtain ⟨halike, hresponse⟩ := h.onRelease f payload
    exact ⟨halike, congrArg (fun r => (r.1, some r.2)) hresponse⟩
  | _ => exact ⟨h, rfl⟩

end Alike

variable [TableStore σ]

/-- A request that is sealed for the open session of an agent is obeyed, and the reply opens
under the key, which stays. -/
theorem handle_sealMessage (hs : s.Invertible) (h : a.session.Open) (htype : type ≠ .sync)
    (hup : a.rebooting = false) (f : Firewall) (challenge : Bytes) (nonce answerNonce : UInt16)
    (payload : Bytes) :
    let d := s.sealMessage a.session.key type a.session.flags nonce payload
    let r := a.obey f s challenge d type payload
    let answer := a.handle f s answerNonce challenge d
    answer.1 = r.1 ∧ answer.2.1 = r.2.1 ∧ r.1.session.key = a.session.key ∧
      answer.2.2.map (s.openMessage a.session.key) =
        r.2.2.map fun reply =>
          .ok (sealedHeader reply.type r.1.session.flags answerNonce reply.payload,
            reply.payload) := by
  intro d r answer
  have hrespond : a.respond f s challenge d = r := by
    rw [respond_sealMessage hs h htype, hup]
    rfl
  have hanswer : answer =
      (r.1, r.2.1, r.2.2.map fun reply => reply.sealFor s r.1.session answerNonce) := by
    show a.handle f s answerNonce challenge d = _
    rw [handle, hrespond]
  have hkey : r.1.session.key = a.session.key := (obey_session htype).1
  rw [hanswer]
  refine ⟨rfl, rfl, hkey, ?_⟩
  cases hreply : r.2.2 with
  | none => rfl
  | some reply =>
    have hans : reply.Answers type := obey_answers hreply
    refine congrArg some ?_
    rw [← hkey]
    exact hans.openMessage_sealFor hs htype r.1.session answerNonce

/-- An agent that was started and handled any datagrams has no password, and another agent
that is alike has one and a key.  A request comes to the first in the clear and to the second
under the key, of any type but a key agreement and with any payload, and both meet the same
filter.  Then

* they leave the same filter, and they are alike still;
* the second has the same key still;
* neither answers, or both answers open, that of the second under the key, to the same type
  and payload. -/
theorem keyed_simulates_clear (hs : s.Invertible) (store : σ) (password : Option Bytes)
    (es : List Incoming) :
    let a := (start store password).after s es
    a.session.password = none →
    b.session.passwordLoaded = true → b.session.key = some key → Alike a b →
    type ≠ .sync →
    ∀ (f : Firewall) (payload challenge challenge' : Bytes)
      (nonce nonce' answerNonce answerNonce' : UInt16),
      let clear := a.handle f s answerNonce challenge (s.sealMessage none type 0 nonce payload)
      let keyed := b.handle f s answerNonce' challenge'
        (s.sealMessage (some key) type passwordFlag nonce' payload)
      keyed.2.1 = clear.2.1 ∧ Alike clear.1 keyed.1 ∧ keyed.1.session.key = some key ∧
        (clear.2.2 = none ∧ keyed.2.2 = none ∨
          ∃ answer answer' h h' replyType body,
            clear.2.2 = some answer ∧ keyed.2.2 = some answer' ∧
            s.openMessage none answer = .ok (h, body) ∧
            s.openMessage (some key) answer' = .ok (h', body) ∧
            h.type = MessageType.toByte replyType ∧ h'.type = MessageType.toByte replyType) := by
  intro a hclear hpw hkey halike htype f payload challenge challenge' nonce nonce' answerNonce
    answerNonce' clear keyed
  -- without a password there is no key
  have hnone : a.session.key = none := by
    have hvalid : a.session.key.isSome → a.session.passwordLoaded = true :=
      passwordLoaded_after (by simp [start, Session.start]) es
    cases hk : a.session.key with
    | none => rfl
    | some k =>
      rw [hk, Session.passwordLoaded, hclear] at hvalid
      exact absurd (hvalid rfl) Bool.false_ne_true
  have hopen : a.session.Open := by
    rw [Session.Open, Session.passwordLoaded, hnone, hclear]
    rfl
  have hopen' : b.session.Open := by
    rw [Session.Open, hkey, hpw]
    rfl
  have hflags : a.session.flags = 0 := by
    rw [Session.flags, hclear]
    rfl
  have hflags' : b.session.flags = passwordFlag := by
    have hpw : b.session.password.isSome = true := hpw
    rw [Session.flags, flagsFor, hpw, if_pos rfl]
  cases hup : a.rebooting with
  | true =>
    have hc : clear = (a, f, none) := by
      show a.handle .. = _
      simp [handle, respond, hup]
    have hk : keyed = (b, f, none) := by
      show b.handle .. = _
      simp [handle, respond, halike.rebooting, hup]
    rw [hc, hk]
    exact ⟨rfl, halike, hkey, .inl ⟨rfl, rfl⟩⟩
  | false =>
    obtain ⟨ha, hf, -, hreads⟩ := handle_sealMessage hs hopen htype hup f challenge nonce
      answerNonce payload
    obtain ⟨hb, hf', hkeep, hreads'⟩ := handle_sealMessage hs hopen' htype
      (halike.rebooting.trans hup) f challenge' nonce' answerNonce' payload
    rw [hnone, hflags] at ha hf hreads
    rw [hkey, hflags'] at hb hf' hkeep hreads'
    obtain ⟨halike', hsame⟩ := halike.obey (s := s) htype f challenge challenge'
      (s.sealMessage none type 0 nonce payload)
      (s.sealMessage (some key) type passwordFlag nonce' payload) payload
    have hfilter := congrArg Prod.fst hsame
    have hreply := congrArg Prod.snd hsame
    refine ⟨?_, ?_, ?_, ?_⟩
    · exact hf'.trans (hfilter.trans hf.symm)
    · show Alike clear.1 keyed.1
      rw [ha, hb]
      exact halike'
    · rw [← hkeep]
      exact congrArg (fun a => a.session.key) hb
    · rw [hreply] at hreads'
      cases hr : (a.obey f s challenge (s.sealMessage none type 0 nonce payload) type
          payload).2.2 with
      | none =>
        rw [hr] at hreads hreads'
        exact .inl ⟨Option.map_eq_none_iff.mp hreads, Option.map_eq_none_iff.mp hreads'⟩
      | some reply =>
        rw [hr] at hreads hreads'
        obtain ⟨answer, hanswer, hbody⟩ := Option.map_eq_some_iff.mp hreads
        obtain ⟨answer', hanswer', hbody'⟩ := Option.map_eq_some_iff.mp hreads'
        exact .inr ⟨answer, answer', _, _, reply.type, reply.payload, hanswer, hanswer', hbody,
          hbody', rfl, rfl⟩

/-- A password of the greatest length is taken by an agent without one as by one under a key,
whose acknowledgement opens under that key. -/
theorem keyed_simulates_clear_newKey :
    let s : Suite := .standard
    let key : SessionKey := ⟨List.replicate SessionKey.len 7⟩
    let a := (start ({} : MapStore) none).after s []
    let b : Agent MapStore := { store := {}, session := { password := some [112], key } }
    let payload := Bytes.zeros maxPasswordLen
    let f : Firewall := .withCapacity 512
    let clear := a.handle f s 3 [] (s.sealMessage none .newKey 0 1 payload)
    let keyed := b.handle f s 4 [] (s.sealMessage (some key) .newKey passwordFlag 2 payload)
    keyed.2.1 = clear.2.1 ∧ Alike clear.1 keyed.1 ∧ keyed.1.session.key = some key ∧
      ∃ answer h, keyed.2.2 = some answer ∧ s.openMessage (some key) answer = .ok (h, []) ∧
        h.type = MessageType.newKeyAck.toByte := by
  intro s key a b payload f clear keyed
  -- what is answered in the clear can be read off
  have hclear : clear.2.2 = some (s.sealMessage none .newKeyAck passwordFlag 3 []) := by
    decide +kernel
  have hb : b.session.key = some key := rfl
  have htype : MessageType.newKey ≠ .sync := by decide
  obtain ⟨hfilter, halike, hkey, ⟨hnone, -⟩ | ⟨answer, answer', h, h', replyType, body, hanswer,
      hanswer', hopen, hopen', hack, hack'⟩⟩ :=
    keyed_simulates_clear Suite.standard_invertible {} none [] rfl rfl hb ⟨rfl, rfl, rfl⟩ htype f
      payload [] [] 1 2 3 4
  · exact absurd (hclear.symm.trans hnone) (Option.some_ne_none _)
  · obtain rfl := Option.some.inj (hclear.symm.trans hanswer)
    rw [Suite.standard_invertible.openMessage_sealMessage] at hopen
    obtain ⟨rfl, rfl⟩ := Prod.mk.inj (Except.ok.inj hopen)
    exact ⟨hfilter, halike, hkey, answer', h', hanswer', hopen', hack'.trans hack.symm⟩

end Agent

end FilterBridge
