import FilterBridge.Agent

/-!
# What a password guards

An agent with a password acts only on what opens under its session key.  Only a sound
request for a key agreement brings a key, and once a datagram did not open, the agent
refuses whatever needs the key until such a request comes.

## Main definitions

* `Guarded` — a datagram that needs the session key.
* `BringsKey` — a datagram that is a sound request for a key agreement.
* `Agent.Untouched` — neither the filter nor the agent changed, apart from its key.
* `Agent.Reacts` — what an agent does with a datagram, case by case.
* `Agent.Incoming`, `Agent.after` — datagrams that are handled one after another.

## Main results

* `Agent.reacts` — there are no other cases.
* `Agent.obey_session` — requests keep the key and do not take the password away.
* `Agent.Reacts.opened_of_touched`, `Agent.Reacts.untouched_or_obeyed`,
  `Agent.Reacts.bringsKey_of_new` — what changes anything, and what brings a key.
* `Agent.Lost.respond_guarded` — without a key, what needs it is refused.
* `Agent.guard_run` — all of it, after any run.
-/

namespace FilterBridge

/-- A datagram that needs the session key: it has a header, its sender has a password, and
it is no request for a key agreement. -/
def Guarded (datagram : Bytes) : Prop :=
  ∃ h payload, Header.parse datagram = .ok (h, payload) ∧ h.passwordLoaded = true ∧
    h.type ≠ MessageType.sync.toByte

/-- A sound request for a key agreement: its sender has a password, its checksum holds and
it carries a whole challenge. -/
def BringsKey (datagram : Bytes) : Prop :=
  ∃ h payload, Header.parse datagram = .ok (h, payload) ∧ h.passwordLoaded = true ∧
    h.type = MessageType.sync.toByte ∧ verifies datagram = true ∧
    challengeLen ≤ payload.length

/-- The bytes of a datagram show whether it needs the session key. -/
theorem guarded_iff {datagram : Bytes} :
    Guarded datagram ↔ headerLen ≤ datagram.length ∧
      datagram.getD 1 0 &&& passwordFlag ≠ 0 ∧
      datagram.getD 0 0 ≠ MessageType.sync.toByte := by
  constructor
  · rintro ⟨h, payload, hp, hflag, htype⟩
    unfold Header.parse at hp
    split at hp
    · obtain ⟨rfl, rfl⟩ := Prod.mk.inj (Except.ok.inj hp)
      refine ⟨?_, of_decide_eq_true hflag, htype⟩
      show 6 ≤ _
      simp only [List.length_cons]
      omega
    · cases hp
  · rintro ⟨hlen, hflag, htype⟩
    match datagram, hlen with
    | type :: flags :: n₁ :: n₀ :: c₁ :: c₀ :: payload, _ =>
      exact ⟨_, payload, rfl, decide_eq_true hflag, htype⟩

namespace Agent

variable {σ : Type} {a a' : Agent σ} {f f' : Firewall} {s : Suite} {challenge datagram : Bytes}

/-- Neither the filter nor the agent changed, apart from the key of its session. -/
structure Untouched (a a' : Agent σ) (f f' : Firewall) : Prop where
  /-- The filter. -/
  filter : f' = f
  /-- The store. -/
  store : a'.store = a.store
  /-- What is being loaded. -/
  uploads : a'.uploads = a.uploads
  /-- The password. -/
  password : a'.session.password = a.session.password
  /-- Whether a restart is due. -/
  rebooting : a'.rebooting = a.rebooting

theorem Untouched.refl (a : Agent σ) (f : Firewall) : a.Untouched a f f :=
  ⟨rfl, rfl, rfl, rfl, rfl⟩

theorem untouched_invalidate (a : Agent σ) (f : Firewall) :
    a.Untouched { a with session := a.session.invalidate } f f :=
  ⟨rfl, rfl, rfl, rfl, rfl⟩

/-! ### One datagram -/

/-- A request for a key agreement is refused, or ends the session, or brings a key. -/
theorem onSync_cases (a : Agent σ) (s : Suite) (challenge datagram payload : Bytes) :
    (a.onSync s challenge datagram payload).1 = a ∨
      (a.onSync s challenge datagram payload).1 =
        { a with session := a.session.invalidate } ∨
      ∃ key, a.session.passwordLoaded = true ∧ verifies datagram = true ∧
        challengeLen ≤ payload.length ∧
        (a.onSync s challenge datagram payload).1 =
          { a with session := a.session.establish key } := by
  unfold onSync
  cases hp : a.session.password with
  | none => exact .inl rfl
  | some password =>
    dsimp only
    split
    · exact .inr (.inl rfl)
    rename_i hv
    unfold peerChallenge?
    by_cases hlen : payload.length < challengeLen
    · rw [if_pos hlen]
      exact .inl rfl
    · rw [if_neg hlen]
      refine .inr (.inr ⟨_, ?_, by simpa using hv, Nat.le_of_not_lt hlen, rfl⟩)
      rw [Session.passwordLoaded, hp]
      rfl

/-- A request for a key agreement touches nothing but the key. -/
theorem onSync_untouched (a : Agent σ) (f : Firewall) (s : Suite)
    (challenge datagram payload : Bytes) :
    a.Untouched (a.onSync s challenge datagram payload).1 f f := by
  obtain h | h | ⟨key, -, -, -, h⟩ := onSync_cases a s challenge datagram payload <;> rw [h]
  · exact .refl a f
  · exact untouched_invalidate a f
  · exact ⟨rfl, rfl, rfl, rfl, rfl⟩

theorem not_opens_of_error {key : SessionKey} {e : MessageError} (hkey : a.session.key = some key)
    (he : s.openMessage (some key) datagram = .error e) :
    ∀ key' q, a.session.key = some key' → s.openMessage (some key') datagram ≠ .ok q := by
  intro key' q hkey' hq
  obtain rfl := Option.some.inj (hkey.symm.trans hkey')
  simp [he] at hq

variable [TableStore σ]

/-- Other requests keep the key, do not take the password away, and only one of them makes a
restart due. -/
theorem obey_session {type : MessageType} {payload : Bytes} (h : type ≠ .sync) :
    (a.obey f s challenge datagram type payload).1.session.key = a.session.key ∧
      (a.session.passwordLoaded = true →
        (a.obey f s challenge datagram type payload).1.session.passwordLoaded = true) ∧
      (a.obey f s challenge datagram type payload).1.rebooting =
        (a.rebooting || decide (type = .reboot)) := by
  have hkeep : ∀ {other : MessageType}, other ≠ .reboot →
      a.rebooting = (a.rebooting || decide (other = .reboot)) := by
    intro other hother
    rw [decide_eq_false hother, Bool.or_false]
  cases type with
  | sync => exact absurd rfl h
  | reboot => exact ⟨rfl, id, (Bool.or_true _).symm⟩
  | newKey =>
    simp only [obey, onNewKey]
    split
    · exact ⟨rfl, id, hkeep (by decide)⟩
    split
    · exact ⟨rfl, fun _ => rfl, hkeep (by decide)⟩
    · exact ⟨rfl, id, hkeep (by decide)⟩
  | load =>
    simp only [obey, onLoad]
    repeat' split
    all_goals exact ⟨rfl, id, hkeep (by decide)⟩
  | write =>
    simp only [obey, onWrite]
    repeat' split
    all_goals exact ⟨rfl, id, hkeep (by decide)⟩
  | release =>
    simp only [obey, onRelease, released]
    repeat' split
    all_goals exact ⟨rfl, id, hkeep (by decide)⟩
  | _ => exact ⟨rfl, id, hkeep (by decide)⟩

/-- What an agent does with a datagram. -/
inductive Reacts (a : Agent σ) (f : Firewall) (s : Suite) (challenge datagram : Bytes) :
    Agent σ × Firewall × Option Response → Prop
  /-- It takes no notice: a restart is due, there is no header, or no such type. -/
  | silent : Reacts a f s challenge datagram (a, f, none)
  /-- One end has a password and the other has none. -/
  | mismatch (code : ErrorCode) : Reacts a f s challenge datagram (a, f, some (.refuse code))
  /-- The datagram needs a key, and does not open under it. -/
  | dropped (hup : a.rebooting = false) (hpw : a.session.passwordLoaded = true)
      (hg : Guarded datagram)
      (hopen : ∀ key q, a.session.key = some key → s.openMessage (some key) datagram ≠ .ok q) :
      Reacts a f s challenge datagram
        ({ a with session := a.session.invalidate }, f, some (.refuse .lostSync))
  /-- It is a request for a key agreement. -/
  | sync (h : Header) (payload : Bytes) (hup : a.rebooting = false)
      (hp : Header.parse datagram = .ok (h, payload))
      (hpw : h.passwordLoaded = a.session.passwordLoaded)
      (htype : h.type = MessageType.sync.toByte) :
      Reacts a f s challenge datagram
        ((a.onSync s challenge datagram payload).1, f,
          some (a.onSync s challenge datagram payload).2)
  /-- It opens under the key. -/
  | opened (key : SessionKey) (h : Header) (payload : Bytes) (type : MessageType)
      (hup : a.rebooting = false) (hg : Guarded datagram) (hkey : a.session.key = some key)
      (hopen : s.openMessage (some key) datagram = .ok (h, payload)) (htype : type ≠ .sync) :
      Reacts a f s challenge datagram (a.obey f s challenge datagram type payload)
  /-- There is no password. -/
  | plain (payload : Bytes) (type : MessageType) (hpw : a.session.passwordLoaded = false)
      (htype : type ≠ .sync) :
      Reacts a f s challenge datagram (a.obey f s challenge datagram type payload)

/-- An agent does nothing else. -/
theorem reacts (a : Agent σ) (f : Firewall) (s : Suite) (challenge datagram : Bytes) :
    a.Reacts f s challenge datagram (a.respond f s challenge datagram) := by
  unfold respond
  cases hup : a.rebooting with
  | true => exact .silent
  | false =>
  cases hp : Header.parse datagram with
  | error e => exact .silent
  | ok q =>
  obtain ⟨h, payload⟩ := q
  simp only [Bool.false_eq_true, if_false, accept]
  by_cases hflag : h.passwordLoaded = a.session.passwordLoaded
  · rw [if_neg (not_not_intro hflag)]
    by_cases hsync : h.type = MessageType.sync.toByte
    · -- a request for a key agreement is read in the clear
      simp only [hsync, ne_eq, not_true_eq_false, decide_false, Bool.and_false, if_false,
        Bool.false_eq_true, MessageType.ofByte?_toByte]
      exact .sync h payload hup hp hflag hsync
    have hother : ∀ type, MessageType.ofByte? h.type = some type → type ≠ .sync := by
      rintro type htype rfl
      exact hsync (MessageType.toByte_of_ofByte? htype).symm
    cases hpw : a.session.passwordLoaded with
    | false =>
      simp only [Bool.false_and, Bool.false_eq_true, if_false]
      cases htype : MessageType.ofByte? h.type with
      | none => exact .silent
      | some type => exact .plain payload type hpw (hother type htype)
    | true =>
      have hg : Guarded datagram := ⟨h, payload, hp, hflag.trans hpw, hsync⟩
      simp only [hsync, ne_eq, not_false_eq_true, decide_true, Bool.and_true, if_true]
      cases hkey : a.session.key with
      | none => exact .dropped hup hpw hg (by simp [hkey])
      | some key =>
        simp only
        cases hopen : s.openMessage (some key) datagram with
        | error e =>
          exact .dropped hup hpw hg (not_opens_of_error hkey hopen)
        | ok q =>
          simp only
          cases htype : MessageType.ofByte? h.type with
          | none => exact .silent
          | some type => exact .opened key q.1 q.2 type hup hg hkey hopen (hother type htype)
  · rw [if_pos hflag]
    cases hpw : a.session.passwordLoaded
    · exact .mismatch .insecure
    · exact .mismatch .secure

variable {r : Agent σ × Firewall × Option Response}

/-- Only what opens under the key touches anything. -/
theorem Reacts.opened_of_touched (h : a.Reacts f s challenge datagram r)
    (hpw : a.session.passwordLoaded = true) (ht : ¬ a.Untouched r.1 f r.2.1) :
    a.rebooting = false ∧ Guarded datagram ∧
      ∃ key, a.session.key = some key ∧ ∃ q, s.openMessage (some key) datagram = .ok q := by
  cases h with
  | silent => exact absurd (.refl a f) ht
  | mismatch code => exact absurd (.refl a f) ht
  | dropped hup hpw hg hopen => exact absurd (untouched_invalidate a f) ht
  | sync h payload hup hp hflag htype =>
    exact absurd (onSync_untouched a f s challenge datagram payload) ht
  | opened key h payload type hup hg hkey hopen htype =>
    exact ⟨hup, hg, key, hkey, (h, payload), hopen⟩
  | plain payload type hpw' htype => simp [hpw] at hpw'

/-- A datagram that is not obeyed, and any request for a key agreement, touches nothing but the
key. -/
theorem Reacts.untouched_or_obeyed (h : a.Reacts f s challenge datagram r) :
    a.Untouched r.1 f r.2.1 ∨
      ∃ type payload, type ≠ .sync ∧ r = a.obey f s challenge datagram type payload := by
  cases h with
  | silent => exact .inl (.refl a f)
  | mismatch code => exact .inl (.refl a f)
  | dropped hup hpw hg hopen => exact .inl (untouched_invalidate a f)
  | sync h payload hup hp hflag htype =>
    exact .inl (onSync_untouched a f s challenge datagram payload)
  | opened key h payload type hup hg hkey hopen htype => exact .inr ⟨type, payload, htype, rfl⟩
  | plain payload type hpw htype => exact .inr ⟨type, payload, htype, rfl⟩

/-- Only a sound request for a key agreement brings a key, and only to an agent with a
password. -/
theorem Reacts.bringsKey_of_new (h : a.Reacts f s challenge datagram r) {key : SessionKey}
    (hkey : r.1.session.key = some key) :
    a.session.key = some key ∨
      a.rebooting = false ∧ a.session.passwordLoaded = true ∧ BringsKey datagram := by
  cases h with
  | silent => exact .inl hkey
  | mismatch code => exact .inl hkey
  | dropped hup hpw hg hopen => cases hkey
  | sync h payload hup hp hflag htype =>
    obtain hs | hs | ⟨key', hpw, hv, hlen, hs⟩ :=
      onSync_cases a s challenge datagram payload <;> rw [hs] at hkey
    · exact .inl hkey
    · cases hkey
    · exact .inr ⟨hup, hpw, h, payload, hp, hflag.trans hpw, htype, hv, hlen⟩
  | opened key' h payload type hup hg hkey' hopen htype =>
    rw [(obey_session htype).1] at hkey
    exact .inl hkey
  | plain payload type hpw htype =>
    rw [(obey_session htype).1] at hkey
    exact .inl hkey

/-- An agent with a password keeps having one. -/
theorem Reacts.passwordLoaded (h : a.Reacts f s challenge datagram r)
    (hpw : a.session.passwordLoaded = true) : r.1.session.passwordLoaded = true := by
  cases h with
  | silent => exact hpw
  | mismatch code => exact hpw
  | dropped hup hpw' hg hopen => exact hpw
  | sync h payload hup hp hflag htype =>
    rw [Session.passwordLoaded,
      (onSync_untouched a f s challenge datagram payload).password]
    exact hpw
  | opened key h payload type hup hg hkey hopen htype => exact (obey_session htype).2.1 hpw
  | plain payload type hpw' htype => exact (obey_session htype).2.1 hpw

/-! ### Without a key -/

/-- An agent with a password that has no key, and is not about to restart. -/
structure Lost (a : Agent σ) : Prop where
  /-- It has a password. -/
  password : a.session.passwordLoaded = true
  /-- It has no key. -/
  key : a.session.key = none
  /-- No restart is due. -/
  rebooting : a.rebooting = false

/-- A datagram that needs the key and does not open under it ends the session. -/
theorem respond_dropped (hup : a.rebooting = false) (hpw : a.session.passwordLoaded = true)
    (hg : Guarded datagram)
    (hopen : ∀ key q, a.session.key = some key → s.openMessage (some key) datagram ≠ .ok q) :
    a.respond f s challenge datagram =
      ({ a with session := a.session.invalidate }, f, some (.refuse .lostSync)) := by
  obtain ⟨h, payload, hp, hflag, htype⟩ := hg
  have hrefuse : a.accept s h payload datagram = .error .lostSync := by
    simp only [accept, hflag, hpw, htype, ne_eq, not_true_eq_false, if_false, Bool.true_and,
      not_false_eq_true, decide_true, if_true]
    cases hkey : a.session.key with
    | none => rfl
    | some key =>
      cases hq : s.openMessage (some key) datagram with
      | error e => simp only [hq]
      | ok q => exact absurd hq (hopen key q hkey)
  simp only [respond, hup, hp, hrefuse, afterRefusal, Bool.false_eq_true, if_false, if_true]

namespace Lost

/-- Without a key, what needs it is refused and changes nothing. -/
theorem respond_guarded (h : a.Lost) (hg : Guarded datagram) :
    a.respond f s challenge datagram = (a, f, some (.refuse .lostSync)) := by
  rw [respond_dropped h.rebooting h.password hg (by simp [h.key])]
  have : a.session.invalidate = a.session := by rw [Session.invalidate, ← h.key]
  rw [this]

/-- The agent stays so until a key is brought. -/
theorem reacts (h : a.Lost) (hr : a.Reacts f s challenge datagram r)
    (hb : ¬ BringsKey datagram) : r.1.Lost := by
  have hkey : r.1.session.key = none := by
    cases hk : r.1.session.key with
    | none => rfl
    | some key =>
      obtain hk | ⟨-, -, hbrings⟩ := hr.bringsKey_of_new hk
      · simp [h.key] at hk
      · exact absurd hbrings hb
  refine ⟨hr.passwordLoaded h.password, hkey, ?_⟩
  -- only what opens under a key makes a restart due
  cases hup : r.1.rebooting with
  | false => rfl
  | true =>
    obtain ⟨-, -, key, hk, -⟩ := hr.opened_of_touched h.password fun ht =>
      Bool.noConfusion ((hup.symm.trans ht.rebooting).trans h.rebooting)
    simp [h.key] at hk

end Lost

/-! ### Runs -/

/-- A datagram that comes in, with the filter that it meets and the random numbers of the
answer.  The filter may have changed since the last datagram, as it also handles frames. -/
structure Incoming where
  /-- The filter. -/
  filter : Firewall
  /-- The nonce of the answer. -/
  nonce : UInt16
  /-- The challenge that is drawn, if one is. -/
  challenge : Bytes
  /-- The datagram. -/
  datagram : Bytes

/-- The agent after datagrams are handled one after another. -/
def after (a : Agent σ) (s : Suite) (es : List Incoming) : Agent σ :=
  es.foldl (fun a e => (a.handle e.filter s e.nonce e.challenge e.datagram).1) a

/-- An agent has a key only while it has a password. -/
theorem passwordLoaded_after (h : a.session.key.isSome → a.session.passwordLoaded = true)
    (es : List Incoming) :
    (a.after s es).session.key.isSome → (a.after s es).session.passwordLoaded = true := by
  induction es generalizing a with
  | nil => exact h
  | cons e es ih =>
    refine ih ?_
    intro hkey
    have hr := reacts a e.filter s e.challenge e.datagram
    obtain ⟨key, hkey⟩ := Option.isSome_iff_exists.mp hkey
    obtain hkey | ⟨-, hpw, -⟩ := hr.bringsKey_of_new hkey
    · exact hr.passwordLoaded (h (by rw [hkey]; rfl))
    · exact hr.passwordLoaded hpw

theorem Lost.after (h : a.Lost) (es : List Incoming)
    (hes : ∀ e ∈ es, ¬ BringsKey e.datagram) : (a.after s es).Lost := by
  induction es generalizing a with
  | nil => exact h
  | cons e es ih =>
    obtain ⟨he, hes⟩ := List.forall_mem_cons.mp hes
    exact ih (h.reacts (Agent.reacts a e.filter s e.challenge e.datagram) he) hes

/-- An agent is started with a password or none, and handles datagrams.  Then

* it has a key only if it has a password;
* with a password, only what needs the key and opens under it touches anything, and nothing
  does while a restart is due;
* a key is brought only by a sound request for a key agreement;
* if a datagram that needs the key does not open under it, the session ends.  From then on,
  whatever else comes in, what needs the key is refused and changes nothing, until a sound
  request for a key agreement is handled. -/
theorem guard_run (store : σ) (password : Option Bytes) (s : Suite) (es : List Incoming) :
    let a := (start store password).after s es
    (a.session.key.isSome → a.session.passwordLoaded = true) ∧
    ∀ (f : Firewall) (nonce : UInt16) (challenge datagram : Bytes),
      let r := a.handle f s nonce challenge datagram
      (a.session.passwordLoaded = true → ¬ a.Untouched r.1 f r.2.1 →
        a.rebooting = false ∧ Guarded datagram ∧
          ∃ key, a.session.key = some key ∧ ∃ q, s.openMessage (some key) datagram = .ok q) ∧
      (∀ key, r.1.session.key = some key →
        a.session.key = some key ∨
          a.rebooting = false ∧ a.session.passwordLoaded = true ∧ BringsKey datagram) ∧
      (∀ key e, a.rebooting = false → a.session.key = some key → Guarded datagram →
        s.openMessage (some key) datagram = .error e →
        r.1.session.key = none ∧
        ∀ es' : List Incoming, (∀ i ∈ es', ¬ BringsKey i.datagram) →
          let b := r.1.after s es'
          ∀ (f' : Firewall) (nonce' : UInt16) (challenge' datagram' : Bytes),
            Guarded datagram' →
            b.handle f' s nonce' challenge' datagram' =
              (b, f', some (s.sealMessage none .error passwordFlag nonce'
                [ErrorCode.lostSync.toByte]))) := by
  intro a
  have hvalid : a.session.key.isSome → a.session.passwordLoaded = true :=
    passwordLoaded_after (by simp [start, Session.start]) es
  refine ⟨hvalid, ?_⟩
  intro f nonce challenge datagram r
  have hr := reacts a f s challenge datagram
  refine ⟨hr.opened_of_touched, fun key => hr.bringsKey_of_new, ?_⟩
  intro key e hup hkey hg hopen
  have hpw : a.session.passwordLoaded = true := hvalid (by rw [hkey]; rfl)
  have hdrop : r.1 = { a with session := a.session.invalidate } := by
    show (a.respond f s challenge datagram).1 = _
    rw [respond_dropped hup hpw hg (not_opens_of_error hkey hopen)]
  have hlost : r.1.Lost := by
    rw [hdrop]
    exact ⟨hpw, rfl, hup⟩
  refine ⟨hlost.key, ?_⟩
  intro es' hes' b f' nonce' challenge' datagram' hg'
  have hb : b.Lost := hlost.after es' hes'
  have hflags : b.session.flags = passwordFlag := by
    rw [Session.flags, flagsFor, ← Session.passwordLoaded, hb.password, if_pos rfl]
  rw [handle, hb.respond_guarded hg']
  show (b, f', some (s.sealMessage none .error b.session.flags nonce' _)) = _
  rw [hflags]

/-- A key agreement brings a key, and a forged request to write ends the session. -/
example :
    let s : Suite := {
      derive := fun password challenge => challenge ++ password
      encrypt := fun key data => data.map (· + key.bytes.headD 0)
      decrypt := fun key data => data.map (· - key.bytes.headD 0) }
    let sync : Incoming :=
      ⟨{}, 0, List.replicate challengeLen 1,
        s.sealMessage none .sync passwordFlag 7 (Bytes.zeros challengeLen)⟩
    let a := (start ({} : MapStore) (some [112])).after s [sync]
    a.session.isValid = true ∧
      (a.handle {} s 0 [] [11, 1, 0, 0, 0, 9]).1.session.isValid = false := by
  decide +kernel

end Agent

end FilterBridge
