import FilterBridge.Proofs.BridgeRuns
import FilterBridge.Proofs.Channel
import FilterBridge.Proofs.Restart

/-!
# What else comes in

While a table is being loaded, other datagrams and frames come in.  Whatever they are, the
tables stay in order, and what is collected of a kind of table is changed by a part of a
table of that kind only.  The session may change as well; then the operator is heard as
before, or it reads that it was refused.

## Main definitions

* `Agent.partIn?` — the part of a table in a datagram that an agent accepts.
* `Agent.Spares` — nothing that is collected changed, but of the kind of a part.
* `Heard` — an agent obeys an operator.
* `Operator.Withholds` — a datagram does not open under another key.
* `Paired` — what stays of that, whatever else comes in.
* `Happening`, `Appliance.after` — datagrams and frames, one after another.
* `Appliance.Quiet` — no part of a kind of table comes in.

## Main results

* `Agent.spares_respond` — what any datagram does to what is collected.
* `Paired.respond_request` — an operator is heard, or its request is refused.
* `Appliance.consistent_start`, `Appliance.consistent_after` — the tables are in order after
  any happenings.
* `Appliance.collected_after`, `Appliance.paired_after` — what stays after happenings.
-/

namespace FilterBridge

open Agent

/-! ### The tables stay in order -/

namespace Firewall

variable {f f' : Firewall} {own : List Slot}

theorem keeps_onQuery (h : f.classifier.Consistent own) (payload : Bytes) :
    f.Keeps own (Agent.onQuery f payload).1 := by
  have hbody : ∀ q, f.Keeps own (queryBody f q).1 := by
    intro q
    unfold queryBody
    split
    · exact .refl h
    · obtain ⟨-, -, hn, ha⟩ := Classifier.lookup_spec h.agrees q.arg
      exact ⟨h.lookup q.arg, hn, ha, rfl⟩
    · exact .refl h
    · exact .refl h
    · split <;> exact .refl h
    · exact .refl h
  unfold Agent.onQuery
  cases Query.parse payload with
  | error e => exact .refl h
  | ok q =>
    have hq := hbody q
    rcases hb : queryBody f q with ⟨f₁, _ | body⟩ <;> simpa only [hb] using hq

theorem keeps_onStatistics (h : f.classifier.Consistent own) (payload : Bytes) :
    f.Keeps own (Agent.onStatistics f payload).1 := by
  unfold Agent.onStatistics
  dsimp only
  split
  · exact ⟨h.clearCacheCounts, rfl, rfl, rfl⟩
  · exact .refl h

theorem consistent_bootNetworks (ns : List (Address × Bytes)) {r : Firewall × BootReport}
    (h : r.1.classifier.Consistent own) :
    (ns.foldl bootNetwork r).1.classifier.Consistent own := by
  induction ns generalizing r with
  | nil => exact h
  | cons n ns ih =>
    refine ih ?_
    have hload := h.load n.1 n.2
    unfold bootNetwork
    rcases hl : r.1.classifier.load n.1 n.2 with ⟨c, e | ⟨⟩⟩ <;> rwa [hl] at hload

/-- Whatever is found in a store, the tables are in order after a start. -/
theorem consistent_boot {σ : Type} [TableStore σ] (store : σ)
    (h : f.classifier.Consistent own) : (f.boot store).1.classifier.Consistent own := by
  have htables : (Table.all.foldl (bootTable store) (f, {})).1.classifier.Consistent own := by
    rw [(bootTables_frame store Table.all (f, {})).1]
    exact h
  unfold boot
  dsimp only
  split
  · exact consistent_bootNetworks _ htables
  · exact htables

end Firewall

namespace Agent

variable {σ : Type} {a a' : Agent σ} {f f' : Firewall} {s : Suite}
  {challenge datagram payload : Bytes} {part? : Option Fragment}

/-- The part of a table in a datagram that the agent accepts. -/
def partIn? (a : Agent σ) (s : Suite) (datagram : Bytes) : Option Fragment :=
  match Header.parse datagram with
  | .error _ => none
  | .ok (h, payload) =>
    if h.type = MessageType.load.toByte then
      (a.accept s h payload datagram).toOption.bind fun payload =>
        (Fragment.parse payload).toOption
    else none

/-- The tables are in order, and nothing that is collected changed, but of the kind of a
part. -/
structure Spares (part? : Option Fragment) (a : Agent σ) (f : Firewall) (a' : Agent σ)
    (f' : Firewall) : Prop where
  /-- The tables are in order. -/
  consistent : a'.uploads.Consistent f' []
  /-- What is collected of other kinds is the same. -/
  collected : ∀ kind, (∀ part, part? = some part → TableKind.ofByte? part.kind ≠ some kind) →
    a'.uploads.collected f' kind = a.uploads.collected f kind

/-- Whatever leaves the arena alone leaves alone what is collected. -/
theorem spares_of_arena (hc : a.uploads.Consistent f' []) (hu : a'.uploads = a.uploads)
    (ha : f'.classifier.arena = f.classifier.arena) : Spares part? a f a' f' where
  consistent := hu ▸ hc
  collected := by
    intro kind _
    rw [hu]
    exact congrFun (Uploads.collected_congr a.uploads fun slot _ => by rw [ha]) kind

theorem spares_of_keeps (h : f.Keeps (a.uploads.slots ++ []) f')
    (hu : a'.uploads = a.uploads) : Spares part? a f a' f' :=
  spares_of_arena h.consistent hu h.arena

theorem spares_of_untouched (hc : a.uploads.Consistent f []) (h : a.Untouched a' f f') :
    Spares part? a f a' f' :=
  spares_of_arena (h.filter ▸ hc) h.uploads (by rw [h.filter])

theorem spares_onLoad (hc : a.uploads.Consistent f []) (payload : Bytes) :
    Spares (Fragment.parse payload).toOption a f (a.onLoad f payload).1
      (a.onLoad f payload).2.1 := by
  unfold onLoad
  cases Fragment.parse payload with
  | error e => exact spares_of_untouched hc (.refl a f)
  | ok part =>
    have hpart : (Except.ok part : Except MessageError Fragment).toOption = some part := rfl
    rw [hpart]
    have happly : ∀ u f' r, a.uploads.apply f part = (u, f', r) →
        Spares (some part) a f { a with uploads := u } f' := by
      intro u f' r hr
      cases hk : TableKind.ofByte? part.kind with
      | none =>
        rw [Uploads.apply_of_unknown hk] at hr
        obtain ⟨rfl, rfl, -⟩ := hr
        exact spares_of_untouched hc (.refl a f)
      | some kind =>
        obtain ⟨hc', htaken⟩ := Uploads.apply_taken hc hk hr
        refine ⟨hc', ?_⟩
        intro kind' hother
        refine htaken.other ?_
        rintro rfl
        exact hother part rfl hk
    rcases hr : a.uploads.apply f part with ⟨u, f', e | ⟨⟩⟩
    · simpa only [hr] using happly u f' _ hr
    · simpa only [hr] using happly u f' _ hr

theorem uploads_afterRefusal (a : Agent σ) (code : ErrorCode) :
    (a.afterRefusal code).uploads = a.uploads := by
  unfold afterRefusal
  split <;> rfl

theorem uploads_released (r : σ × Except StoreError Unit) (a : Agent σ) :
    (released r a).1.uploads = a.uploads := by
  obtain ⟨store, e | ⟨⟩⟩ := r <;> rfl

variable [TableStore σ]

theorem uploads_onNewKey (a : Agent σ) (payload : Bytes) :
    (a.onNewKey payload).1.uploads = a.uploads := by
  unfold onNewKey
  split
  · rfl
  · split <;> rfl

/-- Writing networks to a store marks them, but moves no host table. -/
theorem writeNetworks_keeps {own : List Slot} (ns : List Address) (store : σ) {c : Classifier}
    (h : c.Consistent own) :
    (writeNetworks ns store c).2.1.Consistent own ∧
      (writeNetworks ns store c).2.1.arena = c.arena := by
  induction ns generalizing store c with
  | nil => exact ⟨h, rfl⟩
  | cons n ns ih =>
    rw [writeNetworks]
    cases c.hostTable n with
    | error e => exact ⟨h, rfl⟩
    | ok image =>
      simp only
      rcases TableStore.writeNetwork store n image with ⟨store', e | ⟨⟩⟩
      · exact ⟨h, rfl⟩
      · exact ih store' (h.markClean n)

theorem spares_onWrite (hc : a.uploads.Consistent f []) :
    Spares part? a f (a.onWrite f).1 (a.onWrite f).2.1 := by
  unfold onWrite
  rcases writeTables Table.all a.store f.policy with ⟨store, policy, _ | code⟩
  · obtain ⟨hkeep, harena⟩ := writeNetworks_keeps f.classifier.dirtyNetworks store hc
    dsimp only
    rcases hw : writeNetworks f.classifier.dirtyNetworks store f.classifier with
      ⟨store', c, _ | code⟩
    · rw [hw] at hkeep harena
      exact spares_of_arena hkeep rfl harena
    · rw [hw] at hkeep harena
      exact spares_of_arena hkeep rfl harena
  · exact spares_of_arena hc rfl rfl

/-- A network that is removed gives back its own host table, not one that is collected. -/
theorem spares_onRelease (hc : a.uploads.Consistent f []) (payload : Bytes) :
    Spares part? a f (a.onRelease f payload).1 (a.onRelease f payload).2.1 := by
  unfold onRelease
  cases Release.parse payload with
  | error e => exact spares_of_untouched hc (.refl a f)
  | ok r =>
    simp only
    cases TableKind.ofByte? r.kind with
    | none => exact spares_of_untouched hc (.refl a f)
    | some kind =>
      simp only
      cases tableOf? kind with
      | some t => exact spares_of_arena hc (uploads_released _ a) rfl
      | none =>
        rcases hrel : f.classifier.release r.index with ⟨c, _ | _⟩
        · exact spares_of_untouched hc (.refl a f)
        · have hc' := Classifier.Consistent.release hc r.index
          rw [hrel] at hc'
          have hu := uploads_released (TableStore.removeNetwork a.store r.index) a
          refine ⟨hu.symm ▸ hc', ?_⟩
          intro kind _
          simp only [hu]
          exact congrFun (Uploads.collected_congr a.uploads fun slot hslot =>
            hc.sound.block?_release (List.mem_append.mpr (.inl hslot)) hrel) kind

/-- Only a part of a table changes what is collected, and only of its kind. -/
theorem spares_obey (hc : a.uploads.Consistent f []) (type : MessageType) :
    Spares (if type = .load then (Fragment.parse payload).toOption else none) a f
      (a.obey f s challenge datagram type payload).1
      (a.obey f s challenge datagram type payload).2.1 := by
  cases type with
  | sync => exact spares_of_untouched hc (onSync_untouched a f s challenge datagram payload)
  | newKey => exact spares_of_arena hc (uploads_onNewKey a payload) rfl
  | query => exact spares_of_keeps (Firewall.keeps_onQuery hc payload) rfl
  | load => exact spares_onLoad hc payload
  | write => exact spares_onWrite hc
  | release => exact spares_onRelease hc payload
  | statistics => exact spares_of_keeps (Firewall.keeps_onStatistics hc payload) rfl
  | _ => exact spares_of_arena hc rfl rfl

/-- Whatever comes in, only a part of a table that is accepted changes what is collected, and
only of its kind. -/
theorem spares_respond (hc : a.uploads.Consistent f []) :
    Spares (a.partIn? s datagram) a f (a.respond f s challenge datagram).1
      (a.respond f s challenge datagram).2.1 := by
  unfold respond
  cases hup : a.rebooting with
  | true => exact spares_of_untouched hc (.refl a f)
  | false =>
  simp only [Bool.false_eq_true, if_false, partIn?]
  cases Header.parse datagram with
  | error e => exact spares_of_untouched hc (.refl a f)
  | ok q =>
  obtain ⟨h, body⟩ := q
  simp only
  cases a.accept s h body datagram with
  | error code => exact spares_of_arena hc (uploads_afterRefusal a code) rfl
  | ok payload =>
    simp only
    cases htype : MessageType.ofByte? h.type with
    | none => exact spares_of_untouched hc (.refl a f)
    | some type =>
      have hload : h.type = MessageType.load.toByte ↔ type = .load := by
        rw [← MessageType.toByte_of_ofByte? htype]
        exact ⟨MessageType.toByte_injective, congrArg _⟩
      simp only [hload]
      exact spares_obey hc type

end Agent

/-! ### Who is heard -/

variable {σ : Type} {o : Operator} {a a' : Agent σ} {f : Firewall} {s : Suite}
  {challenge datagram : Bytes} {kind : TableKind}

/-- An agent obeys what an operator requests. -/
structure Heard (o : Operator) (a : Agent σ) : Prop extends Connected o a where
  /-- No restart is due. -/
  up : a.rebooting = false

/-- An operator with a key withholds a datagram from a session with another key: it does not
open there. -/
def Operator.Withholds (o : Operator) (s : Suite) (session : Session) (datagram : Bytes) : Prop :=
  ∀ own key q, o.key = some own → session.key = some key → key ≠ own →
    s.openMessage (some key) datagram ≠ .ok q

/-- What stays of a connection, whatever else comes in. -/
structure Paired (o : Operator) (a : Agent σ) : Prop where
  /-- An operator with a password has a key. -/
  operator : o.password.isSome = o.key.isSome
  /-- If it has one, the agent has a password. -/
  password : o.key.isSome = true → a.session.passwordLoaded = true
  /-- An agent without a password has no key. -/
  unkeyed : a.session.passwordLoaded = false → a.session.key = none

theorem Operator.openReply_refuse (o : Operator) (s : Suite) (code : ErrorCode)
    (session : Session) (nonce : UInt16) :
    o.openReply s ((Response.refuse code).sealFor s session nonce) =
      .ok ⟨.error, [code.toByte]⟩ := by
  unfold openReply Response.refuse Response.sealFor
  rw [s.openMessage_sealMessage_error]
  simp only [sealedHeader, MessageType.ofByte?_toByte]

/-- Without a key there is no other one. -/
theorem Operator.withholds_of_none (ho : o.key = none) (session : Session) :
    o.Withholds s session datagram := by
  intro own key q hown
  cases ho.symm.trans hown

/-- Only a request to load brings a part. -/
theorem Agent.partIn?_request (hs : s.Invertible) (a : Agent σ) (o : Operator)
    {type : MessageType} (htype : type ≠ .load) (nonce : UInt16) (payload : Bytes) :
    a.partIn? s (o.request s nonce type payload) = none := by
  obtain ⟨header, body, hp, hbyte, -⟩ :=
    hs.parse_sealMessage o.key type o.flags nonce payload
  change Header.parse (o.request s nonce type payload) = _ at hp
  have hne : header.type ≠ MessageType.load.toByte := by
    intro heq
    exact htype (MessageType.toByte_injective (hbyte.symm.trans heq))
  simp only [partIn?, hp, hne, if_false]

/-- A session with the same key and still a password, or still none, is as good. -/
theorem Connected.of_session (h : Connected o a) (hkey : a'.session.key = a.session.key)
    (hpw : a'.session.passwordLoaded = a.session.passwordLoaded) : Connected o a' where
  key := h.key.trans hkey.symm
  flags := by
    have hpw : a'.session.password.isSome = a.session.password.isSome := hpw
    rw [h.flags, Session.flags, Session.flags, flagsFor, flagsFor, hpw]
  isOpen := by
    rw [Session.Open, hkey, hpw]
    exact h.isOpen

namespace Heard

theorem connected (h : Heard o a) : Connected o a := h.toConnected

theorem paired (h : Heard o a) : Paired o a := by
  have hflags : o.password.isSome = a.session.password.isSome := by
    rw [← flagsFor_and_passwordFlag o.password, ← flagsFor_and_passwordFlag a.session.password]
    exact congrArg (fun flags => decide (flags &&& passwordFlag ≠ 0)) h.flags
  have hopen : o.key.isSome = a.session.passwordLoaded := h.key ▸ h.isOpen
  refine ⟨hflags.trans hopen.symm, fun hkey => hopen ▸ hkey, fun hpw => ?_⟩
  rw [← Option.not_isSome_iff_eq_none, h.isOpen, hpw]
  exact Bool.false_ne_true

end Heard

namespace Paired

theorem heard (h : Paired o a) (hup : a.rebooting = false) (hkey : o.key = a.session.key)
    (hpw : o.key.isSome = a.session.passwordLoaded) : Heard o a where
  key := hkey
  flags := by
    have hpw : o.password.isSome = a.session.password.isSome := h.operator.trans hpw
    rw [Operator.flags, Session.flags, flagsFor, flagsFor, hpw]
  isOpen := by rw [Session.Open, ← hkey, hpw]
  up := hup

variable [TableStore σ]

theorem reacts (h : Paired o a) {r : Agent σ × Firewall × Option Response}
    (hr : a.Reacts f s challenge datagram r) : Paired o r.1 := by
  refine ⟨h.operator, fun hkey => hr.passwordLoaded (h.password hkey), fun hpw => ?_⟩
  have hnone : a.session.passwordLoaded = false := by
    cases hold : a.session.passwordLoaded with
    | false => rfl
    | true => exact (hr.passwordLoaded hold).symm.trans hpw
  cases hkey : r.1.session.key with
  | none => rfl
  | some key =>
    -- a key is brought only to an agent with a password
    obtain hk | ⟨-, hk, -⟩ := hr.bringsKey_of_new hkey
    · cases (h.unkeyed hnone).symm.trans hk
    · cases hnone.symm.trans hk

/-- An operator is heard, or its request is not answered, or refused, if it withholds that
from other sessions. -/
theorem respond_request (hs : s.Invertible) (h : Paired o a) {type : MessageType}
    (htype : type ≠ .sync) (f : Firewall) (challenge : Bytes) (nonce : UInt16)
    (payload : Bytes)
    (hwithholds : o.Withholds s a.session (o.request s nonce type payload)) :
    Heard o a ∨ (a.respond f s challenge (o.request s nonce type payload)).2.2 = none ∨
      ∃ code, (a.respond f s challenge (o.request s nonce type payload)).2.2 =
        some (.refuse code) := by
  obtain ⟨header, body, hp, hbyte, hflags⟩ :=
    hs.parse_sealMessage o.key type o.flags nonce payload
  change Header.parse (o.request s nonce type payload) = _ at hp
  have hflag : header.passwordLoaded = o.key.isSome := by
    rw [Header.passwordLoaded, hflags, ← h.operator]
    exact flagsFor_and_passwordFlag o.password
  cases hup : a.rebooting with
  | true =>
    right; left
    rw [respond, if_pos hup]
  | false =>
  cases ho : o.key with
  | none =>
    rw [ho] at hflag
    cases hpw : a.session.passwordLoaded with
    | false => exact .inl (h.heard hup (ho.trans (h.unkeyed hpw).symm) (by rw [ho, hpw]; rfl))
    | true =>
      -- the agent has a password, and the operator has none
      right; right
      have hmismatch : header.passwordLoaded ≠ a.session.passwordLoaded := by simp [hflag, hpw]
      have hcode : a.accept s header body (o.request s nonce type payload) = .error .secure := by
        rw [accept, if_pos hmismatch, if_pos hpw]
      exact ⟨.secure, by simp only [respond, hup, hp, hcode, Bool.false_eq_true, if_false]⟩
  | some own =>
    rw [ho] at hflag
    have hpw := h.password (by rw [ho]; rfl)
    by_cases hkey : a.session.key = some own
    · exact .inl (h.heard hup (ho.trans hkey.symm) (by rw [ho, hpw]; rfl))
    · right; right
      have hg : Guarded (o.request s nonce type payload) := by
        refine ⟨header, body, hp, hflag, fun heq => htype ?_⟩
        exact MessageType.toByte_injective (hbyte.symm.trans heq)
      have hopen : ∀ key q, a.session.key = some key →
          s.openMessage (some key) (o.request s nonce type payload) ≠ .ok q := by
        intro key q hk
        refine hwithholds own key q ho hk ?_
        rintro rfl
        exact hkey hk
      exact ⟨.lostSync, by rw [respond_dropped hup hpw hg hopen]⟩

end Paired

/-! ### Happenings -/

/-- What may happen to a filter with its agent. -/
inductive Happening
  /-- A datagram comes in and is answered. -/
  | datagram (e : Exchange)
  /-- A frame is judged, and handed across if it passes. -/
  | frame (options : Options) (sends : Interface → Bool) (frame : Frame)
  /-- The packet counters are set, as when a frame comes in. -/
  | count (counters : Counters)

/-- The part of a table that comes in, if the agent accepts it. -/
def Happening.part? (a : Agent σ) (s : Suite) : Happening → Option Fragment
  | .datagram e => a.partIn? s e.datagram
  | .frame _ _ _ => none
  | .count _ => none

namespace Appliance

variable [TableStore σ] {x : Appliance σ}

/-- One happening. -/
def step (x : Appliance σ) (s : Suite) : Happening → Appliance σ
  | .datagram e => (x.answer s e).1
  | .frame options sends frame =>
    { x with filter := (Bridge.dispatch options sends x.filter frame).1 }
  | .count counters => { x with filter := { x.filter with counters } }

/-- Happenings, one after another. -/
def after (x : Appliance σ) (s : Suite) (hs : List Happening) : Appliance σ :=
  hs.foldl (fun x h => x.step s h) x

/-- None of the happenings brings a part of a kind of table. -/
def Quiet (x : Appliance σ) (s : Suite) (kind : TableKind) : List Happening → Prop
  | [] => True
  | h :: hs =>
    (∀ part, h.part? x.agent s = some part → TableKind.ofByte? part.kind ≠ some kind) ∧
      (x.step s h).Quiet s kind hs

/-- The tables are in order, those that are being collected and those that are live. -/
abbrev Consistent (x : Appliance σ) : Prop := x.agent.uploads.Consistent x.filter []

theorem consistent_start (store : σ) (password : Option Bytes) (capacity : Nat) :
    (start store password capacity).Consistent :=
  Firewall.consistent_boot store (Classifier.consistent_withCapacity capacity)

theorem spares_step (hc : x.Consistent) (s : Suite) (h : Happening) :
    Spares (h.part? x.agent s) x.agent x.filter (x.step s h).agent (x.step s h).filter := by
  cases h with
  | datagram e => exact spares_respond hc
  | frame options sends frame =>
    exact spares_of_keeps (Bridge.dispatch_spec hc options sends frame).2.1 rfl
  | count counters => exact spares_of_arena hc rfl rfl

/-- The tables stay in order whatever happens. -/
theorem consistent_after (hc : x.Consistent) (s : Suite) (hs : List Happening) :
    (x.after s hs).Consistent := by
  induction hs generalizing x with
  | nil => exact hc
  | cons h hs ih => exact ih (spares_step hc s h).consistent

/-- What is collected of a kind of table stays as long as no part of that kind comes in. -/
theorem collected_after (hc : x.Consistent) {hs : List Happening} (hq : x.Quiet s kind hs) :
    (x.after s hs).agent.uploads.collected (x.after s hs).filter kind =
      x.agent.uploads.collected x.filter kind := by
  induction hs generalizing x with
  | nil => rfl
  | cons h hs ih =>
    obtain ⟨hpart, hq⟩ := hq
    have hspares := spares_step hc s h
    exact (ih hspares.consistent hq).trans (hspares.collected kind hpart)

/-- What stays of a connection stays whatever happens. -/
theorem paired_after (hx : Paired o x.agent) (s : Suite) (hs : List Happening) :
    Paired o (x.after s hs).agent := by
  induction hs generalizing x with
  | nil => exact hx
  | cons h hs ih =>
    refine ih ?_
    cases h with
    | datagram e => exact hx.reacts (Agent.reacts x.agent x.filter s e.challenge e.datagram)
    | frame options sends frame => exact hx
    | count counters => exact hx

end Appliance

end FilterBridge
