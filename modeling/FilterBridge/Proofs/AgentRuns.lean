import FilterBridge.Proofs.Backing
import FilterBridge.Proofs.Guard

/-!
# Runs of the agent

An agent keeps the store in step with the filter: whatever datagrams it answers, what
does not count as changed is what the store would restore, and the filter keeps the
bounds that it was started with.  When a write is acknowledged, nothing counts as
changed.

## Main definitions

* `Response.type`, `Response.payload` — what a reply consists of.
* `MessageType.ack?` — the type of the reply that acknowledges a request.
* `Response.Answers` — a reply acknowledges a request or refuses it.
* `Agent.Keeping` — the invariant.

## Main results

* `Agent.obey_answers` — a request is acknowledged or refused.

* `Agent.Keeping.onLoad`, `Agent.Keeping.onWrite`, `Agent.Keeping.onRelease`, … — what
  the requests do to it.
* `Agent.Keeping.respond` — no datagram breaks it, and after an acknowledged write nothing
  counts as changed.
-/

namespace FilterBridge

open Policy

/-- The type of a reply. -/
def Response.type : Response → MessageType
  | .reply type _ => type
  | .clear type _ => type

/-- A datagram shows the type of what was sealed. -/
theorem Response.head?_sealFor (r : Response) (s : Suite) (session : Session) (nonce : UInt16) :
    (r.sealFor s session nonce).head? = some r.type.toByte := by
  cases r <;> rfl

/-- The payload of a reply. -/
def Response.payload : Response → Bytes
  | .reply _ payload => payload
  | .clear _ payload => payload

/-- The acknowledgement of a request. -/
def MessageType.ack? : MessageType → Option MessageType
  | .sync => some .syncAck
  | .reboot => some .rebootAck
  | .newKey => some .newKeyAck
  | .query => some .queryAck
  | .load => some .loadAck
  | .write => some .writeAck
  | .release => some .releaseAck
  | .statistics => some .statisticsAck
  | _ => none

/-- A reply acknowledges a request of the given type or refuses it.  Only a key agreement
is acknowledged in the clear, or refused for want of a session. -/
inductive Response.Answers : Response → MessageType → Prop
  /-- The request is acknowledged. -/
  | ack {type ack : MessageType} (h : type.ack? = some ack) (payload : Bytes) :
      Answers (.reply ack payload) type
  /-- It is refused. -/
  | refuse {type : MessageType} {code : ErrorCode} (h : code ≠ .lostSync) :
      Answers (.refuse code) type
  /-- A key is agreed on. -/
  | syncAck (challenge : Bytes) : Answers (.clear .syncAck challenge) .sync
  /-- The request for a key agreement is damaged. -/
  | lostSync : Answers (.refuse .lostSync) .sync

theorem StoreError.dataCode_ne_lostSync (e : StoreError) : e.dataCode ≠ .lostSync := by
  unfold dataCode
  cases e.failure <;> decide

theorem StoreError.passwordCode_ne_lostSync (e : StoreError) : e.passwordCode ≠ .lostSync := by
  unfold passwordCode
  cases e.failure <;> decide

theorem LoadError.code_ne_lostSync (e : LoadError) : e.code ≠ .lostSync := by
  unfold code
  split <;> decide

namespace Agent

variable {σ : Type} {good : σ → Prop} {kept : σ → Kept} {capacity : Nat}
  {a a' : Agent σ} {f f' : Firewall}

/-- An agent keeps its store in step with a filter that was started over an arena of the
given capacity. -/
structure Keeping (good : σ → Prop) (kept : σ → Kept) (capacity : Nat) (a : Agent σ)
    (f : Firewall) : Prop where
  /-- The store is a map. -/
  good : good a.store
  /-- The classifier is in order. -/
  consistent : a.uploads.Consistent f []
  /-- It has the bounds that it was started with. -/
  bounds : f.classifier.bounds = (Classifier.withCapacity capacity).bounds
  /-- What is collected has its proper length. -/
  sized : (a.uploads.collected f).Sized
  /-- What did not change is what the store restores. -/
  backed : Backed (kept a.store) f.live

namespace Keeping

/-! ### Requests that leave the tables alone -/

theorem of_store (h : Keeping good kept capacity a f) (hg : good a'.store)
    (hk : kept a'.store = kept a.store) (hu : a'.uploads = a.uploads) :
    Keeping good kept capacity a' f :=
  ⟨hg, hu ▸ h.consistent, h.bounds, hu ▸ h.sized, hk ▸ h.backed⟩

theorem of_session (h : Keeping good kept capacity a f) (hs : a'.store = a.store)
    (hu : a'.uploads = a.uploads) : Keeping good kept capacity a' f :=
  h.of_store (hs ▸ h.good) (congrArg kept hs) hu

/-- The cache and the counters do not matter. -/
theorem of_cache (h : Keeping good kept capacity a f) (hp : f'.policy = f.policy)
    (hn : f'.classifier.networks = f.classifier.networks)
    (ha : f'.classifier.arena = f.classifier.arena) (hc : a.uploads.Consistent f' []) :
    Keeping good kept capacity a f' := by
  have hlive : f'.live = f.live := by
    rw [Firewall.live, hp, Firewall.live]
    congr 1
    funext n
    rw [Classifier.loaded?, hn, ha, Classifier.loaded?]
  refine ⟨h.good, hc, ?_, ?_, hlive ▸ h.backed⟩
  · rw [← h.bounds, Classifier.bounds, hn, ha, Classifier.bounds]
  · rw [Uploads.collected_congr a.uploads (f := f) fun s _ => by rw [ha]]
    exact h.sized

theorem onSync (h : Keeping good kept capacity a f) (s : Suite)
    (challenge datagram payload : Bytes) :
    Keeping good kept capacity (a.onSync s challenge datagram payload).1 f := by
  unfold Agent.onSync
  split
  · exact h
  split
  · exact h.of_session rfl rfl
  split
  · exact h
  · exact h.of_session rfl rfl

theorem lookup (h : Keeping good kept capacity a f) (ip : Address) :
    Keeping good kept capacity a (f.lookup ip).1 := by
  obtain ⟨-, -, hn, ha⟩ := Classifier.lookup_spec h.consistent.agrees ip
  exact h.of_cache rfl hn ha (h.consistent.lookup ip)

theorem onQuery (h : Keeping good kept capacity a f) (payload : Bytes) :
    Keeping good kept capacity a (Agent.onQuery f payload).1 := by
  have hbody : ∀ q, Keeping good kept capacity a (queryBody f q).1 := by
    intro q
    unfold queryBody
    split
    · exact h
    · exact h.lookup q.arg
    · exact h
    · exact h
    · split <;> exact h
    · exact h
  unfold Agent.onQuery
  cases Query.parse payload with
  | error e => exact h
  | ok q =>
    have := hbody q
    rcases hq : queryBody f q with ⟨f₁, _ | body⟩ <;> simpa only [hq] using this

theorem onStatistics (h : Keeping good kept capacity a f) (payload : Bytes) :
    Keeping good kept capacity a (Agent.onStatistics f payload).1 := by
  unfold Agent.onStatistics
  dsimp only
  split
  · exact h.of_cache rfl rfl rfl h.consistent.clearCacheCounts
  · exact h

/-! ### Requests that change tables -/

/-- A part of a table is taken. -/
theorem onLoad (h : Keeping good kept capacity a f) (payload : Bytes) :
    Keeping good kept capacity (a.onLoad f payload).1 (a.onLoad f payload).2.1 := by
  unfold Agent.onLoad
  cases Fragment.parse payload with
  | error e => exact h
  | ok part =>
    have hkeep : ∀ u f' r, a.uploads.apply f part = (u, f', r) →
        Keeping good kept capacity { a with uploads := u } f' := by
      intro u f' r hr
      cases hk : TableKind.ofByte? part.kind with
      | none =>
        rw [Uploads.apply_of_unknown hk] at hr
        obtain ⟨rfl, rfl, -⟩ := hr
        exact h
      | some kind =>
        have hb := Uploads.apply_bounds a.uploads f part
        rw [hr] at hb
        -- a table that became live counts as changed
        obtain ⟨hc, htaken⟩ := Uploads.apply_taken h.consistent hk hr
        exact ⟨h.good, hc, hb.trans h.bounds, htaken.sized h.sized,
          htaken.backed h.sized h.backed⟩
    rcases hr : a.uploads.apply f part with ⟨u, f', e | ⟨⟩⟩
    · simpa only [hr] using hkeep u f' _ hr
    · simpa only [hr] using hkeep u f' _ hr

/-- Only the policy changed, and what is kept of it. -/
theorem of_policy {policy : Policy} {store : σ} (h : Keeping good kept capacity a f)
    (hg : good store) (hb : Backed (kept store) ⟨policy, f.classifier.loaded?⟩) :
    Keeping good kept capacity { a with store } { f with policy } :=
  ⟨hg, h.consistent, h.bounds, h.sized, hb⟩

variable [TableStore σ]

theorem onNewKey (laws : TableStore.ActsAsMap good kept) (h : Keeping good kept capacity a f)
    (payload : Bytes) : Keeping good kept capacity (a.onNewKey payload).1 f := by
  unfold Agent.onNewKey
  split
  · exact h
  · split
    · rename_i store hw
      obtain ⟨hg, hk⟩ := laws.writePassword payload _ h.good hw
      exact h.of_store hg hk rfl
    · rename_i store e hw
      obtain ⟨hg, hk⟩ := laws.writePassword payload _ h.good hw
      exact h.of_store hg hk rfl

/-- Writing keeps the store in step wherever it ends, and after an acknowledged write
nothing counts as changed. -/
theorem onWrite (laws : TableStore.ActsAsMap good kept) (h : Keeping good kept capacity a f)
    {r : Response} (hr : a.onWrite f = (a', f', r)) :
    Keeping good kept capacity a' f' ∧ (r.type = .writeAck → f'.live.Clean) := by
  unfold Agent.onWrite at hr
  rcases ht : writeTables Table.all a.store f.policy with ⟨store, policy, o⟩
  obtain ⟨hg, hb, -, hclean⟩ := writeTables_spec laws Table.all h.good h.backed ht
  have h₁ := h.of_policy hg hb
  cases o with
  | some code =>
    simp only [ht, Prod.mk.injEq] at hr
    obtain ⟨rfl, rfl, rfl⟩ := hr
    exact ⟨h₁, by simp [Response.refuse, Response.type]⟩
  | none =>
    simp only [ht] at hr
    rcases hw : writeNetworks f.classifier.dirtyNetworks store f.classifier with
      ⟨store', c, o'⟩
    obtain ⟨hg', hc, hb', hbounds, harena, hkeep, hall⟩ :=
      writeNetworks_spec laws f.classifier.dirtyNetworks hg h.consistent hb hw
    have h₂ : Keeping good kept capacity { a with store := store' }
        { f with policy, classifier := c } := by
      refine ⟨hg', hc, hbounds.trans h.bounds, ?_, hb'⟩
      rw [Uploads.collected_congr a.uploads (f := f) fun s _ => by rw [harena]]
      exact h.sized
    cases o' with
    | some code =>
      simp only [hw, Prod.mk.injEq] at hr
      obtain ⟨rfl, rfl, rfl⟩ := hr
      exact ⟨h₂, by simp [Response.refuse, Response.type]⟩
    | none =>
      simp only [hw, Prod.mk.injEq] at hr
      obtain ⟨rfl, rfl, rfl⟩ := hr
      refine ⟨h₂, fun _ => ⟨fun t => hclean rfl t (by cases t <;> decide), ?_⟩⟩
      -- a network that did not count as changed before does not either
      intro n table dirty hl
      have hn : ¬ c.Changed n := by
        by_cases hd : f.classifier.Changed n
        · exact hall rfl n (h.consistent.sound.mem_dirtyNetworks.mpr hd)
        · exact hkeep n hd
      have hl : c.loaded? n = some (table, dirty) := hl
      simpa [Classifier.Changed, hl] using hn

theorem onRelease (laws : TableStore.ActsAsMap good kept) (h : Keeping good kept capacity a f)
    (payload : Bytes) :
    Keeping good kept capacity (a.onRelease f payload).1 (a.onRelease f payload).2.1 := by
  unfold Agent.onRelease
  cases Release.parse payload with
  | error e => exact h
  | ok r =>
    simp only
    cases TableKind.ofByte? r.kind with
    | none => exact h
    | some kind =>
      simp only
      cases tableOf? kind with
      | some t =>
        obtain ⟨store, hr, hg, hk⟩ := laws.removeTable t h.good
        have hb := hk ▸ h.backed.reset t
        simp only [hr, released]
        exact h.of_policy hg hb
      | none =>
        rcases hrel : f.classifier.release r.index with ⟨c, _ | _⟩
        · exact h
        · obtain ⟨store, hr, hg, hk⟩ := laws.removeNetwork r.index h.good
          simp only [hr, released]
          have hbounds := Classifier.bounds_release f.classifier r.index
          have hc := h.consistent.release r.index
          rw [hrel] at hbounds hc
          obtain ⟨-, hloaded, -, -, -⟩ := h.consistent.sound.release hrel
          -- the network is neither loaded nor kept any more
          have hlive : c.loaded? = Function.update f.classifier.loaded? r.index none := by
            funext m
            rw [hloaded, Function.update_apply]
          refine ⟨hg, hc, hbounds.trans h.bounds, ?_, ?_⟩
          · rw [Uploads.collected_congr a.uploads (f := f) fun s hs =>
              h.consistent.sound.block?_release (List.mem_append.mpr (.inl hs)) hrel]
            exact h.sized
          · rw [hk, Firewall.live, hlive]
            exact h.backed.release r.index

end Keeping

/-! ### Any datagram -/

theorem released_answers (q : σ × Except StoreError Unit) (a : Agent σ) :
    (released q a).2.Answers .release := by
  obtain ⟨store, e | ⟨⟩⟩ := q
  · exact .refuse e.dataCode_ne_lostSync
  · exact .ack rfl _

variable [TableStore σ]

theorem writeTables_ne_lostSync (ts : List Table) (store : σ) (p : Policy) :
    (writeTables ts store p).2.2 ≠ some .lostSync := by
  induction ts generalizing store p with
  | nil => simp [writeTables]
  | cons t ts ih =>
    rw [writeTables]
    split
    · rcases TableStore.writeTable store t (p.encode t) with ⟨store', e | ⟨⟩⟩
      · simpa using e.dataCode_ne_lostSync
      · exact ih store' _
    · exact ih store p

theorem writeNetworks_ne_lostSync (ns : List Address) (store : σ) (c : Classifier) :
    (writeNetworks ns store c).2.2 ≠ some .lostSync := by
  induction ns generalizing store c with
  | nil => simp [writeNetworks]
  | cons n ns ih =>
    rw [writeNetworks]
    cases c.hostTable n with
    | error e => simp
    | ok image =>
      simp only
      rcases TableStore.writeNetwork store n image with ⟨store', e | ⟨⟩⟩
      · simpa using e.dataCode_ne_lostSync
      · exact ih store' _

theorem onWrite_answers (a : Agent σ) (f : Firewall) : (a.onWrite f).2.2.Answers .write := by
  unfold onWrite
  have ht := writeTables_ne_lostSync Table.all a.store f.policy
  rcases hwt : writeTables Table.all a.store f.policy with ⟨store, policy, _ | code⟩
  · have hn := writeNetworks_ne_lostSync f.classifier.dirtyNetworks store f.classifier
    dsimp only
    rcases hwn : writeNetworks f.classifier.dirtyNetworks store f.classifier with
      ⟨store', c, _ | code⟩
    · exact .ack rfl _
    · exact .refuse (by simpa [hwn] using hn)
  · exact .refuse (by simpa [hwt] using ht)

/-- A request is acknowledged or refused. -/
theorem obey_answers {s : Suite} {challenge datagram payload : Bytes} {type : MessageType}
    {r : Response} (hr : (a.obey f s challenge datagram type payload).2.2 = some r) :
    r.Answers type := by
  have hcommand : ErrorCode.command ≠ .lostSync := by decide
  cases type with
  | sync =>
    simp only [obey, Option.some.injEq] at hr
    subst hr
    unfold onSync
    split
    · exact .refuse (by decide)
    split
    · exact .lostSync
    split
    · exact .refuse hcommand
    · exact .syncAck challenge
  | reboot =>
    simp only [obey, Option.some.injEq] at hr
    subst hr
    exact .ack rfl _
  | newKey =>
    simp only [obey, Option.some.injEq] at hr
    subst hr
    unfold onNewKey
    split
    · exact .refuse hcommand
    split
    · exact .ack rfl _
    · exact .refuse (StoreError.passwordCode_ne_lostSync _)
  | query =>
    simp only [obey, Option.some.injEq] at hr
    subst hr
    unfold onQuery
    repeat' split
    all_goals first | exact .refuse hcommand | exact .ack rfl _
  | load =>
    simp only [obey, Option.some.injEq] at hr
    subst hr
    unfold onLoad
    split
    · exact .refuse hcommand
    split
    · exact .ack rfl _
    · exact .refuse (LoadError.code_ne_lostSync _)
  | write =>
    simp only [obey, Option.some.injEq] at hr
    subst hr
    exact onWrite_answers a f
  | release =>
    simp only [obey, Option.some.injEq] at hr
    subst hr
    unfold onRelease
    split
    · exact .refuse hcommand
    split
    · exact .refuse hcommand
    split
    · exact released_answers (TableStore.removeTable a.store _) a
    split
    · exact released_answers (TableStore.removeNetwork a.store _) a
    · exact .refuse (by decide)
  | statistics =>
    simp only [obey, Option.some.injEq] at hr
    subst hr
    unfold onStatistics
    dsimp only
    split <;> exact .ack rfl _
  | _ => simp [obey] at hr

theorem Keeping.obey (laws : TableStore.ActsAsMap good kept)
    (h : Keeping good kept capacity a f) {s : Suite} {challenge datagram payload : Bytes}
    {type : MessageType} {o : Option Response}
    (hr : a.obey f s challenge datagram type payload = (a', f', o)) :
    Keeping good kept capacity a' f' ∧
      ∀ r, o = some r → r.type = .writeAck → f'.live.Clean := by
  -- only a write is acknowledged as one
  have hack : ∀ r, o = some r → r.type = .writeAck → type = .write := by
    intro r ho hw
    have hans := obey_answers (a := a) (f := f) (by rw [hr, ho])
    cases hans with
    | ack hack payload =>
      obtain rfl : _ = MessageType.writeAck := hw
      cases type <;> simp [MessageType.ack?] at hack ⊢
    | refuse hcode => cases hw
    | syncAck challenge => cases hw
    | lostSync => cases hw
  by_cases ht : type = .write
  · subst ht
    simp only [Agent.obey, Prod.mk.injEq] at hr
    obtain ⟨rfl, rfl, rfl⟩ := hr
    obtain ⟨hkeep, hclean⟩ := h.onWrite laws rfl
    exact ⟨hkeep, by rintro r ⟨⟩; exact hclean⟩
  · refine ⟨?_, fun r ho hw => absurd (hack r ho hw) ht⟩
    cases type <;> simp only [Agent.obey, Prod.mk.injEq] at hr <;> obtain ⟨rfl, rfl, -⟩ := hr
    case sync => exact h.onSync ..
    case reboot => exact h.of_session rfl rfl
    case newKey => exact h.onNewKey laws payload
    case query => exact h.onQuery payload
    case load => exact h.onLoad payload
    case write => exact absurd rfl ht
    case release => exact h.onRelease laws payload
    case statistics => exact h.onStatistics payload
    all_goals exact h

/-- No datagram breaks the invariant, and after an acknowledged write nothing counts as
changed. -/
theorem Keeping.respond (laws : TableStore.ActsAsMap good kept)
    (h : Keeping good kept capacity a f) {s : Suite} {challenge datagram : Bytes}
    {o : Option Response} (hr : a.respond f s challenge datagram = (a', f', o)) :
    Keeping good kept capacity a' f' ∧
      ∀ r, o = some r → r.type = .writeAck → f'.live.Clean := by
  have hrefused : ∀ code r, some (Response.refuse code) = some r → r.type = .writeAck →
      f.live.Clean := by
    rintro code r ⟨⟩ hw
    cases hw
  have hreacts := hr ▸ a.reacts f s challenge datagram
  generalize hq : (a', f', o) = q at hreacts
  cases hreacts with
  | silent =>
    obtain ⟨rfl, rfl, rfl⟩ := hq
    exact ⟨h, nofun⟩
  | mismatch code =>
    obtain ⟨rfl, rfl, rfl⟩ := hq
    exact ⟨h, hrefused code⟩
  | dropped hup hpw hg hopen =>
    obtain ⟨rfl, rfl, rfl⟩ := hq
    exact ⟨h.of_session rfl rfl, hrefused .lostSync⟩
  | sync header payload hup hp hpw htype =>
    have hsync : a.obey f s challenge datagram .sync payload = (a', f', o) := hq.symm
    exact h.obey laws hsync
  | opened key header payload type hup hg hkey hopen htype => exact h.obey laws hq.symm
  | plain payload type hpw htype => exact h.obey laws hq.symm

end Agent

end FilterBridge
