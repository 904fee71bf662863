import FilterBridge.Proofs.Acceptance
import FilterBridge.Proofs.Advance
import FilterBridge.Proofs.Traffic
import Mathlib.Data.List.Perm.Basic

/-!
# A load is delivered

An operator that a filter hears sends the parts of an image, and reads the replies.  What
each part does to the load is said by `Advance`; here the parts follow one another, in order
or not, with what else happens in between.

## Main definitions

* `Appliance.Leg`, `Appliance.deliver` — datagrams are delivered, each after some happenings.
* `Appliance.Serves` — a table is live, and hosts are classified by it.

## Main results

* `Appliance.deliver_inOrder` — the parts of an image that fits are all accepted in order.
* `Appliance.deliver_shuffled` — parts that are all accepted came with the first one first
  and the last one last.
* `Appliance.deliver_overlong` — one of the parts of an image that is too long is refused.
* `Appliance.load_arrives_whole` — the three of them, for any filter that was ever started.
-/

namespace FilterBridge

open Operator

variable {σ : Type} {o : Operator} {s : Suite} {kind : TableKind} {index : UInt32}
  {image : Bytes} {len i : Nat} {held : List Nat}

/-- A permutation of requests is that of their numbers. -/
theorem exists_perm_of_map {α β : Type} {F : α → β} {as : List β} {bs : List α}
    (h : as.Perm (bs.map F)) : ∃ js : List α, js.Perm bs ∧ as = js.map F := by
  have hmap : List.Forall₂ (fun a b => a = F b) (bs.map F) bs :=
    List.forall₂_map_left_iff.mpr (List.forall₂_same.mpr fun b _ => rfl)
  obtain ⟨js, hjs, hperm⟩ := List.perm_comp_forall₂ h hmap
  refine ⟨js, hperm, ?_⟩
  rw [← List.forall₂_eq_eq_eq, List.forall₂_map_right_iff]
  exact hjs

theorem onQuery_host {f : Firewall} {payload : Bytes} {ip : Address}
    (h : Query.parse payload = .ok ⟨QueryKind.host.toByte, ip⟩) :
    Agent.onQuery f payload = ((f.lookup ip).1, .reply .queryAck [(f.lookup ip).2]) := by
  simp only [Agent.onQuery, h, Agent.queryBody, QueryKind.ofByte?_toByte]

/-! ### One delivery -/

/-- The reply to a part. -/
def Fragment.reply (part : Fragment) : Except LoadError Unit → Reply
  | .ok () => ⟨.loadAck, part.ack⟩
  | .error e => ⟨.error, [e.code.toByte]⟩

/-- What an operator reads, if it is answered. -/
def Operator.read? (o : Operator) (s : Suite) (reply : Option Bytes) : Option Reply :=
  reply.bind fun d => (o.openReply s d).toOption

/-- What is collected of each kind. -/
abbrev Appliance.collected (x : Appliance σ) : Collected := x.agent.uploads.collected x.filter

namespace Appliance

variable {x : Appliance σ} {p : Fragment}

/-- The filter after a part was taken. -/
def take (x : Appliance σ) (p : Fragment) : Appliance σ where
  agent := { x.agent with uploads := (x.agent.uploads.apply x.filter p).1 }
  filter := (x.agent.uploads.apply x.filter p).2.1

/-- Whether a part is accepted. -/
def verdict (x : Appliance σ) (p : Fragment) : Except LoadError Unit :=
  (x.agent.uploads.apply x.filter p).2.2

theorem heard_take (h : Heard o x.agent) (p : Fragment) : Heard o (x.take p).agent :=
  ⟨h.connected.of_session rfl rfl, h.up⟩

theorem taken_take (hc : x.Consistent) (kind : TableKind) (index : UInt32) (image : Bytes)
    (i : Nat) :
    (x.take (part kind index image i)).Consistent ∧
      Taken kind (part kind index image i) x.collected x.filter.live
        (x.take (part kind index image i)).collected (x.take (part kind index image i)).filter.live
        (x.verdict (part kind index image i)) :=
  Uploads.apply_taken hc ofByte?_part rfl

/-- A host table that is live tells the class of each host of its network. -/
theorem lookup_of_holds (hc : x.Consistent) {table : Bytes} (htable : table.length = len)
    (hlen : TableKind.network.tableLen? index = some len)
    (hlive : x.filter.live.Holds .network index table) {ip : Address} {split : HostSplit}
    (hsplit : ip.split? = some split) (hindex : split.network = index) :
    (x.filter.lookup ip).2 = table.getD split.host 0 := by
  have hlen' : split.tableLen = len := by
    have hnetwork := Address.split?_network hsplit
    rw [hindex] at hnetwork
    rw [TableKind.tableLen?, Address.tableLen?, hnetwork] at hlen
    split at hlen
    · exact Option.some.inj hlen
    · cases hlen
  -- hosts are looked up in pairs, and no pair reaches past the end of the table
  have hpair : split.host / 2 * 2 + 2 ≤ table.length := by
    have hhost := Address.host_lt hsplit
    obtain ⟨hl | hl, -⟩ := Address.split?_eq_some hsplit <;> omega
  have hmap : x.filter.classifier.hostMap index = some table := hlive
  rw [show (x.filter.lookup ip).2 = hostClass x.filter.classifier.hostMap ip from
    Classifier.Consistent.lookup_eq hc ip]
  simp only [hostClass, hsplit, hindex, hmap, hpair, if_true]

/-- The next part of an image that fits is accepted, if there is room. -/
theorem verdict_part (hlen : kind.tableLen? index = some len) (himage : image.length ≤ len)
    (hi : i < partCount image) (hc : x.Consistent)
    (hawaits : x.collected.Awaits kind index image len held i)
    (hbytes : kind = .network → i = 0 →
      len ≤ (x.agent.uploads.abortNetwork x.filter).2.classifier.arena.available)
    (hslot : kind = .network → x.filter.classifier.networks.canInsert index = true) :
    x.verdict (part kind index image i) = .ok () := by
  have hfits := part_fits kind index hi himage
  obtain ⟨table, hpieced, hput⟩ := hawaits.put?_eq hlen (number_lt hi himage hlen)
  rw [if_pos hfits] at hput
  have hsize := Bytes.length_overlay (hpieced.length.symm ▸ hfits)
  rw [hpieced.length] at hsize
  have hdata : (part kind index image i).data.length ≤ maxFragmentLen := by
    rw [length_data_part]
    exact Nat.min_le_left ..
  refine Uploads.apply_accepts hc ofByte?_part hdata (by rw [hsize]; exact hlen) hput ?_
    fun hkind _ => hslot hkind
  intro hkind hbegin
  rw [hsize]
  rw [isBegin_part] at hbegin
  exact hbytes hkind (of_decide_eq_true hbegin)

/-- Only the last part of a load takes a network in. -/
theorem networks_take (hmore : i + 1 ≠ partCount image) :
    (x.take (part kind index image i)).filter.classifier.networks =
      x.filter.classifier.networks := by
  refine Uploads.networks_apply _ _ ?_
  rw [isEnd_part]
  exact decide_eq_false hmore

variable [TableStore σ]

/-- A part that an operator sends is taken, and the operator reads how. -/
theorem answer_load (hs : s.Invertible) (h : Heard o x.agent) (hp : p.data.length < 65536)
    {e : Exchange} {nonce : UInt16} (he : e.datagram = o.request s nonce .load p.encode) :
    (x.answer s e).1 = x.take p ∧ o.read? s (x.answer s e).2 = some (p.reply (x.verdict p)) := by
  have hload : MessageType.load ≠ .sync := by decide
  have hrespond := h.connected.respond_request hs hload x.filter e.challenge nonce p.encode
  rw [← he, h.up, if_neg Bool.false_ne_true] at hrespond
  simp only [Agent.obey, Agent.onLoad, Fragment.parse_encode hp] at hrespond
  unfold answer Agent.handle take verdict Operator.read?
  rcases ha : x.agent.uploads.apply x.filter p with ⟨u, f, e' | ⟨⟩⟩
  · simp only [ha] at hrespond
    simp only [hrespond, Option.map_some, Option.bind_some, o.openReply_refuse s, true_and]
    rfl
  · simp only [ha] at hrespond
    have hack : (Response.reply .loadAck p.ack).Answers .load := .ack rfl _
    have hopen := h.connected.openReply_sealFor hs hack hload e.nonce
    simp only [hrespond, Option.map_some, Option.bind_some, hopen, true_and]
    rfl

/-- An operator that reads an acknowledgement was heard. -/
theorem heard_of_ack (hs : s.Invertible) (h : Paired o x.agent) {e : Exchange} {nonce : UInt16}
    (he : e.datagram = o.request s nonce .load p.encode)
    (hwithholds : o.Withholds s x.agent.session e.datagram) {payload : Bytes}
    (hack : o.read? s (x.answer s e).2 = some ⟨.loadAck, payload⟩) : Heard o x.agent := by
  have hload : MessageType.load ≠ .sync := by decide
  obtain hheard | hanswer :=
    h.respond_request hs hload x.filter e.challenge nonce p.encode (he ▸ hwithholds)
  · exact hheard
  rw [← he] at hanswer
  unfold answer Agent.handle Operator.read? at hack
  rcases hr : x.agent.respond x.filter s e.challenge e.datagram with ⟨a, f, r⟩
  rw [hr] at hanswer hack
  obtain rfl | ⟨code, rfl⟩ : r = none ∨ ∃ code, r = some (.refuse code) := hanswer
  · cases hack
  · simp [o.openReply_refuse s, Except.toOption] at hack

/-! ### Deliveries -/

/-- A datagram that is delivered, and what happens before that. -/
structure Leg where
  /-- What happens before. -/
  before : List Happening := []
  /-- The datagram that is delivered. -/
  delivery : Exchange

/-- Datagrams are delivered, one after another, with the replies to them. -/
def deliver (x : Appliance σ) (s : Suite) : List Leg → Appliance σ × List (Option Bytes)
  | [] => (x, [])
  | leg :: legs =>
    let r := (x.after s leg.before).answer s leg.delivery
    ((r.1.deliver s legs).1, r.2 :: (r.1.deliver s legs).2)

/-- Datagrams of an operator are delivered with no other part of a kind of table in between,
and withheld from sessions with another key. -/
def Undisturbed (x : Appliance σ) (o : Operator) (s : Suite) (kind : TableKind) :
    List Leg → Prop
  | [] => True
  | leg :: legs =>
    x.Quiet s kind leg.before ∧
      o.Withholds s (x.after s leg.before).agent.session leg.delivery.datagram ∧
      ((x.after s leg.before).answer s leg.delivery).1.Undisturbed o s kind legs

/-- The request that carries the part with number `i`. -/
def requestOf (o : Operator) (s : Suite) (nonces : Nat → UInt16) (kind : TableKind)
    (index : UInt32) (image : Bytes) (i : Nat) : Bytes :=
  o.request s (nonces i) .load (part kind index image i).encode

theorem length_data_lt (kind : TableKind) (index : UInt32) (image : Bytes) (i : Nat) :
    (part kind index image i).data.length < 65536 := by
  rw [length_data_part]
  simp only [maxFragmentLen]
  omega

variable {nonces : Nat → UInt16} {leg : Leg} {legs : List Leg}

/-- One part of a load is delivered while its operator is heard, and then the others. -/
theorem deliver_cons (hs : s.Invertible) (h : Heard o x.agent) {e : Exchange}
    (he : e.datagram = requestOf o s nonces kind index image i) (legs : List Leg) :
    ∃ reply, x.deliver s (⟨[], e⟩ :: legs) =
        (((x.take (part kind index image i)).deliver s legs).1,
          reply :: ((x.take (part kind index image i)).deliver s legs).2) ∧
      o.read? s reply =
        some ((part kind index image i).reply (x.verdict (part kind index image i))) := by
  obtain ⟨hnext, hread⟩ := answer_load hs h (length_data_lt kind index image i) he
  refine ⟨_, ?_, hread⟩
  rw [← hnext]
  rfl

/-! ### In order -/

/-- The first of the datagrams in order requests the first of the parts. -/
theorem requests_cons {F : Nat → Bytes} {e : Exchange} {es : List Exchange} {k m : Nat}
    (h : (e :: es).map (·.datagram) = (List.range' k m).map F) :
    ∃ m', m = m' + 1 ∧ e.datagram = F k ∧
      es.map (·.datagram) = (List.range' (k + 1) m').map F := by
  cases m with
  | zero => cases h
  | succ m =>
    rw [List.range'_succ, List.map_cons, List.map_cons] at h
    obtain ⟨he, hes⟩ := List.cons.inj h
    exact ⟨m, rfl, he, hes⟩

/-- The datagrams of a load in order, from the part with number `k` on, are acknowledged and
make the table live. -/
theorem deliver_inOrder (hs : s.Invertible) (hlen : kind.tableLen? index = some len)
    (himage : image.length ≤ len) {k m : Nat} (hcount : k + m = partCount image) (hm : 0 < m)
    (hx : Heard o x.agent) (hc : x.Consistent)
    (hheld : ∀ j < k, j ∈ held) (hawaits : x.collected.Awaits kind index image len held k)
    (hbytes : kind = .network → k = 0 →
      len ≤ (x.agent.uploads.abortNetwork x.filter).2.classifier.arena.available)
    (hslot : kind = .network → x.filter.classifier.networks.canInsert index = true)
    {es : List Exchange}
    (hes : es.map (·.datagram) =
      (List.range' k m).map (requestOf o s nonces kind index image)) :
    (x.deliver s (es.map (Leg.mk []))).2.map (o.read? s) = (List.range' k m).map
        (fun i => some ⟨.loadAck, (part kind index image i).ack⟩) ∧
      Heard o (x.deliver s (es.map (Leg.mk []))).1.agent ∧
      (x.deliver s (es.map (Leg.mk []))).1.Consistent ∧
      x.filter.live.commit kind index (image.padTo len) =
        .ok (x.deliver s (es.map (Leg.mk []))).1.filter.live := by
  -- by induction on the datagrams; what is held grows by the part with number `k`
  induction es generalizing k m x held with
  | nil =>
    have hzero : m = 0 := by simpa using hes
    omega
  | cons e es ih =>
  obtain ⟨m, rfl, he, hes⟩ := requests_cons hes
  have hk : k < partCount image := by omega
  obtain ⟨reply, hdeliver, hread⟩ := deliver_cons hs hx he (es.map (Leg.mk []))
  obtain ⟨hc', htaken⟩ := taken_take hc kind index image k
  rw [verdict_part hlen himage hk hc hawaits hbytes hslot] at hread htaken
  have hadvance := htaken.advance hawaits hlen (number_lt hk himage hlen)
  have hx' := heard_take hx (part kind index image k)
  have hnetworks : k + 1 ≠ partCount image →
      (x.take (part kind index image k)).filter.classifier.networks =
        x.filter.classifier.networks := networks_take
  rw [List.map_cons, hdeliver, List.map_cons, hread, List.range'_succ, List.map_cons]
  have hheld' : ∀ j < k + 1, j ∈ k :: held := by
    intro j hj
    rcases Nat.lt_succ_iff_lt_or_eq.mp hj with hj | rfl
    · exact List.mem_cons_of_mem _ (hheld j hj)
    · exact List.mem_cons_self
  generalize x.take (part kind index image k) = y at *
  generalize hl : y.filter.live = l at *
  generalize hy : y.collected = c at *
  cases hadvance with
  | kept hfits hmore hholds =>
    obtain ⟨hreads', hx'', hc'', hcommit⟩ := ih (k := k + 1) (by omega) (by omega) hx' hc' hheld'
      (.inr ⟨by omega, hy ▸ hholds⟩) (by omega) (by rw [hnetworks hmore]; exact hslot) hes
    exact ⟨congrArg _ hreads', hx'', hc'', hl ▸ hcommit⟩
  | committed hfits hlast hnone htable hcommit =>
    obtain rfl : m = 0 := by omega
    obtain rfl : es = [] := List.map_eq_nil_iff.mp hes
    rw [htable.eq_padTo himage (hlast ▸ hheld')] at hcommit
    exact ⟨rfl, hx', hc', hl.symm ▸ hcommit⟩

/-! ### Too long -/

/-- Once a part was refused, those that come after it change nothing. -/
theorem deliver_refused (hs : s.Invertible) {k m : Nat} (hk : 0 < k) (hx : Heard o x.agent)
    (hc : x.Consistent) (hnone : x.collected kind = none) {es : List Exchange}
    (hes : es.map (·.datagram) =
      (List.range' k m).map (requestOf o s nonces kind index image)) :
    (x.deliver s (es.map (Leg.mk []))).1.filter.live = x.filter.live := by
  induction es generalizing k m x with
  | nil => rfl
  | cons e es ih =>
  obtain ⟨m, rfl, he, hes⟩ := requests_cons hes
  obtain ⟨reply, hdeliver, -⟩ := deliver_cons hs hx he (es.map (Leg.mk []))
  obtain ⟨hc', htaken⟩ := taken_take hc kind index image k
  obtain ⟨hlive, hnone', -⟩ := htaken.of_none (isBegin_part_of_ne (by omega)) hnone
  rw [List.map_cons, hdeliver]
  exact (ih (k := k + 1) (by omega) (heard_take hx _) hc' hnone' hes).trans hlive

/-- The datagrams of an image that is too long, from the part with number `k` on, install
nothing, and one of them is refused. -/
theorem deliver_overlong (hs : s.Invertible) (hlen : kind.tableLen? index = some len)
    (hlong : len < image.length) {k m : Nat} (hcount : k + m = partCount image) (hm : 0 < m)
    (hx : Heard o x.agent) (hc : x.Consistent)
    (hawaits : x.collected.Awaits kind index image len held k)
    (hinside : k * maxFragmentLen ≤ len) {es : List Exchange}
    (hes : es.map (·.datagram) =
      (List.range' k m).map (requestOf o s nonces kind index image)) :
    (x.deliver s (es.map (Leg.mk []))).1.filter.live = x.filter.live ∧
      ∃ reply ∈ (x.deliver s (es.map (Leg.mk []))).2, ∃ code : ErrorCode,
        o.read? s reply = some ⟨.error, [code.toByte]⟩ := by
  induction es generalizing k m x held with
  | nil =>
    have hzero : m = 0 := by simpa using hes
    omega
  | cons e es ih =>
  obtain ⟨m, rfl, he, hes⟩ := requests_cons hes
  obtain ⟨reply, hdeliver, hread⟩ := deliver_cons hs hx he (es.map (Leg.mk []))
  obtain ⟨hc', htaken⟩ := taken_take hc kind index image k
  have hk : k < 4194304 := by
    have := TableKind.tableLen?_le hlen
    simp only [maxFragmentLen] at hinside
    omega
  have hadvance := htaken.advance hawaits hlen hk
  have hx' := heard_take hx (part kind index image k)
  have hdata := length_data_part kind index image k
  have hcover := length_le_partCount image
  rw [List.map_cons, hdeliver]
  generalize x.verdict (part kind index image k) = r at hread hadvance
  generalize x.take (part kind index image k) = y at hc' hx' hadvance ⊢
  generalize hl : y.filter.live = l at hadvance
  generalize hcollected : y.collected = c at hadvance
  cases hadvance with
  | refused e' hnone =>
    refine ⟨(deliver_refused hs (k := k + 1) (by omega) hx' hc' (hcollected ▸ hnone) hes).trans hl,
      reply, List.mem_cons_self, e'.code, hread⟩
  | kept hfits hmore hholds =>
    have hfull : (k + 1) * maxFragmentLen ≤ len := by
      have hk' : k + 1 < partCount image := by omega
      have := lt_length_of_lt_partCount hk' (Nat.succ_pos k)
      simp only [maxFragmentLen] at hfits hdata this ⊢
      omega
    obtain ⟨hlive, r, hr, hrefused⟩ := ih (k := k + 1) (by omega) (by omega) hx' hc'
      (.inr ⟨by omega, hcollected ▸ hholds⟩) hfull hes
    exact ⟨hlive.trans hl, r, List.mem_cons_of_mem _ hr, hrefused⟩
  | committed hfits hlast hnone htable hcommit =>
    -- the last part would end past the end of the table
    rw [← hlast] at hcover
    simp only [maxFragmentLen] at hfits hdata hcover
    omega

/-! ### In any order -/

/-- An acknowledged part was accepted, by an agent that heard its operator, and found the
same collected of its kind as before the happenings. -/
theorem accepted_of_ack (hs : s.Invertible) (hx : Heard o x.agent) (hc : x.Consistent)
    (hquiet : x.Undisturbed o s kind (leg :: legs))
    (he : leg.delivery.datagram = requestOf o s nonces kind index image i)
    (hacks : ∀ reply ∈ (x.deliver s (leg :: legs)).2, ∃ payload,
      o.read? s reply = some ⟨.loadAck, payload⟩) :
    let p := part kind index image i
    ∃ y : Appliance σ, y.collected kind = x.collected kind ∧ Heard o (y.take p).agent ∧
      (y.take p).Consistent ∧
      Taken kind p y.collected y.filter.live (y.take p).collected (y.take p).filter.live
        (.ok ()) ∧
      (x.deliver s (leg :: legs)).1 = ((y.take p).deliver s legs).1 ∧
      (y.take p).Undisturbed o s kind legs ∧
      ∀ reply ∈ ((y.take p).deliver s legs).2, ∃ payload,
        o.read? s reply = some ⟨.loadAck, payload⟩ := by
  intro p
  obtain ⟨hbefore, hwithholds, hquiet⟩ := hquiet
  obtain ⟨⟨payload, hpayload⟩, hacks⟩ := List.forall_mem_cons.mp hacks
  have hy := heard_of_ack hs (paired_after hx.paired s leg.before) he hwithholds hpayload
  obtain ⟨hnext, hread⟩ := answer_load hs hy (length_data_lt kind index image i) he
  have hok : (x.after s leg.before).verdict p = .ok () := by
    rw [hpayload] at hread
    cases hv : (x.after s leg.before).verdict p with
    | error e =>
      rw [hv] at hread
      cases hread
    | ok u => rfl
  obtain ⟨hc', htaken⟩ := taken_take (consistent_after hc s leg.before) kind index image i
  rw [hok] at htaken
  rw [hnext] at hquiet hacks
  refine ⟨_, collected_after hc hbefore, heard_take hy p, hc', htaken, ?_, hquiet, hacks⟩
  rw [deliver, hnext]

/-- The datagrams of a load in any order, with other happenings in between, some of the parts
being collected already.  If all are acknowledged, the first part came first and the last
part came last, and the table is live. -/
theorem deliver_shuffled (hs : s.Invertible) (hlen : kind.tableLen? index = some len)
    (himage : image.length ≤ len) (hx : Heard o x.agent) (hc : x.Consistent) {js : List Nat}
    (hperm : (held ++ js).Perm (List.range (partCount image))) (hjs : js ≠ [])
    (hend : partCount image - 1 ∉ held)
    (hstate : held = [] ∧ x.collected kind = none ∨
      0 ∈ held ∧ x.collected.Holds kind index image len held)
    (hlegs : legs.map (·.delivery.datagram) = js.map (requestOf o s nonces kind index image))
    (hquiet : x.Undisturbed o s kind legs)
    (hacks : ∀ reply ∈ (x.deliver s legs).2, ∃ payload,
      o.read? s reply = some ⟨.loadAck, payload⟩) :
    Heard o (x.deliver s legs).1.agent ∧ (x.deliver s legs).1.Consistent ∧
      ∃ l : LiveTables,
        l.commit kind index (image.padTo len) = .ok (x.deliver s legs).1.filter.live := by
  induction legs generalizing x held js with
  | nil => exact absurd (List.map_eq_nil_iff.mp hlegs.symm) hjs
  | cons leg legs ih =>
  cases js with
  | nil => exact absurd rfl hjs
  | cons j js =>
  obtain ⟨he, hlegs⟩ := List.cons.inj hlegs
  obtain ⟨y, hsame, hx', hc', htaken, hfinal, hquiet', hacks'⟩ :=
    accepted_of_ack hs hx hc hquiet he hacks
  have hj : j < partCount image := by
    rw [← List.mem_range, ← hperm.mem_iff]
    simp
  have hnodup : (held ++ j :: js).Nodup := hperm.nodup_iff.mpr List.nodup_range
  have hperm' : (j :: held ++ js).Perm (List.range (partCount image)) :=
    List.perm_middle.symm.trans hperm
  -- the part that begins came first, or comes now
  obtain ⟨hawaits, hzero⟩ :
      y.collected.Awaits kind index image len held j ∧ 0 ∈ j :: held := by
    rcases hstate with ⟨rfl, hnone⟩ | ⟨hzero, table, htable, hpieced⟩
    · obtain rfl : j = 0 := by
        by_contra hne
        obtain ⟨-, -, e, herror⟩ := htaken.of_none (isBegin_part_of_ne hne) (hsame.trans hnone)
        cases herror
      exact ⟨.inl ⟨rfl, rfl⟩, List.mem_cons_self⟩
    · refine ⟨.inr ⟨?_, table, hsame.trans htable, hpieced⟩, List.mem_cons_of_mem _ hzero⟩
      rintro rfl
      exact List.disjoint_of_nodup_append hnodup hzero List.mem_cons_self
  have hadvance := htaken.advance hawaits hlen (number_lt hj himage hlen)
  rw [hfinal]
  generalize y.take (part kind index image j) = z at hx' hc' hadvance hquiet' hacks' ⊢
  generalize hl : z.filter.live = l at hadvance
  generalize hcollected : z.collected = c at hadvance
  cases hadvance with
  | kept hfits hmore hholds =>
    have hend' : partCount image - 1 ∉ j :: held := by
      rw [List.mem_cons, not_or]
      exact ⟨by omega, hend⟩
    have hjs' : js ≠ [] := by
      rintro rfl
      rw [List.append_nil] at hperm'
      exact hend' (hperm'.mem_iff.mpr (List.mem_range.mpr (by omega)))
    exact ih hx' hc' hperm' hjs' hend' (.inr ⟨hzero, hcollected ▸ hholds⟩) hlegs hquiet' hacks'
  | committed hfits hlast hnone htable hcommit =>
    -- after the part that ends, no other one would be accepted
    obtain rfl : js = [] := by
      by_contra hjs'
      obtain ⟨j', js, rfl⟩ := List.exists_cons_of_ne_nil hjs'
      obtain ⟨leg', legs, rfl, he', -⟩ := List.map_eq_cons_iff.mp hlegs
      obtain ⟨y', hsame', -, -, htaken', -⟩ := accepted_of_ack hs hx' hc' hquiet' he' hacks'
      have hne : j' ≠ 0 := by
        rintro rfl
        exact List.disjoint_of_nodup_append (hperm'.nodup_iff.mpr List.nodup_range) hzero
          List.mem_cons_self
      obtain ⟨-, -, e, herror⟩ :=
        htaken'.of_none (isBegin_part_of_ne hne) (hsame'.trans (hcollected ▸ hnone))
      cases herror
    obtain rfl : legs = [] := List.map_eq_nil_iff.mp hlegs
    have hall : ∀ i < partCount image, i ∈ j :: held := by
      intro i hi
      rw [List.append_nil] at hperm'
      exact hperm'.mem_iff.mpr (List.mem_range.mpr hi)
    rw [htable.eq_padTo himage hall] at hcommit
    exact ⟨hx', hc', _, hl.symm ▸ hcommit⟩

/-! ### Any load -/

/-- A table is live, and if it is a host table, the class of each host of its network is
answered from it. -/
structure Serves (x : Appliance σ) (o : Operator) (s : Suite) (kind : TableKind)
    (index : UInt32) (table : Bytes) : Prop where
  /-- The table is live. -/
  live : x.filter.live.Holds kind index table
  /-- The classes of hosts are answered from it. -/
  query : kind = .network → ∀ (ip : Address) (split : HostSplit), ip.split? = some split →
    split.network = index → ∀ (nonce : UInt16) (e : Exchange),
      e.datagram = o.query s nonce .host ip →
        o.read? s (x.answer s e).2 = some ⟨.queryAck, [table.getD split.host 0]⟩

/-- The class of a host is answered as it is looked up. -/
theorem read?_queryHost (hs : s.Invertible) (hx : Heard o x.agent) {ip : Address}
    {nonce : UInt16} {e : Exchange} (he : e.datagram = o.query s nonce .host ip) :
    o.read? s (x.answer s e).2 = some ⟨.queryAck, [(x.filter.lookup ip).2]⟩ := by
  have hquery : MessageType.query ≠ .sync := by decide
  obtain ⟨payload, hpayload, hparse⟩ : ∃ payload, e.datagram = o.request s nonce .query payload ∧
      Query.parse payload = .ok ⟨QueryKind.host.toByte, ip⟩ :=
    ⟨_, he, (List.append_nil (Query.encode _)) ▸ Query.parse_encode _ []⟩
  have hrespond := hx.connected.respond_request hs hquery x.filter e.challenge nonce payload
  rw [← hpayload, hx.up, if_neg Bool.false_ne_true] at hrespond
  simp only [Agent.obey, onQuery_host hparse] at hrespond
  have hack : (Response.reply .queryAck [(x.filter.lookup ip).2]).Answers .query := .ack rfl _
  have hopen := hx.connected.openReply_sealFor hs hack hquery e.nonce
  unfold answer Agent.handle Operator.read?
  simp only [hrespond, Option.map_some, Option.bind_some, hopen]
  rfl

theorem serves (hs : s.Invertible) (hx : Heard o x.agent) (hc : x.Consistent)
    {table : Bytes} (htable : table.length = len) (hlen : kind.tableLen? index = some len)
    (hlive : x.filter.live.Holds kind index table) : x.Serves o s kind index table where
  live := hlive
  query := by
    rintro rfl ip split hsplit hindex nonce e he
    rw [read?_queryHost hs hx he, lookup_of_holds hc htable hlen hlive hsplit hindex]

/-- A filter is started from any store and any happenings follow, after which an operator is
heard by the agent, in the clear or under the key that it agreed on.  The operator loads a
table.

If the image is not longer than the table and there is room, the datagrams of the load in
order are all acknowledged, each by its kind, index and offset, and make the image live,
followed by zeros up to the length of the table; no other table changes.

If the image is not longer than the table, no table of that kind is being collected, and the
datagrams are delivered once each in any order, with no other part of that kind in between,
then whenever all of them are acknowledged the same table is live.

If the image is longer than the table, the datagrams in order change no live table, and at
least one of them is refused. -/
theorem load_arrives_whole (hs : s.Invertible) (store : σ) (password : Option Bytes)
    (capacity : Nat) (history : List Happening)
    (hx : Heard o ((start store password capacity).after s history).agent)
    (hlen : kind.tableLen? index = some len) (image : Bytes) (nonces : Nat → UInt16) :
    let x := (start store password capacity).after s history
    (image.length ≤ len → x.agent.uploads.HasRoom x.filter kind index len →
      ∀ es : List Exchange, es.map (·.datagram) = o.load s nonces kind index image →
        let r := x.deliver s (es.map (Leg.mk []))
        r.2.map (o.read? s) = (parts kind index image).map (fun p => some ⟨.loadAck, p.ack⟩) ∧
          x.filter.live.commit kind index (image.padTo len) = .ok r.1.filter.live ∧
          r.1.Serves o s kind index (image.padTo len)) ∧
    (image.length ≤ len → x.agent.uploads.inProgress kind = false →
      ∀ legs : List Leg,
        (legs.map (·.delivery.datagram)).Perm (o.load s nonces kind index image) →
        x.Undisturbed o s kind legs →
        let r := x.deliver s legs
        (∀ reply ∈ r.2, ∃ payload, o.read? s reply = some ⟨.loadAck, payload⟩) →
          r.1.Serves o s kind index (image.padTo len)) ∧
    (len < image.length →
      ∀ es : List Exchange, es.map (·.datagram) = o.load s nonces kind index image →
        let r := x.deliver s (es.map (Leg.mk []))
        r.1.filter.live = x.filter.live ∧ ∃ reply ∈ r.2, ∃ code : ErrorCode,
          o.read? s reply = some ⟨.error, [code.toByte]⟩) := by
  intro x
  have hc : x.Consistent := consistent_after (consistent_start store password capacity) s history
  have hpos := partCount_pos image
  have hload : o.load s nonces kind index image = (List.range' 0 (partCount image)).map
      (requestOf o s nonces kind index image) := by
    rw [load_eq, List.range_eq_range']
    rfl
  have htable : (image.padTo len).length = len := Bytes.length_padTo len image
  refine ⟨?_, ?_, ?_⟩
  · intro himage hroom es hes r
    obtain ⟨hreads, hx', hc', hcommit⟩ := deliver_inOrder hs hlen himage
      (Nat.zero_add _) hpos hx hc (by simp) (.inl ⟨rfl, rfl⟩) (fun hkind _ => (hroom hkind).1)
      (fun hkind => (hroom hkind).2) (hes.trans hload)
    refine ⟨?_, hcommit, serves hs hx' hc' htable hlen (LiveTables.holds_of_commit hcommit hlen)⟩
    rw [hreads, parts_eq, List.range_eq_range', List.map_map]
    rfl
  · intro himage hnone legs hperm hquiet r hacks
    obtain ⟨js, hjs, hlegs⟩ := exists_perm_of_map (hload ▸ hperm)
    rw [← List.range_eq_range'] at hjs
    have hne : js ≠ [] := by
      rintro rfl
      have := hjs.length_eq
      simp at this
      omega
    have hcollected : x.collected kind = none := by
      rw [← Option.isNone_iff_eq_none, ← Option.not_isSome, ← hc.inProgress_eq, hnone]
      rfl
    obtain ⟨hx', hc', l, hcommit⟩ := deliver_shuffled hs hlen himage hx hc
      (show ([] ++ js).Perm _ from hjs) hne (by simp) (.inl ⟨rfl, hcollected⟩) hlegs hquiet hacks
    exact serves hs hx' hc' htable hlen (LiveTables.holds_of_commit hcommit hlen)
  · intro hlong es hes
    exact deliver_overlong hs hlen hlong (Nat.zero_add _) hpos hx hc (.inl ⟨rfl, rfl⟩)
      (by omega) (hes.trans hload)

/-- The hosts of a class B network, an allow list whose parts come out of order, each after a
query, and a class that is too long. -/
theorem load_arrives_whole_thrice :
    let s : Suite := .standard
    let o : Operator := .start none
    let x := (start ({} : MapStore) none 4194304).after s []
    let nonces : Nat → UInt16 := fun i => .ofNat i
    let sent := Exchange.mk 0 []
    let hosts : Bytes := List.replicate 3000 5
    let rules : Bytes :=
      (List.replicate 23 (AllowRule.encode ⟨⟨0xC0000200, 0xFFFFFF00⟩, .allowAll⟩)).flatten
    let legs := [0, 2, 1, 3].map fun i =>
      Leg.mk [.datagram (sent (o.query s 9 .networks 0))]
        (sent (requestOf o s nonces .allow 0 rules i))
    let long : Bytes := List.replicate 600 1
    (x.deliver s (((o.load s nonces .network 0xAC100000 hosts).map sent).map (Leg.mk []))).1.Serves
        o s .network 0xAC100000 (hosts.padTo 65536) ∧
      (x.deliver s legs).1.Serves o s .allow 0 (rules.padTo allowImageLen) ∧
      (x.deliver s
          (((o.load s nonces .classRules 3 long).map sent).map (Leg.mk []))).1.filter.live =
        x.filter.live := by
  intro s o x nonces sent hosts rules legs long
  have hs : s.Invertible := Suite.standard_invertible
  have hx : Heard o x.agent := ⟨⟨rfl, rfl, rfl⟩, rfl⟩
  have hsent : ∀ ds : List Bytes, (ds.map sent).map (·.datagram) = ds := by
    intro ds
    rw [List.map_map]
    exact List.map_id ds
  refine ⟨?_, ?_, ?_⟩
  · have hlen : TableKind.network.tableLen? 0xAC100000 = some 65536 := by decide +kernel
    have hfit : hosts.length ≤ 65536 := by decide +kernel
    have hroom : x.agent.uploads.HasRoom x.filter .network 0xAC100000 65536 :=
      fun _ => ⟨by decide +kernel, by decide +kernel⟩
    obtain ⟨hwhole, -, -⟩ :=
      load_arrives_whole hs ({} : MapStore) none 4194304 [] hx hlen hosts nonces
    obtain ⟨-, -, hserves⟩ := hwhole hfit hroom _ (hsent _)
    exact hserves
  · have hlen : TableKind.allow.tableLen? 0 = some allowImageLen := rfl
    have hfit : rules.length ≤ allowImageLen := by decide +kernel
    have hcount : partCount rules = 4 := by decide +kernel
    have hperm : (legs.map (·.delivery.datagram)).Perm (o.load s nonces .allow 0 rules) := by
      rw [load_eq, hcount, List.map_map]
      exact List.Perm.map _ (by decide)
    have hquery : ∀ a : Agent MapStore, a.partIn? s (o.query s 9 .networks 0) = none := by
      intro a
      exact a.partIn?_request hs o (by decide) 9 _
    have hleg : ∀ (y : Appliance MapStore) (leg : Leg) (legs : List Leg),
        leg.before = [.datagram (sent (o.query s 9 .networks 0))] →
        (∀ z : Appliance MapStore, z.Undisturbed o s .allow legs) →
        y.Undisturbed o s .allow (leg :: legs) := by
      intro y leg legs hleg hlegs
      refine ⟨?_, Operator.withholds_of_none rfl _, hlegs _⟩
      rw [hleg]
      refine ⟨fun p hp => ?_, trivial⟩
      cases (hquery y.agent).symm.trans hp
    have hquiet : x.Undisturbed o s .allow legs := by
      refine hleg _ _ _ rfl fun y => hleg _ _ _ rfl fun y => hleg _ _ _ rfl fun y => ?_
      exact hleg _ _ _ rfl fun y => trivial
    have hall : ((x.deliver s legs).2.all fun reply =>
        (o.read? s reply).any (·.type = .loadAck)) = true := by decide +kernel
    have hacks : ∀ reply ∈ (x.deliver s legs).2, ∃ payload,
        o.read? s reply = some ⟨.loadAck, payload⟩ := by
      intro reply hreply
      have hread := List.all_eq_true.mp hall reply hreply
      cases hr : o.read? s reply with
      | none =>
        rw [hr] at hread
        cases hread
      | some r =>
        obtain ⟨type, payload⟩ := r
        rw [hr] at hread
        obtain rfl : type = .loadAck := of_decide_eq_true hread
        exact ⟨payload, rfl⟩
    obtain ⟨-, hshuffled, -⟩ :=
      load_arrives_whole hs ({} : MapStore) none 4194304 [] hx hlen rules nonces
    exact hshuffled hfit rfl legs hperm hquiet hacks
  · have hlen : TableKind.classRules.tableLen? 3 = some ClassRules.imageLen := rfl
    have hlong : ClassRules.imageLen < long.length := by decide +kernel
    obtain ⟨-, -, hrefused⟩ :=
      load_arrives_whole hs ({} : MapStore) none 4194304 [] hx hlen long nonces
    obtain ⟨hlive, -⟩ := hrefused hlong _ (hsent _)
    exact hlive

end Appliance

end FilterBridge
