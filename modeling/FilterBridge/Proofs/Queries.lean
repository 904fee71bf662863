import FilterBridge.Proofs.BuiltPolicy
import FilterBridge.Proofs.ColdCache
import FilterBridge.Proofs.Refusals

/-!
# What queries read

A query reads a table of the live policy, and what comes back is that table: the networks that
are loaded, each once, a reject list, an allow list or rules of a class that answer as those of
the filter do, and the class of a host as its host table says.  A query for anything else is
refused.

No query leaves a trace.  The class of a host may come through the cache, or be entered there,
but the cache does not show in anything that comes later.

## Main definitions

* `Query.Valid` — there is something to read for a query.
* `Query.Tells` — what is read is what the filter has.
* `Appliance.Legible` — what makes tables readable, after any moves.

## Main results

* `Agent.queryBody_spec`, `Agent.onQuery_spec` — what a query reads, and when it is refused.
* `Appliance.legible_move`, `Appliance.legible_moves` — any moves keep tables readable.
* `Appliance.query_moves` — queries after any moves, and what comes after them.
-/

namespace FilterBridge

open Agent

/-! ### What is read -/

/-- There is something to read: the kind is known, and of a class, the number. -/
def Query.Valid (q : Query) : Prop :=
  ∃ kind, QueryKind.ofByte? q.kind = some kind ∧ (kind = .classRules → q.arg.toNat < 256)

/-- What is read is what the filter has. -/
def Query.Tells (q : Query) (f : Firewall) (body : Bytes) : Prop :=
  match QueryKind.ofByte? q.kind with
  | some .networks => ∃ networks, parseNetworks? body = some networks ∧
      networks.length < 65536 ∧ networks.Nodup ∧
      ∀ n, n ∈ networks ↔ f.classifier.contains n = true
  | some .host => body = [hostClass f.classifier.hostMap q.arg]
  | some .reject => ∃ rules, rejectRulesOfImage body = .ok rules ∧
      Policy.Agrees .reject { f.policy with reject := rules } f.policy
  | some .allow => ∃ rules, allowRulesOfImage body = .ok rules ∧
      Policy.Agrees .allow { f.policy with allow := rules } f.policy
  | some .classRules => ∃ rules, ClassRules.ofImage body = .ok rules ∧
      rules.Agrees (f.policy.rules (.ofNat q.arg.toNat))
  | none => False

/-- A network is in the list of entries when it is in the table. -/
theorem NetworkTable.WellFormed.mem_networks_iff {t : NetworkTable} (h : t.WellFormed)
    {n : Address} : n ∈ t.toList.map (·.network) ↔ t.contains n = true := by
  rw [contains, Option.isSome_iff_exists, List.mem_map]
  exact exists_congr fun e => (get?_eq_some_iff h).symm

/-- A class comes out of its image as that holds it. -/
theorem ClassRules.ofImage_encode (c : ClassRules) : ofImage c.encode = .ok c.held := by
  have hread := c.decode_encode []
  rw [List.append_nil] at hread
  simp only [ofImage, checkImage_of_length c.length_encode, hread, bind, Except.bind, pure,
    Except.pure]

namespace Agent

variable {f : Firewall} {own : List Slot}

/-- A query that is valid tells what the filter has, and any other is refused. -/
theorem queryBody_spec (h : f.classifier.Consistent own)
    (hcap : f.classifier.networks.capacity = 1024) (hbuilt : f.policy.Built) (q : Query) :
    match (queryBody f q).2 with
    | some body => q.Valid ∧ q.Tells f body
    | none => ¬q.Valid := by
  unfold queryBody Query.Tells Query.Valid
  cases hkind : QueryKind.ofByte? q.kind with
  | none => simp
  | some kind =>
    cases kind with
    | networks =>
      have hnetworks := h.sound.networks
      have hlen : (f.classifier.networks.toList.map (·.network)).length < 65536 := by
        -- one slot of 1024 is empty
        have hlt := hnetworks.count_lt
        rw [List.length_map, hnetworks.length_eq]
        omega
      exact ⟨⟨_, rfl, nofun⟩, _, parseNetworks?_encode hlen, hlen, hnetworks.nodup_networks,
        fun n => hnetworks.mem_networks_iff⟩
    | host => exact ⟨⟨_, rfl, nofun⟩, congrArg (fun k => [k]) (h.lookup_eq q.arg)⟩
    | reject =>
      exact ⟨⟨_, rfl, nofun⟩, _, rejectRules_encode _, Policy.agrees_held hbuilt .reject⟩
    | allow =>
      exact ⟨⟨_, rfl, nofun⟩, _, allowRules_encode _, Policy.agrees_held hbuilt .allow⟩
    | classRules =>
      by_cases hlt : q.arg.toNat < 256
      · simp only [if_pos hlt]
        exact ⟨⟨_, rfl, fun _ => hlt⟩, _, ClassRules.ofImage_encode _,
          ClassRules.agrees_held (hbuilt.classes _)⟩
      · simp only [if_neg hlt]
        rintro ⟨kind, hsome, hclass⟩
        obtain rfl := Option.some.inj hsome
        exact hlt (hclass rfl)

/-- A query is answered if it is valid, and refused if it is not, or cannot be read. -/
theorem onQuery_spec (h : f.classifier.Consistent own)
    (hcap : f.classifier.networks.capacity = 1024) (hbuilt : f.policy.Built)
    (payload : Bytes) :
    match Query.parse payload with
    | .error _ => (onQuery f payload).2 = .refuse .command
    | .ok q =>
      (q.Valid → ∃ body, (onQuery f payload).2 = .reply .queryAck body ∧ q.Tells f body) ∧
        (¬q.Valid → (onQuery f payload).2 = .refuse .command) := by
  unfold onQuery
  cases Query.parse payload with
  | error e => rfl
  | ok q =>
    have hbody := queryBody_spec h hcap hbuilt q
    simp only
    rcases hr : queryBody f q with ⟨f', _ | body⟩
    · rw [hr] at hbody
      exact ⟨fun hvalid => absurd hvalid hbody, fun _ => rfl⟩
    · rw [hr] at hbody
      exact ⟨fun _ => ⟨body, rfl, hbody.2⟩, fun hinvalid => absurd hbody.1 hinvalid⟩

end Agent

/-! ### Moves -/

namespace Appliance

variable {σ : Type} {x : Appliance σ} {s : Suite} {e : Exchange} {payload : Bytes}

/-- The tables can be read: they are in order, there are not too many networks to count, and
no image cuts off what is looked at. -/
structure Legible (x : Appliance σ) : Prop where
  /-- The tables are in order. -/
  consistent : x.Consistent
  /-- There is room for 1023 networks. -/
  capacity : x.filter.classifier.networks.capacity = 1024
  /-- The policy was built. -/
  built : x.filter.policy.Built

theorem legible_fresh (store : σ) (password : Option Bytes) (capacity : Nat) :
    (fresh store password capacity).Legible where
  consistent := Classifier.consistent_withCapacity capacity
  capacity := (Classifier.sturdy_withCapacity capacity).capacity
  built := Policy.wellFormed_default.built

variable [TableStore σ]

/-- Whatever is done, tables can be read after it. -/
theorem legible_move (h : x.Legible) (s : Suite) {m : Move σ} (hm : m.Orderly ∧ m.Built) :
    (x.move s m).Legible where
  consistent := consistent_move h.consistent s hm.1
  capacity := by
    have hsound := h.consistent.sound
    exact (move_plain ⟨hsound.arena, hsound.networks, h.capacity⟩ s m).2.capacity
  built := built_move h.consistent h.built s hm.2

theorem legible_moves (h : x.Legible) (s : Suite) {ms : List (Move σ)}
    (hms : ∀ m ∈ ms, m.Orderly ∧ m.Built) : (x.moves s ms).Legible := by
  induction ms generalizing x with
  | nil => exact h
  | cons m ms ih =>
    obtain ⟨hm, hms⟩ := List.forall_mem_cons.mp hms
    exact ih (legible_move h s hm) hms

/-! ### Queries -/

/-- The answer to a query that reaches the agent. -/
theorem answer_of_query (h : x.agent.Receives s .query e.datagram payload) :
    x.answer s e = (⟨x.agent, (onQuery x.filter payload).1⟩,
      some ((onQuery x.filter payload).2.sealFor s x.agent.session e.nonce)) := by
  simp only [answer, handle, h.respond_eq, obey, Option.map_some]

/-- Whatever was done to a new filter and its agent, with a password or none, as long as no host
table was handled by hand and the policy was built, a query that reaches the agent is answered.
If there is something to read for it, the answer tells what the filter has:

* the networks that are loaded, each once, and no more than can be counted;
* the class of a host that the installed host tables give;
* a reject list, an allow list or rules of a class that answer as those of the filter do for
  every address and port.

If there is not, it is refused.  An operator that is connected reads just this.

The query changes nothing but the cache: not the agent with its store and what it is being
loaded with, no table or flag of the policy, no network or host table, and no counter of
packets.  And whatever is done afterwards, all this is as it would be without the query, any
host has the class that it would have, and any frame is handled as it would be. -/
theorem query_moves (store : σ) (password : Option Bytes) (capacity : Nat) (s : Suite)
    (ms : List (Move σ)) (hms : ∀ m ∈ ms, m.Orderly ∧ m.Built) (e : Exchange) (payload : Bytes) :
    let x := (fresh store password capacity).moves s ms
    x.agent.Receives s .query e.datagram payload →
    let y := (x.answer s e).1
    (∃ (response : Response) (reply : Bytes), (x.answer s e).2 = some reply ∧
      reply = response.sealFor s x.agent.session e.nonce ∧
      (∀ o, s.Invertible → Connected o x.agent →
        o.openReply s reply = .ok ⟨response.type, response.payload⟩) ∧
      match Query.parse payload with
      | .error _ => response = .refuse .command
      | .ok q =>
        (q.Valid → ∃ body, response = .reply .queryAck body ∧ q.Tells x.filter body) ∧
          (¬q.Valid → response = .refuse .command)) ∧
    y.cold = x.cold ∧
    ∀ later : List (Move σ), (∀ m ∈ later, m.Orderly) →
      let x' := x.moves s later
      let y' := y.moves s later
      y'.cold = x'.cold ∧
        (∀ ip, (y'.filter.lookup ip).2 = (x'.filter.lookup ip).2) ∧
        ∀ options sends frame, (Bridge.dispatch options sends y'.filter frame).2 =
          (Bridge.dispatch options sends x'.filter frame).2 := by
  intro x hquery y
  have hx : x.Legible := legible_moves (legible_fresh store password capacity) s hms
  have hy : y.Consistent := consistent_deed hx.consistent s (.happens (.datagram e))
  have hanswer := answer_of_query hquery
  have hcold : y.cold = x.cold := by
    show (x.answer s e).1.cold = x.cold
    rw [hanswer]
    exact cold_eq_iff.mpr ⟨rfl, cold_onQuery x.filter payload⟩
  have hans : (onQuery x.filter payload).2.Answers .query := by
    have hobey : (x.agent.obey x.filter s e.challenge e.datagram .query payload).2.2 =
        some (onQuery x.filter payload).2 := rfl
    exact obey_answers hobey
  refine ⟨⟨(onQuery x.filter payload).2, _, congrArg Prod.snd hanswer, rfl,
    fun o hs ho => ho.openReply_sealFor hs hans (by decide) e.nonce,
    onQuery_spec hx.consistent hx.capacity hx.built payload⟩, hcold, ?_⟩
  intro later hlater x' y'
  have hx' : x'.Consistent := consistent_moves hx.consistent s hlater
  have hy' : y'.Consistent := consistent_moves hy s hlater
  have hsame : y'.cold = x'.cold := moves_of_cold hx.consistent hy hcold s hlater
  exact ⟨hsame, lookup_of_cold hx' hy' hsame,
    fun options sends frame => (dispatch_of_cold hx' hy' hsame options sends frame).1⟩

/-- A query for the networks tells which one was loaded. -/
theorem query_moves_oneNetwork :
    let network : Address := 0xC0A80100
    let ms : List (Move MapStore) := [.deed (.load network (Bytes.zeros 256))]
    let x := (fresh ({} : MapStore) none 512).moves .standard ms
    let payload := Query.encode ⟨QueryKind.networks.toByte, 0⟩
    let e := request .query payload
    (∀ m ∈ ms, m.Orderly ∧ m.Built) ∧
      x.agent.Receives .standard .query e.datagram payload ∧
      ∃ body networks, (x.answer .standard e).2 =
          some ((Response.reply .queryAck body).sealFor .standard x.agent.session e.nonce) ∧
        parseNetworks? body = some networks ∧ network ∈ networks ∧
        (x.answer .standard e).1.cold = x.cold := by
  intro network ms x payload e
  have hms : ∀ m ∈ ms, m.Orderly ∧ m.Built := List.forall_mem_singleton.mpr ⟨trivial, trivial⟩
  have hreceives : x.agent.Receives .standard .query e.datagram payload :=
    ⟨by decide +kernel, _, _, rfl, rfl, by decide +kernel⟩
  have hvalid : Query.Valid ⟨QueryKind.networks.toByte, 0⟩ := ⟨.networks, by decide, nofun⟩
  obtain ⟨⟨response, reply, hreply, rfl, -, htells, -⟩, hcold, -⟩ :=
    query_moves ({} : MapStore) none 512 .standard ms hms e payload hreceives
  obtain ⟨body, rfl, networks, hparse, -, -, hmem⟩ := htells hvalid
  have hloaded : x.filter.classifier.contains network = true := by decide +kernel
  exact ⟨hms, hreceives, body, networks, hreply, hparse, (hmem network).mpr hloaded, hcold⟩

end Appliance

end FilterBridge
