import FilterBridge.Proofs.AgentRuns

/-!
# Restarts

After a complete start the store and the filter are in step, and they stay so.  So when
a write is acknowledged, the store restores all tables, they fit, and a restart
reproduces them.

## Main definitions

* `Appliance`, `Exchange`, `Appliance.run` — an agent with its filter, and datagrams that
  are answered one after another.

## Main results

* `Agent.keeping_start` — a complete start brings store and filter in step.
* `Agent.Keeping.boot_eq` — when nothing counts as changed, a start reproduces the tables.
* `Appliance.restart_after_write` — a restart after an acknowledged write does.
-/

namespace FilterBridge

open Policy

namespace Agent

variable {σ : Type} [TableStore σ] {good : σ → Prop} {kept : σ → Kept} {capacity : Nat}
  {a : Agent σ} {f f' : Firewall}

/-! ### Starts -/

/-- A complete start establishes the invariant. -/
theorem keeping_start (laws : TableStore.ActsAsMap good kept) {store : σ} (hg : good store)
    (password : Option Bytes) {r : BootReport}
    (hr : Firewall.boot store (.withCapacity capacity) = (f, r)) (hc : r.Complete store) :
    Keeping good kept capacity (.start store password) f := by
  obtain ⟨hwf, hclean, ns, hn, hlookup, hcomplete, -⟩ := Firewall.boot_spec laws hg rfl hr
  obtain ⟨hrestored, hload⟩ := hcomplete hc
  obtain ⟨hconsistent, hlens, hbounds, hloaded⟩ :=
    (Classifier.consistent_withCapacity capacity).loadAll_spec hn hload
  -- what is loaded is what is kept, and nothing else
  have hhosts : ∀ n, f.classifier.loaded? n =
      ((kept store).networks n).map fun table => (table, false) := by
    intro n
    rw [hloaded, Classifier.loaded?_withCapacity, Option.or_none, hlookup]
  refine ⟨hg, hconsistent, hbounds, ?_, hwf, fun t _ => hrestored t, ?_, ?_, ?_⟩
  · intro kind index image hk
    cases kind <;> simp [start, Uploads.collected] at hk
  · intro n table dirty hl
    have hl : f.classifier.loaded? n = some (table, dirty) := hl
    rw [hhosts, ← hlookup] at hl
    obtain ⟨table', hm, heq⟩ := Option.map_eq_some_iff.mp hl
    obtain ⟨rfl, -⟩ := Prod.mk.inj heq
    exact hlens _ ((Kept.lookup_eq_some_iff hn).mp hm)
  · intro n hl
    have hl : f.classifier.loaded? n = none := hl
    rwa [hhosts, Option.map_eq_none_iff] at hl
  · intro n table hl
    have hl : f.classifier.loaded? n = some (table, false) := hl
    rw [hhosts] at hl
    obtain ⟨table', hm, heq⟩ := Option.map_eq_some_iff.mp hl
    obtain ⟨rfl, -⟩ := Prod.mk.inj heq
    exact hm

/-- When nothing counts as changed, a start is complete and brings the same tables. -/
theorem Keeping.boot_eq (laws : TableStore.ActsAsMap good kept)
    (h : Keeping good kept capacity a f) (hc : f.live.Clean) {r : BootReport}
    (hr : Firewall.boot a.store (.withCapacity capacity) = (f', r)) :
    r.Complete a.store ∧ f'.classifier.Consistent [] ∧ f'.live = f.live := by
  obtain ⟨-, hclean, ns, hn, hlookup, hcomplete, hroom⟩ :=
    Firewall.boot_spec laws h.good rfl hr
  have hnew := Classifier.consistent_withCapacity capacity
  have hkept := h.backed.networks_eq hc
  -- all that is kept is loaded, so it fits
  have hmem : ∀ x ∈ ns, f.classifier.hostMap x.1 = some x.2 := by
    intro x hx
    have := (Kept.lookup_eq_some_iff hn).mpr hx
    rw [hlookup, hkept] at this
    exact this
  have hlens : ∀ x ∈ ns, x.1.tableLen? = some x.2.length := by
    intro x hx
    obtain ⟨⟨table, dirty⟩, hl, rfl⟩ := Option.map_eq_some_iff.mp (hmem x hx)
    exact h.backed.lengths x.1 _ dirty hl
  obtain ⟨hslots, hbytes⟩ := Prod.mk.inj h.bounds
  have hcount := h.consistent.sound.length_le_count hn hmem
  have hcount' := h.consistent.sound.networks.count_lt
  have hsum := h.consistent.sound.sum_length_le hn hmem
  have hsum' := h.consistent.sound.arena.inUse_le
  have hsome : ((Classifier.withCapacity capacity).loadAll ns).isSome := by
    refine Option.isSome_iff_exists.mpr (hnew.exists_loadAll hn (by simp) hlens ?_ ?_)
    · rw [← hbytes]
      show 0 + _ ≤ _
      omega
    · rw [← hslots]
      show 0 + _ < _
      omega
  have hall := hroom (fun t => ⟨f.policy, h.backed.restored t (hc.tables t)⟩) hsome
  obtain ⟨hrestored, hload⟩ := hcomplete hall
  obtain ⟨hconsistent, -, -, hloaded⟩ := hnew.loadAll_spec hn hload
  refine ⟨hall, hconsistent, ?_⟩
  -- both are restored from the same images
  have hpolicy : f'.policy = f.policy :=
    eq_of_same (fun t => (hrestored t).same (h.backed.restored t (hc.tables t)))
      fun t => (hclean t).trans (hc.tables t).symm
  have hhosts : f'.classifier.loaded? = f.classifier.loaded? := by
    funext n
    rw [hloaded, Classifier.loaded?_withCapacity, Option.or_none, hlookup, hkept]
    cases hl : f.classifier.loaded? n with
    | none => simp [Firewall.live, hl]
    | some q =>
      obtain ⟨table, dirty⟩ := q
      obtain rfl := hc.hosts n table dirty hl
      simp [Firewall.live, hl]
  rw [Firewall.live, hpolicy, hhosts, Firewall.live]

end Agent

/-! ### Runs -/

/-- An agent with the filter that it manages. -/
structure Appliance (σ : Type) where
  /-- The agent. -/
  agent : Agent σ
  /-- The filter. -/
  filter : Firewall

/-- A datagram that comes in, with the random numbers of the answer. -/
structure Exchange where
  /-- The nonce of the answer. -/
  nonce : UInt16
  /-- The challenge that is drawn, if one is. -/
  challenge : Bytes
  /-- The datagram. -/
  datagram : Bytes

namespace Appliance

variable {σ : Type} [TableStore σ] {good : σ → Prop} {kept : σ → Kept} {capacity : Nat}
  {store : σ}

/-- The filter is started from a store, over an arena of the given capacity. -/
def start (store : σ) (password : Option Bytes) (capacity : Nat) : Appliance σ :=
  ⟨.start store password, (Firewall.boot store (.withCapacity capacity)).1⟩

/-- A datagram is answered. -/
def answer (x : Appliance σ) (s : Suite) (e : Exchange) : Appliance σ × Option Bytes :=
  match x.agent.handle x.filter s e.nonce e.challenge e.datagram with
  | (agent, filter, reply) => (⟨agent, filter⟩, reply)

/-- Datagrams are answered one after another. -/
def run (x : Appliance σ) (s : Suite) (es : List Exchange) : Appliance σ :=
  es.foldl (fun x e => (x.answer s e).1) x

/-- An answer keeps the invariant, and if it acknowledges a write, nothing counts as
changed. -/
theorem keeping_answer (laws : TableStore.ActsAsMap good kept) {x : Appliance σ}
    (h : x.agent.Keeping good kept capacity x.filter) (s : Suite) (e : Exchange) :
    (x.answer s e).1.agent.Keeping good kept capacity (x.answer s e).1.filter ∧
      ((x.answer s e).2.bind List.head? = some MessageType.writeAck.toByte →
        (x.answer s e).1.filter.live.Clean) := by
  unfold answer Agent.handle
  rcases hr : x.agent.respond x.filter s e.challenge e.datagram with ⟨a, f, o⟩
  obtain ⟨hkeep, hclean⟩ := h.respond laws hr
  refine ⟨hkeep, fun hack => ?_⟩
  cases o with
  | none => simp at hack
  | some r =>
    simp only [Option.map_some, Option.bind_some, Response.head?_sealFor] at hack
    exact hclean r rfl (MessageType.toByte_injective (Option.some.inj hack))

theorem keeping_run (laws : TableStore.ActsAsMap good kept) {x : Appliance σ}
    (h : x.agent.Keeping good kept capacity x.filter) (s : Suite) (es : List Exchange) :
    (x.run s es).agent.Keeping good kept capacity (x.run s es).filter := by
  induction es generalizing x with
  | nil => exact h
  | cons e es ih => exact ih (keeping_answer laws h s e).1

/-- A filter is started from a store that is a map, and nothing is left out.  Whatever
datagrams are answered then, if the last answer acknowledges a write, a restart leaves
nothing out, and brings the same classes, lists, networks and host tables, none of which
counts as changed. -/
theorem restart_after_write (laws : TableStore.ActsAsMap good kept) (hg : good store)
    (s : Suite) (password : Option Bytes) (capacity : Nat)
    (hboot : (Firewall.boot store (.withCapacity capacity)).2.Complete store)
    (es : List Exchange) (last : Exchange)
    (hack : (((start store password capacity).run s es).answer s last).2.bind List.head? =
      some MessageType.writeAck.toByte) :
    let x := (((start store password capacity).run s es).answer s last).1
    let restarted := Firewall.boot x.agent.store (.withCapacity capacity)
    restarted.2.Complete x.agent.store ∧
      restarted.1.policy.classes = x.filter.policy.classes ∧
      restarted.1.policy.allow = x.filter.policy.allow ∧
      restarted.1.policy.reject = x.filter.policy.reject ∧
      (∀ t, restarted.1.policy.isDirty t = false) ∧
      (∀ n, restarted.1.classifier.hostTable n = x.filter.classifier.hostTable n) ∧
      restarted.1.classifier.dirtyNetworks = [] := by
  intro x restarted
  have hstart : (start store password capacity).agent.Keeping good kept capacity
      (start store password capacity).filter :=
    Agent.keeping_start laws hg password rfl hboot
  obtain ⟨hkeep, hclean⟩ := keeping_answer laws (keeping_run laws hstart s es) s last
  have hx : x.filter.live.Clean := hclean hack
  have hr : Firewall.boot x.agent.store (.withCapacity capacity) =
      (restarted.1, restarted.2) := rfl
  obtain ⟨hcomplete, hconsistent, hlive⟩ := hkeep.boot_eq laws hx hr
  have hpolicy : restarted.1.policy = x.filter.policy := congrArg LiveTables.policy hlive
  have hhosts : restarted.1.classifier.loaded? = x.filter.classifier.loaded? :=
    congrArg LiveTables.hosts hlive
  refine ⟨hcomplete, by rw [hpolicy], by rw [hpolicy], by rw [hpolicy], fun t => ?_,
    fun n => ?_, ?_⟩
  · rw [hpolicy]
    exact hx.tables t
  · exact hkeep.consistent.sound.hostTable_congr hconsistent.sound (congrFun hhosts n)
  · refine List.eq_nil_iff_forall_not_mem.mpr fun n hn => ?_
    have hd := hconsistent.sound.mem_dirtyNetworks.mp hn
    rw [Classifier.Changed, hhosts] at hd
    obtain ⟨⟨table, dirty⟩, hl, rfl⟩ := Option.map_eq_some_iff.mp hd
    simpa using hx.hosts n table true hl

/-- A request in the clear. -/
def request (type : MessageType) (payload : Bytes) : Exchange where
  nonce := 0
  challenge := []
  datagram := Header.encode ⟨type.toByte, 0, 0, 0⟩ ++ payload

/-- The request to load a table in a single part. -/
def loading (kind : TableKind) (index offset : UInt32) (data : Bytes) : Exchange :=
  request .load
    (Fragment.encode ⟨kind.toByte, Fragment.beginFlag ||| Fragment.endFlag, index, offset, data⟩)

/-- A reject list and a host table come back that were loaded and written, to a store that
cannot write allow lists. -/
theorem restart_after_two_tables :
    let store : MapStore := { faults := [(.writeTable .allow, .writing)] }
    let x := (((start store none 4096).run .standard
      [loading .reject 0 0 (Subnet.encode ⟨0xC0000200, 0xFFFFFF00⟩),
        loading .network 0xC0000200 1 [7]]).answer .standard (request .write [])).1
    let restarted := Firewall.boot x.agent.store (.withCapacity 4096)
    restarted.1.policy.reject = [⟨0xC0000200, 0xFFFFFF00⟩] ∧
      (restarted.1.classifier.hostTable 0xC0000200).toOption =
        some (0 :: 7 :: Bytes.zeros 254) := by
  intro store x restarted
  have hg : store.Intact := ⟨.nil, by rintro _ (_ | ⟨_, ⟨⟩⟩); trivial⟩
  have hboot : (Firewall.boot store (.withCapacity 4096)).2.Complete store :=
    ⟨by decide +kernel, [], rfl, by decide +kernel⟩
  obtain ⟨-, -, -, hreject, -, hhosts, -⟩ :=
    restart_after_write MapStore.actsAsMap hg .standard none 4096 hboot
      [loading .reject 0 0 (Subnet.encode ⟨0xC0000200, 0xFFFFFF00⟩),
        loading .network 0xC0000200 1 [7]] (request .write []) (by decide +kernel)
  have hrules : x.filter.policy.reject = [⟨0xC0000200, 0xFFFFFF00⟩] := by decide +kernel
  have htable : (x.filter.classifier.hostTable 0xC0000200).toOption =
      some (0 :: 7 :: Bytes.zeros 254) := by decide +kernel
  simp only [restarted, x] at hrules htable ⊢
  rw [hreject, hhosts]
  exact ⟨hrules, htable⟩

end Appliance

end FilterBridge
