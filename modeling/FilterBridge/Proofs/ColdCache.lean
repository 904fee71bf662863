import FilterBridge.Proofs.FaultFree
import FilterBridge.Proofs.Interleaving

/-!
# The cache does not show

Requests and frames read the cache of the classifier and change it, but nothing else depends on
what is in it: with a new cache, which is empty, a filter with its agent goes the way that it
goes with its own.  So two of them that differ in their caches at most do so whatever is done to
both, and they find the same class for every host and hand on the same frames.

Only the statistics report on the cache.

## Main definitions

* `Classifier.cold`, `Firewall.cold`, `Appliance.cold` — the same with a new cache.
* `Move.Orderly` — no host table is handled by hand, so the tables stay in order.

## Main results

* `Uploads.apply_cold`, `Agent.respond_cold` — the cache makes no difference to a part of a table
  or to a datagram.
* `Appliance.move_cold`, `Appliance.moves_cold` — nor to anything that is done, in any order.
* `Appliance.lookup_of_cold`, `Appliance.dispatch_of_cold` — nor to hosts and frames.
-/

namespace FilterBridge

open Agent

/-! ### The classifier -/

namespace Classifier

variable {c : Classifier} {own : List Slot}

/-- The classifier with a new cache. -/
def cold (c : Classifier) : Classifier := { c with cache := {} }

/-- A new cache agrees with all tables. -/
theorem Consistent.cold (h : c.Consistent own) : c.cold.Consistent own :=
  ⟨h.sound.of_cache rfl rfl, ClassCache.agrees_new _⟩

/-- A look-up changes the cache alone. -/
theorem cold_lookup (c : Classifier) (ip : Address) : (c.lookup ip).1.cold = c.cold := by
  unfold lookup
  cases ip.split? with
  | none => rfl
  | some s =>
    simp only
    rcases c.cache.probe ip with ⟨cache, _ | k⟩
    · simp only
      cases c.pair? s <;> rfl
    · rfl

theorem alloc_cold (c : Classifier) (n : Address) :
    c.cold.alloc n = (c.alloc n).map fun r => (r.1.cold, r.2) := by
  unfold alloc
  cases n.tableLen? with
  | none => rfl
  | some len =>
    simp only [cold]
    cases c.arena.alloc len <;> rfl

theorem write_cold (c : Classifier) (slot : Slot) (offset : Nat) (data : Bytes) :
    c.cold.write slot offset data = (c.write slot offset data).map cold := by
  simp only [write, cold, bind, Except.bind]
  cases c.arena.write slot offset data <;> rfl

theorem install_cold (c : Classifier) (n : Address) (slot : Slot) :
    c.cold.install n slot = ((c.install n slot).1.cold, (c.install n slot).2) := by
  unfold install
  simp only [cold]
  rcases c.networks.insert n slot with e | ⟨networks, _ | old⟩ <;> rfl

theorem load_cold (c : Classifier) (n : Address) (image : Bytes) :
    c.cold.load n image = ((c.load n image).1.cold, (c.load n image).2) := by
  unfold load
  cases n.tableLen? with
  | none => rfl
  | some expected =>
    simp only
    split
    · rfl
    rw [alloc_cold]
    rcases c.alloc n with e | ⟨c₁, slot⟩
    · rfl
    simp only [Except.map]
    rw [write_cold]
    rcases c₁.write slot 0 image with e | c₂
    · rfl
    simp only [Except.map]
    rw [install_cold]
    rcases c₂.install n slot with ⟨c₃, e | ⟨⟩⟩ <;> rfl

theorem release_cold (c : Classifier) (n : Address) :
    c.cold.release n = ((c.release n).1.cold, (c.release n).2) := by
  unfold release
  simp only [cold]
  rcases c.networks.erase? n with _ | ⟨networks, entry⟩ <;> rfl

/-- A use of the classifier does the same with a new cache. -/
theorem used_cold (c : Classifier) (u : Use) : (c.cold.used u).cold = (c.used u).cold := by
  cases u with
  | load n image => exact congrArg (·.1.cold) (c.load_cold n image)
  | alloc n =>
    simp only [used, alloc_cold]
    cases c.alloc n <;> rfl
  | write slot offset data =>
    simp only [used, write_cold]
    cases c.write slot offset data <;> rfl
  | install n slot => exact congrArg (·.1.cold) (c.install_cold n slot)
  | release n => exact congrArg (·.1.cold) (c.release_cold n)
  | lookup ip => exact (c.cold.cold_lookup ip).trans (c.cold_lookup ip).symm
  | _ => rfl

end Classifier

/-! ### The filter -/

/-- The filter with a new cache. -/
def Firewall.cold (f : Firewall) : Firewall := { f with classifier := f.classifier.cold }

namespace Firewall

variable {f g : Firewall} {own : List Slot}

/-- Filters that agree in all but the cache. -/
theorem cold_eq_iff : g.cold = f.cold ↔
    g.classifier.networks = f.classifier.networks ∧
      g.classifier.arena = f.classifier.arena ∧ g.policy = f.policy ∧
      g.counters = f.counters := by
  simp only [cold, Classifier.cold, Firewall.mk.injEq, Classifier.mk.injEq, and_true, and_assoc]

/-- Such filters judge by the same tables. -/
theorem grounds_of_cold (h : g.cold = f.cold) : g.grounds = f.grounds := by
  have hgrounds : ∀ f : Firewall, f.cold.grounds = f.grounds := fun _ => rfl
  rw [← hgrounds g, h, hgrounds]

theorem bootTables_cold {σ : Type} [TableStore σ] (store : σ) (ts : List Table)
    (r : Firewall × BootReport) :
    ts.foldl (bootTable store) (r.1.cold, r.2) =
      ((ts.foldl (bootTable store) r).1.cold, (ts.foldl (bootTable store) r).2) := by
  induction ts generalizing r with
  | nil => rfl
  | cons t ts ih =>
    have hstep : bootTable store (r.1.cold, r.2) t =
        ((bootTable store r t).1.cold, (bootTable store r t).2) := by
      unfold bootTable
      rcases TableStore.readTable store t with e | _ | image
      · rfl
      · rfl
      · simp only [cold]
        cases r.1.policy.install image t <;> rfl
    rw [List.foldl_cons, hstep, ih, List.foldl_cons]

theorem bootNetworks_cold (ns : List (Address × Bytes)) (r : Firewall × BootReport) :
    ns.foldl bootNetwork (r.1.cold, r.2) =
      ((ns.foldl bootNetwork r).1.cold, (ns.foldl bootNetwork r).2) := by
  induction ns generalizing r with
  | nil => rfl
  | cons n ns ih =>
    have hstep : bootNetwork (r.1.cold, r.2) n =
        ((bootNetwork r n).1.cold, (bootNetwork r n).2) := by
      unfold bootNetwork
      simp only [cold]
      rw [Classifier.load_cold]
      rcases r.1.classifier.load n.1 n.2 with ⟨c, e | ⟨⟩⟩ <;> rfl
    rw [List.foldl_cons, hstep, ih, List.foldl_cons]

/-- What a store keeps is installed whatever is in the cache. -/
theorem boot_cold {σ : Type} [TableStore σ] (store : σ) (f : Firewall) :
    f.cold.boot store = ((f.boot store).1.cold, (f.boot store).2) := by
  unfold boot
  rw [bootTables_cold store Table.all (f, {})]
  cases TableStore.readNetworks store with
  | error e => rfl
  | ok ns => exact bootNetworks_cold ns _

end Firewall

/-! ### Parts of tables -/

namespace Uploads

variable {f : Firewall} {part : Fragment} {kind : TableKind}

theorem abort_cold (u : Uploads) (f : Firewall) (kind : TableKind) :
    u.abort f.cold kind = ((u.abort f kind).1, (u.abort f kind).2.cold) := by
  cases kind with
  | network =>
    simp only [abort, abortNetwork]
    cases u.network <;> rfl
  | _ => rfl

private theorem beginNetwork_cold (u : Uploads) (n : Address) :
    u.beginNetwork f.cold n =
      ((u.beginNetwork f n).1, (u.beginNetwork f n).2.1.cold, (u.beginNetwork f n).2.2) := by
  have habort := u.abort_cold f .network
  simp only [abort] at habort
  unfold beginNetwork
  rw [habort]
  generalize u.abortNetwork f = r
  simp only [Firewall.cold]
  rw [Classifier.alloc_cold]
  cases r.2.classifier.alloc n with
  | error e => cases e <;> rfl
  | ok c => rfl

private theorem continueNetwork_cold (u : Uploads) :
    u.continueNetwork f.cold part =
      ((u.continueNetwork f part).1, (u.continueNetwork f part).2.1.cold,
        (u.continueNetwork f part).2.2) := by
  unfold continueNetwork
  cases u.network.filter (·.network = part.index) with
  | none => rfl
  | some up =>
    simp only [Firewall.cold]
    rw [Classifier.write_cold]
    cases f.classifier.write up.slot part.offset.toNat part.data with
    | error e => rfl
    | ok c =>
      simp only [Except.map]
      split
      · -- the collected table goes live
        unfold endNetwork
        simp only
        rw [Classifier.install_cold]
        rcases c.install up.network up.slot with ⟨c', e | ⟨⟩⟩ <;> rfl
      · rfl

private theorem applyNetwork_cold (u : Uploads) :
    u.applyNetwork f.cold part =
      ((u.applyNetwork f part).1, (u.applyNetwork f part).2.1.cold,
        (u.applyNetwork f part).2.2) := by
  unfold applyNetwork
  split
  · rfl
  split
  · rw [beginNetwork_cold]
    rcases u.beginNetwork f part.index with ⟨u', f', e | ⟨⟩⟩
    · rfl
    · exact continueNetwork_cold u'
  · exact continueNetwork_cold u

private theorem applyKind_network_cold (u : Uploads) :
    u.applyKind f.cold .network part =
      ((u.applyKind f .network part).1, (u.applyKind f .network part).2.1.cold,
        (u.applyKind f .network part).2.2) := by
  unfold applyKind
  split
  · rfl
  · exact applyNetwork_cold u

/-- A part of a table is taken whatever is in the cache. -/
theorem apply_cold (u : Uploads) (f : Firewall) (part : Fragment) :
    u.apply f.cold part =
      ((u.apply f part).1, (u.apply f part).2.1.cold, (u.apply f part).2.2) := by
  cases hk : TableKind.ofByte? part.kind with
  | none => simp only [apply, hk]
  | some kind =>
    by_cases hkind : kind = .network
    · subst hkind
      simp only [apply, hk, applyKind_network_cold]
      rcases u.applyKind f .network part with ⟨u', f', e | ⟨⟩⟩
      · simp only [abort_cold]
      · rfl
    · -- the other kinds have nothing of the classifier
      have hcold : ∀ g : Firewall, g.graft f.cold kind = (g.graft f kind).cold := by
        intro g
        cases kind <;> first | rfl | exact absurd rfl hkind
      have hself := apply_graft hk u u f f
      have hother := apply_graft hk u u f f.cold
      rw [graft_self, Firewall.graft_self] at hself
      rw [graft_self, hcold, Firewall.graft_self, hcold] at hother
      rw [hother]
      exact congrArg (fun r => (r.1, r.2.1.cold, r.2.2)) hself.symm

end Uploads

/-! ### Datagrams -/

namespace Agent

variable {σ : Type} {f : Firewall} {payload : Bytes}

/-- A query changes the cache alone. -/
theorem cold_onQuery (f : Firewall) (payload : Bytes) : (onQuery f payload).1.cold = f.cold := by
  have hbody : ∀ q, (queryBody f q).1.cold = f.cold := by
    intro q
    unfold queryBody
    split
    · rfl
    · exact congrArg (fun c => { f with classifier := c }) (f.classifier.cold_lookup q.arg)
    · rfl
    · rfl
    · split <;> rfl
    · rfl
  unfold onQuery
  cases Query.parse payload with
  | error e => rfl
  | ok q =>
    have hq := hbody q
    rcases hb : queryBody f q with ⟨f', _ | body⟩ <;> simpa only [hb] using hq

theorem onLoad_cold (a : Agent σ) (f : Firewall) (payload : Bytes) :
    a.onLoad f.cold payload =
      ((a.onLoad f payload).1, (a.onLoad f payload).2.1.cold, (a.onLoad f payload).2.2) := by
  unfold onLoad
  cases Fragment.parse payload with
  | error e => rfl
  | ok part =>
    simp only
    rw [Uploads.apply_cold]
    rcases a.uploads.apply f part with ⟨u, f', e | ⟨⟩⟩ <;> rfl

theorem cold_onStatistics (f : Firewall) (payload : Bytes) :
    (onStatistics f.cold payload).1.cold = (onStatistics f payload).1.cold := by
  unfold onStatistics
  simp only
  split <;> rfl

private theorem alike_of_eq {r r' : Agent σ × Firewall × Response}
    (h : r' = (r.1, r.2.1.cold, r.2.2)) : r'.1 = r.1 ∧ r'.2.1.cold = r.2.1.cold := by
  rw [h]
  exact ⟨rfl, rfl⟩

variable [TableStore σ]

theorem writeNetworks_cold (ns : List Address) (store : σ) (c : Classifier) :
    writeNetworks ns store c.cold =
      ((writeNetworks ns store c).1, (writeNetworks ns store c).2.1.cold,
        (writeNetworks ns store c).2.2) := by
  induction ns generalizing store c with
  | nil => rfl
  | cons n ns ih =>
    have hhost : c.cold.hostTable n = c.hostTable n := rfl
    rw [writeNetworks, writeNetworks, hhost]
    cases c.hostTable n with
    | error e => rfl
    | ok image =>
      simp only
      rcases TableStore.writeNetwork store n image with ⟨store', e | ⟨⟩⟩
      · rfl
      · exact ih store' (c.markClean n)

theorem onWrite_cold (a : Agent σ) (f : Firewall) :
    a.onWrite f.cold = ((a.onWrite f).1, (a.onWrite f).2.1.cold, (a.onWrite f).2.2) := by
  have hnetworks : f.cold.classifier.dirtyNetworks = f.classifier.dirtyNetworks := rfl
  unfold onWrite
  rw [hnetworks]
  simp only [Firewall.cold]
  rcases writeTables Table.all a.store f.policy with ⟨store, policy, _ | code⟩
  · simp only
    rw [writeNetworks_cold]
    rcases writeNetworks f.classifier.dirtyNetworks store f.classifier with
      ⟨store', c, _ | code⟩ <;> rfl
  · rfl

theorem onRelease_cold (a : Agent σ) (f : Firewall) (payload : Bytes) :
    a.onRelease f.cold payload =
      ((a.onRelease f payload).1, (a.onRelease f payload).2.1.cold,
        (a.onRelease f payload).2.2) := by
  unfold onRelease
  cases Release.parse payload with
  | error e => rfl
  | ok r =>
    simp only
    cases TableKind.ofByte? r.kind with
    | none => rfl
    | some kind =>
      simp only
      cases tableOf? kind with
      | some t => rfl
      | none =>
        simp only [Firewall.cold]
        rw [Classifier.release_cold]
        rcases f.classifier.release r.index with ⟨c, _ | _⟩ <;> rfl

theorem obey_cold (a : Agent σ) (f : Firewall) (s : Suite) (challenge datagram : Bytes)
    (type : MessageType) (payload : Bytes) :
    let r := a.obey f s challenge datagram type payload
    let r' := a.obey f.cold s challenge datagram type payload
    r'.1 = r.1 ∧ r'.2.1.cold = r.2.1.cold := by
  cases type with
  | query => exact ⟨rfl, (cold_onQuery f.cold payload).trans (cold_onQuery f payload).symm⟩
  | load => exact alike_of_eq (a.onLoad_cold f payload)
  | write => exact alike_of_eq (a.onWrite_cold f)
  | release => exact alike_of_eq (a.onRelease_cold f payload)
  | statistics => exact ⟨rfl, cold_onStatistics f payload⟩
  | _ => exact ⟨rfl, rfl⟩

/-- A datagram does the same to an agent whatever is in the cache, and to the rest of the
filter. -/
theorem respond_cold (a : Agent σ) (f : Firewall) (s : Suite) (challenge datagram : Bytes) :
    let r := a.respond f s challenge datagram
    let r' := a.respond f.cold s challenge datagram
    r'.1 = r.1 ∧ r'.2.1.cold = r.2.1.cold := by
  simp only [respond]
  split
  · exact ⟨rfl, rfl⟩
  cases Header.parse datagram with
  | error e => exact ⟨rfl, rfl⟩
  | ok q =>
    simp only
    cases a.accept s q.1 q.2 datagram with
    | error code => exact ⟨rfl, rfl⟩
    | ok payload =>
      simp only
      cases MessageType.ofByte? q.1.type with
      | none => exact ⟨rfl, rfl⟩
      | some type => exact a.obey_cold f s challenge datagram type payload

end Agent

/-! ### Moves that keep the tables in order -/

/-- No host table is handled by hand. -/
def Classifier.Use.Orderly : Classifier.Use → Prop
  | .alloc _ | .write _ _ _ | .free _ | .install _ _ => False
  | _ => True

/-- If the classifier is used, no host table is handled by hand. -/
def Move.Orderly {σ : Type} : Move σ → Prop
  | .use u => u.Orderly
  | _ => True

theorem Classifier.Consistent.used {c : Classifier} {own : List Slot} (h : c.Consistent own)
    {u : Classifier.Use} (hu : u.Orderly) : (c.used u).Consistent own := by
  cases u with
  | load n image => exact h.load n image
  | release n => exact h.release n
  | markClean n => exact h.markClean n
  | flush => exact h.flush
  | clearCounts => exact h.clearCacheCounts
  | lookup ip => exact h.lookup ip
  | alloc n => exact hu.elim
  | write slot offset data => exact hu.elim
  | free slot => exact hu.elim
  | install n slot => exact hu.elim

namespace Appliance

variable {σ : Type} {x y : Appliance σ}

/-! ### The filter with its agent -/

/-- The filter with its agent, with a new cache. -/
def cold (x : Appliance σ) : Appliance σ := { x with filter := x.filter.cold }

/-- They differ in the cache at most. -/
theorem cold_eq_iff : y.cold = x.cold ↔ y.agent = x.agent ∧ y.filter.cold = x.filter.cold := by
  simp only [cold, Appliance.mk.injEq]

/-- Hosts that are looked up do not show the cache. -/
theorem lookup_of_cold (hx : x.Consistent) (hy : y.Consistent) (h : y.cold = x.cold)
    (ip : Address) : (y.filter.lookup ip).2 = (x.filter.lookup ip).2 := by
  have hmap : y.filter.classifier.hostMap = x.filter.classifier.hostMap :=
    congrArg Grounds.hosts (Firewall.grounds_of_cold (cold_eq_iff.mp h).2)
  show (y.filter.classifier.lookup ip).2 = (x.filter.classifier.lookup ip).2
  rw [hx.lookup_eq, hy.lookup_eq, hmap]

/-- Nor do frames that come in. -/
theorem dispatch_of_cold (hx : x.Consistent) (hy : y.Consistent) (h : y.cold = x.cold)
    (o : Options) (sends : Interface → Bool) (frame : Frame) :
    (Bridge.dispatch o sends y.filter frame).2 = (Bridge.dispatch o sends x.filter frame).2 ∧
      (Bridge.dispatch o sends y.filter frame).1.cold =
        (Bridge.dispatch o sends x.filter frame).1.cold := by
  obtain ⟨-, h⟩ := cold_eq_iff.mp h
  obtain ⟨hn, ha, hp, hc⟩ := Firewall.cold_eq_iff.mp h
  obtain ⟨hout, hkeeps, hcount⟩ := Bridge.dispatch_spec hx o sends frame
  obtain ⟨hout', hkeeps', hcount'⟩ := Bridge.dispatch_spec hy o sends frame
  have hgrounds := Firewall.grounds_of_cold h
  refine ⟨by rw [hout, hout', hgrounds], Firewall.cold_eq_iff.mpr ⟨?_, ?_, ?_, ?_⟩⟩
  · rw [hkeeps.networks, hkeeps'.networks, hn]
  · rw [hkeeps.arena, hkeeps'.arena, ha]
  · rw [hkeeps.policy, hkeeps'.policy, hp]
  · rw [hcount, hcount', hgrounds, hc]

theorem consistent_cold (h : x.Consistent) : x.cold.Consistent := Classifier.Consistent.cold h

variable [TableStore σ]

theorem consistent_deed (hx : x.Consistent) (s : Suite) (d : Deed σ) :
    (x.deed s d).Consistent := by
  cases d with
  | boot store => exact Firewall.consistent_boot store hx
  | load n image => exact Classifier.Consistent.load hx n image
  | happens happening => exact (spares_step hx s happening).consistent

/-- Moves that handle no host table by hand keep the tables in order. -/
theorem consistent_move (hx : x.Consistent) (s : Suite) {m : Move σ} (hm : m.Orderly) :
    (x.move s m).Consistent := by
  cases m with
  | deed d => exact consistent_deed hx s d
  | change c => exact hx
  | use u => exact Classifier.Consistent.used hx hm
  | take part =>
    cases hk : TableKind.ofByte? part.kind with
    | none =>
      rw [move, Uploads.apply_of_unknown hk]
      exact hx
    | some kind => exact (Uploads.apply_taken hx hk rfl).1
  | abort kind => exact (Uploads.abort_spec hx rfl).1
  | session session => exact hx

theorem consistent_moves (hx : x.Consistent) (s : Suite) {ms : List (Move σ)}
    (hms : ∀ m ∈ ms, m.Orderly) : (x.moves s ms).Consistent := by
  induction ms generalizing x with
  | nil => exact hx
  | cons m ms ih =>
    obtain ⟨hm, hms⟩ := List.forall_mem_cons.mp hms
    exact ih (consistent_move hx s hm) hms

theorem deed_cold (hx : x.Consistent) (s : Suite) (d : Deed σ) :
    (x.cold.deed s d).cold = (x.deed s d).cold := by
  cases d with
  | boot store =>
    exact congrArg (fun r => cold { x with filter := r.1 }) (x.filter.boot_cold store)
  | load n image =>
    exact congrArg (fun r => cold { x with filter := { x.filter with classifier := r.1 } })
      (x.filter.classifier.load_cold n image)
  | happens happening =>
    cases happening with
    | datagram e =>
      exact cold_eq_iff.mpr (x.agent.respond_cold x.filter s e.challenge e.datagram)
    | frame options sends frame =>
      have hframe := dispatch_of_cold hx (consistent_cold hx) rfl options sends frame
      exact cold_eq_iff.mpr ⟨rfl, hframe.2⟩
    | count counters => rfl

/-- Whatever is done, it does the same with a new cache. -/
theorem move_cold (hx : x.Consistent) (s : Suite) (m : Move σ) :
    (x.cold.move s m).cold = (x.move s m).cold := by
  cases m with
  | deed d => exact deed_cold hx s d
  | change c => rfl
  | use u =>
    exact congrArg (fun c => { x with filter := { x.filter with classifier := c } })
      (x.filter.classifier.used_cold u)
  | take part =>
    exact congrArg (fun r => cold ⟨{ x.agent with uploads := r.1 }, r.2.1⟩)
      (x.agent.uploads.apply_cold x.filter part)
  | abort kind =>
    exact congrArg (fun r => cold ⟨{ x.agent with uploads := r.1 }, r.2⟩)
      (x.agent.uploads.abort_cold x.filter kind)
  | session session => rfl

theorem moves_cold (hx : x.Consistent) (s : Suite) {ms : List (Move σ)}
    (hms : ∀ m ∈ ms, m.Orderly) : (x.cold.moves s ms).cold = (x.moves s ms).cold := by
  induction ms generalizing x with
  | nil => rfl
  | cons m ms ih =>
    obtain ⟨hm, hms⟩ := List.forall_mem_cons.mp hms
    -- the first move leaves caches that may differ, which the induction takes for cold ones
    calc ((x.cold.move s m).moves s ms).cold
        = ((x.cold.move s m).cold.moves s ms).cold :=
          (ih (consistent_move (consistent_cold hx) s hm) hms).symm
      _ = ((x.move s m).cold.moves s ms).cold := by rw [move_cold hx s m]
      _ = ((x.move s m).moves s ms).cold := ih (consistent_move hx s hm) hms

/-- What differs in the cache at most does so whatever is done to both. -/
theorem moves_of_cold (hx : x.Consistent) (hy : y.Consistent) (h : y.cold = x.cold) (s : Suite)
    {ms : List (Move σ)} (hms : ∀ m ∈ ms, m.Orderly) :
    (y.moves s ms).cold = (x.moves s ms).cold := by
  rw [← moves_cold hy s hms, h, moves_cold hx s hms]

end Appliance

end FilterBridge
