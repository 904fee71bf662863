import FilterBridge.Proofs.ClassifierRuns
import FilterBridge.Proofs.History
import FilterBridge.Proofs.PlainAgent

/-!
# No input stops the filter

A filter and its agent are run as a program on plain arrays, from the start on.  Whatever is done
to them, in whatever order, arena and network table stay in order and every class keeps its row.
So the program never meets a fault, and it does what the filter does: any datagram is answered
and any frame is judged, in every state that can be reached.

What can be done includes what datagrams and frames do, and all that the tables offer to others:
a class or a list is replaced or put back, an image is installed, a host table is taken, written,
given back or made live, a part of a table is taken or given up, and the session changes in any
way.

## Main definitions

* `PlainAppliance` — the filter and its agent in plain arrays.
* `Policy.Change`, `Move` — what is done to a policy, and to a filter with its agent.
* `Appliance.moves`, `PlainAppliance.moves` — one thing is done after another.

## Main results

* `Appliance.move_plain` — one thing meets no fault, and keeps arena and network table in order.
* `Appliance.moves_faultless` — after any number of things, neither does any datagram or frame.
-/

namespace FilterBridge

open Checked Fallible

/-! ### What is done to the tables -/

/-- A change of the policy. -/
inductive Policy.Change
  /-- The rules of a class are replaced. -/
  | replaceClass (k : PolicyClass) (rules : ClassRules)
  /-- The allow list is replaced. -/
  | replaceAllow (rules : List AllowRule)
  /-- The reject list is replaced. -/
  | replaceReject (rules : List Subnet)
  /-- A table is put back to its default. -/
  | reset (t : Table)
  /-- A flag is set. -/
  | setDirty (dirty : Bool) (t : Table)
  /-- A table is installed from an image. -/
  | install (image : Bytes) (t : Table)

/-- The policy after a change.  An image that is no table changes nothing. -/
def Policy.change (p : Policy) : Policy.Change → Policy
  | .replaceClass k rules => p.replaceClass k rules
  | .replaceAllow rules => p.replaceAllow rules
  | .replaceReject rules => p.replaceReject rules
  | .reset t => p.reset t
  | .setDirty dirty t => p.setDirty dirty t
  | .install image t => (p.install image t).toOption.getD p

/-- The policy after a change, in plain arrays. -/
def PlainPolicy.change (p : PlainPolicy) : Policy.Change → Checked PlainPolicy
  | .replaceClass k rules => p.replaceClass k rules
  | .replaceAllow rules => return p.replaceAllow rules
  | .replaceReject rules => return p.replaceReject rules
  | .reset t => return p.reset t
  | .setDirty dirty t => return p.setDirty dirty t
  | .install image t => do
    let installed ← (p.install image t).run
    return installed.toOption.getD p

/-- A change of the policy meets no fault, and every class keeps its row. -/
theorem Policy.change_plain (p : Policy) (c : Change) :
    p.plain.change c = .ok (p.change c).plain := by
  cases c with
  | replaceClass k rules => exact p.replaceClass_plain k rules
  | replaceAllow rules => rfl
  | replaceReject rules => rfl
  | reset t => exact congrArg Except.ok (p.reset_plain t)
  | setDirty dirty t => exact congrArg Except.ok (p.setDirty_plain dirty t)
  | install image t =>
    rw [PlainPolicy.change, p.install_plain, change]
    cases p.install image t <;> rfl

/-- The classifier after a use. -/
def Classifier.used (c : Classifier) : Classifier.Use → Classifier
  | .load n image => (c.load n image).1
  | .alloc n => ((c.alloc n).toOption.map (·.1)).getD c
  | .write slot offset data => (c.write slot offset data).toOption.getD c
  | .free slot => c.free slot
  | .install n slot => (c.install n slot).1
  | .release n => (c.release n).1
  | .markClean n => c.markClean n
  | .flush => c.flush
  | .clearCounts => c.clearCacheCounts
  | .lookup ip => (c.lookup ip).1

/-- The classifier after a use, in plain arrays. -/
def PlainClassifier.used (c : PlainClassifier) : Classifier.Use → Checked PlainClassifier
  | .load n image => return (← c.load n image).1
  | .alloc n => return ((← c.alloc n).toOption.map (·.1)).getD c
  | .write slot offset data => return (← c.write slot offset data).toOption.getD c
  | .free slot => c.free slot
  | .install n slot => return (← c.install n slot).1
  | .release n => return (← c.release n).1
  | .markClean n => c.markClean n
  | .flush => return c.flush
  | .clearCounts => return { c with cache := { c.cache with accesses := 0, misses := 0 } }
  | .lookup ip => return (← c.lookup ip).1

/-- A use of the classifier meets no fault, whichever host table it names. -/
theorem Classifier.Sturdy.used_plain {c : Classifier} (h : c.Sturdy) (u : Use) :
    c.plain.used u = .ok (c.used u).plain ∧ (c.used u).Sturdy := by
  cases u with
  | load n image =>
    obtain ⟨heq, hsturdy⟩ := h.load_plain n image
    exact ⟨bind_of_eq heq _, hsturdy⟩
  | alloc n =>
    obtain ⟨heq, hsturdy⟩ := h.alloc_plain n
    rw [PlainClassifier.used, heq, Classifier.used]
    rcases ha : c.alloc n with e | ⟨c', slot⟩
    · exact ⟨rfl, h⟩
    · exact ⟨rfl, hsturdy c' slot ha⟩
  | write slot offset data =>
    obtain ⟨heq, hsturdy⟩ := h.write_plain slot offset data
    rw [PlainClassifier.used, heq, Classifier.used]
    rcases hw : c.write slot offset data with e | c'
    · exact ⟨rfl, h⟩
    · exact ⟨rfl, hsturdy c' hw⟩
  | free slot => exact h.free_plain slot
  | install n slot =>
    obtain ⟨heq, hsturdy⟩ := h.install_plain n slot
    exact ⟨bind_of_eq heq _, hsturdy⟩
  | release n =>
    obtain ⟨heq, hsturdy⟩ := h.release_plain n
    exact ⟨bind_of_eq heq _, hsturdy⟩
  | markClean n => exact h.markClean_plain n
  | flush => exact ⟨congrArg Except.ok c.flush_plain, h.of_cache rfl rfl⟩
  | clearCounts => exact ⟨rfl, h.of_cache rfl rfl⟩
  | lookup ip =>
    exact ⟨bind_of_eq (h.lookup_plain ip) _, h.lookup ip⟩

/-! ### A start from a store -/

section Boot

variable {σ : Type} [TableStore σ]

namespace PlainFirewall

/-- Install a persisted table, unless it cannot be read or used. -/
def bootTable (store : σ) (f : PlainFirewall) (t : Table) : Checked PlainFirewall :=
  match TableStore.readTable store t with
  | .ok (some image) => do
    match ← (f.policy.install image t).run with
    | .ok policy => return { f with policy }
    | .error _ => return f
  | _ => return f

/-- Install a persisted network, unless it cannot be used. -/
def bootNetwork (f : PlainFirewall) (n : Address × Bytes) : Checked PlainFirewall := do
  let (classifier, _) ← f.classifier.load n.1 n.2
  return { f with classifier }

/-- Install all that is persisted. -/
def boot (store : σ) (f : PlainFirewall) : Checked PlainFirewall := do
  let f ← Table.all.foldlM (bootTable store) f
  match TableStore.readNetworks store with
  | .ok networks => networks.foldlM bootNetwork f
  | .error _ => return f

end PlainFirewall

namespace Firewall

theorem bootTables_plain (store : σ) (ts : List Table) (r : Firewall × BootReport) :
    ts.foldlM (PlainFirewall.bootTable store) r.1.plain =
      .ok (ts.foldl (bootTable store) r).1.plain := by
  induction ts generalizing r with
  | nil => rfl
  | cons t ts ih =>
    have htable : r.1.plain.bootTable store t = .ok (bootTable store r t).1.plain := by
      unfold PlainFirewall.bootTable bootTable
      rcases TableStore.readTable store t with e | _ | image
      · rfl
      · rfl
      · change ((r.1.policy.plain.install image t).run >>= _) = _
        simp only
        rw [Policy.install_plain]
        cases r.1.policy.install image t <;> rfl
    rw [List.foldlM_cons, htable, ok_bind, List.foldl_cons]
    exact ih _

theorem bootNetworks_plain (ns : List (Address × Bytes)) {r : Firewall × BootReport}
    (h : r.1.classifier.Sturdy) :
    ns.foldlM PlainFirewall.bootNetwork r.1.plain = .ok (ns.foldl bootNetwork r).1.plain ∧
      (ns.foldl bootNetwork r).1.classifier.Sturdy := by
  induction ns generalizing r with
  | nil => exact ⟨rfl, h⟩
  | cons n ns ih =>
    obtain ⟨heq, hsturdy⟩ := h.load_plain n.1 n.2
    have hnetwork : r.1.plain.bootNetwork n = .ok (bootNetwork r n).1.plain ∧
        (bootNetwork r n).1.classifier.Sturdy := by
      unfold bootNetwork
      change (r.1.classifier.plain.load n.1 n.2 >>= _) = _ ∧ _
      rw [heq, ok_bind]
      rcases hl : r.1.classifier.load n.1 n.2 with ⟨c, e | ⟨⟩⟩
      all_goals
        rw [hl] at hsturdy
        exact ⟨rfl, hsturdy⟩
    rw [List.foldlM_cons, hnetwork.1, ok_bind, List.foldl_cons]
    exact ih hnetwork.2

/-- A start meets no fault, whatever the store keeps. -/
theorem boot_plain {f : Firewall} (h : f.classifier.Sturdy) (store : σ) :
    f.plain.boot store = .ok (f.boot store).1.plain ∧ (f.boot store).1.classifier.Sturdy := by
  have htables := bootTables_plain store Table.all (f, {})
  have hsturdy : (Table.all.foldl (bootTable store) (f, {})).1.classifier.Sturdy := by
    rw [(bootTables_frame store Table.all (f, {})).1]
    exact h
  unfold PlainFirewall.boot boot
  rw [htables, ok_bind]
  cases TableStore.readNetworks store with
  | error e => exact ⟨rfl, hsturdy⟩
  | ok ns => exact bootNetworks_plain ns hsturdy

end Firewall

end Boot

/-! ### The filter with its agent -/

/-- An agent with the filter that it manages, in plain arrays. -/
structure PlainAppliance (σ : Type) where
  /-- The agent. -/
  agent : PlainAgent σ
  /-- The filter. -/
  filter : PlainFirewall

/-- What is done to a filter with its agent, from whatever side. -/
inductive Move (σ : Type)
  /-- Something that fills the tables, or a datagram or a frame comes in. -/
  | deed (d : Deed σ)
  /-- The policy is changed. -/
  | change (c : Policy.Change)
  /-- The classifier is used. -/
  | use (u : Classifier.Use)
  /-- A part of a table is taken. -/
  | take (part : Fragment)
  /-- The table of a kind that is being collected is given up. -/
  | abort (kind : TableKind)
  /-- The session becomes another. -/
  | session (session : Session)

variable {σ : Type}

/-- A filter with its agent in plain arrays. -/
def Appliance.plain (x : Appliance σ) : PlainAppliance σ := ⟨x.agent.plain, x.filter.plain⟩

namespace PlainAppliance

/-- A new filter with its agent, over an arena of the given capacity. -/
def fresh (store : σ) (password : Option Bytes) (capacity : Nat) : PlainAppliance σ where
  agent := {
    store, session := .start password, uploads := ⟨none, Array.replicate 3 none⟩
    rebooting := false }
  filter := {
    classifier := {
      networks := ⟨Array.replicate 1024 none, 1023, 0⟩
      arena := { capacity }
      cache := ⟨Array.replicate 4096 (CacheSet.plain {}), 0, 0, 0⟩ }
    policy := ⟨Array.replicate 256 {}, [], [], false, false, false⟩
    counters := {} }

variable [TableStore σ]

/-- A datagram is answered. -/
def answer (x : PlainAppliance σ) (s : Suite) (e : Exchange) :
    Checked (PlainAppliance σ × Option Bytes) := do
  let (agent, filter, reply) ← x.agent.handle x.filter s e.nonce e.challenge e.datagram
  return (⟨agent, filter⟩, reply)

/-- One happening. -/
def step (x : PlainAppliance σ) (s : Suite) : Happening → Checked (PlainAppliance σ)
  | .datagram e => return (← x.answer s e).1
  | .frame options sends frame =>
    return { x with filter := (← x.filter.dispatch options sends frame).1 }
  | .count counters => return { x with filter := { x.filter with counters } }

/-- Something is done to a filter with its agent. -/
def deed (x : PlainAppliance σ) (s : Suite) : Deed σ → Checked (PlainAppliance σ)
  | .boot store => return { x with filter := ← x.filter.boot store }
  | .load n image => do
    let (classifier, _) ← x.filter.classifier.load n image
    return { x with filter := { x.filter with classifier } }
  | .happens h => x.step s h

/-- One move. -/
def move (x : PlainAppliance σ) (s : Suite) : Move σ → Checked (PlainAppliance σ)
  | .deed d => x.deed s d
  | .change c => return { x with filter := { x.filter with policy := ← x.filter.policy.change c } }
  | .use u =>
    return { x with filter := { x.filter with classifier := ← x.filter.classifier.used u } }
  | .take part => do
    let (uploads, filter, _) ← x.agent.uploads.apply x.filter part
    return ⟨{ x.agent with uploads }, filter⟩
  | .abort kind => do
    let (uploads, filter) ← x.agent.uploads.abort x.filter kind
    return ⟨{ x.agent with uploads }, filter⟩
  | .session session => return { x with agent := { x.agent with session } }

/-- One move after another. -/
def moves (x : PlainAppliance σ) (s : Suite) (ms : List (Move σ)) : Checked (PlainAppliance σ) :=
  ms.foldlM (fun x m => x.move s m) x

end PlainAppliance

namespace Appliance

/-- A new filter has its tables in arrays of the right sizes. -/
theorem plain_fresh (store : σ) (password : Option Bytes) (capacity : Nat) :
    (fresh store password capacity).plain = .fresh store password capacity := by
  have hcap : (max 1024 2).nextPowerOfTwo = 1024 := by decide +kernel
  have hslots : NetworkTable.empty.plain = ⟨Array.replicate 1024 none, 1023, 0⟩ := by
    rw [NetworkTable.plain, NetworkTable.capacity, NetworkTable.empty, NetworkTable.withCapacity,
      hcap, Array.size_replicate]
  have hcache : ClassCache.plain {} = ⟨Array.replicate 4096 (CacheSet.plain {}), 0, 0, 0⟩ := by
    simp [ClassCache.plain]
  have hpolicy : Policy.plain {} = ⟨Array.replicate 256 {}, [], [], false, false, false⟩ := by
    simp [Policy.plain]
  rw [PlainAppliance.fresh, ← hslots, ← hcache, ← hpolicy]
  rfl

variable [TableStore σ] {x : Appliance σ}

/-- One move. -/
def move (x : Appliance σ) (s : Suite) : Move σ → Appliance σ
  | .deed d => x.deed s d
  | .change c => { x with filter := { x.filter with policy := x.filter.policy.change c } }
  | .use u => { x with filter := { x.filter with classifier := x.filter.classifier.used u } }
  | .take part =>
    match x.agent.uploads.apply x.filter part with
    | (uploads, filter, _) => ⟨{ x.agent with uploads }, filter⟩
  | .abort kind =>
    match x.agent.uploads.abort x.filter kind with
    | (uploads, filter) => ⟨{ x.agent with uploads }, filter⟩
  | .session session => { x with agent := { x.agent with session } }

/-- One move after another. -/
def moves (x : Appliance σ) (s : Suite) (ms : List (Move σ)) : Appliance σ :=
  ms.foldl (fun x m => x.move s m) x

variable (h : x.filter.classifier.Sturdy)

include h

theorem answer_plain (s : Suite) (e : Exchange) :
    x.plain.answer s e = .ok ((x.answer s e).1.plain, (x.answer s e).2) ∧
      (x.answer s e).1.filter.classifier.Sturdy := by
  obtain ⟨heq, hsturdy⟩ := Agent.handle_plain h x.agent s e.nonce e.challenge e.datagram
  exact ⟨bind_of_eq heq _, hsturdy⟩

theorem step_plain (s : Suite) (happening : Happening) :
    x.plain.step s happening = .ok (x.step s happening).plain ∧
      (x.step s happening).filter.classifier.Sturdy := by
  cases happening with
  | datagram e =>
    obtain ⟨heq, hsturdy⟩ := answer_plain h s e
    exact ⟨bind_of_eq heq _, hsturdy⟩
  | frame options sends frame =>
    obtain ⟨heq, hsturdy⟩ := Firewall.dispatch_plain h options sends frame
    exact ⟨bind_of_eq heq _, hsturdy⟩
  | count counters => exact ⟨rfl, h⟩

theorem deed_plain (s : Suite) (d : Deed σ) :
    x.plain.deed s d = .ok (x.deed s d).plain ∧ (x.deed s d).filter.classifier.Sturdy := by
  cases d with
  | boot store =>
    obtain ⟨heq, hsturdy⟩ := Firewall.boot_plain h store
    exact ⟨bind_of_eq heq _, hsturdy⟩
  | load n image =>
    obtain ⟨heq, hsturdy⟩ := h.load_plain n image
    exact ⟨bind_of_eq heq _, hsturdy⟩
  | happens happening => exact step_plain h s happening

/-- A move meets no fault, and keeps arena and network table in order. -/
theorem move_plain (s : Suite) (m : Move σ) :
    x.plain.move s m = .ok (x.move s m).plain ∧ (x.move s m).filter.classifier.Sturdy := by
  cases m with
  | deed d => exact deed_plain h s d
  | change c =>
    exact ⟨bind_of_eq (x.filter.policy.change_plain c) _, h⟩
  | use u =>
    obtain ⟨heq, hsturdy⟩ := h.used_plain u
    exact ⟨bind_of_eq heq _, hsturdy⟩
  | take part =>
    obtain ⟨heq, hsturdy⟩ := Uploads.apply_plain h x.agent.uploads part
    exact ⟨bind_of_eq heq _, hsturdy⟩
  | abort kind =>
    obtain ⟨heq, hsturdy⟩ := Uploads.abort_plain h x.agent.uploads kind
    exact ⟨bind_of_eq heq _, hsturdy⟩
  | session session => exact ⟨rfl, h⟩

theorem moves_plain (s : Suite) (ms : List (Move σ)) :
    x.plain.moves s ms = .ok (x.moves s ms).plain ∧
      (x.moves s ms).filter.classifier.Sturdy := by
  induction ms generalizing x with
  | nil => exact ⟨rfl, h⟩
  | cons m ms ih =>
    obtain ⟨heq, hsturdy⟩ := move_plain h s m
    obtain ⟨hrest, hend⟩ := ih hsturdy
    refine ⟨?_, hend⟩
    rw [PlainAppliance.moves, List.foldlM_cons, heq, ok_bind]
    exact hrest

omit h in
/-- Whatever was done to a new filter and its agent, the program met no fault and did what they
did.  There are 256 classes; any datagram is answered without a fault, and any frame from
either interface is judged without one, as they are by the agent and the filter. -/
theorem moves_faultless (s : Suite) (store : σ) (password : Option Bytes) (capacity : Nat)
    (ms : List (Move σ)) :
    let x := (fresh store password capacity).moves s ms
    (PlainAppliance.fresh store password capacity).moves s ms = .ok x.plain ∧
      x.plain.filter.policy.classes.size = 256 ∧
      (∀ nonce challenge datagram,
        x.plain.answer s ⟨nonce, challenge, datagram⟩ =
          .ok ((x.answer s ⟨nonce, challenge, datagram⟩).1.plain,
            (x.answer s ⟨nonce, challenge, datagram⟩).2)) ∧
      ∀ options sends frame,
        x.plain.filter.dispatch options sends frame =
          .ok ((Bridge.dispatch options sends x.filter frame).1.plain,
            (Bridge.dispatch options sends x.filter frame).2) := by
  intro x
  have hfresh : (fresh store password capacity).filter.classifier.Sturdy :=
    Classifier.sturdy_withCapacity capacity
  obtain ⟨heq, hsturdy⟩ := moves_plain hfresh s ms
  refine ⟨?_, ?_, fun nonce challenge datagram => ?_, fun options sends frame => ?_⟩
  · rw [← plain_fresh]
    exact heq
  · exact Vector.size_toArray _
  · exact (answer_plain hsturdy s ⟨nonce, challenge, datagram⟩).1
  · exact (Firewall.dispatch_plain hsturdy options sends frame).1

end Appliance

end FilterBridge
