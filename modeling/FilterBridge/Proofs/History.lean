import FilterBridge.Proofs.Census
import FilterBridge.Proofs.Traffic

/-!
# Histories of a filter

A new filter gets its tables in several ways: all that a store keeps is installed, a single
host table is installed from an image, or an operator loads a table by datagrams.  In any
order of these, and whatever datagrams and frames come in between, the tables stay in order
and every host table has the length that its network needs.

The ways differ in what they ask of a network.  Datagrams bring network numbers only; an
image is installed for any address of class B or C, with host bits or without.

## Main definitions

* `Deed`, `Appliance.history` — what is done to a new filter, one thing after another.
* `Deed.brings` — the networks that are installed from images.
* `Stocked` — what stays true of the host tables.

## Main results

* `Stocked.obey`, `Stocked.respond` — no datagram breaks it.
* `Appliance.stocked_history` — it holds after any history.
-/

namespace FilterBridge

open Agent

/-- What is done to a filter with its agent. -/
inductive Deed (σ : Type)
  /-- All that a store keeps is installed. -/
  | boot (store : σ)
  /-- A network is installed from an image. -/
  | load (network : Address) (image : Bytes)
  /-- A datagram or a frame comes in. -/
  | happens (h : Happening)

/-- The networks that are installed from images. -/
def Deed.brings {σ : Type} [TableStore σ] : Deed σ → List Address
  | .boot store => ((TableStore.readNetworks store).toOption.getD []).map (·.1)
  | .load n _ => [n]
  | .happens _ => []

/-! ### The invariant -/

/-- The tables are in order, host tables have the right length, and a network is listed only
if it is a network number or was given. -/
structure Stocked (given : List Address) (u : Uploads) (f : Firewall) : Prop where
  /-- The tables are in order. -/
  consistent : u.Consistent f []
  /-- A host table that is being collected has the right length. -/
  collected : (u.collected f).Sized
  /-- So has one that is loaded. -/
  lengths : ∀ n table, f.classifier.hostMap n = some table → n.tableLen? = some table.length
  /-- It is loaded for a network number, or for an address that was given. -/
  listed : ∀ n table, f.classifier.hostMap n = some table → n.IsNetwork ∨ n ∈ given

/-- A table is live with a flag or another. -/
theorem Classifier.hostMap_eq_some_iff {c : Classifier} {n : Address} {table : Bytes} :
    c.hostMap n = some table ↔ ∃ dirty, c.loaded? n = some (table, dirty) := by
  unfold hostMap
  rw [Option.map_eq_some_iff]
  constructor
  · rintro ⟨⟨table, dirty⟩, h, rfl⟩
    exact ⟨dirty, h⟩
  · rintro ⟨dirty, h⟩
    exact ⟨_, h, rfl⟩

/-- A flag does not say which host table is loaded. -/
theorem Classifier.Sound.hostMap_markClean {c : Classifier} {own : List Slot}
    (h : c.Sound own) (n : Address) : (c.markClean n).hostMap = c.hostMap := by
  obtain ⟨-, hl⟩ := h.markClean n
  funext m
  rw [hostMap, hl, hostMap]
  split
  · cases c.loaded? m <;> rfl
  · rfl

namespace Stocked

variable {given given' : List Address} {u u' : Uploads} {f f' : Firewall}

/-- A new filter has no host table. -/
theorem new (capacity : Nat) : Stocked [] {} (.withCapacity capacity) where
  consistent := Classifier.consistent_withCapacity capacity
  collected := (Hosting.accounted_start capacity).collected
  lengths := by simp [Firewall.withCapacity, Classifier.hostMap]
  listed := by simp [Firewall.withCapacity, Classifier.hostMap]

theorem mono (h : Stocked given u f) (hsub : given ⊆ given') : Stocked given' u f :=
  ⟨h.consistent, h.collected, h.lengths, fun n table hn =>
    (h.listed n table hn).imp_right (@hsub n)⟩

/-- It stays when no host table is there that was not there before. -/
theorem of_hostMap (h : Stocked given u f) (hc : u'.Consistent f' [])
    (hcollected : (u'.collected f').Sized)
    (hm : ∀ n table, f'.classifier.hostMap n = some table → f.classifier.hostMap n = some table) :
    Stocked given u' f' where
  consistent := hc
  collected := hcollected
  lengths := fun n table hn => h.lengths n table (hm n table hn)
  listed := fun n table hn => h.listed n table (hm n table hn)

/-- It stays when the same host tables are loaded and no block is touched. -/
theorem of_arena (h : Stocked given u f) (hc : u.Consistent f' [])
    (hm : f'.classifier.hostMap = f.classifier.hostMap)
    (ha : f'.classifier.arena = f.classifier.arena) : Stocked given u f' := by
  refine h.of_hostMap hc ?_ fun n table hn => ?_
  · rw [Uploads.collected_congr u (f := f) fun s _ => by rw [ha]]
    exact h.collected
  · rwa [hm] at hn

theorem of_keeps (h : Stocked given u f) (hk : f.Keeps (u.slots ++ []) f') :
    Stocked given u f' := by
  refine h.of_arena hk.consistent ?_ hk.arena
  funext n
  rw [Classifier.hostMap_eq, Classifier.hostMap_eq, hk.networks, hk.arena]

/-- A network that is installed from an image was given. -/
theorem load (h : Stocked given u f) (n : Address) (image : Bytes) :
    Stocked (n :: given) u { f with classifier := (f.classifier.load n image).1 } := by
  have hc := Classifier.Consistent.load h.consistent n image
  have hcollected : (u.collected { f with classifier := (f.classifier.load n image).1 }).Sized := by
    rw [Uploads.collected_congr u (f := f) fun s hs =>
      h.consistent.sound.block?_load (List.mem_append.mpr (.inl hs)) n image]
    exact h.collected
  have hg : Stocked (n :: given) u f := h.mono (List.subset_cons_self n given)
  rcases hr : f.classifier.load n image with ⟨c, e | ⟨⟩⟩
  · obtain ⟨-, hl, -⟩ := h.consistent.sound.load_error hr
    rw [hr] at hc hcollected
    refine hg.of_hostMap hc hcollected fun m table hm => ?_
    exact (Classifier.hostMap_congr (hl m)).symm.trans hm
  · obtain ⟨-, hlen, hl, -⟩ := h.consistent.sound.load_ok hr
    rw [hr] at hc hcollected
    -- the network itself has the image, the others have what they had
    have hmap : ∀ m table, c.hostMap m = some table →
        m = n ∧ table = image ∨ f.classifier.hostMap m = some table := by
      intro m table hm
      rw [Classifier.hostMap, hl] at hm
      by_cases hmn : m = n
      · rw [if_pos hmn] at hm
        exact .inl ⟨hmn, (Option.some.inj hm).symm⟩
      · rw [if_neg hmn] at hm
        exact .inr hm
    refine ⟨hc, hcollected, fun m table hm => ?_, fun m table hm => ?_⟩
    · obtain ⟨rfl, rfl⟩ | hold := hmap m table hm
      · exact hlen
      · exact h.lengths m table hold
    · obtain ⟨rfl, rfl⟩ | hold := hmap m table hm
      · exact .inr (List.mem_cons_self ..)
      · exact hg.listed m table hold

/-- A part of a table brings network numbers only. -/
theorem apply (h : Stocked given u f) (part : Fragment) :
    Stocked given (u.apply f part).1 (u.apply f part).2.1 := by
  rcases hr : u.apply f part with ⟨u', f', r⟩
  cases hk : TableKind.ofByte? part.kind with
  | none =>
    rw [Uploads.apply_of_unknown hk] at hr
    obtain ⟨rfl, rfl, -⟩ := hr
    exact h
  | some kind =>
    obtain ⟨hc, ht⟩ := Uploads.apply_taken h.consistent hk hr
    refine ⟨hc, ht.sized h.collected, fun n table hn => ?_, fun n table hn => ?_⟩
    · obtain ⟨dirty, hl⟩ := Classifier.hostMap_eq_some_iff.mp hn
      obtain hold | ⟨-, hlen⟩ := ht.hosts_cases h.collected hl
      · exact h.lengths n table (Classifier.hostMap_eq_some_iff.mpr ⟨dirty, hold⟩)
      · exact hlen
    · obtain ⟨dirty, hl⟩ := Classifier.hostMap_eq_some_iff.mp hn
      obtain hold | ⟨hnet, -⟩ := ht.hosts_cases h.collected hl
      · exact h.listed n table (Classifier.hostMap_eq_some_iff.mpr ⟨dirty, hold⟩)
      · exact .inl hnet

/-- A network that is removed leaves the others as they are. -/
theorem release (h : Stocked given u f) (n : Address) :
    Stocked given u { f with classifier := (f.classifier.release n).1 } := by
  have hc := Classifier.Consistent.release h.consistent n
  rcases hr : f.classifier.release n with ⟨c, b⟩
  obtain ⟨-, hl, -⟩ := h.consistent.sound.release hr
  rw [hr] at hc
  refine h.of_hostMap hc ?_ fun m table hm => ?_
  · rw [Uploads.collected_congr u (f := f) fun s hs =>
      h.consistent.sound.block?_release (List.mem_append.mpr (.inl hs)) hr]
    exact h.collected
  · have hm : c.hostMap m = some table := hm
    rw [Classifier.hostMap, hl] at hm
    split at hm
    · simp at hm
    · exact hm

/-- Policy and counters do not matter. -/
theorem of_classifier (h : Stocked given u f) (hc : f'.classifier = f.classifier) :
    Stocked given u f' := by
  refine h.of_arena ?_ (congrArg Classifier.hostMap hc) (congrArg Classifier.arena hc)
  rw [Uploads.Consistent, hc]
  exact h.consistent

theorem bootNetworks {r : Firewall × BootReport} (h : Stocked given u r.1)
    (ns : List (Address × Bytes)) :
    Stocked (ns.map (·.1) ++ given) u (ns.foldl Firewall.bootNetwork r).1 := by
  induction ns generalizing r given with
  | nil => exact h
  | cons n ns ih =>
    have hload : Stocked (n.1 :: given) u (Firewall.bootNetwork r n).1 := by
      have hn := h.load n.1 n.2
      unfold Firewall.bootNetwork
      rcases hl : r.1.classifier.load n.1 n.2 with ⟨c, e | ⟨⟩⟩ <;> rwa [hl] at hn
    refine (ih hload).mono fun m hm => ?_
    simp only [List.map_cons, List.cons_append, List.mem_append, List.mem_cons] at hm ⊢
    tauto

/-- A start brings the networks that the store keeps, and no others. -/
theorem boot {σ : Type} [TableStore σ] (h : Stocked given u f) (store : σ) :
    Stocked (Deed.brings (.boot store) ++ given) u (f.boot store).1 := by
  have htables := h.of_classifier (Firewall.bootTables_frame store Table.all (f, {})).1
  simp only [Firewall.boot, Deed.brings]
  cases TableStore.readNetworks store with
  | error e => exact htables
  | ok ns => exact htables.bootNetworks ns

/-! ### Datagrams -/

section Datagrams

variable {σ : Type} {a : Agent σ} {s : Suite} {challenge datagram payload : Bytes}

theorem onLoad (h : Stocked given a.uploads f) (payload : Bytes) :
    Stocked given (a.onLoad f payload).1.uploads (a.onLoad f payload).2.1 := by
  unfold Agent.onLoad
  cases Fragment.parse payload with
  | error e => exact h
  | ok part =>
    have hpart := h.apply part
    rcases hr : a.uploads.apply f part with ⟨u, f', e | ⟨⟩⟩ <;> simpa only [hr] using hpart

variable [TableStore σ]

/-- Writing networks to a store changes flags only. -/
theorem hostMap_writeNetworks {own : List Slot} (ns : List Address) (store : σ) {c : Classifier}
    (h : c.Consistent own) : (writeNetworks ns store c).2.1.hostMap = c.hostMap := by
  induction ns generalizing store c with
  | nil => rfl
  | cons n ns ih =>
    rw [writeNetworks]
    cases c.hostTable n with
    | error e => rfl
    | ok image =>
      simp only
      rcases TableStore.writeNetwork store n image with ⟨store', e | ⟨⟩⟩
      · rfl
      · exact (ih store' (h.markClean n)).trans (h.sound.hostMap_markClean n)

theorem onWrite (h : Stocked given a.uploads f) :
    Stocked given (a.onWrite f).1.uploads (a.onWrite f).2.1 := by
  unfold Agent.onWrite
  rcases writeTables Table.all a.store f.policy with ⟨store, policy, _ | code⟩
  · obtain ⟨hc, ha⟩ := writeNetworks_keeps f.classifier.dirtyNetworks store h.consistent
    have hm := hostMap_writeNetworks f.classifier.dirtyNetworks store h.consistent
    dsimp only
    rcases hw : writeNetworks f.classifier.dirtyNetworks store f.classifier with
      ⟨store', c, _ | code⟩
    · rw [hw] at hc ha hm
      exact h.of_arena hc hm ha
    · rw [hw] at hc ha hm
      exact h.of_arena hc hm ha
  · exact h.of_classifier rfl

theorem onRelease (h : Stocked given a.uploads f) (payload : Bytes) :
    Stocked given (a.onRelease f payload).1.uploads (a.onRelease f payload).2.1 := by
  unfold Agent.onRelease
  cases Release.parse payload with
  | error e => exact h
  | ok r =>
    simp only
    cases TableKind.ofByte? r.kind with
    | none => exact h
    | some kind =>
      simp only
      cases tableOf? kind with
      | some t =>
        simp only [uploads_released]
        exact h.of_classifier rfl
      | none =>
        have hrel := h.release r.index
        rcases hr : f.classifier.release r.index with ⟨c, _ | _⟩
        · exact h
        · rw [hr] at hrel
          simp only [uploads_released]
          exact hrel

theorem obey (h : Stocked given a.uploads f) (type : MessageType) :
    Stocked given (a.obey f s challenge datagram type payload).1.uploads
      (a.obey f s challenge datagram type payload).2.1 := by
  cases type with
  | sync =>
    have hu := (onSync_untouched a f s challenge datagram payload).uploads
    exact hu.symm ▸ h
  | newKey => exact (uploads_onNewKey a payload).symm ▸ h
  | query => exact h.of_keeps (Firewall.keeps_onQuery h.consistent payload)
  | load => exact h.onLoad payload
  | write => exact h.onWrite
  | release => exact h.onRelease payload
  | statistics => exact h.of_keeps (Firewall.keeps_onStatistics h.consistent payload)
  | _ => exact h

/-- No datagram breaks the invariant. -/
theorem respond (h : Stocked given a.uploads f) :
    Stocked given (a.respond f s challenge datagram).1.uploads
      (a.respond f s challenge datagram).2.1 := by
  obtain hu | ⟨type, payload, -, hr⟩ := (a.reacts f s challenge datagram).untouched_or_obeyed
  · rw [hu.uploads, hu.filter]
    exact h
  · rw [hr]
    exact h.obey type

end Datagrams

end Stocked

/-! ### Histories -/

namespace Appliance

variable {σ : Type} [TableStore σ] {given : List Address} {x : Appliance σ}

/-- A new filter with its agent, over an arena of the given capacity. -/
def fresh (store : σ) (password : Option Bytes) (capacity : Nat) : Appliance σ :=
  ⟨.start store password, .withCapacity capacity⟩

/-- Something is done to a filter with its agent. -/
def deed (x : Appliance σ) (s : Suite) : Deed σ → Appliance σ
  | .boot store => { x with filter := (x.filter.boot store).1 }
  | .load n image =>
    { x with filter := { x.filter with classifier := (x.filter.classifier.load n image).1 } }
  | .happens h => x.step s h

/-- One thing is done after another. -/
def history (x : Appliance σ) (s : Suite) (ds : List (Deed σ)) : Appliance σ :=
  ds.foldl (fun x d => x.deed s d) x

theorem stocked_deed (h : Stocked given x.agent.uploads x.filter) (s : Suite) (d : Deed σ) :
    Stocked (d.brings ++ given) (x.deed s d).agent.uploads (x.deed s d).filter := by
  cases d with
  | boot store => exact h.boot store
  | load n image => exact h.load n image
  | happens happening =>
    cases happening with
    | datagram e => exact h.respond
    | frame options sends frame =>
      exact h.of_keeps (Bridge.dispatch_spec h.consistent options sends frame).2.1
    | count counters => exact h.of_classifier rfl

/-- The invariant holds after any history: what is listed and is no network number was brought
in by an image. -/
theorem stocked_history (h : Stocked given x.agent.uploads x.filter) (s : Suite)
    (ds : List (Deed σ)) :
    Stocked (ds.flatMap Deed.brings ++ given) (x.history s ds).agent.uploads
      (x.history s ds).filter := by
  induction ds generalizing x given with
  | nil => exact h
  | cons d ds ih =>
    refine (ih (stocked_deed h s d)).mono fun n hn => ?_
    rw [List.flatMap_cons]
    simp only [List.mem_append] at hn ⊢
    tauto

end Appliance

end FilterBridge
