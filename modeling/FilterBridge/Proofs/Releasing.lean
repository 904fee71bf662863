import FilterBridge.Proofs.History

/-!
# What a release does

A request to release names a table of the policy or a network.  The table that is named is
put back to its default, or the network is removed, and then the store is told to forget its
copy.  If the store cannot, the request is refused, but by then the live table is gone: the
refusal tells that the copy is still there.  Only a request that names nothing, or a network
that is not loaded, is refused with everything left as it was.

## Main definitions

* `Releasable`, `Releasable.ofPayload?` — what a request names.
* `TableStore.Forgets` — a store forgets what it is told to, or fails and keeps it.
* `Dropped` — what becomes of a filter when something is released.
* `Agent.Releases` — what a request to release comes to.

## Main results

* `Classifier.Sound.available_release` — a network that is removed gives its memory back.
* `Agent.onRelease_releases` — a request comes to nothing else.
* `Appliance.release_history` — what the reply to a request tells, after any history.
-/

namespace FilterBridge

open Agent Policy

/-! ### What is released -/

/-- What can be released. -/
inductive Releasable
  /-- A table of the policy. -/
  | table (t : Table)
  /-- A network. -/
  | network (n : Address)
  deriving DecidableEq, Repr

/-- What a request to release names. -/
def Releasable.ofPayload? (payload : Bytes) : Option Releasable :=
  match Release.parse payload with
  | .error _ => none
  | .ok r =>
    (TableKind.ofByte? r.kind).map fun kind =>
      match tableOf? kind with
      | some t => .table t
      | none => .network r.index

/-- Whether something is there to be released: a table always, a network if it is loaded. -/
def LiveTables.Has (l : LiveTables) : Releasable → Prop
  | .table _ => True
  | .network n => l.hosts n ≠ none

/-- What a store keeps when it has forgotten something. -/
def Kept.drop (k : Kept) : Releasable → Kept
  | .table t => ⟨Function.update k.tables t none, k.networks⟩
  | .network n => ⟨k.tables, Function.update k.networks n none⟩

/-- Tell a store to forget something. -/
def TableStore.remove {σ : Type} [TableStore σ] (store : σ) :
    Releasable → σ × Except StoreError Unit
  | .table t => TableStore.removeTable store t
  | .network n => TableStore.removeNetwork store n

/-- A store forgets what it is told to, or fails and keeps it. -/
structure TableStore.Forgets {σ : Type} [TableStore σ] (kept : σ → Kept) : Prop where
  /-- What was removed is no longer kept, and nothing else is touched. -/
  remove_ok : ∀ {s s'} what, TableStore.remove s what = (s', .ok ()) →
    kept s' = (kept s).drop what
  /-- What cannot be removed is still kept. -/
  remove_error : ∀ {s s'} what e, TableStore.remove s what = (s', .error e) → kept s' = kept s

/-- A store in memory forgets what it is told to, unless it is told to fail. -/
theorem MapStore.forgets : TableStore.Forgets MapStore.kept where
  remove_ok := by
    intro s s' what hr
    cases what with
    | table t =>
      obtain rfl := attempt_ok hr
      simp only [kept, Kept.drop, Kept.mk.injEq, and_true]
      funext u
      rw [Function.update_apply]
    | network n =>
      obtain rfl := attempt_ok hr
      simp only [kept, Kept.drop, Kept.mk.injEq, true_and]
      funext m
      rw [Function.update_apply]
      exact lookup_filter n s.networks m
  remove_error := by
    intro s s' what e hr
    cases what with
    | table t => rw [attempt_error hr]
    | network n => rw [attempt_error hr]

/-! ### What becomes of the filter -/

/-- The bytes that come free when something is released. -/
def LiveTables.freed (l : LiveTables) : Releasable → Nat
  | .table _ => 0
  | .network n => ((l.hosts n).map fun h => h.1.length).getD 0

/-- Something is released: a table is at its default and counts as persisted, a network is
gone and its hosts have class 0; everything else is what it was. -/
structure Dropped (what : Releasable) (f f' : Firewall) : Prop where
  /-- A table that is named is at its default. -/
  default : ∀ t, what = .table t → Same t f'.policy {} ∧ f'.policy.isDirty t = false
  /-- The other tables are the same, with their flags. -/
  others : ∀ t, what ≠ .table t →
    Same t f'.policy f.policy ∧ f'.policy.isDirty t = f.policy.isDirty t
  /-- A network that is named is gone; the others have the same host tables and flags. -/
  hosts : ∀ n, f'.classifier.loaded? n =
    if what = .network n then none else f.classifier.loaded? n
  /-- The hosts of a network that is named have class 0, all others the same as before. -/
  lookup : ∀ ip, (f'.lookup ip).2 =
    if ∃ split, ip.split? = some split ∧ what = .network split.network then 0
    else (f.lookup ip).2
  /-- The memory of the network is free. -/
  available : f'.classifier.arena.available =
    f.classifier.arena.available + f.live.freed what
  /-- No counter changed. -/
  report : f'.report = f.report

/-- A network that is removed gives its memory back. -/
theorem Classifier.Sound.available_release {c c' : Classifier} {own : List Slot} {n : Address}
    {table : Bytes} (h : c.Sound own) (hr : c.release n = (c', true))
    (hn : c.hostMap n = some table) :
    c'.arena.available = c.arena.available + table.length := by
  rw [hostMap_eq] at hn
  obtain ⟨e, he, hb⟩ := Option.bind_eq_some_iff.mp hn
  unfold Classifier.release at hr
  cases herase : c.networks.erase? n with
  | none => simp [herase] at hr
  | some r =>
    obtain ⟨networks, entry⟩ := r
    obtain ⟨-, hentry, -⟩ := NetworkTable.erase?_spec h.networks herase
    obtain rfl : entry = e := Option.some.inj (hentry.symm.trans he)
    simp only [herase, Prod.mk.injEq, and_true] at hr
    subst hr
    obtain ⟨-, -, hcapacity, huse⟩ := Arena.release_spec h.arena entry.table
    rw [Arena.blockSize_of_block? hb] at huse
    have hle := h.arena.inUse_le
    show (c.arena.release entry.table).available = _
    unfold Arena.available
    omega

namespace Dropped

variable {f f' : Firewall} {own : List Slot} {what : Releasable}

/-- Putting a table back to its default. -/
theorem reset (f : Firewall) (t : Table) :
    Dropped (.table t) f { f with policy := f.policy.reset t } where
  default := by
    rintro u ⟨⟩
    exact ⟨same_reset_self f.policy t, isDirty_reset f.policy t⟩
  others := by
    intro u hu
    have hut : u ≠ t := by
      rintro rfl
      exact hu rfl
    exact ⟨same_reset_ne f.policy hut, isDirty_reset_ne f.policy hut⟩
  hosts := by
    intro n
    simp
  lookup := by
    intro ip
    simp [Firewall.lookup]
  available := rfl
  report := rfl

/-- Removing a network. -/
theorem release {n : Address} {c : Classifier} (h : f.classifier.Consistent own)
    (hr : f.classifier.release n = (c, true)) :
    Dropped (.network n) f { f with classifier := c } := by
  obtain ⟨-, hloaded, hsome, hcache, -⟩ := h.sound.release hr
  have hc := h.release n
  rw [hr] at hc
  have hmap : c.hostMap = Function.update f.classifier.hostMap n none := by
    funext m
    rw [Classifier.hostMap, hloaded, Function.update_apply]
    by_cases hm : m = n
    · simp [hm]
    · rw [if_neg hm, if_neg hm, Classifier.hostMap]
  refine ⟨by simp, fun t _ => ⟨.refl t _, rfl⟩, fun m => ?_, fun ip => ?_, ?_, ?_⟩
  · show c.loaded? m = _
    rw [hloaded]
    simp only [Releasable.network.injEq, eq_comm]
  · show (c.lookup ip).2 = if _ then 0 else (f.classifier.lookup ip).2
    rw [hc.lookup_eq, h.lookup_eq, hmap]
    unfold hostClass
    cases hsplit : ip.split? with
    | none => simp
    | some split =>
      by_cases hn : split.network = n
      · simp [hn]
      · simp [hn, Ne.symm hn]
  · obtain ⟨⟨table, dirty⟩, hl⟩ := Option.isSome_iff_exists.mp hsome.symm
    have hn : f.classifier.hostMap n = some table := by rw [Classifier.hostMap, hl]; rfl
    simp only [h.sound.available_release hr hn, LiveTables.freed, Firewall.live, hl,
      Option.map_some, Option.getD_some]
  · simp only [Firewall.report, hcache, if_true]
    rfl

/-- A table that is at its default stays so when it is released again. -/
theorem live_eq {f₁ f₂ : Firewall} {t : Table} (h₁ : Dropped (.table t) f f₁)
    (h₂ : Dropped (.table t) f₁ f₂) : f₂.live = f₁.live := by
  have hpolicy : f₂.policy = f₁.policy := by
    refine eq_of_same (fun u => ?_) fun u => ?_
    · by_cases hu : t = u
      · subst hu
        exact (h₂.default t rfl).1.trans (h₁.default t rfl).1.symm
      · exact (h₂.others u (by simpa using hu)).1
    · by_cases hu : t = u
      · subst hu
        exact (h₂.default t rfl).2.trans (h₁.default t rfl).2.symm
      · exact (h₂.others u (by simpa using hu)).2
  have hhosts : f₂.classifier.loaded? = f₁.classifier.loaded? := by
    funext n
    exact (h₂.hosts n).trans (if_neg (by simp))
  rw [Firewall.live, hpolicy, hhosts, Firewall.live]

end Dropped

/-! ### One request -/

namespace Agent

variable {σ : Type} [TableStore σ] {kept : σ → Kept} {a : Agent σ} {f : Firewall}
  {payload : Bytes}

/-- What a request to release comes to. -/
inductive Releases (kept : σ → Kept) (a : Agent σ) (f : Firewall) (payload : Bytes) :
    Agent σ × Firewall × Response → Prop
  /-- It names nothing. -/
  | unnamed (h : Releasable.ofPayload? payload = none) :
    Releases kept a f payload (a, f, .refuse .command)
  /-- It names a network that is not loaded. -/
  | absent {what : Releasable} (h : Releasable.ofPayload? payload = some what)
      (hhas : ¬ f.live.Has what) :
    Releases kept a f payload (a, f, .refuse .noNetwork)
  /-- What it names is released and forgotten. -/
  | forgotten {what : Releasable} {f' : Firewall} {store : σ}
      (h : Releasable.ofPayload? payload = some what) (hhas : f.live.Has what)
      (hdrop : Dropped what f f') (hkept : kept store = (kept a.store).drop what) :
    Releases kept a f payload ({ a with store }, f', .reply .releaseAck [])
  /-- What it names is released, but the store keeps its copy. -/
  | remembered {what : Releasable} {f' : Firewall} {store : σ} {e : StoreError}
      (h : Releasable.ofPayload? payload = some what) (hhas : f.live.Has what)
      (hdrop : Dropped what f f') (hfail : TableStore.remove a.store what = (store, .error e))
      (hkept : kept store = kept a.store) :
    Releases kept a f payload ({ a with store }, f', .refuse e.dataCode)

/-- What was released from the filter is forgotten by the store, or it cannot be. -/
theorem releases_of_dropped (laws : TableStore.Forgets kept) {what : Releasable} {f' : Firewall}
    (h : Releasable.ofPayload? payload = some what) (hhas : f.live.Has what)
    (hdrop : Dropped what f f') :
    Releases kept a f payload
      ((released (TableStore.remove a.store what) a).1, f',
        (released (TableStore.remove a.store what) a).2) := by
  rcases hr : TableStore.remove a.store what with ⟨store, e | ⟨⟩⟩
  · exact .remembered h hhas hdrop hr (laws.remove_error what e hr)
  · exact .forgotten h hhas hdrop (laws.remove_ok what hr)

/-- A request to release comes to nothing else. -/
theorem onRelease_releases (laws : TableStore.Forgets kept) (hc : a.uploads.Consistent f [])
    (payload : Bytes) : Releases kept a f payload (a.onRelease f payload) := by
  unfold onRelease
  cases hp : Release.parse payload with
  | error e => exact .unnamed (by simp [Releasable.ofPayload?, hp])
  | ok r =>
    simp only
    cases hk : TableKind.ofByte? r.kind with
    | none => exact .unnamed (by simp [Releasable.ofPayload?, hp, hk])
    | some kind =>
      simp only
      cases ht : tableOf? kind with
      | some t =>
        have hnamed : Releasable.ofPayload? payload = some (.table t) := by
          simp [Releasable.ofPayload?, hp, hk, ht]
        exact releases_of_dropped laws hnamed trivial (.reset f t)
      | none =>
        have hnamed : Releasable.ofPayload? payload = some (.network r.index) := by
          simp [Releasable.ofPayload?, hp, hk, ht]
        rcases hr : f.classifier.release r.index with ⟨c, b⟩
        obtain ⟨-, -, hb, -⟩ := hc.sound.release hr
        cases b with
        | false =>
          refine .absent hnamed fun hhas => hhas ?_
          exact Option.not_isSome_iff_eq_none.mp (by simp [Firewall.live, ← hb])
        | true =>
          have hhas : f.live.Has (.network r.index) :=
            Option.isSome_iff_ne_none.mp hb.symm
          exact releases_of_dropped laws hnamed hhas (.release hc hr)

/-- A refusal tells its code. -/
theorem refuse_inj {code code' : ErrorCode} (h : Response.refuse code = .refuse code') :
    code = code' := by
  have hbyte : [code.toByte] = [code'.toByte] := (Response.clear.inj h).2
  have hcode := congrArg (fun bs : Bytes => bs.head?.bind ErrorCode.ofByte?) hbyte
  simpa using hcode

/-- After a release the same request changes no live table, and a network is not found any
more. -/
theorem onRelease_again (laws : TableStore.Forgets kept) {what : Releasable} {a' : Agent σ}
    {f' : Firewall} (h : Releasable.ofPayload? payload = some what) (hdrop : Dropped what f f')
    (hc : a'.uploads.Consistent f' []) :
    (a'.onRelease f' payload).2.1.live = f'.live ∧
      ∀ n, what = .network n → a'.onRelease f' payload = (a', f', .refuse .noNetwork) := by
  have habsent : ∀ n, what = .network n → ¬ f'.live.Has what := by
    rintro n rfl hhas
    exact hhas ((hdrop.hosts n).trans (if_pos rfl))
  generalize hr : a'.onRelease f' payload = r
  have hcases := hr ▸ onRelease_releases laws hc payload
  -- it names what it named before
  have hsame : ∀ {other}, Releasable.ofPayload? payload = some other → other = what :=
    fun hother => Option.some.inj (hother.symm.trans h)
  cases hcases with
  | unnamed hnone => simp [h] at hnone
  | absent hother hhas => exact ⟨rfl, fun n hn => rfl⟩
  | forgotten hother hhas hdrop' hkept =>
    rw [hsame hother] at hhas hdrop'
    cases what with
    | table t => exact ⟨hdrop.live_eq hdrop', by simp⟩
    | network n => exact absurd hhas (habsent n rfl)
  | remembered hother hhas hdrop' hfail hkept =>
    rw [hsame hother] at hhas hdrop'
    cases what with
    | table t => exact ⟨hdrop.live_eq hdrop', by simp⟩
    | network n => exact absurd hhas (habsent n rfl)

end Agent

/-! ### After any history -/

namespace Appliance

variable {σ : Type} [TableStore σ] {kept : σ → Kept}

/-- A filter had any history, with a store whose removals may fail.  A request to release is
acknowledged or refused.  If it is acknowledged, what it names is released, its persisted copy
is gone, and nothing else changed.  If it is refused, either it made no sense or named a
network that is not loaded, and nothing changed; or the store could not forget its copy, and
then what it names is released all the same, the copy is still there, the same request changes
no live table any more, and if it names a network, that is not found again. -/
theorem release_history (laws : TableStore.Forgets kept) (s : Suite) (store : σ)
    (password : Option Bytes) (capacity : Nat) (ds : List (Deed σ)) (payload : Bytes) :
    let x := (fresh store password capacity).history s ds
    let r := x.agent.onRelease x.filter payload
    (r.2.2 = .reply .releaseAck [] ∨ ∃ code, r.2.2 = .refuse code) ∧
      (r.2.2 = .reply .releaseAck [] → ∃ what store',
        Releasable.ofPayload? payload = some what ∧ r.1 = { x.agent with store := store' } ∧
        Dropped what x.filter r.2.1 ∧ kept store' = (kept x.agent.store).drop what) ∧
      ∀ code, r.2.2 = .refuse code →
        (r.1 = x.agent ∧ r.2.1 = x.filter ∧ (code = .command ∨ code = .noNetwork)) ∨
        ∃ what store' e, Releasable.ofPayload? payload = some what ∧
          TableStore.remove x.agent.store what = (store', .error e) ∧ code = e.dataCode ∧
          r.1 = { x.agent with store := store' } ∧ Dropped what x.filter r.2.1 ∧
          kept store' = kept x.agent.store ∧
          (r.1.onRelease r.2.1 payload).2.1.live = r.2.1.live ∧
          ∀ n, what = .network n →
            r.1.onRelease r.2.1 payload = (r.1, r.2.1, .refuse .noNetwork) := by
  intro x r
  have hx := stocked_history (x := fresh store password capacity) (.new capacity) s ds
  have hr : r.1.uploads.Consistent r.2.1 [] := (hx.onRelease payload).consistent
  have hcases : Releases kept x.agent x.filter payload r :=
    onRelease_releases laws hx.consistent payload
  generalize r = r at hr hcases ⊢
  cases hcases with
  | unnamed h =>
    refine ⟨.inr ⟨_, rfl⟩, by simp [Response.refuse], ?_⟩
    intro code hcode
    exact .inl ⟨rfl, rfl, .inl (refuse_inj hcode).symm⟩
  | absent h hhas =>
    refine ⟨.inr ⟨_, rfl⟩, by simp [Response.refuse], ?_⟩
    intro code hcode
    exact .inl ⟨rfl, rfl, .inr (refuse_inj hcode).symm⟩
  | @forgotten what f' store' h hhas hdrop hkept =>
    refine ⟨.inl rfl, fun _ => ⟨what, store', h, rfl, hdrop, hkept⟩, ?_⟩
    intro code hcode
    simp [Response.refuse] at hcode
  | @remembered what f' store' e h hhas hdrop hfail hkept =>
    refine ⟨.inr ⟨_, rfl⟩, by simp [Response.refuse], fun code hcode => .inr ?_⟩
    obtain ⟨hlive, hnetwork⟩ := onRelease_again laws h hdrop hr
    exact ⟨what, store', e, h, hfail, (refuse_inj hcode).symm, rfl, hdrop, hkept, hlive, hnetwork⟩

/-- A network cannot be forgotten: its release is refused, its hosts lose their class, its copy
is still there, and releasing it once more is refused because it is not loaded. -/
theorem release_history_remembered :
    let store : MapStore :=
      { networks := [(0xC0000200, List.replicate 256 7)]
        faults := [(.removeNetwork 0xC0000200, .removing)] }
    let x := (fresh store none 4096).history .standard [.boot store]
    let payload := Release.encode ⟨TableKind.network.toByte, 0xC0000200⟩
    let r := x.agent.onRelease x.filter payload
    r.2.2 = .refuse .dataFile ∧ (x.filter.lookup 0xC0000205).2 = 7 ∧
      (r.2.1.lookup 0xC0000205).2 = 0 ∧
      r.1.store.kept.networks 0xC0000200 = some (List.replicate 256 7) ∧
      r.1.onRelease r.2.1 payload = (r.1, r.2.1, .refuse .noNetwork) := by
  intro store x payload r
  have hrefused : r.2.2 = .refuse .dataFile := by decide +kernel
  have hall := release_history MapStore.forgets .standard store none 4096 [.boot store] payload
  have hx : (fresh store none 4096).history .standard [.boot store] = x := rfl
  have hr : x.agent.onRelease x.filter payload = r := rfl
  simp only [hx, hr] at hall
  obtain ⟨-, -, herror⟩ := hall
  obtain ⟨-, -, hcode⟩ | ⟨what, store', e, hwhat, -, -, hagent, hdrop, hkept, -, hagain⟩ :=
    herror .dataFile hrefused
  · exact absurd hcode (by decide)
  · obtain rfl : what = .network 0xC0000200 := by
      have hpayload : Releasable.ofPayload? payload = some (.network 0xC0000200) := by decide
      exact Option.some.inj (hwhat.symm.trans hpayload)
    refine ⟨hrefused, by decide +kernel, ?_, ?_, hagain _ rfl⟩
    · exact (hdrop.lookup 0xC0000205).trans (if_pos ⟨_, rfl, by decide⟩)
    · have hstore : r.1.store = store' := congrArg Agent.store hagent
      rw [hstore, hkept]
      decide +kernel

/-- A reject list cannot be forgotten: its release is refused, and yet it is empty and counts as
persisted, until a restart brings it back. -/
theorem release_refused_resets :
    let store : MapStore :=
      { tables := Function.update (fun _ => none) .reject
          (some (encodeRejectRules [⟨0x0A000000, 0xFF000000⟩]))
        faults := [(.removeTable .reject, .removing)] }
    let x := (fresh store none 4096).history .standard [.boot store]
    let r := x.answer .standard
      (request .release (Release.encode ⟨TableKind.reject.toByte, 0⟩))
    x.filter.policy.reject = [⟨0x0A000000, 0xFF000000⟩] ∧
      r.2.map (fun d => (d.head?, d.drop headerLen)) =
        some (some MessageType.error.toByte, [ErrorCode.dataFile.toByte]) ∧
      r.1.filter.policy.reject = [] ∧ r.1.filter.policy.isDirty .reject = false ∧
      (Firewall.boot r.1.agent.store (.withCapacity 4096)).1.policy.reject =
        [⟨0x0A000000, 0xFF000000⟩] := by
  intro store x r
  exact ⟨by decide +kernel, by decide +kernel, by decide +kernel, by decide +kernel,
    by decide +kernel⟩

end Appliance

end FilterBridge
