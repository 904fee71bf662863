import FilterBridge.Proofs.Images
import FilterBridge.Proofs.StoreMaps
import FilterBridge.Proofs.Room

/-!
# What a start installs

A start goes through the tables that are kept, and then through the networks.  What
cannot be used is left out and not counted, so the counts tell whether all that is
kept was installed; and then the tables are those that are kept.

## Main definitions

* `BootReport.Complete` — nothing that is kept was left out.
* `Policy.Restored` — a table is what its image says, and its default without one.

## Main results

* `Firewall.boot_spec` — what a start installs, and when nothing is left out.
-/

namespace FilterBridge

/-- Whether a store keeps an image of a table, be it one that cannot be read. -/
def TableStore.keeps {σ : Type} [TableStore σ] (store : σ) (t : Table) : Bool :=
  match TableStore.readTable store t with
  | .ok none => false
  | _ => true

/-- Nothing that a store keeps was left out. -/
def BootReport.Complete {σ : Type} [TableStore σ] (r : BootReport) (store : σ) : Prop :=
  r.tables = Table.all.countP (TableStore.keeps store) ∧
    ∃ ns, TableStore.readNetworks store = .ok ns ∧ r.networks = ns.length

namespace Policy

variable {p q : Policy} {t : Table} {image : Option Bytes}

/-- A table is what its image says, and its default if there is none. -/
def Restored (t : Table) (image : Option Bytes) (p : Policy) : Prop :=
  match image with
  | none => Same t p {}
  | some image => ∃ q, ({} : Policy).install image t = .ok q ∧ Same t p q

theorem Restored.congr (h : Restored t image q) (hs : Same t p q) : Restored t image p := by
  cases image with
  | none => exact hs.trans h
  | some image =>
    obtain ⟨r, hr, hq⟩ := h
    exact ⟨r, hr, hs.trans hq⟩

/-- An image says what a table is. -/
theorem Restored.same (h : Restored t image p) (h' : Restored t image q) : Same t p q := by
  cases image with
  | none => exact Same.trans h (Same.symm h')
  | some image =>
    obtain ⟨r, hr, hp⟩ := h
    obtain ⟨r', hr', hq⟩ := h'
    rw [hr, Except.ok.injEq] at hr'
    exact hp.trans (hr' ▸ hq.symm)

end Policy

namespace Firewall

open Policy

variable {σ : Type} [TableStore σ] {good : σ → Prop} {kept : σ → Kept} {store : σ}
  {f f' : Firewall} {r r' : BootReport} {t : Table} {ts : List Table}

/-! ### The tables -/

/-- What becomes of a filter and its report when some tables are looked for. -/
structure TablesBooted (store : σ) (tables : Table → Option Bytes) (ts : List Table)
    (f : Firewall) (r : BootReport) (f' : Firewall) (r' : BootReport) : Prop where
  /-- The classifier stays. -/
  classifier : f'.classifier = f.classifier
  /-- No network is counted. -/
  networks : r'.networks = r.networks
  /-- What is installed is well formed. -/
  wellFormed : f.policy.WellFormed → f'.policy.WellFormed
  /-- The tables count as persisted. -/
  clean : ∀ t ∈ ts, f'.policy.isDirty t = false
  /-- The other tables stay. -/
  others : ∀ t, t ∉ ts → Same t f'.policy f.policy ∧ f'.policy.isDirty t = f.policy.isDirty t
  /-- No more are installed than are kept. -/
  le : r'.tables ≤ r.tables + ts.countP (TableStore.keeps store)
  /-- If as many are installed as are kept, all are restored. -/
  restored : r'.tables = r.tables + ts.countP (TableStore.keeps store) →
    ∀ t ∈ ts, Restored t (tables t) f'.policy
  /-- If all can be restored, as many are installed as are kept. -/
  complete : (∀ t ∈ ts, ∃ p, Restored t (tables t) p) →
    r'.tables = r.tables + ts.countP (TableStore.keeps store)

/-- While tables are looked for, no network is installed or counted. -/
theorem bootTables_frame (store : σ) (ts : List Table) (r : Firewall × BootReport) :
    (ts.foldl (bootTable store) r).1.classifier = r.1.classifier ∧
      (ts.foldl (bootTable store) r).2.networks = r.2.networks := by
  induction ts generalizing r with
  | nil => exact ⟨rfl, rfl⟩
  | cons t ts ih =>
    have hstep : (bootTable store r t).1.classifier = r.1.classifier ∧
        (bootTable store r t).2.networks = r.2.networks := by
      unfold bootTable
      split
      · split <;> exact ⟨rfl, rfl⟩
      · exact ⟨rfl, rfl⟩
    obtain ⟨hclassifier, hnetworks⟩ := ih (bootTable store r t)
    exact ⟨hclassifier.trans hstep.1, hnetworks.trans hstep.2⟩

theorem bootTable_booted (h : TableStore.ActsAsMap good kept) (hg : good store)
    (hs : Same t f.policy {}) (hd : f.policy.isDirty t = false)
    (hr : bootTable store (f, r) t = (f', r')) :
    TablesBooted store (kept store).tables [t] f r f' r' := by
  have hread := h.readTable hg t
  cases hk : (kept store).tables t with
  | none =>
    rw [hk] at hread
    have hkeeps : TableStore.keeps store t = false := by simp [TableStore.keeps, hread]
    simp only [bootTable, hread, Prod.mk.injEq] at hr
    obtain ⟨rfl, rfl⟩ := hr
    refine ⟨rfl, rfl, id, by simpa using hd, fun u _ => ⟨Same.refl u _, rfl⟩, by simp,
      fun _ => ?_, by simp [hkeeps]⟩
    rw [List.forall_mem_singleton, hk]
    exact hs
  | some image =>
    rw [hk] at hread
    have hkeeps : TableStore.keeps store t = true := by simp [TableStore.keeps, hread]
    cases hi : f.policy.install image t with
    | ok p =>
      obtain ⟨hclean, hother, hwf, hany⟩ := install_spec hi
      simp only [bootTable, hread, hi, Prod.mk.injEq] at hr
      obtain ⟨rfl, rfl⟩ := hr
      refine ⟨rfl, rfl, hwf, by simpa using hclean, fun u hu => hother u (by simpa using hu),
        by simp [hkeeps], fun _ => ?_, by simp [hkeeps]⟩
      obtain ⟨q, hq, hsame⟩ := hany {}
      rw [List.forall_mem_singleton, hk]
      exact ⟨q, hq, hsame.symm⟩
    | error e =>
      simp only [bootTable, hread, hi, Prod.mk.injEq] at hr
      obtain ⟨rfl, rfl⟩ := hr
      refine ⟨rfl, rfl, id, by simpa using hd, fun u _ => ⟨Same.refl u _, rfl⟩, by simp,
        by simp [hkeeps], fun hall => ?_⟩
      obtain ⟨p, hp⟩ := hall t (by simp)
      rw [hk] at hp
      obtain ⟨q, hq, -⟩ := hp
      -- whether an image can be used does not depend on the tables before
      obtain ⟨q', hq', -⟩ := (install_spec hq).2.2.2 f.policy
      rw [hi] at hq'
      simp at hq'

theorem TablesBooted.cons {tables : Table → Option Bytes} {f₁ : Firewall} {r₁ : BootReport}
    (ht : t ∉ ts) (h₁ : TablesBooted store tables [t] f r f₁ r₁)
    (h₂ : TablesBooted store tables ts f₁ r₁ f' r') :
    TablesBooted store tables (t :: ts) f r f' r' := by
  have hcount : (t :: ts).countP (TableStore.keeps store) =
      [t].countP (TableStore.keeps store) + ts.countP (TableStore.keeps store) := by
    rw [← List.countP_append, List.singleton_append]
  have hle₁ := h₁.le
  have hle₂ := h₂.le
  obtain ⟨hsame, hdirty⟩ := h₂.others t ht
  refine ⟨h₂.classifier.trans h₁.classifier, h₂.networks.trans h₁.networks,
    fun hwf => h₂.wellFormed (h₁.wellFormed hwf), ?_, ?_, by omega, fun hr => ?_, fun hall => ?_⟩
  · exact List.forall_mem_cons.mpr ⟨hdirty.trans (h₁.clean t (by simp)), h₂.clean⟩
  · intro u hu
    obtain ⟨hut, huts⟩ := not_or.mp (List.mem_cons.not.mp hu)
    obtain ⟨hs₁, hd₁⟩ := h₁.others u (by simpa using hut)
    obtain ⟨hs₂, hd₂⟩ := h₂.others u huts
    exact ⟨hs₂.trans hs₁, hd₂.trans hd₁⟩
  · -- neither part can make up for what the other left out
    exact List.forall_mem_cons.mpr
      ⟨(h₁.restored (by omega) t (by simp)).congr hsame, h₂.restored (by omega)⟩
  · obtain ⟨hhead, htail⟩ := List.forall_mem_cons.mp hall
    have := h₁.complete (List.forall_mem_singleton.mpr hhead)
    have := h₂.complete htail
    omega

theorem bootTables_booted (h : TableStore.ActsAsMap good kept) (hg : good store)
    (hn : ts.Nodup) (hs : ∀ t ∈ ts, Same t f.policy {} ∧ f.policy.isDirty t = false)
    (hr : ts.foldl (bootTable store) (f, r) = (f', r')) :
    TablesBooted store (kept store).tables ts f r f' r' := by
  induction ts generalizing f r with
  | nil =>
    obtain ⟨rfl, rfl⟩ := Prod.mk.inj hr
    exact ⟨rfl, rfl, id, by simp, fun u _ => ⟨Same.refl u _, rfl⟩, by simp, by simp, by simp⟩
  | cons t ts ih =>
    obtain ⟨ht, hn⟩ := List.nodup_cons.mp hn
    obtain ⟨⟨hst, hdt⟩, hsts⟩ := List.forall_mem_cons.mp hs
    rw [List.foldl_cons] at hr
    rcases hb : bootTable store (f, r) t with ⟨f₁, r₁⟩
    rw [hb] at hr
    have h₁ := bootTable_booted h hg hst hdt hb
    refine h₁.cons ht (ih hn (fun u hu => ?_) hr)
    have hut : u ≠ t := fun heq => ht (heq ▸ hu)
    obtain ⟨hsame, hdirty⟩ := h₁.others u (by simpa using hut)
    exact ⟨hsame.trans (hsts u hu).1, hdirty.trans (hsts u hu).2⟩

/-! ### The networks -/

/-- As many networks are counted as are installed, all if they can all be loaded. -/
theorem bootNetworks_spec (ns : List (Address × Bytes))
    (hr : ns.foldl bootNetwork (f, r) = (f', r')) :
    f'.policy = f.policy ∧ r'.tables = r.tables ∧ r'.networks ≤ r.networks + ns.length ∧
      f.classifier.loadAll ns =
        if r'.networks = r.networks + ns.length then some f'.classifier else none := by
  induction ns generalizing f r with
  | nil =>
    obtain ⟨rfl, rfl⟩ := Prod.mk.inj hr
    exact ⟨rfl, rfl, Nat.le_refl _, by simp [Classifier.loadAll]⟩
  | cons x ns ih =>
    rw [List.foldl_cons, bootNetwork] at hr
    rw [List.length_cons, Classifier.loadAll]
    rcases hl : f.classifier.load x.1 x.2 with ⟨c, e | ⟨⟩⟩
    · simp only [hl] at hr
      obtain ⟨hp, ht, hle, -⟩ := ih hr
      refine ⟨hp, ht, by omega, ?_⟩
      rw [if_neg (by omega)]
    · simp only [hl] at hr
      obtain ⟨hp, ht, hle, hall⟩ := ih hr
      refine ⟨hp, ht, by simp only at hle; omega, ?_⟩
      simp only [hall, Nat.add_assoc, Nat.add_comm 1]

/-! ### A whole start -/

/-- A start from scratch leaves well-formed tables, all marked as persisted.  Nothing
is left out if and only if all tables can be restored and all networks loaded, and
then they are. -/
theorem boot_spec (h : TableStore.ActsAsMap good kept) (hg : good store) {f : Firewall}
    (hf : f.policy = {}) (hr : f.boot store = (f', r')) :
    f'.policy.WellFormed ∧ (∀ t, f'.policy.isDirty t = false) ∧
      ∃ ns, (ns.map (·.1)).Nodup ∧ (∀ n, ns.lookup n = (kept store).networks n) ∧
        (r'.Complete store → (∀ t, Restored t ((kept store).tables t) f'.policy) ∧
          f.classifier.loadAll ns = some f'.classifier) ∧
        ((∀ t, ∃ p, Restored t ((kept store).tables t) p) →
          (f.classifier.loadAll ns).isSome → r'.Complete store) := by
  obtain ⟨ns, hread, hn, hlookup⟩ := h.readNetworks hg
  have hall : ∀ t, t ∈ Table.all := fun t => by cases t <;> decide
  have hnew : ∀ t, f.policy.isDirty t = false := fun t => by rw [hf]; cases t <;> rfl
  unfold boot at hr
  rcases ht : Table.all.foldl (bootTable store) (f, {}) with ⟨f₁, r₁⟩
  simp only [ht, hread] at hr
  have h₁ := bootTables_booted h hg (by decide)
    (fun t _ => ⟨hf ▸ Same.refl t _, hnew t⟩) ht
  obtain ⟨hp, htables, -, hload⟩ := bootNetworks_spec ns hr
  have hzero : r₁.networks = 0 := h₁.networks
  rw [h₁.classifier, hzero, Nat.zero_add] at hload
  have hrestored := h₁.restored
  have hcomplete := h₁.complete
  simp only [Nat.zero_add] at hrestored hcomplete
  refine ⟨hp ▸ h₁.wellFormed (hf ▸ wellFormed_default),
    fun t => hp ▸ h₁.clean t (hall t), ns, hn, hlookup, ?_, ?_⟩
  · rintro ⟨hcount, ns', hread', hlen⟩
    rw [hread, Except.ok.injEq] at hread'
    subst hread'
    rw [htables] at hcount
    exact ⟨fun t => hp ▸ hrestored hcount t (hall t), by rw [hload, if_pos hlen]⟩
  · intro hany hsome
    rw [hload] at hsome
    refine ⟨htables.trans (hcomplete fun t _ => hany t), ns, hread, ?_⟩
    by_contra hlen
    rw [if_neg hlen] at hsome
    simp at hsome

end Firewall

end FilterBridge
