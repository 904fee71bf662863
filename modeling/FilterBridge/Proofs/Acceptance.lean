import FilterBridge.Proofs.Images
import FilterBridge.Proofs.Transactions

/-!
# When a part is accepted

A part is refused for three reasons only: it does not go with what is collected, it does
not lie inside its table, or there is no room.  A part that begins a host table needs room
in the arena, and one that ends it needs a slot for its network.

## Main definitions

* `Uploads.HasRoom` — there is room for a table.

## Main results

* `Uploads.apply_accepts` — a part that can be put into what is collected is accepted if
  there is room.
* `Uploads.networks_apply` — a part that does not end takes no slot.
-/

namespace FilterBridge

/-- Any image of the right length spells a class. -/
theorem ClassRules.exists_ofImage {image : Bytes} (h : image.length = imageLen) :
    ∃ rules, ofImage image = .ok rules := by
  obtain ⟨rules, hrules⟩ := exists_decode h.ge
  refine ⟨rules, ?_⟩
  simp only [ofImage, checkImage_of_length h, hrules, bind, Except.bind, pure, Except.pure]

/-- A network gets a host table if there is a slot for it. -/
theorem Classifier.exists_install {c : Classifier} {n : Address}
    (h : c.networks.canInsert n = true) (slot : Slot) : ∃ c', c.install n slot = (c', .ok ()) := by
  unfold install NetworkTable.insert
  rw [if_pos h]
  rcases c.networks.place n slot with ⟨networks, _ | old⟩
  · exact ⟨_, rfl⟩
  · exact ⟨_, rfl⟩

namespace Uploads

variable {u u' : Uploads} {f f' : Firewall} {own : List Slot} {kind : TableKind}
  {part : Fragment} {k : ImageKind} {index : UInt32} {image : Bytes} {len : Nat}

/-- There is room for a table of a kind.  Only a host table needs any: its bytes, once a host
table that is being collected has been given up, and a slot for its network. -/
def HasRoom (u : Uploads) (f : Firewall) (kind : TableKind) (index : UInt32) (len : Nat) : Prop :=
  kind = .network → len ≤ (u.abortNetwork f).2.classifier.arena.available ∧
    f.classifier.networks.canInsert index = true

/-! ### Host tables -/

theorem networks_abortNetwork (u : Uploads) (f : Firewall) :
    (u.abortNetwork f).2.classifier.networks = f.classifier.networks := by
  unfold abortNetwork
  cases u.network with
  | none => rfl
  | some up => rfl

theorem networks_alloc {c c' : Classifier} {n : Address} {s : Slot}
    (h : c.alloc n = .ok (c', s)) : c'.networks = c.networks := by
  unfold Classifier.alloc at h
  cases hlen : n.tableLen? with
  | none => simp [hlen] at h
  | some len =>
    cases ha : c.arena.alloc len with
    | error e => simp [hlen, ha] at h
    | ok r =>
      simp only [hlen, ha, Except.ok.injEq, Prod.mk.injEq] at h
      rw [← h.1]

theorem networks_beginNetwork (u : Uploads) (f : Firewall) (n : Address) :
    (u.beginNetwork f n).2.1.classifier.networks = f.classifier.networks := by
  have habort := networks_abortNetwork u f
  unfold beginNetwork
  rcases hab : u.abortNetwork f with ⟨u₁, f₁⟩
  rw [hab] at habort
  cases ha : f₁.classifier.alloc n with
  | error e => cases e <;> simpa only [ha] using habort
  | ok r => simpa only [ha, networks_alloc ha] using habort

theorem networks_write {c c' : Classifier} {s : Slot} {offset : Nat} {data : Bytes}
    (h : c.write s offset data = .ok c') : c'.networks = c.networks := by
  simp only [Classifier.write, bind, Except.bind, pure, Except.pure] at h
  cases ha : c.arena.write s offset data with
  | error e => simp [ha] at h
  | ok arena =>
    simp only [ha, Except.ok.injEq] at h
    rw [← h]

/-- A host table can be begun if its bytes are there. -/
theorem beginNetwork_accepts {n : Address} (hlen : n.tableLen? = some len)
    (hroom : len ≤ (u.abortNetwork f).2.classifier.arena.available) :
    (u.beginNetwork f n).2.2 = .ok () := by
  obtain ⟨arena, slot, ha⟩ := Arena.exists_alloc hroom
  unfold beginNetwork Classifier.alloc
  rcases hab : u.abortNetwork f with ⟨u₁, f₁⟩
  rw [hab] at ha
  simp only [hlen, ha]

/-- A part that lies inside the collected host table is accepted, if there is a slot for the
network in case that it ends. -/
theorem continueNetwork_accepts {up : HostUpload} {b : Bytes} (hup : u.network = some up)
    (hindex : up.network = part.index) (hb : f.classifier.arena.block? up.slot = some b)
    (hle : part.offset.toNat + part.data.length ≤ b.length)
    (hslot : part.isEnd = true → f.classifier.networks.canInsert part.index = true) :
    (u.continueNetwork f part).2.2 = .ok () := by
  have hfilter : u.network.filter (·.network = part.index) = some up := by
    rw [hup, Option.filter_some, if_pos (decide_eq_true hindex)]
  obtain ⟨c, hw⟩ : ∃ c, f.classifier.write up.slot part.offset.toNat part.data = .ok c := by
    have hw := Arena.write_eq_ok.mpr ⟨b, ⟨hb, hle⟩, rfl⟩
    exact ⟨_, by rw [Classifier.write, hw]; rfl⟩
  unfold continueNetwork
  simp only [hfilter, hw]
  cases hend : part.isEnd with
  | false => rfl
  | true =>
    have hcan : c.networks.canInsert up.network = true := by
      rw [networks_write hw, hindex]
      exact hslot hend
    obtain ⟨c', hi⟩ := Classifier.exists_install hcan up.slot
    simp only [if_true, endNetwork, hi]

/-- A part of a host table that can be put into what is collected is accepted, if there is
room. -/
theorem applyNetwork_accepts (h : u.Consistent f own)
    (hlen : TableKind.network.tableLen? part.index = some len)
    (hput : (u.collected f).put? .network part = some image)
    (hbytes : part.isBegin = true →
      len ≤ (u.abortNetwork f).2.classifier.arena.available)
    (hslot : part.isEnd = true → f.classifier.networks.canInsert part.index = true) :
    (u.applyNetwork f part).2.2 = .ok () := by
  have hload : loadable part.index = true := by
    by_contra hl
    rw [TableKind.tableLen?, if_neg hl] at hlen
    cases hlen
  have htable : Address.tableLen? part.index = some len := by
    rw [← hlen, TableKind.tableLen?, if_pos hload]
  obtain ⟨base, hbase, hfits⟩ := Option.bind_eq_some_iff.mp hput
  have hle : part.offset.toNat + part.data.length ≤ base.length := by
    by_contra hle
    rw [if_neg hle] at hfits
    cases hfits
  unfold applyNetwork
  rw [hload]
  simp only [Bool.not_true, Bool.false_eq_true, if_false]
  cases hbegin : part.isBegin with
  | true =>
    -- it goes into a new host table of zeros
    have hnetworks := networks_beginNetwork u f part.index
    have haccept := beginNetwork_accepts htable (hbytes hbegin)
    rcases hb : u.beginNetwork f part.index with ⟨u₁, f₁, r⟩
    rw [hb] at hnetworks haccept
    dsimp only at hnetworks haccept
    subst haccept
    obtain ⟨s, len', rfl, -, -, hlen', hblock⟩ := beginNetwork_ok h hb
    have hzeros : base = Bytes.zeros len' := by
      rw [if_pos hbegin, hlen, Option.map_some] at hbase
      rw [htable] at hlen'
      rw [← Option.some.inj hbase, Option.some.inj hlen']
    rw [hzeros] at hle
    refine continueNetwork_accepts rfl rfl hblock hle fun hend => ?_
    rw [hnetworks]
    exact hslot hend
  | false =>
    -- it goes into the host table that is being collected
    rw [if_neg (by simp [hbegin])] at hbase
    obtain ⟨⟨n, b⟩, hcollected, rfl⟩ := Option.map_eq_some_iff.mp hbase
    obtain ⟨hc, hindex⟩ := Option.filter_eq_some_iff.mp hcollected
    obtain ⟨up, hup, hblock⟩ := Option.bind_eq_some_iff.mp hc
    obtain ⟨b', hb', heq⟩ := Option.map_eq_some_iff.mp hblock
    obtain ⟨rfl, rfl⟩ := Prod.mk.inj heq
    exact continueNetwork_accepts hup (of_decide_eq_true hindex) hb' hle hslot

/-! ### Other tables -/

theorem exists_replace (h : image.length = k.imageLen) (p : Policy) (index : UInt32) :
    ∃ policy, replace p index image k = .ok policy := by
  cases k with
  | classRules =>
    obtain ⟨rules, hrules⟩ := ClassRules.exists_ofImage h
    exact ⟨_, by simp only [replace, hrules]; rfl⟩
  | reject =>
    obtain ⟨rules, hrules⟩ := exists_rejectRules h
    exact ⟨_, by simp only [replace, hrules]; rfl⟩
  | allow =>
    obtain ⟨rules, hrules⟩ := exists_allowRules h
    exact ⟨_, by simp only [replace, hrules]; rfl⟩

/-- A part that lies inside the collected image is accepted. -/
theorem continueImage_accepts {up : ImageUpload}
    (hup : (u.image? k).filter (·.index = index) = some up) (hsize : up.image.length = k.imageLen)
    (hle : part.offset.toNat + part.data.length ≤ up.image.length) :
    (u.continueImage f k index part).2.2 = .ok () := by
  unfold continueImage
  simp only [hup, Nat.not_lt.mpr hle, if_false]
  cases hend : part.isEnd with
  | false => rfl
  | true =>
    have hnew : (up.image.overlay part.offset.toNat part.data).length = k.imageLen :=
      (Bytes.length_overlay hle).trans hsize
    obtain ⟨policy, hpolicy⟩ := exists_replace hnew f.policy up.index
    simp only [if_true, endImage, hpolicy]

/-- A part of another table that can be put into what is collected is accepted. -/
theorem applyImage_accepts (hlen : k.kind.tableLen? part.index = some image.length)
    (hput : (u.collected f).put? k.kind part = some image) :
    (u.applyImage f k part).2.2 = .ok () := by
  obtain ⟨hnumber, hsize⟩ : (k = .classRules → part.index.toNat < 256) ∧
      image.length = k.imageLen := by
    cases k with
    | classRules =>
      simp only [ImageKind.kind, TableKind.tableLen?] at hlen
      split at hlen
      · rename_i hlt
        exact ⟨fun _ => hlt, (Option.some.inj hlen).symm⟩
      · cases hlen
    | reject => exact ⟨by rintro ⟨⟩, (Option.some.inj hlen).symm⟩
    | allow => exact ⟨by rintro ⟨⟩, (Option.some.inj hlen).symm⟩
  have hclass : (decide (k = .classRules) && decide (256 ≤ part.index.toNat)) = false := by
    by_cases hk : k = .classRules
    · simp [hnumber hk]
    · simp [hk]
  obtain ⟨base, hbase, hfits⟩ := Option.bind_eq_some_iff.mp hput
  split at hfits
  · rename_i hle
    obtain rfl := Option.some.inj hfits
    rw [Bytes.length_overlay hle] at hsize hlen
    unfold applyImage
    rw [key_kind, hclass]
    simp only [Bool.false_eq_true, if_false]
    cases hbegin : part.isBegin with
    | true =>
      rw [if_pos hbegin, hlen, Option.map_some] at hbase
      have hup : ((u.setImage (some ⟨k.kind.key part.index, Bytes.zeros k.imageLen⟩) k).image?
          k).filter (·.index = k.kind.key part.index) =
            some ⟨k.kind.key part.index, Bytes.zeros k.imageLen⟩ := by
        simp
      rw [← Option.some.inj hbase, Bytes.length_zeros, hsize] at hle
      exact continueImage_accepts hup (Bytes.length_zeros _) (by rwa [Bytes.length_zeros])
    | false =>
      rw [if_neg (by simp [hbegin]), collected_kind] at hbase
      obtain ⟨⟨n, b⟩, hcollected, rfl⟩ := Option.map_eq_some_iff.mp hbase
      obtain ⟨hc, hindex⟩ := Option.filter_eq_some_iff.mp hcollected
      obtain ⟨up, hup, heq⟩ := Option.map_eq_some_iff.mp hc
      obtain ⟨rfl, rfl⟩ := Prod.mk.inj heq
      have hup' : (u.image? k).filter (·.index = k.kind.key part.index) = some up := by
        rw [hup, Option.filter_some, if_pos hindex]
      exact continueImage_accepts hup' hsize hle
  · cases hfits

/-! ### Any part -/

/-- A part that can be put into what is collected is accepted, if there is room. -/
theorem apply_accepts (h : u.Consistent f own) (hk : TableKind.ofByte? part.kind = some kind)
    (hdata : part.data.length ≤ maxFragmentLen)
    (hlen : kind.tableLen? part.index = some image.length)
    (hput : (u.collected f).put? kind part = some image)
    (hbytes : kind = .network → part.isBegin = true →
      image.length ≤ (u.abortNetwork f).2.classifier.arena.available)
    (hslot : kind = .network → part.isEnd = true →
      f.classifier.networks.canInsert part.index = true) :
    (u.apply f part).2.2 = .ok () := by
  have haccept : (u.applyKind f kind part).2.2 = .ok () := by
    unfold applyKind
    rw [if_neg (Nat.not_lt.mpr hdata)]
    cases kind with
    | network => exact applyNetwork_accepts h hlen hput (hbytes rfl) (hslot rfl)
    | classRules => exact applyImage_accepts (k := .classRules) hlen hput
    | reject => exact applyImage_accepts (k := .reject) hlen hput
    | allow => exact applyImage_accepts (k := .allow) hlen hput
  unfold apply
  rcases ha : u.applyKind f kind part with ⟨u₁, f₁, r⟩
  rw [ha] at haccept
  dsimp only at haccept
  subst haccept
  simp only [hk, ha]

theorem networks_continueNetwork (u : Uploads) (f : Firewall) (hend : part.isEnd = false) :
    (u.continueNetwork f part).2.1.classifier.networks = f.classifier.networks := by
  unfold continueNetwork
  cases u.network.filter (·.network = part.index) with
  | none => rfl
  | some up =>
    cases hw : f.classifier.write up.slot part.offset.toNat part.data with
    | error e => simp only [hw]
    | ok c => simp only [hw, hend, Bool.false_eq_true, if_false, networks_write hw]

theorem networks_applyNetwork (u : Uploads) (f : Firewall) (hend : part.isEnd = false) :
    (u.applyNetwork f part).2.1.classifier.networks = f.classifier.networks := by
  unfold applyNetwork
  split
  · rfl
  split
  · have hbegin := networks_beginNetwork u f part.index
    rcases hb : u.beginNetwork f part.index with ⟨u₁, f₁, e | ⟨⟩⟩
    · rw [hb] at hbegin
      exact hbegin
    · rw [hb] at hbegin
      exact (networks_continueNetwork u₁ f₁ hend).trans hbegin
  · exact networks_continueNetwork u f hend

theorem classifier_applyImage (u : Uploads) (f : Firewall) (k : ImageKind) :
    (u.applyImage f k part).2.1.classifier = f.classifier := by
  rcases hr : u.applyImage f k part with ⟨u', f', e | ⟨⟩⟩
  · rw [(applyImage_error hr).1]
  · exact (applyImage_ok hr).1

theorem networks_applyKind (u : Uploads) (f : Firewall) (kind : TableKind)
    (hend : part.isEnd = false) :
    (u.applyKind f kind part).2.1.classifier.networks = f.classifier.networks := by
  unfold applyKind
  split
  · rfl
  · cases kind with
    | network => exact networks_applyNetwork u f hend
    | _ => exact congrArg Classifier.networks (classifier_applyImage u f _)

theorem networks_abort (u : Uploads) (f : Firewall) (kind : TableKind) :
    (u.abort f kind).2.classifier.networks = f.classifier.networks := by
  cases kind with
  | network => exact networks_abortNetwork u f
  | _ => rfl

/-- A part that does not end takes no slot. -/
theorem networks_apply (u : Uploads) (f : Firewall) (hend : part.isEnd = false) :
    (u.apply f part).2.1.classifier.networks = f.classifier.networks := by
  unfold apply
  cases TableKind.ofByte? part.kind with
  | none => rfl
  | some kind =>
    have happly := networks_applyKind u f kind hend
    rcases ha : u.applyKind f kind part with ⟨u₁, f₁, e | ⟨⟩⟩
    · rw [ha] at happly
      simp only [ha]
      exact (networks_abort u₁ f₁ kind).trans happly
    · rw [ha] at happly
      simpa only [ha] using happly

end Uploads

end FilterBridge
