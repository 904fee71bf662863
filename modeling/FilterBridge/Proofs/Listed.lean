import FilterBridge.Proofs.History

/-!
# Networks that are listed

A class is looked up in the host table of the network number of an address.  So an entry of
the network table is read exactly if its address is a network number, and an entry for an
address with host bits is listed, but is never read.  Only the installation from an image
brings such an entry: neither an operator's datagrams nor a release do.

## Main results

* `Address.isNetwork_iff` — network numbers are what addresses split into.
* `hostClass_congr` — the class of an address depends on the tables of network numbers only.
* `getElem?_lookup` — the class of a host is read from the table of its network.
* `Appliance.listed_history` — which networks are listed after any history, and which of them
  are read.
-/

namespace FilterBridge

variable {tables tables' : Address → Option Bytes} {ip n : Address} {split : HostSplit}
  {table : Bytes}

/-- Network numbers are what addresses split into. -/
theorem Address.isNetwork_iff :
    n.IsNetwork ↔ ∃ ip split, Address.split? ip = some split ∧ split.network = n := by
  constructor
  · rintro ⟨split, hsplit, hn⟩
    exact ⟨n, split, hsplit, hn⟩
  · rintro ⟨ip, split, hsplit, rfl⟩
    exact ⟨_, Address.split?_network hsplit, rfl⟩

/-- Whether an address is a network number can be computed. -/
instance Address.decidableIsNetwork : DecidablePred IsNetwork :=
  fun n => decidable_of_iff (n.split?.map (·.network) = some n) Option.map_eq_some_iff

/-- The class of an address depends on the tables of network numbers only. -/
theorem hostClass_congr (h : ∀ n, n.IsNetwork → tables n = tables' n) (ip : Address) :
    hostClass tables ip = hostClass tables' ip := by
  unfold hostClass
  cases hsplit : ip.split? with
  | none => rfl
  | some split =>
    have hn : split.network.IsNetwork := Address.isNetwork_iff.mpr ⟨ip, split, hsplit, rfl⟩
    simp only [h split.network hn]

/-- In a table of the right length every host has its class. -/
theorem getElem?_hostClass (hsplit : ip.split? = some split)
    (htable : tables split.network = some table)
    (hlen : split.network.tableLen? = some table.length) :
    table[split.host]? = some (hostClass tables ip) := by
  have hlt := Address.host_lt hsplit
  have htwo := (Address.split?_eq_some hsplit).1
  have hlength : table.length = split.tableLen := by
    rw [Address.tableLen?, Address.split?_network hsplit, Option.map_some,
      Option.some.injEq] at hlen
    exact hlen.symm
  -- a table has an even number of hosts, so it ends with a whole pair
  have hpair : split.host / 2 * 2 + 2 ≤ table.length := by omega
  simp only [hostClass, hsplit, htable, if_pos hpair]
  have hhost : split.host < table.length := by omega
  rw [List.getD_eq_getElem?_getD, List.getElem?_eq_getElem hhost, Option.getD_some]

namespace Stocked

variable {given : List Address} {u : Uploads} {f : Firewall}

/-- The class of a host is read from the table of its network. -/
theorem getElem?_lookup (h : Stocked given u f) (hn : f.classifier.hostMap n = some table)
    (hsplit : ip.split? = some split) (hnet : split.network = n) :
    table[split.host]? = some (f.classifier.lookup ip).2 := by
  subst hnet
  rw [h.consistent.lookup_eq]
  exact getElem?_hostClass hsplit hn (h.lengths _ table hn)

/-- Removing what is no network number changes the class of no address. -/
theorem lookup_release (h : Stocked given u f) (hn : ¬ n.IsNetwork) (ip : Address) :
    ((f.classifier.release n).1.lookup ip).2 = (f.classifier.lookup ip).2 := by
  have hc := Classifier.Consistent.release h.consistent n
  obtain ⟨-, hl, -⟩ := h.consistent.sound.release (n := n) (Prod.mk.eta).symm
  rw [h.consistent.lookup_eq, hc.lookup_eq]
  refine hostClass_congr ?_ ip
  intro m hm
  have hne : m ≠ n := by
    rintro rfl
    exact hn hm
  exact Classifier.hostMap_congr ((hl m).trans (if_neg hne))

end Stocked

namespace Appliance

variable {σ : Type} [TableStore σ]

/-- After any history every listed network has a host table of the length that it needs.  The
class of each host of the network is read from it, and there are such hosts exactly if the
network is a network number.  If it is not, it was installed from an image, and removing it
changes the class of no address. -/
theorem listed_history (s : Suite) (store : σ) (password : Option Bytes) (capacity : Nat)
    (ds : List (Deed σ)) :
    let c := ((fresh store password capacity).history s ds).filter.classifier
    ∀ e ∈ c.networks.toList, ∃ table, c.hostTable e.network = .ok table ∧
      e.network.tableLen? = some table.length ∧
      (∀ ip split, Address.split? ip = some split → split.network = e.network →
        table[split.host]? = some (c.lookup ip).2) ∧
      (e.network.IsNetwork ↔
        ∃ ip split, Address.split? ip = some split ∧ split.network = e.network) ∧
      (¬ e.network.IsNetwork → (∃ d ∈ ds, e.network ∈ d.brings) ∧
        ∀ ip, ((c.release e.network).1.lookup ip).2 = (c.lookup ip).2) := by
  intro c e he
  have hstocked := stocked_history (x := fresh store password capacity) (.new capacity) s ds
  rw [List.append_nil] at hstocked
  have hsound := hstocked.consistent.sound
  have hget : c.networks.get? e.network = some e :=
    (NetworkTable.get?_eq_some_iff hsound.networks).mpr ⟨he, rfl⟩
  obtain ⟨table, hblock⟩ := hsound.exists_block hget
  have hmap : c.hostMap e.network = some table := by
    rw [Classifier.hostMap_eq, hget]
    exact hblock
  refine ⟨table, Classifier.hostTable_eq_ok.mpr hmap, hstocked.lengths _ table hmap, ?_,
    Address.isNetwork_iff, ?_⟩
  · intro ip split hsplit hnet
    exact hstocked.getElem?_lookup hmap hsplit hnet
  · intro hn
    refine ⟨?_, hstocked.lookup_release hn⟩
    have hgiven := (hstocked.listed _ table hmap).resolve_left hn
    rwa [List.mem_flatMap] at hgiven

/-- A start lists an address with host bits, and removing it changes the class of no address. -/
theorem listed_history_unread :
    let store : MapStore := { networks := [(0xC0A80105, List.replicate 256 7)] }
    let c := ((fresh store none 4096).history .standard [.boot store]).filter.classifier
    ∃ e ∈ c.networks.toList, e.network = 0xC0A80105 ∧
      ∀ ip, ((c.release e.network).1.lookup ip).2 = (c.lookup ip).2 := by
  intro store c
  have hlist : c.networks.toList.map (·.network) = [0xC0A80105] := by decide +kernel
  obtain ⟨e, he, hnet⟩ := List.mem_map.mp (hlist ▸ List.mem_singleton_self (0xC0A80105 : Address))
  have hhost : ¬ e.network.IsNetwork := by
    rw [hnet]
    decide
  obtain ⟨-, -, -, -, -, hunread⟩ := listed_history .standard store none 4096 [.boot store] e he
  exact ⟨e, he, hnet, (hunread hhost).2⟩

/-- A start lists an address with host bits, with a host table that no look-up reads. -/
theorem boot_lists_hostBits :
    let store : MapStore := { networks := [(0xC0A80105, List.replicate 256 7)] }
    let c := ((fresh store none 4096).history .standard [.boot store]).filter.classifier
    c.networks.toList.map (·.network) = [0xC0A80105] ∧
      (c.hostTable 0xC0A80105).toOption = some (List.replicate 256 7) ∧
      ¬ Address.IsNetwork 0xC0A80105 ∧ (c.lookup 0xC0A80105).2 = 0 := by
  intro store c
  exact ⟨by decide +kernel, by decide +kernel, by decide, by decide +kernel⟩

end Appliance

end FilterBridge
