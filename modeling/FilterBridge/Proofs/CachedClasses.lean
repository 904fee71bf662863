import FilterBridge.Proofs.Ownership

/-!
# The cache tells what the host tables tell

A line of the cache is read for any address of the pair that its tag names.  So it
is enough that each line holds the classes of that pair, wherever it lies; the tag
of an empty line names no pair that splits.

## Main definitions

* `hostClass` — the class of an address according to a map from networks to host
  tables.
* `ClassCache.Agrees` — every line holds the classes of its pair.

## Main results

* `Classifier.pair?_eq` — the classes of a pair, read from the arena, are those by that map.
* `Classifier.lookup_spec` — so is the class read through the cache, which agrees with the
  tables as before.
-/

namespace FilterBridge

/-! ### Classes from a map of host tables -/

/-- The class of an address according to a map from networks to host tables: class
0 for an address that does not split, for a network that is not in the map, and for
a pair of hosts that its table does not reach. -/
def hostClass (tables : Address → Option Bytes) (ip : Address) : PolicyClass :=
  match ip.split? with
  | none => 0
  | some s =>
    match tables s.network with
    | none => 0
    | some table => if s.host / 2 * 2 + 2 ≤ table.length then table.getD s.host 0 else 0

/-- The classes of a pair of hosts according to a map from networks to host
tables. -/
def hostPair (tables : Address → Option Bytes) (s : HostSplit) :
    Option (PolicyClass × PolicyClass) :=
  (tables s.network).bind fun table =>
    if s.host / 2 * 2 + 2 ≤ table.length
    then some (table.getD (s.host / 2 * 2) 0, table.getD (s.host / 2 * 2 + 1) 0)
    else none

variable {tables tables' : Address → Option Bytes} {ip : Address} {s : HostSplit}

/-- An address is even when its host number is. -/
theorem Address.host_mod_two (h : ip.split? = some s) : s.host % 2 = ip.toNat % 2 := by
  obtain ⟨hl, hs⟩ := Address.split?_eq_some h
  rw [hs]
  rcases hl with hl | hl <;> simp only [Address.splitAt, hl] <;> omega

/-- The class of an address is that of its side of the pair. -/
theorem hostClass_eq_of_hostPair (h : ip.split? = some s) {even odd : PolicyClass}
    (hp : hostPair tables s = some (even, odd)) :
    hostClass tables ip = if ip.toNat % 2 = 0 then even else odd := by
  have hmod := Address.host_mod_two h
  unfold hostPair at hp
  unfold hostClass
  rw [h]
  cases ht : tables s.network with
  | none => simp [ht] at hp
  | some table =>
    simp only [ht, Option.bind_some] at hp ⊢
    split at hp
    · rename_i hle
      simp only [Option.some.injEq, Prod.mk.injEq] at hp
      rw [if_pos hle, ← hp.1, ← hp.2, ← hmod]
      split
      · congr 1
        omega
      · congr 1
        omega
    · simp at hp

theorem hostClass_eq_zero (h : ip.split? = some s) (hp : hostPair tables s = none) :
    hostClass tables ip = 0 := by
  unfold hostPair at hp
  unfold hostClass
  rw [h]
  cases ht : tables s.network with
  | none => simp only [ht]
  | some table =>
    simp only [ht, Option.bind_some, ite_eq_right_iff, reduceCtorEq, imp_false] at hp ⊢
    intro hle
    exact absurd hle hp

theorem hostClass_of_split?_eq_none (h : ip.split? = none) : hostClass tables ip = 0 := by
  simp only [hostClass, h]

namespace Classifier

variable {c : Classifier}

/-- The pair that is read from the arena is that of the map. -/
theorem pair?_eq (c : Classifier) (s : HostSplit) : c.pair? s = hostPair c.hostMap s := by
  unfold pair? hostPair
  rw [hostMap_eq]
  cases c.networks.get? s.network with
  | none => rfl
  | some e =>
    simp only [Option.bind_eq_bind, Option.bind_some]
    cases hb : c.arena.block? e.table with
    | none => simp [Arena.read, Arena.blockFor, hb, bind, Except.bind]
    | some b =>
      rw [Option.bind_some]
      -- a table that is too short has no such pair
      by_cases hle : s.host / 2 * 2 + 2 ≤ b.length
      · have hread : c.arena.read e.table (s.host / 2 * 2) 2 =
            .ok [b.getD (s.host / 2 * 2) 0, b.getD (s.host / 2 * 2 + 1) 0] := by
          refine Arena.read_eq_ok.mpr ⟨b, ⟨hb, hle⟩, ?_⟩
          have h₀ : s.host / 2 * 2 < b.length := by omega
          have h₁ : s.host / 2 * 2 + 1 < b.length := by omega
          rw [Bytes.slice, List.drop_eq_getElem_cons h₀, List.drop_eq_getElem_cons h₁,
            List.take_succ_cons, List.take_succ_cons, List.take_zero,
            List.getD_eq_getElem?_getD, List.getD_eq_getElem?_getD, List.getElem?_eq_getElem h₀,
            List.getElem?_eq_getElem h₁, Option.getD_some, Option.getD_some]
        simp only [hread, if_pos hle]
      · have hread : c.arena.read e.table (s.host / 2 * 2) 2 =
            .error (.outOfBounds (s.host / 2 * 2) 2 b.length) := by
          simp [Arena.read, Arena.blockFor, hb, bind, Except.bind, Nat.lt_of_not_le hle]
        simp only [hread, if_neg hle]

end Classifier

/-! ### The invariant -/

/-- A line holds the classes of the pair that its tag names. -/
def CacheLine.Agrees (line : CacheLine) (tables : Address → Option Bytes) : Prop :=
  ∀ ip s, ip.split? = some s → ClassCache.tagOf ip = line.tag →
    hostPair tables s = some (line.even, line.odd)

/-- Both lines of a set hold the classes of their pairs. -/
structure CacheSet.Agrees (set : CacheSet) (tables : Address → Option Bytes) : Prop where
  /-- The first line does. -/
  first : set.first.Agrees tables
  /-- The second line does. -/
  second : set.second.Agrees tables

namespace ClassCache

variable {cache : ClassCache}

/-- Every line holds the classes of the pair that its tag names. -/
def Agrees (cache : ClassCache) (tables : Address → Option Bytes) : Prop :=
  ∀ i : Fin 4096, cache.sets[i].Agrees tables

/-- An address that splits is no pair of an empty line. -/
theorem tagOf_ne_zero (h : ip.split? = some s) : tagOf ip ≠ 0 := by
  have hlead : 8 ≤ ip.toNat / 268435456 := by
    by_contra hlt
    rw [Address.split?, Address.classOf, if_pos (Nat.lt_of_not_le hlt)] at h
    simp at h
  have hlt := ip.toNat_lt
  intro hz
  have := congrArg UInt32.toNat hz
  simp only [tagOf, UInt32.toNat_ofNat', UInt32.toNat_zero] at this
  omega

/-- Addresses with one tag are on one network and in one pair of its hosts. -/
theorem hostPair_congr_tag {ip' : Address} {s' : HostSplit} (h : ip.split? = some s)
    (h' : ip'.split? = some s') (htag : tagOf ip = tagOf ip') :
    hostPair tables s = hostPair tables s' := by
  have hlt := ip.toNat_lt
  have hlt' := ip'.toNat_lt
  -- the tag is the address without its last bit, which neither class nor network sees
  have hpair : ip.toNat / 2 = ip'.toNat / 2 := by
    have := congrArg UInt32.toNat htag
    simp only [tagOf, UInt32.toNat_ofNat'] at this
    omega
  have hclass : ip.classOf = ip'.classOf := by
    have : ip.toNat / 268435456 = ip'.toNat / 268435456 := by omega
    simp only [Address.classOf, this]
  have hsame : ∀ n, n = 65536 ∨ n = 256 → (ip.splitAt n).network = (ip'.splitAt n).network ∧
      (ip.splitAt n).host / 2 = (ip'.splitAt n).host / 2 := by
    intro n hn
    rcases hn with rfl | rfl
    · have hnet : ip.toNat / 65536 = ip'.toNat / 65536 := by omega
      exact ⟨by simp only [Address.splitAt, hnet], by simp only [Address.splitAt]; omega⟩
    · have hnet : ip.toNat / 256 = ip'.toNat / 256 := by omega
      exact ⟨by simp only [Address.splitAt, hnet], by simp only [Address.splitAt]; omega⟩
  have hsplit : s.network = s'.network ∧ s.host / 2 = s'.host / 2 := by
    unfold Address.split? at h h'
    rw [← hclass] at h'
    cases hc : ip.classOf <;> simp only [hc, Option.some.injEq, reduceCtorEq] at h h'
    · subst h h'
      exact hsame _ (.inl rfl)
    · subst h h'
      exact hsame _ (.inr rfl)
  unfold hostPair
  rw [hsplit.1, hsplit.2]

theorem agrees_empty_line (tables : Address → Option Bytes) : ({} : CacheLine).Agrees tables :=
  fun _ _ h htag => absurd htag (tagOf_ne_zero h)

/-- An empty cache agrees with all tables. -/
theorem agrees_flush (cache : ClassCache) (tables : Address → Option Bytes) :
    cache.flush.Agrees tables := by
  intro i
  have hi : cache.flush.sets[i] = {} := by simp [flush]
  rw [hi]
  exact ⟨agrees_empty_line tables, agrees_empty_line tables⟩

theorem agrees_new (tables : Address → Option Bytes) : ({} : ClassCache).Agrees tables :=
  agrees_flush {} tables

theorem Agrees.of_sets {cache' : ClassCache} (h : cache.Agrees tables)
    (hs : cache'.sets = cache.sets) : cache'.Agrees tables := by
  intro i
  rw [hs]
  exact h i

/-- Putting lines that agree into one set keeps the cache in agreement. -/
theorem Agrees.set {cache' : ClassCache} {i : Fin 4096} {set : CacheSet}
    (h : cache.Agrees tables) (hs : cache'.sets = cache.sets.set i set)
    (hset : set.Agrees tables) : cache'.Agrees tables := by
  intro j
  rw [hs]
  by_cases hij : i = j
  · subst hij
    simpa using hset
  · have hne : (i : Nat) ≠ j := fun he => hij (Fin.ext he)
    have hget : (cache.sets.set i set)[j] = cache.sets[j] := by
      simp [hne]
    rw [hget]
    exact h j

/-- A probe gives the class that the tables tell, if it gives one. -/
theorem Agrees.probe (h : cache.Agrees tables) (hs : ip.split? = some s) :
    (cache.probe ip).1.Agrees tables ∧
      ∀ k, (cache.probe ip).2 = some k → k = hostClass tables ip := by
  have hset := h (setOf ip)
  -- a line with the tag of the address answers for it
  have hline : ∀ line : CacheLine, line.Agrees tables → line.tag = tagOf ip →
      line.classFor ip = hostClass tables ip := fun line hl htag =>
    (hostClass_eq_of_hostPair hs (hl ip s hs htag.symm)).symm
  unfold ClassCache.probe
  simp only
  split
  · rename_i htag
    refine ⟨h.set rfl ⟨hset.first, hset.second⟩, fun k hk => ?_⟩
    rw [← Option.some.inj hk]
    exact hline _ hset.first htag
  · split
    · rename_i htag
      refine ⟨h.set rfl ⟨hset.first, hset.second⟩, fun k hk => ?_⟩
      rw [← Option.some.inj hk]
      exact hline _ hset.second htag
    · exact ⟨h.of_sets rfl, fun k hk => by simp at hk⟩

/-- Entering the classes of a pair from the tables keeps the agreement. -/
theorem Agrees.fill {even odd : PolicyClass} (h : cache.Agrees tables) (hs : ip.split? = some s)
    (hp : hostPair tables s = some (even, odd)) : (cache.fill ip even odd).Agrees tables := by
  have hset := h (setOf ip)
  -- whatever address has the tag, it is in this pair
  have hline : ∀ stamp, CacheLine.Agrees { tag := tagOf ip, stamp, even, odd } tables := by
    intro stamp ip' s' hs' htag
    rw [← hp]
    exact hostPair_congr_tag hs' hs htag
  refine h.set (i := setOf ip) rfl ?_
  split
  · exact ⟨hline _, hset.second⟩
  · exact ⟨hset.first, hline _⟩

end ClassCache

/-! ### Looking up -/

namespace Classifier

variable {c : Classifier}

/-- The class that is looked up is the one that the tables tell, and only the cache
takes part in the look-up. -/
theorem lookup_spec (h : c.cache.Agrees c.hostMap) (ip : Address) :
    (c.lookup ip).2 = hostClass c.hostMap ip ∧ (c.lookup ip).1.cache.Agrees c.hostMap ∧
      (c.lookup ip).1.networks = c.networks ∧ (c.lookup ip).1.arena = c.arena := by
  unfold lookup
  cases hs : ip.split? with
  | none => exact ⟨(hostClass_of_split?_eq_none hs).symm, h, rfl, rfl⟩
  | some s =>
    obtain ⟨hprobe, hclass⟩ := h.probe hs
    rcases hr : c.cache.probe ip with ⟨cache, _ | k⟩
    · rw [hr] at hprobe
      simp only [pair?_eq]
      cases hp : hostPair c.hostMap s with
      | none => exact ⟨(hostClass_eq_zero hs hp).symm, hprobe, rfl, rfl⟩
      | some p =>
        exact ⟨(hostClass_eq_of_hostPair hs hp).symm, hprobe.fill hs hp, rfl, rfl⟩
    · rw [hr] at hprobe hclass
      exact ⟨hclass k rfl, hprobe, rfl, rfl⟩

end Classifier

end FilterBridge
