import FilterBridge.Proofs.Ownership
import FilterBridge.Proofs.PlainNetworks

/-!
# Host tables in plain arrays

The arena, the cache and the classifier as a program keeps them: the arena counts the bytes in
use up and down, the cache has its sets in a plain array, and the classifier relies on both and
on the network table.  As long as arena and network table are in order no operation meets a
fault, and each does what the classifier does.

## Main definitions

* `Arena.allocPlain`, `Arena.releasePlain`, `Arena.writePlain`, `Arena.readPlain` — the
  operations of the arena with every access checked.
* `PlainCache`, `PlainClassifier` — the tables in plain arrays, with their operations.
* `Classifier.Sturdy` — arena and network table are in order.

## Main results

* `Classifier.Sturdy.lookup_plain`, `Classifier.Sturdy.install_plain`, … — operations meet no
  fault, and keep arena and network table in order.
-/

namespace FilterBridge

open Checked

/-! ### The arena -/

namespace Arena

/-- Take a block of zero bytes. -/
def allocPlain (a : Arena) (size : Nat) : Checked (Except ArenaError (Arena × Slot)) := do
  let available ← minus a.capacity a.inUse
  if available < size then return .error (.exhausted size available)
  let block := some (Bytes.zeros size)
  match a.free with
  | slot :: rest =>
    let blocks ← store a.blocks slot block
    return .ok ({ a with blocks, free := rest, inUse := a.inUse + size }, slot)
  | [] =>
    let blocks := a.blocks.push block
    let slot ← minus blocks.size 1
    return .ok ({ a with blocks, inUse := a.inUse + size }, slot)

/-- Give the block in a slot back; an empty slot stays as it is. -/
def releasePlain (a : Arena) (slot : Slot) : Checked Arena :=
  match a.block? slot with
  | none => return a
  | some block => do
    let inUse ← minus a.inUse block.length
    return { a with blocks := a.blocks.setIfInBounds slot none, free := slot :: a.free, inUse }

/-- Write `data` into the block in a slot, from `offset` on. -/
def writePlain (a : Arena) (slot : Slot) (offset : Nat) (data : Bytes) :
    Checked (Except ArenaError Arena) :=
  match a.blockFor slot offset data.length with
  | .error e => return .error e
  | .ok block => do
    let block ← paste block offset (offset + data.length) data
    return .ok { a with blocks := a.blocks.setIfInBounds slot (some block) }

/-- Copy the `len` bytes from `offset` on of the block in a slot. -/
def readPlain (a : Arena) (slot : Slot) (offset len : Nat) : Checked (Except ArenaError Bytes) :=
  match a.blockFor slot offset len with
  | .error e => return .error e
  | .ok block => do
    let piece ← cut block offset (offset + len)
    return .ok (← paste (Bytes.zeros len) 0 len piece)

variable {a : Arena}

theorem WellFormed.allocPlain_eq (h : a.WellFormed) (size : Nat) :
    a.allocPlain size = .ok (a.alloc size) := by
  rw [allocPlain, minus_of_le h.inUse_le, ok_bind, alloc]
  change (if a.available < size then _ else _) = _
  by_cases hroom : a.available < size
  · rw [if_pos hroom, if_pos hroom]
    rfl
  · rw [if_neg hroom, if_neg hroom]
    cases hf : a.free with
    | nil =>
      have hsize : 1 ≤ (a.blocks.push (some (Bytes.zeros size))).size := by simp
      simp only
      rw [minus_of_le hsize, ok_bind, Array.size_push, Nat.add_sub_cancel]
      rfl
    | cons slot rest =>
      have hlt : slot < a.blocks.size := ((h.mem_free slot).mp (hf ▸ List.mem_cons_self)).1
      simp only
      rw [store_of_lt hlt]
      rfl

theorem WellFormed.releasePlain_eq (h : a.WellFormed) (slot : Slot) :
    a.releasePlain slot = .ok (a.release slot) := by
  rw [releasePlain, release]
  cases hb : a.block? slot with
  | none => rfl
  | some block =>
    -- the bytes of a block are among those in use
    have hle : block.length ≤ a.inUse := by
      simpa [blockSize_of_block? hb] using h.sum_blockSize_le (List.nodup_singleton slot)
    simp only
    rw [minus_of_le hle]
    rfl

theorem writePlain_eq (a : Arena) (slot : Slot) (offset : Nat) (data : Bytes) :
    a.writePlain slot offset data = .ok (a.write slot offset data) := by
  rw [writePlain, write]
  cases hb : a.blockFor slot offset data.length with
  | error e => rfl
  | ok block =>
    simp only
    rw [paste_of_le (blockFor_eq_ok.mp hb).2]
    rfl

theorem readPlain_eq (a : Arena) (slot : Slot) (offset len : Nat) :
    a.readPlain slot offset len = .ok (a.read slot offset len) := by
  rw [readPlain, read]
  cases hb : a.blockFor slot offset len with
  | error e => rfl
  | ok block =>
    have hle := (blockFor_eq_ok.mp hb).2
    have hlen : (block.slice offset len).length = len := Bytes.length_slice hle
    have hpaste : paste (Bytes.zeros len) 0 len (block.slice offset len) =
        .ok (block.slice offset len) := by
      have hzero : (block.slice offset len).length = (Bytes.zeros len).length := by simp [hlen]
      have hroom : 0 + (block.slice offset len).length ≤ (Bytes.zeros len).length := by simp [hlen]
      have hcopy := paste_of_le hroom
      rwa [Nat.zero_add, hlen, Bytes.overlay_zero hzero] at hcopy
    simp only
    rw [cut_of_le hle, ok_bind, hpaste]
    rfl

end Arena

/-! ### The cache -/

/-- A line of the cache, with the classes of its pair in a list. -/
structure PlainLine where
  /-- The even address of the pair. -/
  tag : Address
  /-- The clock when the line was last used. -/
  stamp : UInt32
  /-- The classes of the even and the odd address. -/
  classes : List PolicyClass

/-- The cache with its sets in an array, and the lines of a set in a list. -/
structure PlainCache where
  /-- The sets. -/
  sets : Array (List PlainLine)
  /-- The number of probes and fills so far. -/
  clock : UInt32
  /-- How many probes were counted. -/
  accesses : UInt64
  /-- How many of them found nothing. -/
  misses : UInt64

/-- The line with its classes in a list. -/
def CacheLine.plain (l : CacheLine) : PlainLine := ⟨l.tag, l.stamp, [l.even, l.odd]⟩

/-- The lines of a set. -/
def CacheSet.plain (s : CacheSet) : List PlainLine := [s.first.plain, s.second.plain]

/-- The cache with its sets in an array. -/
def ClassCache.plain (c : ClassCache) : PlainCache where
  sets := c.sets.toArray.map CacheSet.plain
  clock := c.clock
  accesses := c.accesses
  misses := c.misses

namespace PlainCache

/-- The position of the set of an address. -/
def setIndex (ip : Address) : Nat := ((ip &&& 0x1FFE) >>> 1).toNat

/-- The position of an address in its pair. -/
def parity (ip : Address) : Nat := (ip &&& 1).toNat

/-- The class of an address whose pair is in line `i` of its set.  The line counts as used now. -/
def hit (c : PlainCache) (ip : Address) (set : List PlainLine) (i : Nat) :
    Checked (PlainCache × Option PolicyClass) := do
  let now := c.clock + 1
  let line ← fetch set i
  let k ← fetch line.classes (parity ip)
  let sets ← store c.sets (setIndex ip) (set.set i { line with stamp := now })
  return ({ c with sets, clock := now, accesses := c.accesses + 1 }, some k)

/-- The class of an address, if its pair is in the cache. -/
def probe (c : PlainCache) (ip : Address) : Checked (PlainCache × Option PolicyClass) := do
  let set ← fetch c.sets (setIndex ip)
  match set.findIdx? (·.tag = ClassCache.tagOf ip) with
  | some i => c.hit ip set i
  | none =>
    return ({ c with
      clock := c.clock + 1, accesses := c.accesses + 1, misses := c.misses + 1 }, none)

/-- Enter the classes of the pair of an address in place of the older line of its set. -/
def fill (c : PlainCache) (ip : Address) (classes : List PolicyClass) : Checked PlainCache := do
  let now := c.clock + 1
  let set ← fetch c.sets (setIndex ip)
  let first ← fetch set 0
  let second ← fetch set 1
  let victim := if now - first.stamp ≥ now - second.stamp then 0 else 1
  let _ ← fetch set victim
  let sets ← store c.sets (setIndex ip) (set.set victim ⟨ClassCache.tagOf ip, now, classes⟩)
  return { c with sets, clock := now }

/-- Empty every line. -/
def flush (c : PlainCache) : PlainCache :=
  { c with sets := Array.replicate c.sets.size (CacheSet.plain {}) }

end PlainCache

namespace ClassCache

theorem setIndex_eq (ip : Address) : PlainCache.setIndex ip = setOf ip := by
  have hmask := Nat.and_two_pow_sub_one_eq_mod (ip.toNat / 2) 12
  rw [PlainCache.setIndex, UInt32.toNat_shiftRight, UInt32.toNat_and]
  change (ip.toNat &&& 0x1FFE) >>> 1 = ip.toNat / 2 % 4096
  rw [Nat.shiftRight_and_distrib, Nat.shiftRight_one]
  exact hmask

theorem parity_eq (ip : Address) : PlainCache.parity ip = ip.toNat % 2 := by
  rw [PlainCache.parity, UInt32.toNat_and]
  exact Nat.and_one_is_mod _

theorem fetch_sets (c : ClassCache) {i : Nat} (h : i < 4096) :
    fetch c.plain.sets i = .ok c.sets[i].plain := by
  refine fetch_of_getElem? ?_
  simp [plain, h]

theorem store_sets (c : ClassCache) {i : Nat} (h : i < 4096) (s : CacheSet) :
    store c.plain.sets i s.plain = .ok ((c.sets.set i s h).toArray.map CacheSet.plain) := by
  have hlt : i < c.plain.sets.size := by simpa [plain] using h
  rw [store_of_lt hlt]
  simp [plain, Array.setIfInBounds, h]

/-- The class of an address is one of the two of its pair. -/
theorem fetch_pair (even odd : PolicyClass) (ip : Address) :
    fetch [even, odd] (PlainCache.parity ip) = .ok (if ip.toNat % 2 = 0 then even else odd) := by
  rw [parity_eq]
  obtain heven | hodd := Nat.mod_two_eq_zero_or_one ip.toNat
  · rw [heven, if_pos rfl]
    rfl
  · rw [hodd, if_neg (by decide)]
    rfl

theorem fetch_classes (l : CacheLine) (ip : Address) :
    fetch l.plain.classes (PlainCache.parity ip) = .ok (l.classFor ip) := fetch_pair l.even l.odd ip

theorem findIdx?_plain (s : CacheSet) (tag : Address) :
    s.plain.findIdx? (·.tag = tag) =
      if s.first.tag = tag then some 0 else if s.second.tag = tag then some 1 else none := by
  by_cases hfirst : s.first.tag = tag <;> by_cases hsecond : s.second.tag = tag <;>
    simp [CacheSet.plain, CacheLine.plain, List.findIdx?_cons, hfirst, hsecond]

/-- The class in a line that is found, and the cache with the line used. -/
theorem hit_plain (c : ClassCache) (ip : Address) {s s' : CacheSet} {line : CacheLine} {i : Nat}
    (hline : s.plain[i]? = some line.plain)
    (hset : s.plain.set i { line.plain with stamp := c.clock + 1 } = s'.plain) :
    c.plain.hit ip s.plain i =
      .ok (plain { c with
        sets := c.sets.set (setOf ip) s' (setOf ip).isLt
        clock := c.clock + 1, accesses := c.accesses + 1 },
        some (line.classFor ip)) := by
  have hclock : c.plain.clock = c.clock := rfl
  rw [PlainCache.hit, fetch_of_getElem? hline, ok_bind, fetch_classes, ok_bind, hclock, hset,
    setIndex_eq, store_sets c (setOf ip).isLt]
  rfl

theorem probe_plain (c : ClassCache) (ip : Address) :
    c.plain.probe ip = .ok ((c.probe ip).1.plain, (c.probe ip).2) := by
  have hfetch : fetch c.plain.sets (setOf ip) = .ok c.sets[setOf ip].plain :=
    fetch_sets c (setOf ip).isLt
  rw [PlainCache.probe, probe, setIndex_eq, hfetch, ok_bind, findIdx?_plain]
  simp only
  by_cases hfirst : c.sets[setOf ip].first.tag = tagOf ip
  · have hset : c.sets[setOf ip].plain.set 0
        { c.sets[setOf ip].first.plain with stamp := c.clock + 1 } =
      CacheSet.plain { c.sets[setOf ip] with
        first := { c.sets[setOf ip].first with stamp := c.clock + 1 } } := rfl
    rw [if_pos hfirst, if_pos hfirst]
    exact hit_plain c ip rfl hset
  · rw [if_neg hfirst, if_neg hfirst]
    by_cases hsecond : c.sets[setOf ip].second.tag = tagOf ip
    · have hset : c.sets[setOf ip].plain.set 1
          { c.sets[setOf ip].second.plain with stamp := c.clock + 1 } =
        CacheSet.plain { c.sets[setOf ip] with
          second := { c.sets[setOf ip].second with stamp := c.clock + 1 } } := rfl
      rw [if_pos hsecond, if_pos hsecond]
      exact hit_plain c ip rfl hset
    · rw [if_neg hsecond, if_neg hsecond]
      rfl

theorem fill_plain (c : ClassCache) (ip : Address) (even odd : PolicyClass) :
    c.plain.fill ip [even, odd] = .ok (c.fill ip even odd).plain := by
  have hfirst : fetch c.sets[setOf ip].plain 0 = .ok c.sets[setOf ip].first.plain := rfl
  have hsecond : fetch c.sets[setOf ip].plain 1 = .ok c.sets[setOf ip].second.plain := rfl
  have hfetch : fetch c.plain.sets (setOf ip) = .ok c.sets[setOf ip].plain :=
    fetch_sets c (setOf ip).isLt
  have hstore := store_sets c (setOf ip).isLt
  rw [PlainCache.fill, fill, setIndex_eq, hfetch, ok_bind, hfirst, ok_bind, hsecond, ok_bind]
  simp only
  by_cases hage : c.clock + 1 - c.sets[setOf ip].first.stamp ≥
      c.clock + 1 - c.sets[setOf ip].second.stamp
  · have hage' : c.plain.clock + 1 - c.sets[setOf ip].first.plain.stamp ≥
        c.plain.clock + 1 - c.sets[setOf ip].second.plain.stamp := hage
    rw [if_pos hage, if_pos hage', hfirst, ok_bind]
    exact congrArg (· >>= _) (hstore { c.sets[setOf ip] with
      first := ⟨tagOf ip, c.clock + 1, even, odd⟩ })
  · have hage' : ¬ c.plain.clock + 1 - c.sets[setOf ip].first.plain.stamp ≥
        c.plain.clock + 1 - c.sets[setOf ip].second.plain.stamp := hage
    rw [if_neg hage, if_neg hage', hsecond, ok_bind]
    exact congrArg (· >>= _) (hstore { c.sets[setOf ip] with
      second := ⟨tagOf ip, c.clock + 1, even, odd⟩ })

theorem flush_plain (c : ClassCache) : c.plain.flush = c.flush.plain := by
  simp [PlainCache.flush, plain, flush]

end ClassCache

/-! ### The classifier -/

/-- The classifier with its tables in plain arrays. -/
structure PlainClassifier where
  /-- The networks. -/
  networks : PlainNetworks
  /-- The host tables. -/
  arena : Arena
  /-- Classes seen recently. -/
  cache : PlainCache

/-- The classifier in plain arrays. -/
def Classifier.plain (c : Classifier) : PlainClassifier :=
  ⟨c.networks.plain, c.arena, c.cache.plain⟩

namespace PlainClassifier

/-- The class of an address, from the cache if it is there. -/
def lookup (c : PlainClassifier) (ip : Address) : Checked (PlainClassifier × PolicyClass) :=
  match ip.split? with
  | none => return (c, 0)
  | some s => do
    match ← c.cache.probe ip with
    | (cache, some k) => return ({ c with cache }, k)
    | (cache, none) =>
      match ← c.networks.get? s.network with
      | none => return ({ c with cache }, 0)
      | some entry =>
        match ← c.arena.readPlain entry.table (s.host / 2 * 2) 2 with
        | .error _ => return ({ c with cache }, 0)
        | .ok classes =>
          let cache ← cache.fill ip classes
          let k ← fetch classes (PlainCache.parity ip)
          return ({ c with cache }, k)

/-- Take a host table of zeros, of the length that a network needs. -/
def alloc (c : PlainClassifier) (network : Address) :
    Checked (Except PolicyError (PlainClassifier × Slot)) :=
  match network.tableLen? with
  | none => return .error (.unsupportedAddress network)
  | some len => do
    match ← c.arena.allocPlain len with
    | .ok (arena, slot) => return .ok ({ c with arena }, slot)
    | .error _ => return .error .outOfMemory

/-- Write into a host table that is not installed yet. -/
def write (c : PlainClassifier) (slot : Slot) (offset : Nat) (data : Bytes) :
    Checked (Except ArenaError PlainClassifier) := do
  match ← c.arena.writePlain slot offset data with
  | .ok arena => return .ok { c with arena }
  | .error e => return .error e

/-- Give back a host table that is not installed. -/
def free (c : PlainClassifier) (slot : Slot) : Checked PlainClassifier :=
  return { c with arena := ← c.arena.releasePlain slot }

/-- Empty the cache. -/
def flush (c : PlainClassifier) : PlainClassifier := { c with cache := c.cache.flush }

/-- Make a host table that of a network, if there is room. -/
def install (c : PlainClassifier) (network : Address) (slot : Slot) :
    Checked (PlainClassifier × Except TableFull Unit) := do
  if !(← c.networks.canInsert network) then
    return (← c.free slot, .error ⟨c.networks.slots.size⟩)
  match ← c.networks.insert network slot with
  | .error e => return (c, .error e)
  | .ok (networks, none) => return (flush { c with networks }, .ok ())
  | .ok (networks, some old) =>
    let c ← free { c with networks } old
    return (c.flush, .ok ())

/-- Mark a network as persisted. -/
def markClean (c : PlainClassifier) (network : Address) : Checked PlainClassifier :=
  return { c with networks := ← c.networks.setDirty network false }

/-- Install a network from the image of its host table. -/
def load (c : PlainClassifier) (network : Address) (image : Bytes) :
    Checked (PlainClassifier × Except PolicyError Unit) :=
  match network.tableLen? with
  | none => return (c, .error (.unsupportedAddress network))
  | some expected => do
    if image.length ≠ expected then
      return (c, .error (.malformed (.hostTableLength network image.length expected)))
    match ← c.alloc network with
    | .error e => return (c, .error e)
    | .ok (c, slot) =>
      match ← c.write slot 0 image with
      | .error e => return (← c.free slot, .error (.malformed (.block e)))
      | .ok c =>
        match ← c.install network slot with
        | (c, .error e) => return (c, .error (.tableFull e))
        | (c, .ok ()) => return (← c.markClean network, .ok ())

/-- Remove a network and give its host table back; says whether it was there. -/
def release (c : PlainClassifier) (network : Address) : Checked (PlainClassifier × Bool) := do
  match ← c.networks.erase network with
  | (networks, some entry) =>
    let c ← free { c with networks } entry.table
    return (c.flush, true)
  | (networks, none) => return ({ c with networks }, false)

/-- A copy of the host table of a network. -/
def hostTable (c : PlainClassifier) (network : Address) : Checked (Except PolicyError Bytes) := do
  match ← c.networks.get? network with
  | none => return .error (.notLoaded network)
  | some entry =>
    match c.arena.blockLen entry.table with
    | .error e => return .error (.malformed (.block e))
    | .ok len =>
      match ← c.arena.readPlain entry.table 0 len with
      | .error e => return .error (.malformed (.block e))
      | .ok image => return .ok image

/-- The networks that changed since they were persisted, in table order. -/
def dirtyNetworks (c : PlainClassifier) : List Address :=
  ((c.networks.slots.toList.filterMap id).filter (·.dirty)).map (·.network)

end PlainClassifier

namespace Classifier

/-- Arena and network table are in order, and the network table has the slots that it was made
with. -/
structure Sturdy (c : Classifier) : Prop where
  /-- The arena is in order. -/
  arena : c.arena.WellFormed
  /-- So is the network table. -/
  networks : c.networks.WellFormed
  /-- It has 1024 slots. -/
  capacity : c.networks.capacity = 1024

variable {c c' : Classifier} {n : Address} {slot : Slot}

theorem sturdy_withCapacity (capacity : Nat) : (withCapacity capacity).Sturdy where
  arena := Arena.wellFormed_empty capacity
  networks := NetworkTable.wellFormed_withCapacity 1024
  capacity := by
    change NetworkTable.empty.capacity = 1024
    decide +kernel

theorem networks_plain (c : Classifier) : c.plain.networks = c.networks.plain := rfl

theorem arena_plain (c : Classifier) : c.plain.arena = c.arena := rfl

theorem cache_plain (c : Classifier) : c.plain.cache = c.cache.plain := rfl

theorem flush_plain (c : Classifier) : c.plain.flush = c.flush.plain := by
  rw [PlainClassifier.flush, cache_plain, ClassCache.flush_plain]
  rfl

namespace Sturdy

variable (h : c.Sturdy)

include h

/-- The cache does not matter. -/
theorem of_cache (hn : c'.networks = c.networks) (ha : c'.arena = c.arena) : c'.Sturdy :=
  ⟨ha ▸ h.arena, hn ▸ h.networks, hn ▸ h.capacity⟩

theorem lookup (ip : Address) : (c.lookup ip).1.Sturdy := by
  unfold Classifier.lookup
  repeat' split
  all_goals exact h.of_cache rfl rfl

/-- Looking up a host meets no fault. -/
theorem lookup_plain (ip : Address) :
    c.plain.lookup ip = .ok ((c.lookup ip).1.plain, (c.lookup ip).2) := by
  rw [PlainClassifier.lookup, Classifier.lookup]
  cases ip.split? with
  | none => rfl
  | some s =>
    simp only
    rw [cache_plain, ClassCache.probe_plain, ok_bind]
    rcases c.cache.probe ip with ⟨cache, _ | k⟩
    · simp only
      rw [networks_plain, h.networks.get?_plain h.capacity, ok_bind, pair?]
      cases c.networks.get? s.network with
      | none => rfl
      | some entry =>
        simp only [Option.bind_eq_bind, Option.bind_some]
        rw [arena_plain, Arena.readPlain_eq, ok_bind]
        cases hr : c.arena.read entry.table (s.host / 2 * 2) 2 with
        | error e => rfl
        | ok classes =>
          obtain ⟨block, ⟨-, hle⟩, rfl⟩ := Arena.read_eq_ok.mp hr
          obtain ⟨even, odd, hpair⟩ := List.length_eq_two.mp (Bytes.length_slice hle)
          rw [hpair]
          simp only
          rw [ClassCache.fill_plain, ok_bind, ClassCache.fetch_pair]
          rfl
    · rfl

/-- Giving a host table back meets no fault. -/
theorem free_plain (slot : Slot) :
    c.plain.free slot = .ok (c.free slot).plain ∧ (c.free slot).Sturdy := by
  obtain ⟨harena, -⟩ := Arena.release_spec h.arena slot
  refine ⟨?_, harena, h.networks, h.capacity⟩
  rw [PlainClassifier.free, arena_plain, h.arena.releasePlain_eq]
  rfl

/-- Taking a host table meets no fault. -/
theorem alloc_plain (n : Address) :
    c.plain.alloc n = .ok ((c.alloc n).map fun q => (q.1.plain, q.2)) ∧
      ∀ c' slot, c.alloc n = .ok (c', slot) → c'.Sturdy := by
  unfold PlainClassifier.alloc Classifier.alloc
  cases n.tableLen? with
  | none => exact ⟨rfl, by simp⟩
  | some len =>
    simp only
    rw [arena_plain, h.arena.allocPlain_eq, ok_bind]
    cases hr : c.arena.alloc len with
    | error e => exact ⟨rfl, by simp⟩
    | ok q =>
      obtain ⟨harena, -⟩ := Arena.alloc_spec h.arena hr
      refine ⟨rfl, ?_⟩
      rintro c' slot ⟨⟩
      exact ⟨harena, h.networks, h.capacity⟩

/-- Writing into a host table meets no fault. -/
theorem write_plain (slot : Slot) (offset : Nat) (data : Bytes) :
    c.plain.write slot offset data = .ok ((c.write slot offset data).map plain) ∧
      ∀ c', c.write slot offset data = .ok c' → c'.Sturdy := by
  rw [PlainClassifier.write, Classifier.write, arena_plain, Arena.writePlain_eq, ok_bind]
  cases hr : c.arena.write slot offset data with
  | error e => exact ⟨rfl, by rintro c' ⟨⟩⟩
  | ok arena =>
    obtain ⟨harena, -⟩ := Arena.write_spec h.arena hr
    refine ⟨rfl, ?_⟩
    rintro c' ⟨⟩
    exact ⟨harena, h.networks, h.capacity⟩

/-- Making a host table live meets no fault. -/
theorem install_plain (n : Address) (slot : Slot) :
    c.plain.install n slot = .ok ((c.install n slot).1.plain, (c.install n slot).2) ∧
      (c.install n slot).1.Sturdy := by
  have hinsert := h.networks.insert_plain h.capacity n slot
  unfold PlainClassifier.install Classifier.install
  rw [networks_plain, h.networks.canInsert_plain h.capacity, ok_bind, hinsert,
    NetworkTable.insert]
  cases hroom : c.networks.canInsert n with
  | false =>
    obtain ⟨hfree, hsturdy⟩ := h.free_plain slot
    simp only [Bool.not_false, if_true, Bool.false_eq_true, if_false]
    rw [hfree]
    exact ⟨rfl, hsturdy⟩
  | true =>
    obtain ⟨hwf, -, -, hcap⟩ := NetworkTable.place_spec h.networks hroom slot
    simp only [Bool.not_true, Bool.false_eq_true, if_false, if_true]
    rcases hp : c.networks.place n slot with ⟨networks, _ | old⟩
    all_goals
      rw [hp] at hwf hcap
      have hplaced : Sturdy { c with networks } := ⟨h.arena, hwf, hcap.trans h.capacity⟩
    · refine ⟨?_, hplaced.of_cache rfl rfl⟩
      change Except.ok ((plain { c with networks }).flush, _) = _
      rw [flush_plain]
    · -- the table that was live before is given back
      obtain ⟨hfree, hsturdy⟩ := hplaced.free_plain old
      refine ⟨?_, hsturdy.of_cache rfl rfl⟩
      change ((plain { c with networks }).free old >>= fun c => .ok (c.flush, _)) = _
      rw [hfree, ok_bind, flush_plain]

/-- Marking a network as persisted meets no fault. -/
theorem markClean_plain (n : Address) :
    c.plain.markClean n = .ok (c.markClean n).plain ∧ (c.markClean n).Sturdy := by
  refine ⟨?_, h.arena, h.networks.setDirty n false, ?_⟩
  · rw [PlainClassifier.markClean, networks_plain, h.networks.setDirty_plain h.capacity]
    rfl
  · exact (NetworkTable.capacity_setDirty c.networks n false).trans h.capacity

/-- Installing an image meets no fault. -/
theorem load_plain (n : Address) (image : Bytes) :
    c.plain.load n image = .ok ((c.load n image).1.plain, (c.load n image).2) ∧
      (c.load n image).1.Sturdy := by
  unfold PlainClassifier.load Classifier.load
  cases n.tableLen? with
  | none => exact ⟨rfl, h⟩
  | some expected =>
    by_cases hlen : image.length = expected
    · obtain ⟨halloc, hallocated⟩ := h.alloc_plain n
      simp only [hlen, ne_eq, not_true_eq_false, if_false]
      rw [halloc]
      rcases hr : c.alloc n with e | ⟨c₁, slot⟩
      · exact ⟨rfl, h⟩
      have h₁ := hallocated c₁ slot hr
      obtain ⟨hwrite, hwritten⟩ := h₁.write_plain slot 0 image
      rw [ok_bind]
      simp only [Except.map]
      rw [hwrite, ok_bind]
      rcases hw : c₁.write slot 0 image with e | c₂
      · obtain ⟨hfree, hfreed⟩ := h₁.free_plain slot
        refine ⟨?_, hfreed⟩
        simp only [Except.map]
        rw [hfree]
        rfl
      obtain ⟨hinstall, hinstalled⟩ := (hwritten c₂ hw).install_plain n slot
      simp only [Except.map]
      rw [hinstall, ok_bind]
      rcases hi : c₂.install n slot with ⟨c₃, e | ⟨⟩⟩
      · rw [hi] at hinstalled
        exact ⟨rfl, hinstalled⟩
      · rw [hi] at hinstalled
        obtain ⟨hclean, hcleaned⟩ := hinstalled.markClean_plain n
        refine ⟨?_, hcleaned⟩
        simp only
        rw [hclean]
        rfl
    · simp only [hlen, ne_eq, not_false_eq_true, if_true]
      exact ⟨rfl, h⟩

/-- Removing a network meets no fault. -/
theorem release_plain (n : Address) :
    c.plain.release n = .ok ((c.release n).1.plain, (c.release n).2) ∧
      (c.release n).1.Sturdy := by
  unfold PlainClassifier.release Classifier.release
  rw [networks_plain, h.networks.erase_plain h.capacity, ok_bind]
  rcases hr : c.networks.erase? n with _ | ⟨networks, entry⟩
  · exact ⟨rfl, h⟩
  · obtain ⟨hwf, -, -, hcap⟩ := NetworkTable.erase?_spec h.networks hr
    have hremoved : Sturdy { c with networks } := ⟨h.arena, hwf, hcap.trans h.capacity⟩
    obtain ⟨hfree, hsturdy⟩ := hremoved.free_plain entry.table
    refine ⟨?_, hsturdy.of_cache rfl rfl⟩
    change ((plain { c with networks }).free entry.table >>= fun c => .ok (c.flush, true)) = _
    rw [hfree, ok_bind, flush_plain]

/-- Copying a host table meets no fault. -/
theorem hostTable_plain (n : Address) : c.plain.hostTable n = .ok (c.hostTable n) := by
  rw [PlainClassifier.hostTable, networks_plain, h.networks.get?_plain h.capacity, ok_bind,
    Classifier.hostTable]
  cases c.networks.get? n with
  | none => rfl
  | some entry =>
    simp only
    rw [arena_plain, Arena.blockLen]
    cases hb : c.arena.block? entry.table with
    | none => rfl
    | some block =>
      -- the copy has the length of the block, so the block is copied whole
      have hread : c.arena.read entry.table 0 block.length = .ok block :=
        Arena.read_eq_ok.mpr ⟨block, ⟨hb, by simp⟩, by simp [Bytes.slice]⟩
      simp only
      rw [Arena.readPlain_eq, hread]
      rfl

end Sturdy

end Classifier

end FilterBridge
