import FilterBridge.Address

/-!
# The cache of host classes

The cache holds the classes of recently seen pairs of hosts, an even address and
the odd one after it.  A pair may lie in either of the two lines of its set.
When a new pair comes, the line that was used longer ago gives way; ages are
differences of a 32-bit clock, so they stay right when the clock rolls over.

## Main definitions

* `CacheLine`, `CacheSet`, `ClassCache` — the lines, the sets and the cache.
* `ClassCache.probe` — look an address up.
* `ClassCache.fill` — enter the classes of a pair.
* `ClassCache.flush` — empty every line.
-/

namespace FilterBridge

/-- The classes of a pair of hosts. -/
structure CacheLine where
  /-- The even address of the pair; 0 in an empty line. -/
  tag : Address := 0
  /-- The clock when the line was last used. -/
  stamp : UInt32 := 0
  /-- The class of the even address. -/
  even : PolicyClass := 0
  /-- The class of the odd address. -/
  odd : PolicyClass := 0
  deriving DecidableEq, Repr, Inhabited

/-- The two lines where a pair may lie. -/
structure CacheSet where
  /-- The line tried first. -/
  first : CacheLine := {}
  /-- The line tried second. -/
  second : CacheLine := {}
  deriving DecidableEq, Repr, Inhabited

/-- The cache: 4096 sets, a clock and counters. -/
structure ClassCache where
  /-- The sets. -/
  sets : Vector CacheSet 4096 := Vector.replicate 4096 {}
  /-- The number of probes and fills so far, modulo the word size. -/
  clock : UInt32 := 0
  /-- How many probes were counted. -/
  accesses : UInt64 := 0
  /-- How many of them found nothing. -/
  misses : UInt64 := 0
  deriving Repr, Inhabited

namespace CacheLine

/-- The class that a line gives to an address of its pair. -/
def classFor (l : CacheLine) (ip : Address) : PolicyClass :=
  if ip.toNat % 2 = 0 then l.even else l.odd

end CacheLine

namespace ClassCache

/-- The even address of the pair of an address. -/
def tagOf (ip : Address) : Address := .ofNat (ip.toNat / 2 * 2)

/-- The set of an address. -/
def setOf (ip : Address) : Fin 4096 := ⟨ip.toNat / 2 % 4096, Nat.mod_lt _ (by decide)⟩

/-- The class of an address, if its pair is in the cache.  A line found counts
as used now. -/
def probe (c : ClassCache) (ip : Address) : ClassCache × Option PolicyClass :=
  let now := c.clock + 1
  let c := { c with clock := now, accesses := c.accesses + 1 }
  let s := c.sets[setOf ip]
  if s.first.tag = tagOf ip then
    ({ c with sets := c.sets.set (setOf ip) { s with first := { s.first with stamp := now } } },
      some (s.first.classFor ip))
  else if s.second.tag = tagOf ip then
    ({ c with sets := c.sets.set (setOf ip) { s with second := { s.second with stamp := now } } },
      some (s.second.classFor ip))
  else ({ c with misses := c.misses + 1 }, none)

/-- Enter the classes of the pair of an address in place of the older line of
its set; of two equally old lines the first gives way. -/
def fill (c : ClassCache) (ip : Address) (even odd : PolicyClass) : ClassCache :=
  let now := c.clock + 1
  let s := c.sets[setOf ip]
  let line : CacheLine := { tag := tagOf ip, stamp := now, even, odd }
  let s := if now - s.first.stamp ≥ now - s.second.stamp
    then { s with first := line } else { s with second := line }
  { c with sets := c.sets.set (setOf ip) s, clock := now }

/-- Empty every line; clock and counters go on. -/
def flush (c : ClassCache) : ClassCache := { c with sets := Vector.replicate 4096 {} }

/-- Set the counters to zero. -/
def clearCounts (c : ClassCache) : ClassCache := { c with accesses := 0, misses := 0 }

end ClassCache

end FilterBridge
