import FilterBridge.Classifier
import FilterBridge.Counters
import FilterBridge.Policy

/-!
# The state of the filter

## Main definitions

* `Firewall` — classification of hosts, policy and counters.
* `Firewall.report`, `Firewall.clearCounters` — the counters with the figures of
  the cache.
-/

namespace FilterBridge

/-- All that the filter knows. -/
structure Firewall where
  /-- The classes of hosts. -/
  classifier : Classifier := {}
  /-- The rules. -/
  policy : Policy := {}
  /-- The packet counters. -/
  counters : Counters := {}
  deriving Repr, Inhabited

namespace Firewall

/-- The state without any table, over an arena of the given capacity. -/
def withCapacity (capacity : Nat) : Firewall := { classifier := .withCapacity capacity }

/-- The class of an address. -/
def lookup (f : Firewall) (ip : Address) : Firewall × PolicyClass :=
  match f.classifier.lookup ip with
  | (classifier, k) => ({ f with classifier }, k)

/-- The counters at this moment. -/
def report (f : Firewall) : Report :=
  f.counters.report f.classifier.cache.accesses f.classifier.cache.misses

/-- Set all counters to zero, those of the cache too. -/
def clearCounters (f : Firewall) : Firewall :=
  { f with counters := {}, classifier := f.classifier.clearCacheCounts }

end Firewall

end FilterBridge
