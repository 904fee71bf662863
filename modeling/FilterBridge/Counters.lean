import FilterBridge.Bytes
import FilterBridge.Direction
import FilterBridge.Json

/-!
# Packet counters

The bridge counts what it receives, filters, forwards and drops.  A report puts
those counters and the two figures of the classification cache into the order
in which they travel.

## Main definitions

* `Counters` — the running counters, with one operation per event.
* `Report` — the counters at one moment, with the cache figures.
* `Report.toList`, `Report.ofList?` — a report as its eleven numbers.
* `Report.encode`, `Report.decode?` — a report as bytes, the one undoing the other
  (`Report.decode?_encode`).
* `Report.hitRate` — the part of the look-ups that the cache answered.
-/

namespace FilterBridge

/-- The running packet counters. -/
structure Counters where
  /-- Inbound packets denied. -/
  filteredIn : UInt64 := 0
  /-- Outbound packets denied. -/
  filteredOut : UInt64 := 0
  /-- Inbound frames handed to the inside driver. -/
  forwardedIn : UInt64 := 0
  /-- Outbound frames handed to the outside driver. -/
  forwardedOut : UInt64 := 0
  /-- Frames received on the inside interface. -/
  receivedInside : UInt64 := 0
  /-- Frames received on the outside interface. -/
  receivedOutside : UInt64 := 0
  /-- Frames sent by the inside driver. -/
  transmittedInside : UInt64 := 0
  /-- Frames sent by the outside driver. -/
  transmittedOutside : UInt64 := 0
  /-- Frames lost to a full queue or a failing driver. -/
  dropped : UInt64 := 0
  deriving DecidableEq, Repr, Inhabited

namespace Counters

/-- Count a frame received in the given direction. -/
def received (c : Counters) : Direction → Counters
  | .inbound => { c with receivedOutside := c.receivedOutside + 1 }
  | .outbound => { c with receivedInside := c.receivedInside + 1 }

/-- Count a packet denied in the given direction. -/
def filtered (c : Counters) : Direction → Counters
  | .inbound => { c with filteredIn := c.filteredIn + 1 }
  | .outbound => { c with filteredOut := c.filteredOut + 1 }

/-- Count a frame handed over and sent in the given direction. -/
def forwarded (c : Counters) : Direction → Counters
  | .inbound =>
    { c with forwardedIn := c.forwardedIn + 1, transmittedInside := c.transmittedInside + 1 }
  | .outbound =>
    { c with forwardedOut := c.forwardedOut + 1, transmittedOutside := c.transmittedOutside + 1 }

/-- Count a lost frame. -/
def drop (c : Counters) : Counters := { c with dropped := c.dropped + 1 }

end Counters

/-- All counters at one moment, in the order in which they travel. -/
structure Report where
  filteredIn : UInt64
  filteredOut : UInt64
  forwardedIn : UInt64
  forwardedOut : UInt64
  receivedInside : UInt64
  receivedOutside : UInt64
  transmittedInside : UInt64
  transmittedOutside : UInt64
  /-- Look-ups made in the classification cache. -/
  cacheAccesses : UInt64
  /-- Look-ups that the cache could not answer. -/
  cacheMisses : UInt64
  dropped : UInt64
  deriving DecidableEq, Repr, Inhabited

/-- The counters together with the figures of the classification cache. -/
def Counters.report (c : Counters) (accesses misses : UInt64) : Report where
  filteredIn := c.filteredIn
  filteredOut := c.filteredOut
  forwardedIn := c.forwardedIn
  forwardedOut := c.forwardedOut
  receivedInside := c.receivedInside
  receivedOutside := c.receivedOutside
  transmittedInside := c.transmittedInside
  transmittedOutside := c.transmittedOutside
  cacheAccesses := accesses
  cacheMisses := misses
  dropped := c.dropped

namespace Report

/-- The numbers of a report in travelling order. -/
def toList (r : Report) : List UInt64 :=
  [r.filteredIn, r.filteredOut, r.forwardedIn, r.forwardedOut, r.receivedInside,
    r.receivedOutside, r.transmittedInside, r.transmittedOutside, r.cacheAccesses,
    r.cacheMisses, r.dropped]

/-- The report with the given eleven numbers. -/
def ofList? : List UInt64 → Option Report
  | [a, b, c, d, e, f, g, h, i, j, k] => some ⟨a, b, c, d, e, f, g, h, i, j, k⟩
  | _ => none

@[simp] theorem ofList?_toList (r : Report) : ofList? r.toList = some r := rfl

@[simp] theorem length_toList (r : Report) : r.toList.length = 11 := rfl

/-- The names of the numbers of a report, in travelling order. -/
def fieldNames : List String :=
  ["filtered_in", "filtered_out", "forwarded_in", "forwarded_out", "received_inside",
    "received_outside", "transmitted_inside", "transmitted_outside", "cache_accesses",
    "cache_misses", "dropped"]

/-- A report as a JSON object, its fields in travelling order. -/
def toJson (r : Report) : Json :=
  .ofFields (List.zipWith (fun name n => (name, Json.ofNat n.toNat)) fieldNames r.toList)

/-- The share of look-ups answered by the cache, 0 before the first look-up. -/
def hitRate (r : Report) : Float :=
  if r.cacheAccesses = 0 then 0
  else (r.cacheAccesses - r.cacheMisses).toFloat / r.cacheAccesses.toFloat

/-! ### Bytes -/

/-- The bytes of a report: eleven 64-bit words. -/
def encode (r : Report) : Bytes := r.toList.flatMap Bytes.ofU64

/-- The 64-bit words that a byte string consists of, if nothing is left over. -/
def words? : Bytes → Option (List UInt64)
  | [] => some []
  | a :: b :: c :: d :: e :: f :: g :: h :: rest =>
    (words? rest).map (Bytes.u64 (Bytes.u32 a b c d) (Bytes.u32 e f g h) :: ·)
  | _ => none

/-- The report with the given bytes. -/
def decode? (bs : Bytes) : Option Report := (words? bs).bind ofList?

theorem words?_flatMap (ws : List UInt64) : words? (ws.flatMap Bytes.ofU64) = some ws := by
  induction ws with
  | nil => rfl
  | cons w ws ih =>
    simp only [List.flatMap_cons, Bytes.ofU64, Bytes.ofU32, List.cons_append, List.nil_append,
      words?, ih, Bytes.u32_ofU32, Bytes.u64_halves, Option.map_some]

@[simp] theorem decode?_encode (r : Report) : decode? r.encode = some r := by
  rw [decode?, encode, words?_flatMap, Option.bind_some, ofList?_toList]

end Report

end FilterBridge
