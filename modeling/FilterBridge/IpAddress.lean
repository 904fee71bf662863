import FilterBridge.Address
import FilterBridge.Bytes

/-!
# Socket addresses as text

An IPv4 address is four decimal numbers with points between.  An IPv6 address is
eight hexadecimal groups with colons between, of which one run of zero groups may
be left out, and the last two groups may be written as an IPv4 address.  A socket
address adds a port, and puts an IPv6 address in brackets.

## Main definitions

* `IpAddress`, `SocketAddress` — the addresses.
* `IpAddress.parse?`, `SocketAddress.parse?` — addresses from text.
* `IpAddress.text`, `SocketAddress.text` — addresses as text.
-/

namespace FilterBridge

/-- The eight groups of an IPv6 address. -/
abbrev Ip6 := Vector UInt16 8

/-- An IP address of either version. -/
inductive IpAddress
  /-- An IPv4 address. -/
  | v4 (address : Address)
  /-- An IPv6 address. -/
  | v6 (groups : Ip6)
  deriving DecidableEq, Repr

/-- An address with a port. -/
inductive SocketAddress
  /-- An IPv4 address with a port. -/
  | v4 (address : Address) (port : UInt16)
  /-- An IPv6 address with its scope, 0 for none, and a port. -/
  | v6 (groups : Ip6) (scope : UInt32) (port : UInt16)
  deriving DecidableEq, Repr

instance : Inhabited SocketAddress := ⟨.v4 0 0⟩

/-! ### Reading -/

namespace IpText

/-- The value of a digit in a base up to sixteen. -/
def digitValue? (base : Nat) (c : Char) : Option Nat :=
  let v :=
    if '0' ≤ c && c ≤ '9' then c.toNat - 48
    else if 'a' ≤ c && c ≤ 'f' then c.toNat - 87
    else if 'A' ≤ c && c ≤ 'F' then c.toNat - 55
    else base
  if v < base then some v else none

/-- The number at the front of a text, and the text after it.  It has from one
to `maxDigits` digits and is at most `bound`; unless `zeros`, it may not start
with a zero that another digit follows. -/
def number? (base : Nat) (maxDigits : Option Nat) (zeros : Bool) (bound : Nat) (cs : List Char) :
    Option (Nat × List Char) :=
  let isDigit := fun c => (digitValue? base c).isSome
  let ds := cs.takeWhile isDigit
  let n := ds.foldl (fun n c => n * base + (digitValue? base c).getD 0) 0
  if ds = [] || maxDigits.any (· < ds.length) then none
  else if !zeros && ds.head? = some '0' && 1 < ds.length then none
  else if bound < n then none
  else some (n, cs.dropWhile isDigit)

/-- The text after the character `c`. -/
def after? (c : Char) : List Char → Option (List Char)
  | d :: cs => if d = c then some cs else none
  | [] => none

/-- One of four decimal numbers. -/
def octet? (cs : List Char) : Option (Nat × List Char) := number? 10 (some 3) false 255 cs

/-- An IPv4 address, and the text after it. -/
def ip4? (cs : List Char) : Option (Address × List Char) := do
  let (a, cs) ← octet? cs
  let (b, cs) ← octet? (← after? '.' cs)
  let (c, cs) ← octet? (← after? '.' cs)
  let (d, cs) ← octet? (← after? '.' cs)
  return (Bytes.u32 (.ofNat a) (.ofNat b) (.ofNat c) (.ofNat d), cs)

/-- The text after the colon that stands before every group but the first. -/
def groupStart? (first : Bool) (cs : List Char) : Option (List Char) :=
  if first then some cs else after? ':' cs

/-- Up to `k` groups at the front of a text, whether they end in an IPv4 address,
and the text after them.  An IPv4 address takes the place of two groups. -/
def groups : Nat → Bool → List Char → List UInt16 × Bool × List Char
  | 0, _, cs => ([], false, cs)
  | k + 1, first, cs =>
    match if k = 0 then none else (groupStart? first cs).bind ip4? with
    | some (a, rest) => ([.ofNat (a.toNat / 65536), .ofNat a.toNat], true, rest)
    | none =>
      match (groupStart? first cs).bind (number? 16 (some 4) true 65535) with
      | some (g, rest) =>
        match groups k false rest with
        | (gs, dotted, rest) => (.ofNat g :: gs, dotted, rest)
      | none => ([], false, cs)

/-- The address with the given groups. -/
def ofGroups (gs : List UInt16) : Ip6 := Vector.ofFn fun i => gs.getD i 0

/-- An IPv6 address, and the text after it.  Two colons stand for at least one
group of zeros. -/
def ip6? (cs : List Char) : Option (Ip6 × List Char) :=
  match groups 8 true cs with
  | (head, dotted, cs) =>
    if head.length = 8 then some (ofGroups head, cs)
    else if dotted then none
    else do
      let cs ← after? ':' (← after? ':' cs)
      match groups (7 - head.length) true cs with
      | (tail, _, cs) =>
        some (ofGroups (head ++ List.replicate (8 - head.length - tail.length) 0 ++ tail), cs)

/-- A port after its colon, and the text after it. -/
def port? (cs : List Char) : Option (UInt16 × List Char) := do
  let (n, cs) ← number? 10 none true 65535 (← after? ':' cs)
  return (.ofNat n, cs)

/-- A scope after its percent sign, and the text after it; no scope is 0. -/
def scope (cs : List Char) : UInt32 × List Char :=
  match (after? '%' cs).bind (number? 10 none true 4294967295) with
  | some (n, rest) => (.ofNat n, rest)
  | none => (0, cs)

/-- What was read, if nothing is left. -/
def whole? {α : Type} : Option (α × List Char) → Option α
  | some (a, []) => some a
  | _ => none

end IpText

/-- The address that a text spells. -/
def IpAddress.parse? (text : String) : Option IpAddress :=
  match IpText.ip4? text.toList with
  | some (a, rest) => IpText.whole? (some (v4 a, rest))
  | none => (IpText.whole? (IpText.ip6? text.toList)).map v6

/-- An IPv4 address and a port, and the text after them. -/
def SocketAddress.parse4? (cs : List Char) : Option (SocketAddress × List Char) := do
  let (a, cs) ← IpText.ip4? cs
  let (p, cs) ← IpText.port? cs
  return (v4 a p, cs)

/-- An IPv6 address in brackets and a port, and the text after them. -/
def SocketAddress.parse6? (cs : List Char) : Option (SocketAddress × List Char) := do
  let (gs, cs) ← IpText.ip6? (← IpText.after? '[' cs)
  let (s, cs) := IpText.scope cs
  let (p, cs) ← IpText.port? (← IpText.after? ']' cs)
  return (v6 gs s p, cs)

/-- The socket address that a text spells. -/
def SocketAddress.parse? (text : String) : Option SocketAddress :=
  IpText.whole? ((parse4? text.toList).orElse fun _ => parse6? text.toList)

/-! ### Writing -/

namespace IpText

/-- The hexadecimal digits of a number below `16 ^ fuel`, with no zero before
them. -/
def hexDigits : Nat → Nat → List Char
  | 0, _ => []
  | fuel + 1, n => if n < 16 then [Hex.digit n] else hexDigits fuel (n / 16) ++ [Hex.digit (n % 16)]

/-- Groups with colons between. -/
def colonText (gs : List UInt16) : String :=
  ":".intercalate (gs.map fun g => String.ofList (hexDigits 4 g.toNat))

/-- The length of the run of zeros at the front of a list. -/
def zeroRun (gs : List UInt16) : Nat := (gs.takeWhile (· = 0)).length

/-- Where the longest run of zeros in a list starts, and how long it is; of
equally long runs the first. -/
def longestRun : List UInt16 → Nat × Nat
  | [] => (0, 0)
  | g :: gs =>
    let here := zeroRun (g :: gs)
    match longestRun gs with
    | (start, length) => if length ≤ here then (0, here) else (start + 1, length)

/-- An IPv6 address as text.  The longest run of more than one zero group is left
out, and an IPv4 address embedded behind `ffff` is written with points. -/
def text6 (a : Ip6) : String :=
  let gs := a.toList
  match gs with
  | [0, 0, 0, 0, 0, 0xffff, hi, lo] =>
    "::ffff:" ++ Address.dotted (.ofNat (hi.toNat * 65536 + lo.toNat))
  | _ =>
    match longestRun gs with
    | (start, length) =>
      if 1 < length then colonText (gs.take start) ++ "::" ++ colonText (gs.drop (start + length))
      else colonText gs

end IpText

/-- An address as text. -/
def IpAddress.text : IpAddress → String
  | v4 a => a.dotted
  | v6 gs => IpText.text6 gs

/-- A socket address as text. -/
def SocketAddress.text : SocketAddress → String
  | v4 a p => s!"{a.dotted}:{p.toNat}"
  | v6 gs s p =>
    if s = 0 then s!"[{IpText.text6 gs}]:{p.toNat}"
    else s!"[{IpText.text6 gs}%{s.toNat}]:{p.toNat}"

end FilterBridge
