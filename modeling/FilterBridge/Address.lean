import FilterBridge.Hex

/-!
# Addresses and their classes

An IPv4 address is a 32-bit word in host order.  Its leading bits give its
class; only class B and C networks carry host tables, so only their addresses
split into a network and a host number.

## Main definitions

* `Address`, `AddressClass`, `Address.classOf` — addresses and their classes.
* `HostSplit`, `Address.split?` — the network and host number of an address.
* `Address.tableLen?` — the number of hosts of the network of an address.
* `Address.dotted`, `Address.hex` — an address as text.

A split puts the address together again (`Address.network_add_host`) and its
network number splits into itself (`Address.split?_network`).
-/

namespace FilterBridge

/-- An IPv4 address. -/
abbrev Address := UInt32

/-- The class of hosts that have no entry in a host table. -/
abbrev PolicyClass := UInt8

/-- The classes of addresses, by leading bits. -/
inductive AddressClass
  /-- The lower half of all addresses. -/
  | a
  /-- Networks of 65536 hosts. -/
  | b
  /-- Networks of 256 hosts. -/
  | c
  /-- Multicast groups. -/
  | d
  /-- Reserved addresses. -/
  | e
  deriving DecidableEq, Repr, Inhabited

/-- The letter of a class. -/
def AddressClass.letter : AddressClass → String
  | a => "A"
  | b => "B"
  | c => "C"
  | d => "D"
  | e => "E"

/-- An address as its network, its number among the hosts of that network, and
the number of those hosts. -/
structure HostSplit where
  /-- The address with its host bits cleared. -/
  network : Address
  /-- The host bits. -/
  host : Nat
  /-- How many hosts the network has, which is the length of its host table. -/
  tableLen : Nat
  deriving DecidableEq, Repr

namespace Address

/-- The class of an address. -/
def classOf (ip : Address) : AddressClass :=
  let lead := ip.toNat / 268435456
  if lead < 8 then .a else if lead < 12 then .b else if lead < 14 then .c
  else if lead = 14 then .d else .e

/-- The address split after its last `tableLen` host numbers. -/
def splitAt (ip : Address) (tableLen : Nat) : HostSplit where
  network := .ofNat (ip.toNat / tableLen * tableLen)
  host := ip.toNat % tableLen
  tableLen := tableLen

/-- The network and host number of a class B or C address. -/
def split? (ip : Address) : Option HostSplit :=
  match ip.classOf with
  | .b => some (ip.splitAt 65536)
  | .c => some (ip.splitAt 256)
  | _ => none

/-- The length of the host table of the network that an address is on. -/
def tableLen? (ip : Address) : Option Nat := ip.split?.map (·.tableLen)

/-- Whether an address is a network number: of class B or C, with no host bit. -/
def IsNetwork (ip : Address) : Prop := ∃ s, ip.split? = some s ∧ s.network = ip

/-- The four bytes of an address in decimal, with points between. -/
def dotted (ip : Address) : String :=
  let n := ip.toNat
  s!"{n / 16777216}.{n / 65536 % 256}.{n / 256 % 256}.{n % 256}"

/-- An address as a hexadecimal number of eight digits. -/
def hex (ip : Address) : String := "0x" ++ Hex.word ip

/-! ### The split -/

theorem split?_eq_some {ip : Address} {s : HostSplit} (h : ip.split? = some s) :
    (s.tableLen = 65536 ∨ s.tableLen = 256) ∧ s = ip.splitAt s.tableLen := by
  unfold split? at h
  split at h <;> simp_all [splitAt]
  all_goals subst h; simp

theorem host_lt {ip : Address} {s : HostSplit} (h : ip.split? = some s) :
    s.host < s.tableLen := by
  obtain ⟨hl, hs⟩ := split?_eq_some h
  rw [hs]
  rcases hl with hl | hl <;> simp only [splitAt, hl] <;> omega

theorem network_add_host {ip : Address} {s : HostSplit} (h : ip.split? = some s) :
    s.network.toNat + s.host = ip.toNat := by
  obtain ⟨hl, hs⟩ := split?_eq_some h
  have := ip.toNat_lt
  rw [hs]
  rcases hl with hl | hl <;> simp only [splitAt, hl, UInt32.toNat_ofNat'] <;> omega

theorem classOf_splitAt (ip : Address) {n : Nat} (hn : n = 65536 ∨ n = 256) :
    (ip.splitAt n).network.classOf = ip.classOf := by
  have := ip.toNat_lt
  have h : (ip.splitAt n).network.toNat / 268435456 = ip.toNat / 268435456 := by
    rcases hn with rfl | rfl <;> simp only [splitAt, UInt32.toNat_ofNat'] <;> omega
  simp only [classOf, h]

theorem splitAt_splitAt (ip : Address) {n : Nat} (hn : n = 65536 ∨ n = 256) :
    (ip.splitAt n).network.splitAt n = ⟨(ip.splitAt n).network, 0, n⟩ := by
  have := ip.toNat_lt
  simp only [splitAt, HostSplit.mk.injEq, and_true]
  constructor
  · apply UInt32.toNat_inj.mp
    rcases hn with rfl | rfl <;> simp only [UInt32.toNat_ofNat'] <;> omega
  · rcases hn with rfl | rfl <;> simp only [UInt32.toNat_ofNat'] <;> omega

/-- The network number of an address splits into itself and host 0. -/
theorem split?_network {ip : Address} {s : HostSplit} (h : ip.split? = some s) :
    s.network.split? = some ⟨s.network, 0, s.tableLen⟩ := by
  unfold split? at h ⊢
  split at h
  · rename_i hc
    obtain rfl := Option.some.inj h
    rw [classOf_splitAt ip (.inl rfl), hc]
    exact congrArg some (splitAt_splitAt ip (.inl rfl))
  · rename_i hc
    obtain rfl := Option.some.inj h
    rw [classOf_splitAt ip (.inr rfl), hc]
    exact congrArg some (splitAt_splitAt ip (.inr rfl))
  · simp at h

end Address

end FilterBridge
