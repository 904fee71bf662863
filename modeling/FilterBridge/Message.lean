import FilterBridge.Bytes

/-!
# Management messages

A management datagram starts with a header of six bytes; its type says how the
payload is to be read.  Kinds, types and codes travel as single bytes.

## Main definitions

* `MessageType`, `ErrorCode`, `QueryKind`, `TableKind` — what single bytes mean,
  each with `toByte`, `ofByte?` and `name`.
* `Header`, `Query`, `Release`, `Fragment` — header and payloads, each with
  `encode` and `parse`.
* `encodeNetworks`, `parseNetworks?` — a list of networks in a reply.
* `MessageError` — why a message cannot be read.

Reading undoes writing (`Header.parse_encode`, `Query.parse_encode`,
`Release.parse_encode`, `Fragment.parse_encode`, `parseNetworks?_encode`).
-/

namespace FilterBridge

/-- Why a message cannot be read. -/
inductive MessageError
  /-- There are fewer bytes than the message has. -/
  | truncated (need present : Nat)
  /-- The length in the message is not that of the bytes after it. -/
  | lengthMismatch (declared actual : Nat)
  /-- The checksum does not hold. -/
  | checksum
  deriving DecidableEq, Repr, Inhabited

/-- The text of a message error. -/
def MessageError.message : MessageError → String
  | truncated need present => s!"truncated message: need {need} bytes, have {present}"
  | lengthMismatch declared actual => s!"length field says {declared}, {actual} bytes follow"
  | checksum => "checksum mismatch"

/-! ### Types of messages -/

/-- The types of messages. -/
inductive MessageType
  /-- Start of a key agreement. -/
  | sync
  /-- Answer to `sync`. -/
  | syncAck
  /-- Request to restart. -/
  | reboot
  /-- Answer to `reboot`. -/
  | rebootAck
  /-- Request to replace the password. -/
  | newKey
  /-- Answer to `newKey`. -/
  | newKeyAck
  /-- Request to read a table. -/
  | query
  /-- Answer to `query`. -/
  | queryAck
  /-- A part of a table to load. -/
  | load
  /-- Answer to `load`. -/
  | loadAck
  /-- Request to persist what changed. -/
  | write
  /-- Answer to `write`. -/
  | writeAck
  /-- Request to put a table back to its default. -/
  | release
  /-- Answer to `release`. -/
  | releaseAck
  /-- Request for the counters. -/
  | statistics
  /-- Answer to `statistics`. -/
  | statisticsAck
  /-- Refusal of any request. -/
  | error
  deriving DecidableEq, Repr, Inhabited

namespace MessageType

def toByte : MessageType → UInt8
  | sync => 1
  | syncAck => 2
  | reboot => 3
  | rebootAck => 4
  | newKey => 5
  | newKeyAck => 6
  | query => 7
  | queryAck => 8
  | load => 9
  | loadAck => 10
  | write => 11
  | writeAck => 12
  | release => 13
  | releaseAck => 14
  | statistics => 15
  | statisticsAck => 16
  | error => 17

def all : List MessageType :=
  [sync, syncAck, reboot, rebootAck, newKey, newKeyAck, query, queryAck, load, loadAck, write,
    writeAck, release, releaseAck, statistics, statisticsAck, error]

def ofByte? (b : UInt8) : Option MessageType := all.find? (·.toByte = b)

def name : MessageType → String
  | sync => "Sync"
  | syncAck => "SyncAck"
  | reboot => "Reboot"
  | rebootAck => "RebootAck"
  | newKey => "NewKey"
  | newKeyAck => "NewKeyAck"
  | query => "Query"
  | queryAck => "QueryAck"
  | load => "Load"
  | loadAck => "LoadAck"
  | write => "Write"
  | writeAck => "WriteAck"
  | release => "Release"
  | releaseAck => "ReleaseAck"
  | statistics => "Statistics"
  | statisticsAck => "StatisticsAck"
  | error => "Error"

@[simp] theorem ofByte?_toByte (t : MessageType) : ofByte? t.toByte = some t := by
  cases t <;> decide

/-- A byte that stands for a type is the byte of that type. -/
theorem toByte_of_ofByte? {b : UInt8} {type : MessageType} (h : ofByte? b = some type) :
    type.toByte = b := by
  have := List.find?_some h
  exact of_decide_eq_true this

theorem toByte_injective {s t : MessageType} (h : s.toByte = t.toByte) : s = t := by
  rw [← Option.some.injEq, ← ofByte?_toByte s, ← ofByte?_toByte t, h]

end MessageType

/-- Why a request is refused. -/
inductive ErrorCode
  /-- The network is not known or cannot be loaded. -/
  | noNetwork
  /-- There is no room for the table. -/
  | noMemory
  /-- A data file cannot be opened or removed. -/
  | dataFile
  /-- A data file cannot be written. -/
  | dataWrite
  /-- The password file cannot be opened. -/
  | passFile
  /-- The password file cannot be written. -/
  | passWrite
  /-- There is no valid session. -/
  | lostSync
  /-- The filter has a password and the other end has none. -/
  | secure
  /-- The other end has a password and the filter has none. -/
  | insecure
  /-- The request makes no sense. -/
  | command
  deriving DecidableEq, Repr, Inhabited

namespace ErrorCode

def toByte : ErrorCode → UInt8
  | noNetwork => 1
  | noMemory => 2
  | dataFile => 3
  | dataWrite => 4
  | passFile => 5
  | passWrite => 6
  | lostSync => 7
  | secure => 8
  | insecure => 9
  | command => 10

def all : List ErrorCode :=
  [noNetwork, noMemory, dataFile, dataWrite, passFile, passWrite, lostSync, secure, insecure,
    command]

def ofByte? (b : UInt8) : Option ErrorCode := all.find? (·.toByte = b)

def name : ErrorCode → String
  | noNetwork => "NoNetwork"
  | noMemory => "NoMemory"
  | dataFile => "DataFile"
  | dataWrite => "DataWrite"
  | passFile => "PassFile"
  | passWrite => "PassWrite"
  | lostSync => "LostSync"
  | secure => "Secure"
  | insecure => "Insecure"
  | command => "Command"

@[simp] theorem ofByte?_toByte (c : ErrorCode) : ofByte? c.toByte = some c := by
  cases c <;> decide

end ErrorCode

/-- What a query asks for. -/
inductive QueryKind
  | networks
  | host
  | reject
  | allow
  | classRules
  deriving DecidableEq, Repr, Inhabited

namespace QueryKind

def toByte : QueryKind → UInt8
  | networks => 1
  | host => 2
  | reject => 3
  | allow => 4
  | classRules => 5

def all : List QueryKind := [networks, host, reject, allow, classRules]

def ofByte? (b : UInt8) : Option QueryKind := all.find? (·.toByte = b)

def name : QueryKind → String
  | networks => "Networks"
  | host => "Host"
  | reject => "Reject"
  | allow => "Allow"
  | classRules => "Class"

@[simp] theorem ofByte?_toByte (k : QueryKind) : ofByte? k.toByte = some k := by
  cases k <;> decide

end QueryKind

/-- What is loaded or released. -/
inductive TableKind
  | network
  | classRules
  | reject
  | allow
  deriving DecidableEq, Repr, Inhabited

namespace TableKind

def toByte : TableKind → UInt8
  | network => 1
  | classRules => 2
  | reject => 3
  | allow => 4

def all : List TableKind := [network, classRules, reject, allow]

def ofByte? (b : UInt8) : Option TableKind := all.find? (·.toByte = b)

def name : TableKind → String
  | network => "Network"
  | classRules => "Class"
  | reject => "Reject"
  | allow => "Allow"

@[simp] theorem ofByte?_toByte (k : TableKind) : ofByte? k.toByte = some k := by
  cases k <;> decide

end TableKind

/-! ### The header -/

/-- The length of a header. -/
def headerLen : Nat := 6

/-- The length of a challenge. -/
def challengeLen : Nat := 16

/-- The length of the longest password. -/
def maxPasswordLen : Nat := 64

/-- How many bytes of a table one message may carry. -/
def maxFragmentLen : Nat := 1024

/-- The flag of a sender that has a password. -/
def passwordFlag : UInt8 := 1

/-- The start of a datagram. -/
structure Header where
  /-- The byte of the type. -/
  type : UInt8
  /-- The flags of the sender. -/
  flags : UInt8
  /-- A random number. -/
  nonce : UInt16
  /-- The checksum of all after the flags. -/
  checksum : UInt16
  deriving DecidableEq, Repr, Inhabited

namespace Header

/-- The bytes of a header. -/
def encode (h : Header) : Bytes :=
  h.type :: h.flags :: (Bytes.ofU16 h.nonce ++ Bytes.ofU16 h.checksum)

/-- The header of a datagram, and its payload. -/
def parse : Bytes → Except MessageError (Header × Bytes)
  | type :: flags :: n₁ :: n₀ :: c₁ :: c₀ :: payload =>
    .ok (⟨type, flags, Bytes.u16 n₁ n₀, Bytes.u16 c₁ c₀⟩, payload)
  | bs => .error (.truncated headerLen bs.length)

/-- Whether the sender has a password. -/
def passwordLoaded (h : Header) : Bool := h.flags &&& passwordFlag ≠ 0

@[simp] theorem length_encode (h : Header) : h.encode.length = headerLen := rfl

theorem parse_encode (h : Header) (payload : Bytes) :
    parse (h.encode ++ payload) = .ok (h, payload) := by
  simp only [encode, Bytes.ofU16, List.cons_append, List.nil_append, parse, Bytes.u16_ofU16]

end Header

/-! ### Payloads -/

/-- A request to read a table. -/
structure Query where
  /-- The byte of what is asked for. -/
  kind : UInt8
  /-- The address of a host or the number of a class. -/
  arg : UInt32
  deriving DecidableEq, Repr, Inhabited

namespace Query

/-- The length of a query. -/
def len : Nat := 5

/-- The bytes of a query. -/
def encode (q : Query) : Bytes := q.kind :: Bytes.ofU32 q.arg

/-- The query in a payload; what follows it does not count. -/
def parse : Bytes → Except MessageError Query
  | kind :: a :: b :: c :: d :: _ => .ok ⟨kind, Bytes.u32 a b c d⟩
  | bs => .error (.truncated len bs.length)

theorem parse_encode (q : Query) (rest : Bytes) : parse (q.encode ++ rest) = .ok q := by
  simp only [encode, Bytes.ofU32, List.cons_append, List.nil_append, parse, Bytes.u32_ofU32]

end Query

/-- A request to put a table back to its default. -/
structure Release where
  /-- The byte of the kind of table. -/
  kind : UInt8
  /-- The network, if it is a host table. -/
  index : UInt32
  deriving DecidableEq, Repr, Inhabited

namespace Release

/-- The length of the request. -/
def len : Nat := 5

/-- The bytes of the request. -/
def encode (r : Release) : Bytes := r.kind :: Bytes.ofU32 r.index

/-- The request in a payload; what follows it does not count. -/
def parse : Bytes → Except MessageError Release
  | kind :: a :: b :: c :: d :: _ => .ok ⟨kind, Bytes.u32 a b c d⟩
  | bs => .error (.truncated len bs.length)

theorem parse_encode (r : Release) (rest : Bytes) : parse (r.encode ++ rest) = .ok r := by
  simp only [encode, Bytes.ofU32, List.cons_append, List.nil_append, parse, Bytes.u32_ofU32]

end Release

/-- A part of a table to load. -/
structure Fragment where
  /-- The byte of the kind of table. -/
  kind : UInt8
  /-- Whether it is the first or the last part. -/
  flags : UInt8
  /-- The network or the number of the class. -/
  index : UInt32
  /-- Where the part belongs in the image of the table. -/
  offset : UInt32
  /-- The part. -/
  data : Bytes
  deriving DecidableEq, Repr, Inhabited

namespace Fragment

/-- The flag of a first part. -/
def beginFlag : UInt8 := 1

/-- The flag of a last part. -/
def endFlag : UInt8 := 2

/-- How many bytes stand before the data. -/
def headLen : Nat := 12

/-- Whether it is the first part. -/
def isBegin (f : Fragment) : Bool := f.flags &&& beginFlag ≠ 0

/-- Whether it is the last part. -/
def isEnd (f : Fragment) : Bool := f.flags &&& endFlag ≠ 0

/-- The bytes of a part; the length of its data is taken modulo `2 ^ 16`. -/
def encode (f : Fragment) : Bytes :=
  f.kind :: f.flags :: (Bytes.ofU32 f.index ++ Bytes.ofU32 f.offset ++
    Bytes.ofU16 (.ofNat f.data.length) ++ f.data)

/-- The part that a payload consists of. -/
def parse : Bytes → Except MessageError Fragment
  | kind :: flags :: i₃ :: i₂ :: i₁ :: i₀ :: o₃ :: o₂ :: o₁ :: o₀ :: l₁ :: l₀ :: data =>
    if (Bytes.u16 l₁ l₀).toNat = data.length then
      .ok ⟨kind, flags, Bytes.u32 i₃ i₂ i₁ i₀, Bytes.u32 o₃ o₂ o₁ o₀, data⟩
    else .error (.lengthMismatch (Bytes.u16 l₁ l₀).toNat data.length)
  | bs => .error (.truncated headLen bs.length)

/-- The payload that acknowledges a part. -/
def ack (f : Fragment) : Bytes := f.kind :: (Bytes.ofU32 f.index ++ Bytes.ofU32 f.offset)

theorem parse_encode {f : Fragment} (h : f.data.length < 65536) : parse f.encode = .ok f := by
  simp only [encode, Bytes.ofU32, Bytes.ofU16, List.cons_append, List.nil_append, parse,
    Bytes.u32_ofU32, Bytes.u16_ofU16]
  rw [if_pos (by rw [UInt16.toNat_ofNat', Nat.mod_eq_of_lt h])]

end Fragment

/-! ### Lists of networks -/

/-- The bytes of a list of networks; its length is taken modulo `2 ^ 16`. -/
def encodeNetworks (networks : List UInt32) : Bytes :=
  Bytes.ofU16 (.ofNat networks.length) ++ networks.flatMap Bytes.ofU32

/-- The 32-bit words that a byte string consists of, if nothing is left over. -/
def words32? : Bytes → Option (List UInt32)
  | [] => some []
  | a :: b :: c :: d :: rest => (words32? rest).map (Bytes.u32 a b c d :: ·)
  | _ => none

/-- The list of networks that a payload consists of. -/
def parseNetworks? : Bytes → Option (List UInt32)
  | l₁ :: l₀ :: rest =>
    if rest.length = (Bytes.u16 l₁ l₀).toNat * 4 then words32? rest else none
  | _ => none

theorem words32?_flatMap (ws : List UInt32) : words32? (ws.flatMap Bytes.ofU32) = some ws := by
  induction ws with
  | nil => rfl
  | cons w ws ih =>
    simp only [List.flatMap_cons, Bytes.ofU32, List.cons_append, List.nil_append, words32?,
      Bytes.u32_ofU32]
    exact congrArg (Option.map (w :: ·)) ih

theorem parseNetworks?_encode {networks : List UInt32} (h : networks.length < 65536) :
    parseNetworks? (encodeNetworks networks) = some networks := by
  have hlen : (networks.flatMap Bytes.ofU32).length = networks.length * 4 := by
    simp only [List.length_flatMap, Bytes.length_ofU32, List.map_const', List.sum_replicate_nat]
  simp only [encodeNetworks, Bytes.ofU16, List.cons_append, List.nil_append, parseNetworks?,
    Bytes.u16_ofU16]
  rw [UInt16.toNat_ofNat', Nat.mod_eq_of_lt h, if_pos hlen, words32?_flatMap]

end FilterBridge
