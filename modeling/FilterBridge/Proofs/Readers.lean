import FilterBridge.Policy
import FilterBridge.Proofs.Faults
import FilterBridge.Proofs.Resealing

/-!
# Reading without a fault

Messages, datagrams and images of tables are read the way a program reads them: the length is
checked once, and then the bytes are taken one after another, with no further check.  The
first check is always enough, so no reader meets a fault, whatever the bytes, and each of them
reads what the filter reads.

## Main definitions

* `Header.read`, `Query.read`, `Release.read`, `Fragment.read` — messages.
* `Suite.sealBytes`, `Suite.openBytes` — datagrams.
* `PortList.read`, `ClassRules.read`, `Subnet.read`, `AllowRule.read` — images.
* `readRejectRules`, `readAllowRules`, `ClassRules.readImage`, `readClasses` — whole tables.

## Main results

* `Header.read_eq`, `Fragment.read_eq`, `PortList.read_eq`, … — readers meet no fault.
* `Suite.sealBytes_eq`, `Suite.openBytes_eq` — neither do sealing and opening.
-/

namespace FilterBridge

open Checked Fallible

/-! ### Messages -/

/-- Check that a message has enough bytes. -/
def need (bs : Bytes) (len : Nat) : Fallible MessageError Unit :=
  if bs.length < len then throw (.truncated len bs.length) else pure ()

theorem need_of_le {bs : Bytes} {len : Nat} (h : len ≤ bs.length) : need bs len = pure () :=
  if_neg (Nat.not_lt.mpr h)

/-- The header at the front of a datagram. -/
def Header.read (bs : Bytes) : Fallible MessageError Header := do
  need bs headerLen
  let (type, bs) ← takeU8 bs
  let (flags, bs) ← takeU8 bs
  let (nonce, bs) ← takeU16 bs
  let (checksum, _) ← takeU16 bs
  return ⟨type, flags, nonce, checksum⟩

theorem Header.read_eq (bs : Bytes) : read bs = whole ((parse bs).map Prod.fst) := by
  match bs with
  | [] | [_] | [_, _] | [_, _, _] | [_, _, _, _] | [_, _, _, _, _] => rfl
  | type :: flags :: n₁ :: n₀ :: c₁ :: c₀ :: payload =>
    rw [read, need_of_le (by simp [headerLen])]
    rfl

/-- The query in a payload. -/
def Query.read (bs : Bytes) : Fallible MessageError Query := do
  need bs len
  let (kind, bs) ← takeU8 bs
  let (arg, _) ← takeU32 bs
  return ⟨kind, arg⟩

theorem Query.read_eq (bs : Bytes) : read bs = whole (parse bs) := by
  match bs with
  | [] | [_] | [_, _] | [_, _, _] | [_, _, _, _] => rfl
  | kind :: a :: b :: c :: d :: rest =>
    rw [read, need_of_le (by simp [len])]
    rfl

/-- The request to release a table in a payload. -/
def Release.read (bs : Bytes) : Fallible MessageError Release := do
  need bs len
  let (kind, bs) ← takeU8 bs
  let (index, _) ← takeU32 bs
  return ⟨kind, index⟩

theorem Release.read_eq (bs : Bytes) : read bs = whole (parse bs) := by
  match bs with
  | [] | [_] | [_, _] | [_, _, _] | [_, _, _, _] => rfl
  | kind :: a :: b :: c :: d :: rest =>
    rw [read, need_of_le (by simp [len])]
    rfl

/-- The part of a table that a payload consists of. -/
def Fragment.read (bs : Bytes) : Fallible MessageError Fragment := do
  need bs headLen
  let (kind, bs) ← takeU8 bs
  let (flags, bs) ← takeU8 bs
  let (index, bs) ← takeU32 bs
  let (offset, bs) ← takeU32 bs
  let (length, data) ← takeU16 bs
  if length.toNat = data.length then return ⟨kind, flags, index, offset, data⟩
  else throw (.lengthMismatch length.toNat data.length)

theorem Fragment.read_eq (bs : Bytes) : read bs = whole (parse bs) := by
  match bs with
  | [] | [_] | [_, _] | [_, _, _] | [_, _, _, _] | [_, _, _, _, _] | [_, _, _, _, _, _]
  | [_, _, _, _, _, _, _] | [_, _, _, _, _, _, _, _] | [_, _, _, _, _, _, _, _, _]
  | [_, _, _, _, _, _, _, _, _, _] | [_, _, _, _, _, _, _, _, _, _, _] => rfl
  | kind :: flags :: i₃ :: i₂ :: i₁ :: i₀ :: o₃ :: o₂ :: o₁ :: o₀ :: l₁ :: l₀ :: data =>
    rw [read, need_of_le (by simp [headLen]), parse]
    show (if _ then _ else _) = whole (if _ then _ else _)
    by_cases hlen : (Bytes.u16 l₁ l₀).toNat = data.length
    · rw [if_pos hlen, if_pos hlen]
      rfl
    · rw [if_neg hlen, if_neg hlen]
      rfl

/-! ### Datagrams -/

/-- The sum of the words of a byte string, one piece of two bytes after another. -/
def sumWords : Bytes → Checked Nat
  | [] => return 0
  | [b] => return b.toNat * 256
  | b₁ :: b₀ :: rest => do
    let word := [b₁, b₀]
    let high ← fetch word 0
    let low ← fetch word 1
    return high.toNat * 256 + low.toNat + (← sumWords rest)

theorem sumWords_eq : ∀ bs : Bytes, sumWords bs = .ok (wordSum bs)
  | [] => rfl
  | [_] => rfl
  | b₁ :: b₀ :: rest => by
    rw [sumWords, sumWords_eq rest]
    rfl

/-- The checksum of the part of a datagram that is under checksum. -/
def bodySum (datagram : Bytes) : Checked UInt16 := do
  let body ← cut datagram clearLen datagram.length
  return .ofNat (65535 - fold (← sumWords body))

theorem bodySum_eq {datagram : Bytes} (h : clearLen ≤ datagram.length) :
    bodySum datagram = .ok (checksum (datagram.drop clearLen) none) := by
  rw [bodySum, cut_length h, ok_bind, sumWords_eq, ok_bind, checksum, Option.map_none,
    Option.getD_none, Nat.zero_add]
  rfl

/-- A header has more than its flags. -/
theorem Header.clearLen_le (h : Header) (payload : Bytes) :
    clearLen ≤ (h.encode ++ payload).length := by
  rw [List.length_append, length_encode]
  exact Nat.le_add_right_of_le (by decide)

/-- What follows the header is cut off. -/
theorem Header.cut_of_parse {bs payload : Bytes} {h : Header}
    (hp : parse bs = .ok (h, payload)) : cut bs headerLen bs.length = .ok payload := by
  have heq := encode_of_parse hp
  have hle : headerLen ≤ bs.length := by
    rw [← heq, List.length_append, length_encode]
    exact Nat.le_add_right _ _
  rw [cut_length hle]
  conv_lhs => rw [← heq, List.drop_left' (length_encode h)]

namespace Suite

/-- Where the checksum of a datagram is. -/
def checksumAt : Nat := 4

/-- A datagram is built in place: its checksum is entered, and then the part after the flags is
encrypted. -/
def sealBytes (s : Suite) (key : Option SessionKey) (type : MessageType) (flags : UInt8)
    (nonce : UInt16) (payload : Bytes) : Checked Bytes := do
  let datagram := Header.encode ⟨type.toByte, flags, nonce, 0⟩ ++ payload
  let sum ← bodySum datagram
  let datagram ← paste datagram checksumAt headerLen (Bytes.ofU16 sum)
  match cipherKey key type.toByte with
  | none => return datagram
  | some k =>
    let body ← cut datagram clearLen datagram.length
    return datagram.take clearLen ++ s.encrypt k body

theorem sealBytes_eq (s : Suite) (key : Option SessionKey) (type : MessageType) (flags : UInt8)
    (nonce : UInt16) (payload : Bytes) :
    s.sealBytes key type flags nonce payload =
      .ok (s.sealMessage key type flags nonce payload) := by
  have hsum := bodySum_eq (Header.clearLen_le ⟨type.toByte, flags, nonce, 0⟩ payload)
  have hpaste : ∀ sum : UInt16,
      paste (Header.encode ⟨type.toByte, flags, nonce, 0⟩ ++ payload) checksumAt headerLen
        (Bytes.ofU16 sum) = .ok (Header.encode ⟨type.toByte, flags, nonce, sum⟩ ++ payload) := by
    intro sum
    have hroom : checksumAt + (Bytes.ofU16 sum).length ≤
        (Header.encode ⟨type.toByte, flags, nonce, 0⟩ ++ payload).length := by
      simp [checksumAt, headerLen]
    exact paste_of_le hroom
  rw [sealBytes, hsum, ok_bind, hpaste, ok_bind]
  unfold sealMessage
  cases cipherKey key type.toByte with
  | none => rfl
  | some k =>
    simp only [cut_length (Header.clearLen_le _ payload)]
    rfl

/-- The part of a datagram after the flags is decrypted in place. -/
def decryptBytes (s : Suite) (key : Option SessionKey) (type : UInt8) (datagram : Bytes) :
    Checked Bytes :=
  match cipherKey key type with
  | none => return datagram
  | some k => do
    let body ← cut datagram clearLen datagram.length
    return datagram.take clearLen ++ s.decrypt k body

theorem decryptBytes_eq (s : Suite) (key : Option SessionKey) (h : Header) (body : Bytes) :
    s.decryptBytes key h.type (h.encode ++ body) = .ok (s.plain key (h.encode ++ body)) ∧
      clearLen ≤ (s.plain key (h.encode ++ body)).length := by
  have hplain : s.plain key (h.encode ++ body) =
      (cipherKey key h.type).elim (h.encode ++ body) fun k =>
        (h.encode ++ body).take clearLen ++ s.decrypt k ((h.encode ++ body).drop clearLen) := by
    have hhead : (h.encode ++ body).head? = some h.type := rfl
    rw [plain, hhead, Option.bind_some]
    cases cipherKey key h.type <;> rfl
  rw [hplain, decryptBytes]
  cases cipherKey key h.type with
  | none => exact ⟨rfl, h.clearLen_le body⟩
  | some k =>
    simp only
    rw [cut_length (h.clearLen_le body)]
    refine ⟨rfl, ?_⟩
    rw [Option.elim_some, List.length_append, List.length_take_of_le (h.clearLen_le body)]
    exact Nat.le_add_right _ _

/-- The checksum of a decrypted datagram is compared, and its header is read once more. -/
def checkBytes (plain : Bytes) : Fallible MessageError (Header × Bytes) := do
  let sum ← bodySum plain
  if sum ≠ 0 then throw .checksum
  let h ← Header.read plain
  let payload ← cut plain headerLen plain.length
  return (h, payload)

theorem checkBytes_eq {plain : Bytes} (h : clearLen ≤ plain.length) :
    checkBytes plain =
      whole (if verifies plain then Header.parse plain else .error .checksum) := by
  rw [checkBytes, bodySum_eq h, verifies, Header.read_eq]
  by_cases hsum : checksum (plain.drop clearLen) none = 0
  · rw [decide_eq_true hsum, if_pos rfl, hsum]
    cases hp : Header.parse plain with
    | error e => rfl
    | ok q =>
      rw [Header.cut_of_parse hp]
      rfl
  · rw [decide_eq_false hsum, if_neg (by decide), lift_ok, pure_bind, if_pos hsum]
    rfl

/-- A datagram is decrypted, checked and read. -/
def openBytes (s : Suite) (key : Option SessionKey) (datagram : Bytes) :
    Fallible MessageError (Header × Bytes) := do
  let h ← Header.read datagram
  let plain ← s.decryptBytes key h.type datagram
  checkBytes plain

theorem openBytes_eq (s : Suite) (key : Option SessionKey) (datagram : Bytes) :
    s.openBytes key datagram = whole (s.openMessage key datagram) := by
  rw [openBytes, openMessage, Header.read_eq]
  cases hp : Header.parse datagram with
  | error e => rfl
  | ok q =>
    obtain ⟨h, body⟩ := q
    obtain rfl := Header.encode_of_parse hp
    obtain ⟨hdecrypt, hle⟩ := s.decryptBytes_eq key h body
    show (liftM (s.decryptBytes key h.type (h.encode ++ body)) >>= checkBytes) =
      whole (if verifies (s.plain key (h.encode ++ body)) then _ else _)
    rw [hdecrypt, lift_ok, pure_bind, checkBytes_eq hle]

end Suite

/-! ### Images of tables -/

/-- The next `n` rows of a port list.  Those after a final row are read, but do not count. -/
def PortList.readRows : Nat → (final : Bool) → Bytes → Checked (List PortRange × Bytes)
  | 0, _, bs => return ([], bs)
  | n + 1, final, bs => do
    let (first, bs) ← takeU16 bs
    let (last, bs) ← takeU16 bs
    let row : PortRange := ⟨first, last⟩
    let (rows, bs) ← readRows n (final || row.isFinal) bs
    return (if final then rows else row :: rows, bs)

/-- The port list whose image starts a byte string, and the bytes after it. -/
def PortList.read (bs : Bytes) : Fallible TableFault (PortList × Bytes) := do
  if bs.length < imageLen then throw (.shortPortList bs.length)
  let (rows, bs) ← readRows maxRows false bs
  return (⟨rows⟩, bs)

theorem PortList.readRows_cons (n : Nat) (final : Bool) (a b c d : UInt8) (bs : Bytes) :
    readRows (n + 1) final (a :: b :: c :: d :: bs) =
      readRows n (final || (⟨Bytes.u16 a b, Bytes.u16 c d⟩ : PortRange).isFinal) bs >>= fun q =>
        .ok (if final then q.1 else ⟨Bytes.u16 a b, Bytes.u16 c d⟩ :: q.1, q.2) := rfl

theorem PortList.readRows_final : ∀ (n : Nat) (bs : Bytes), 4 * n ≤ bs.length →
    readRows n true bs = .ok ([], bs.drop (4 * n))
  | 0, _, _ => rfl
  | n + 1, a :: b :: c :: d :: bs, h => by
    rw [readRows_cons, Bool.true_or, readRows_final n bs (by simpa [Nat.mul_succ] using h)]
    rfl

theorem PortList.readRows_eq : ∀ (n : Nat) (bs : Bytes), 4 * n ≤ bs.length →
    readRows n false bs = .ok (rowsOf (bs.take (4 * n)), bs.drop (4 * n))
  | 0, _, _ => rfl
  | n + 1, a :: b :: c :: d :: bs, h => by
    have hn : 4 * n ≤ bs.length := by simpa [Nat.mul_succ] using h
    have htake : (a :: b :: c :: d :: bs).take (4 * (n + 1)) =
        a :: b :: c :: d :: bs.take (4 * n) := rfl
    rw [readRows_cons, Bool.false_or, htake, rowsOf]
    -- only the rows up to the final one count, but all of them are read
    cases hf : (⟨Bytes.u16 a b, Bytes.u16 c d⟩ : PortRange).isFinal with
    | true =>
      rw [readRows_final n bs hn]
      rfl
    | false =>
      rw [readRows_eq n bs hn]
      rfl

theorem PortList.read_eq (bs : Bytes) : read bs = whole (decode bs) := by
  have htake : (bs.take imageLen).length < imageLen ↔ bs.length < imageLen := by
    rw [List.length_take]
    omega
  rw [read, decode]
  simp only [htake]
  by_cases hshort : bs.length < imageLen
  · rw [if_pos hshort, if_pos hshort]
    rfl
  · rw [if_neg hshort, if_neg hshort, readRows_eq maxRows bs (Nat.not_lt.mp hshort)]
    rfl

/-- The class whose image starts a byte string, and the bytes after it. -/
def ClassRules.read (bs : Bytes) : Fallible TableFault (ClassRules × Bytes) := do
  let (inbound, bs) ← PortList.read bs
  let (outbound, bs) ← PortList.read bs
  let (source, bs) ← PortList.read bs
  let (udp, bs) ← PortList.read bs
  return ({ inbound, outbound, source, udp }, bs)

theorem ClassRules.read_eq (bs : Bytes) : read bs = whole (decode bs) := by
  simp only [read, decode, PortList.read_eq, whole_bind, whole_pure]

/-- Number and mask of a network. -/
def Subnet.readBoth (bs : Bytes) : Checked (Subnet × Bytes) := do
  let (network, bs) ← takeU32 bs
  let (mask, bs) ← takeU32 bs
  return (⟨network, mask⟩, bs)

theorem Subnet.exists_readBoth {bs : Bytes} (h : imageLen ≤ bs.length) :
    ∃ q, readBoth bs = .ok q ∧ decode? bs = some q :=
  match bs, h with
  | _ :: _ :: _ :: _ :: _ :: _ :: _ :: _ :: _, _ => ⟨_, rfl, rfl⟩

/-- A rule of the reject list, and the bytes after it. -/
def Subnet.read (bs : Bytes) : Fallible TableFault (Subnet × Bytes) := do
  if bs.length < imageLen then throw .shortRejectRule
  readBoth bs

theorem Subnet.read_eq (bs : Bytes) : read bs = whole (decode bs) := by
  rw [read, decode]
  by_cases hshort : bs.length < imageLen
  · match bs, hshort with
    | [], _ | [_], _ | [_, _], _ | [_, _, _], _ | [_, _, _, _], _ | [_, _, _, _, _], _
    | [_, _, _, _, _, _], _ | [_, _, _, _, _, _, _], _ => rfl
  · obtain ⟨q, hread, hdecode⟩ := exists_readBoth (Nat.not_lt.mp hshort)
    rw [if_neg hshort, hread, hdecode]
    rfl

/-- A rule of the allow list, and the bytes after it. -/
def AllowRule.read (bs : Bytes) : Fallible TableFault (AllowRule × Bytes) := do
  if bs.length < imageLen then throw .shortAllowRule
  let (subnet, bs) ← Subnet.readBoth bs
  let (ports, bs) ← PortList.read bs
  return (⟨subnet, ports⟩, bs)

theorem AllowRule.read_eq (bs : Bytes) : read bs = whole (decode bs) := by
  have htake : (bs.take imageLen).length < imageLen ↔ bs.length < imageLen := by
    rw [List.length_take]
    omega
  rw [read, decode]
  simp only [htake, PortList.read_eq]
  by_cases hshort : bs.length < imageLen
  · rw [if_pos hshort, if_pos hshort]
    rfl
  · rw [if_neg hshort, if_neg hshort]
    obtain ⟨q, hread, hdecode⟩ := Subnet.exists_readBoth
      (Nat.le_trans (by decide) (Nat.not_lt.mp hshort))
    rw [hread, hdecode]
    simp only [whole_bind]
    rfl

/-- Read up to `n` rules, up to one for network 0. -/
def readRules {α : Type} (subnet : α → Subnet) (read : Bytes → Fallible TableFault (α × Bytes)) :
    Nat → Bytes → Fallible TableFault (List α)
  | 0, _ => return []
  | n + 1, bs => do
    let (r, bs) ← read bs
    if (subnet r).network = 0 then return []
    return r :: (← readRules subnet read n bs)

theorem readRules_eq {α : Type} {subnet : α → Subnet}
    {read : Bytes → Fallible TableFault (α × Bytes)}
    {decode : Bytes → Except TableFault (α × Bytes)} (h : ∀ bs, read bs = whole (decode bs)) :
    ∀ (n : Nat) (bs : Bytes),
      readRules subnet read n bs = whole (decodeRules subnet decode n bs) := by
  intro n
  induction n with
  | zero => intro bs; rfl
  | succ n ih =>
    intro bs
    rw [readRules, decodeRules, h]
    cases decode bs with
    | error e => rfl
    | ok q =>
      obtain ⟨r, bs⟩ := q
      show (if _ then _ else _) = whole (if _ then _ else _)
      by_cases hz : (subnet r).network = 0
      · rw [if_pos hz, if_pos hz]
        rfl
      · rw [if_neg hz, if_neg hz, ih]
        cases decodeRules subnet decode n bs <;> rfl

/-- The reject list with the given image. -/
def readRejectRules (image : Bytes) : Fallible TableFault (List Subnet) := do
  whole (checkImage "reject" image rejectImageLen)
  readRules id Subnet.read maxRejectRules image

theorem readRejectRules_eq (image : Bytes) :
    readRejectRules image = whole (rejectRulesOfImage image) := by
  rw [readRejectRules, rejectRulesOfImage, whole_bind, readRules_eq Subnet.read_eq]

/-- The allow list with the given image. -/
def readAllowRules (image : Bytes) : Fallible TableFault (List AllowRule) := do
  whole (checkImage "allow" image allowImageLen)
  readRules (·.subnet) AllowRule.read maxAllowRules image

theorem readAllowRules_eq (image : Bytes) :
    readAllowRules image = whole (allowRulesOfImage image) := by
  rw [readAllowRules, allowRulesOfImage, whole_bind, readRules_eq AllowRule.read_eq]

/-- The class with the given image. -/
def ClassRules.readImage (image : Bytes) : Fallible TableFault ClassRules := do
  whole (checkImage "class" image imageLen)
  return (← read image).1

theorem ClassRules.readImage_eq (image : Bytes) : readImage image = whole (ofImage image) := by
  simp only [readImage, ofImage, read_eq, whole_bind, whole_pure]

/-- Read `n` classes, and put them after those that were read before. -/
def readClasses : Nat → Array ClassRules → Bytes → Fallible TableFault (Array ClassRules)
  | 0, classes, _ => return classes
  | n + 1, classes, bs => do
    let (c, bs) ← ClassRules.read bs
    readClasses n (classes.push c) bs

theorem readClasses_eq : ∀ (n : Nat) (classes : Array ClassRules) (bs : Bytes),
    readClasses n classes bs =
      whole ((Policy.decodeClasses n bs).map fun read => classes ++ read.toArray) := by
  intro n
  induction n with
  | zero =>
    intro classes bs
    simp only [readClasses, Policy.decodeClasses, Except.map, Array.append_empty]
    rfl
  | succ n ih =>
    intro classes bs
    rw [readClasses, Policy.decodeClasses, ClassRules.read_eq]
    cases ClassRules.decode bs with
    | error e => rfl
    | ok q =>
      obtain ⟨c, bs⟩ := q
      show readClasses n (classes.push c) bs = _
      rw [ih]
      simp only [bind, Except.bind]
      cases Policy.decodeClasses n bs with
      | error e => rfl
      | ok read => simp [whole, Except.map, pure, Except.pure]

end FilterBridge
