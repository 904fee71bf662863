import FilterBridge.Agent
import FilterBridge.Proofs.OrderedRules
import FilterBridge.Proofs.Resealing

/-!
# Formats are exact

What is sent from one end is read at the other.  Headers, queries and requests to release stand
at the front of a byte string, and whatever follows them does not count.  Parts of tables,
reports and lists of networks take all of it: they are read from the bytes that are written for
them and from no others.

Two formats carry a length in 16 bits.  A value that is too long for that can be written, but
its bytes are not read as that value.

## Main definitions

* `ReadsFront` — a format at the front of a byte string.
* `ReadsWhole` — a format of whole byte strings.

## Main results

* `Header.readsFront`, `Query.readsFront`, `Release.readsFront` — the formats at the front.
* `Fragment.readsWhole`, `Report.readsWhole`, `readsWhole_parseNetworks?` — the whole ones.
* `codecs_exact` — all of them, with what is refused.
-/

namespace FilterBridge

/-! ### Kinds of formats -/

/-- A format is read from the front of a byte string: what is read is what is written there, and
only a string that is too short is refused. -/
structure ReadsFront {α : Type} (len : Nat) (encode : α → Bytes)
    (parse : Bytes → Except MessageError α) : Prop where
  /-- What is read is what is written at the front. -/
  eq_ok_iff : ∀ bs v, parse bs = .ok v ↔ encode v <+: bs
  /-- What is refused is too short. -/
  eq_error_iff : ∀ bs e, parse bs = .error e ↔ bs.length < len ∧ e = .truncated len bs.length

/-- A format is read from whole byte strings: the bytes of a value that fits are read as that
value, and nothing else is read. -/
def ReadsWhole {α : Type} (Fits : α → Prop) (encode : α → Bytes) (parse? : Bytes → Option α) :
    Prop :=
  ∀ bs v, parse? bs = some v ↔ Fits v ∧ bs = encode v

/-- Reading undoes writing, and any bytes are refused or written. -/
theorem ReadsFront.of_cases {α : Type} {len : Nat} {encode : α → Bytes}
    {parse : Bytes → Except MessageError α} (hread : ∀ v rest, parse (encode v ++ rest) = .ok v)
    (hcases : ∀ bs, (bs.length < len ∧ parse bs = .error (.truncated len bs.length)) ∨
      len ≤ bs.length ∧ ∃ v, encode v <+: bs) : ReadsFront len encode parse where
  eq_ok_iff bs v := by
    constructor
    · intro hv
      obtain ⟨-, hshort⟩ | ⟨-, w, rest, rfl⟩ := hcases bs
      · rw [hshort] at hv
        cases hv
      · rw [hread, Except.ok.injEq] at hv
        exact ⟨rest, by rw [hv]⟩
    · rintro ⟨rest, rfl⟩
      exact hread v rest
  eq_error_iff bs e := by
    obtain ⟨hlt, hshort⟩ | ⟨hle, w, rest, rfl⟩ := hcases bs
    · rw [hshort, Except.error.injEq, and_iff_right hlt]
      exact eq_comm
    · rw [hread]
      exact ⟨nofun, fun h => absurd h.1 (Nat.not_lt.mpr hle)⟩

/-! ### Formats at the front -/

theorem Header.readsFront :
    ReadsFront headerLen encode fun bs => (parse bs).map Prod.fst := by
  refine .of_cases (fun h rest => by rw [parse_encode]; rfl) fun bs => ?_
  match bs with
  | [] | [_] | [_, _] | [_, _, _] | [_, _, _, _] | [_, _, _, _, _] =>
    exact .inl ⟨by simp [headerLen], rfl⟩
  | type :: flags :: n₁ :: n₀ :: c₁ :: c₀ :: payload =>
    refine .inr ⟨by simp [headerLen], ⟨type, flags, Bytes.u16 n₁ n₀, Bytes.u16 c₁ c₀⟩, payload, ?_⟩
    exact encode_of_parse rfl

theorem Query.readsFront : ReadsFront len encode parse := by
  refine .of_cases parse_encode fun bs => ?_
  match bs with
  | [] | [_] | [_, _] | [_, _, _] | [_, _, _, _] => exact .inl ⟨by simp [len], rfl⟩
  | kind :: a :: b :: c :: d :: rest =>
    refine .inr ⟨by simp [len], ⟨kind, Bytes.u32 a b c d⟩, rest, ?_⟩
    rw [encode, Bytes.ofU32_u32]
    rfl

theorem Release.readsFront : ReadsFront len encode parse := by
  refine .of_cases parse_encode fun bs => ?_
  match bs with
  | [] | [_] | [_, _] | [_, _, _] | [_, _, _, _] => exact .inl ⟨by simp [len], rfl⟩
  | kind :: a :: b :: c :: d :: rest =>
    refine .inr ⟨by simp [len], ⟨kind, Bytes.u32 a b c d⟩, rest, ?_⟩
    rw [encode, Bytes.ofU32_u32]
    rfl

/-! ### Parts of tables -/

namespace Fragment

/-- The bytes of a part are read as that part if its length fits into 16 bits; if it does not,
the length that they tell is a wrong one. -/
theorem parse_encode_eq (f : Fragment) :
    parse f.encode = if f.data.length ≤ 65535 then .ok f
      else .error (.lengthMismatch (f.data.length % 65536) f.data.length) := by
  by_cases hfits : f.data.length ≤ 65535
  · rw [if_pos hfits, parse_encode (Nat.lt_succ_of_le hfits)]
  · have htold : (UInt16.ofNat f.data.length).toNat = f.data.length % 65536 :=
      UInt16.toNat_ofNat'
    have hne : f.data.length % 65536 ≠ f.data.length := by omega
    simp only [encode, Bytes.ofU32, Bytes.ofU16, List.cons_append, List.nil_append, parse,
      Bytes.u16_ofU16]
    rw [if_neg hfits, htold, if_neg hne]

/-- Writing undoes reading. -/
theorem encode_of_parse {p : Bytes} {f : Fragment} (h : parse p = .ok f) :
    f.data.length ≤ 65535 ∧ p = f.encode := by
  unfold parse at h
  split at h
  · rename_i kind flags i₃ i₂ i₁ i₀ o₃ o₂ o₁ o₀ l₁ l₀ data
    split at h
    · rename_i hlen
      obtain rfl := Except.ok.inj h
      have hlt := (Bytes.u16 l₁ l₀).toNat_lt
      have htold : UInt16.ofNat data.length = Bytes.u16 l₁ l₀ := by
        rw [← hlen, UInt16.ofNat_toNat]
      refine ⟨by simp only; omega, ?_⟩
      simp only [encode, Bytes.ofU32_u32, htold, Bytes.ofU16_u16, List.cons_append,
        List.nil_append]
    · cases h
  · cases h

theorem readsWhole :
    ReadsWhole (fun f => f.data.length ≤ 65535) encode fun bs => (parse bs).toOption := by
  intro bs f
  constructor
  · intro h
    cases hp : parse bs with
    | error e => simp [hp, Except.toOption] at h
    | ok g =>
      obtain rfl : g = f := by simpa [hp, Except.toOption] using h
      exact encode_of_parse hp
  · rintro ⟨hfits, rfl⟩
    simp only [parse_encode_eq, if_pos hfits]
    rfl

end Fragment

/-! ### Words -/

/-- The bytes of a long word are those of its halves. -/
theorem Bytes.ofU64_u64 (hi lo : UInt32) : ofU64 (u64 hi lo) = ofU32 hi ++ ofU32 lo := by
  have := hi.toNat_lt
  have := lo.toNat_lt
  have hword : (u64 hi lo).toNat = hi.toNat * 4294967296 + lo.toNat := by
    simp only [u64, UInt64.toNat_ofNat']
    omega
  have hhigh : UInt32.ofNat ((u64 hi lo).toNat / 4294967296) = hi := by
    apply UInt32.toNat_inj.mp
    rw [hword, UInt32.toNat_ofNat']
    omega
  have hlow : UInt32.ofNat (u64 hi lo).toNat = lo := by
    apply UInt32.toNat_inj.mp
    rw [hword, UInt32.toNat_ofNat']
    omega
  rw [ofU64, hhigh, hlow]

/-- Short words are read from the bytes that are written for them, and from no others. -/
theorem words32?_eq_some_iff {bs : Bytes} {ws : List UInt32} :
    words32? bs = some ws ↔ bs = ws.flatMap Bytes.ofU32 := by
  constructor
  · intro hread
    fun_induction words32? bs generalizing ws with
    | case1 => rw [← Option.some.inj hread, List.flatMap_nil]
    | case2 a b c d rest ih =>
      obtain ⟨vs, hvs, rfl⟩ := Option.map_eq_some_iff.mp hread
      rw [List.flatMap_cons, ← ih hvs, Bytes.ofU32_u32]
      rfl
    | case3 => cases hread
  · rintro rfl
    exact words32?_flatMap ws

/-- Values of one width take that many bytes each. -/
theorem length_flatMap_of_width {α : Type} {encode : α → Bytes} {width : Nat}
    (hwidth : ∀ v, (encode v).length = width) (vs : List α) :
    (vs.flatMap encode).length = vs.length * width := by
  simp only [List.length_flatMap, hwidth, List.map_const', List.sum_replicate_nat]

/-- When every string of one width is a value, a string whose length is a multiple of that width
is a list of values. -/
theorem exists_flatMap_of_length {α : Type} {encode : α → Bytes} {width : Nat}
    (hall : ∀ bs : Bytes, bs.length = width → ∃ v, bs = encode v) {n : Nat} {bs : Bytes}
    (h : bs.length = n * width) : ∃ vs : List α, bs = vs.flatMap encode := by
  induction n generalizing bs with
  | zero =>
    rw [Nat.zero_mul] at h
    exact ⟨[], List.length_eq_zero_iff.mp h⟩
  | succ n ih =>
    rw [Nat.succ_mul] at h
    have hfirst : (bs.take width).length = width := by
      rw [List.length_take]
      omega
    have hrest : (bs.drop width).length = n * width := by
      rw [List.length_drop]
      omega
    obtain ⟨v, hv⟩ := hall _ hfirst
    obtain ⟨vs, hvs⟩ := ih hrest
    refine ⟨v :: vs, ?_⟩
    rw [List.flatMap_cons, ← hv, ← hvs, List.take_append_drop]

/-- Any four bytes are a short word. -/
theorem exists_ofU32 {bs : Bytes} (h : bs.length = 4) : ∃ w, bs = Bytes.ofU32 w := by
  match bs, h with
  | [a, b, c, d], _ => exact ⟨Bytes.u32 a b c d, (Bytes.ofU32_u32 a b c d).symm⟩

/-- Any eight bytes are a long word. -/
theorem exists_ofU64 {bs : Bytes} (h : bs.length = 8) : ∃ w, bs = Bytes.ofU64 w := by
  match bs, h with
  | [a, b, c, d, e, f, g, k], _ =>
    refine ⟨Bytes.u64 (Bytes.u32 a b c d) (Bytes.u32 e f g k), ?_⟩
    rw [Bytes.ofU64_u64, Bytes.ofU32_u32, Bytes.ofU32_u32]
    rfl

namespace Report

/-- Long words are read from the bytes that are written for them, and from no others. -/
theorem words?_eq_some_iff {bs : Bytes} {ws : List UInt64} :
    words? bs = some ws ↔ bs = ws.flatMap Bytes.ofU64 := by
  constructor
  · intro hread
    fun_induction words? bs generalizing ws with
    | case1 => rw [← Option.some.inj hread, List.flatMap_nil]
    | case2 a b c d e f g h rest ih =>
      obtain ⟨vs, hvs, rfl⟩ := Option.map_eq_some_iff.mp hread
      rw [List.flatMap_cons, ← ih hvs, Bytes.ofU64_u64, Bytes.ofU32_u32, Bytes.ofU32_u32]
      rfl
    | case3 => cases hread
  · rintro rfl
    exact words?_flatMap ws

/-! ### Reports -/

/-- A report has eleven numbers. -/
theorem ofList?_eq_some_iff {ws : List UInt64} {r : Report} :
    ofList? ws = some r ↔ ws = r.toList := by
  constructor
  · intro h
    unfold ofList? at h
    split at h
    · rw [← Option.some.inj h]
      rfl
    · cases h
  · rintro rfl
    exact ofList?_toList r

theorem exists_ofList? {ws : List UInt64} (h : ws.length = 11) : ∃ r, ofList? ws = some r := by
  match ws, h with
  | [_, _, _, _, _, _, _, _, _, _, _], _ => exact ⟨_, rfl⟩

theorem readsWhole : ReadsWhole (fun _ => True) encode decode? := by
  intro bs r
  rw [true_and, decode?, Option.bind_eq_some_iff]
  constructor
  · rintro ⟨ws, hws, hr⟩
    rw [words?_eq_some_iff.mp hws, ofList?_eq_some_iff.mp hr, encode]
  · rintro rfl
    exact ⟨r.toList, words?_flatMap _, ofList?_toList r⟩

@[simp] theorem length_encode (r : Report) : r.encode.length = 88 := rfl

/-- All strings of 88 bytes are reports, and no others. -/
theorem decode?_eq_none_iff {bs : Bytes} : decode? bs = none ↔ bs.length ≠ 88 := by
  rw [← not_iff_not, not_not, ← ne_eq, Option.ne_none_iff_exists']
  constructor
  · rintro ⟨r, hr⟩
    rw [((readsWhole bs r).mp hr).2, length_encode]
  · intro hlen
    obtain ⟨ws, hws⟩ := exists_flatMap_of_length (n := 11) (fun _ => exists_ofU64) hlen
    have hcount : ws.length = 11 := by
      rw [hws, length_flatMap_of_width Bytes.length_ofU64] at hlen
      omega
    obtain ⟨r, hr⟩ := exists_ofList? hcount
    exact ⟨r, by rw [decode?, words?_eq_some_iff.mpr hws, Option.bind_some, hr]⟩

end Report

/-! ### Lists of networks -/

theorem readsWhole_parseNetworks? :
    ReadsWhole (fun networks => networks.length ≤ 65535) encodeNetworks parseNetworks? := by
  intro bs networks
  constructor
  · intro h
    unfold parseNetworks? at h
    split at h
    · rename_i l₁ l₀ rest
      split at h
      · rename_i hlen
        have hrest := words32?_eq_some_iff.mp h
        have hlt := (Bytes.u16 l₁ l₀).toNat_lt
        have hcount : networks.length = (Bytes.u16 l₁ l₀).toNat := by
          rw [hrest, length_flatMap_of_width Bytes.length_ofU32] at hlen
          omega
        refine ⟨by omega, ?_⟩
        rw [encodeNetworks, hcount, UInt16.ofNat_toNat, Bytes.ofU16_u16, ← hrest]
        rfl
      · cases h
    · cases h
  · rintro ⟨hfits, rfl⟩
    exact parseNetworks?_encode (Nat.lt_succ_of_le hfits)

/-- A list of networks is as long as its first two bytes say, and any string that is so is a
list of networks. -/
theorem parseNetworks?_eq_none_iff {bs : Bytes} :
    parseNetworks? bs = none ↔ bs.length ≠ 2 + 4 * (bs.wordAt 0).toNat := by
  match bs with
  | [] | [_] =>
    simp only [parseNetworks?, List.length_nil, List.length_cons, true_iff]
    omega
  | l₁ :: l₀ :: rest =>
    have hcount : Bytes.wordAt (l₁ :: l₀ :: rest) 0 = Bytes.u16 l₁ l₀ := rfl
    rw [hcount, parseNetworks?, List.length_cons, List.length_cons]
    by_cases hlen : rest.length = (Bytes.u16 l₁ l₀).toNat * 4
    · obtain ⟨ws, hws⟩ := exists_flatMap_of_length (fun _ => exists_ofU32) hlen
      rw [if_pos hlen, words32?_eq_some_iff.mpr hws]
      simp only [reduceCtorEq, false_iff, not_not]
      omega
    · rw [if_neg hlen]
      simp only [true_iff]
      omega

/-- A list that counts two networks is not one of a single network. -/
example : parseNetworks? [0, 1, 0xC0, 0xA8, 1, 0] = some [0xC0A80100] ∧
    parseNetworks? [0, 2, 0xC0, 0xA8, 1, 0] = none := by
  decide

/-! ### What travels -/

/-- A request for the counters is answered by their report, whatever its payload. -/
theorem Agent.onStatistics_reply (f : Firewall) (payload : Bytes) :
    (onStatistics f payload).2 = .reply .statisticsAck f.report.encode := by
  unfold onStatistics
  split <;> rfl

/-- A query for the networks is answered by a list of them. -/
theorem Agent.onQuery_networks (f : Firewall) (arg : UInt32) (rest : Bytes) :
    (onQuery f (Query.encode ⟨QueryKind.networks.toByte, arg⟩ ++ rest)).2 =
      .reply .queryAck (encodeNetworks (f.classifier.networks.toList.map (·.network))) := by
  rw [onQuery, Query.parse_encode]
  rfl

/-- Headers, queries and requests to release are read from the front of a byte string: the bytes
of each are read as it was, whatever follows them; whatever is read has its bytes there; and
what is refused is shorter than six, five or five bytes.

The bytes of a part of a table are read as that part if it has at most 65535 bytes of data, and
are refused for the length that they tell otherwise.  A payload is read as a part if it consists
of the bytes of one with so much data, and as that one.

Reports and lists of at most 65535 networks are read from the bytes that are written for them,
and from no others.  What is refused as a report has not 88 bytes, and what is refused as a list
of networks has not the four bytes for each of the networks that it counts.  So are they in the
answers of an agent: to any request for the counters, whatever the counters are, and to any
query for networks, as long as there are no more than can be counted. -/
theorem codecs_exact :
    ReadsFront 6 Header.encode (fun bs => (Header.parse bs).map Prod.fst) ∧
    ReadsFront 5 Query.encode Query.parse ∧
    ReadsFront 5 Release.encode Release.parse ∧
    (∀ f, Fragment.parse f.encode = if f.data.length ≤ 65535 then .ok f
      else .error (.lengthMismatch (f.data.length % 65536) f.data.length)) ∧
    ReadsWhole (fun f => f.data.length ≤ 65535) Fragment.encode
      (fun bs => (Fragment.parse bs).toOption) ∧
    ReadsWhole (fun _ => True) Report.encode Report.decode? ∧
    (∀ bs, Report.decode? bs = none ↔ bs.length ≠ 88) ∧
    ReadsWhole (fun networks => networks.length ≤ 65535) encodeNetworks parseNetworks? ∧
    (∀ bs, parseNetworks? bs = none ↔ bs.length ≠ 2 + 4 * (bs.wordAt 0).toNat) ∧
    (∀ f payload, ∃ body, (Agent.onStatistics f payload).2 = .reply .statisticsAck body ∧
      Report.decode? body = some f.report) ∧
    ∀ f arg rest, ∃ body,
      let networks := f.classifier.networks.toList.map (·.network)
      (Agent.onQuery f (Query.encode ⟨QueryKind.networks.toByte, arg⟩ ++ rest)).2 =
          .reply .queryAck body ∧
        (parseNetworks? body = some networks ↔ networks.length ≤ 65535) := by
  refine ⟨Header.readsFront, Query.readsFront, Release.readsFront, Fragment.parse_encode_eq,
    Fragment.readsWhole, Report.readsWhole, fun _ => Report.decode?_eq_none_iff,
    readsWhole_parseNetworks?, fun _ => parseNetworks?_eq_none_iff, fun f payload => ?_,
    fun f arg rest => ?_⟩
  · exact ⟨_, Agent.onStatistics_reply f payload, Report.decode?_encode _⟩
  · refine ⟨_, Agent.onQuery_networks f arg rest, ?_⟩
    rw [readsWhole_parseNetworks?, and_iff_left rfl]

end FilterBridge
