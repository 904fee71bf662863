import FilterBridge.Proofs.Sealing
import Mathlib.Data.Fintype.EquivFin
import Mathlib.Data.Fintype.Vector

/-!
# Sealing undoes opening

What was opened can be sealed again, and that gives back the datagram that was opened.
There is one exception.  In ones'-complement arithmetic all ones is another zero, so a
checksum of `0xFFFF` holds wherever `0` does; sealing writes `0` there.

## Main results

* `complement_of_fold` — the checksum that makes a sum hold is the one that sealing
  writes, up to the two zeros.
* `Suite.Invertible.encrypt_decrypt` — encryption undoes decryption as well, since there
  are finitely many byte strings of a length.
* `Suite.Invertible.eq_of_plain_eq` — datagrams that decrypt to the same are the same.
* `Suite.Invertible.sealMessage_of_openMessage` — sealing undoes opening.
* `Suite.Invertible.seal_open_inverse` — each undoes the other.
-/

namespace FilterBridge

/-! ### The checksum -/

/-- A checksum that holds is the complement of the rest, or all ones in place of zero. -/
theorem complement_of_fold {n c : Nat} (hc : c < 65536) (h : fold (n + c) = 65535) :
    65535 - fold n = c ∨ c = 65535 ∧ 65535 - fold n = 0 := by
  have hn := fold_lt n
  have hmod := fold_mod n
  have hsum := fold_mod (n + c)
  -- zero and zero is the one sum that is a multiple of 65535 and does not hold
  have hne : ¬ (fold n = 0 ∧ c = 0) := by
    rintro ⟨hzero, rfl⟩
    rw [Nat.add_zero, hzero] at h
    omega
  omega

namespace Header

/-- Writing undoes reading. -/
theorem encode_of_parse {d payload : Bytes} {h : Header} (hp : parse d = .ok (h, payload)) :
    h.encode ++ payload = d := by
  unfold parse at hp
  split at hp
  · obtain ⟨rfl, rfl⟩ := Prod.mk.injEq .. ▸ Except.ok.inj hp
    simp only [encode, Bytes.ofU16_u16, List.cons_append, List.nil_append]
  · cases hp

end Header

/-- A header whose checksum holds is the one that sealing writes, unless its checksum is
all ones in place of zero. -/
theorem sealedHeader_of_verifies {h : Header} {type : MessageType} {payload : Bytes}
    (htype : type.toByte = h.type) (hv : verifies (h.encode ++ payload) = true) :
    sealedHeader type h.flags h.nonce payload = h ∨
      h.checksum = 0xFFFF ∧
        sealedHeader type h.flags h.nonce payload = { h with checksum := 0 } := by
  have hholds : fold (h.nonce.toNat + wordSum payload + h.checksum.toNat) = 65535 := by
    have hzero :
        checksum (Bytes.ofU16 h.nonce ++ (Bytes.ofU16 h.checksum ++ payload)) none = 0 := by
      simpa [verifies, Header.encode, clearLen] using hv
    rw [checksum_eq_zero_iff, wordSum_ofU16_append, wordSum_ofU16_append] at hzero
    rwa [Nat.add_right_comm, Nat.add_assoc]
  have hsum : (sealedHeader type h.flags h.nonce payload).checksum.toNat =
      65535 - fold (h.nonce.toNat + wordSum payload) := by
    rw [sealedHeader, toNat_checksum, wordSum_cleared]
  have heq : ∀ c : UInt16, (sealedHeader type h.flags h.nonce payload).checksum = c →
      sealedHeader type h.flags h.nonce payload = { h with checksum := c } := by
    rintro _ rfl
    simp only [sealedHeader, htype]
  rcases complement_of_fold h.checksum.toNat_lt hholds with hc | ⟨hones, hzero⟩
  · exact .inl (heq h.checksum (UInt16.toNat_inj.mp (hsum.trans hc)))
  · exact .inr ⟨UInt16.toNat_inj.mp hones, heq 0 (UInt16.toNat_inj.mp (hsum.trans hzero))⟩

namespace Suite

variable {s : Suite} {key : Option SessionKey}

/-- What can be opened decrypts to a header and a payload under a checksum that holds. -/
theorem plain_of_openMessage {d payload : Bytes} {h : Header}
    (ho : s.openMessage key d = .ok (h, payload)) :
    6 ≤ d.length ∧ s.plain key d = h.encode ++ payload ∧
      verifies (h.encode ++ payload) = true := by
  unfold openMessage at ho
  cases hp : Header.parse d with
  | error e => simp [hp, bind, Except.bind] at ho
  | ok r =>
    simp only [hp, bind, Except.bind] at ho
    split at ho
    · next hv =>
      rw [Header.encode_of_parse ho]
      refine ⟨?_, rfl, hv⟩
      rw [← Header.encode_of_parse hp, List.length_append, Header.length_encode]
      exact Nat.le_add_right _ _
    · cases ho

theorem plain_cons_cons (type flags : UInt8) (body : Bytes) :
    s.plain key (type :: flags :: body) =
      type :: flags :: ((cipherKey key type).elim body fun k => s.decrypt k body) := by
  unfold plain
  cases hk : cipherKey key type with
  | none => simp [hk]
  | some k => simp [hk, clearLen]

/-- The type of a datagram that is opened is its first byte. -/
theorem head?_of_openMessage {d payload : Bytes} {h : Header}
    (ho : s.openMessage key d = .ok (h, payload)) : d.head? = some h.type := by
  obtain ⟨hlen, hplain, -⟩ := plain_of_openMessage ho
  match d, hlen with
  | type :: flags :: body, _ =>
    rw [plain_cons_cons] at hplain
    exact congrArg List.head? hplain

namespace Invertible

/-- As there are finitely many byte strings of a length, encryption undoes decryption as
well. -/
theorem encrypt_decrypt (hs : s.Invertible) (k : SessionKey) (data : Bytes) :
    s.encrypt k (s.decrypt k data) = data := by
  have : Finite UInt8 := .of_injective UInt8.toFin fun _ _ h => UInt8.toFin_inj.mp h
  let encryptLen (v : List.Vector UInt8 data.length) : List.Vector UInt8 data.length :=
    ⟨s.encrypt k v.1, (hs.length_encrypt k v.1).trans v.2⟩
  have hinjective : encryptLen.Injective := by
    intro v w h
    have henc : s.encrypt k v.1 = s.encrypt k w.1 := congrArg Subtype.val h
    apply Subtype.ext
    rw [← hs.decrypt_encrypt k v.1, henc, hs.decrypt_encrypt]
  obtain ⟨v, hv⟩ := Finite.surjective_of_injective hinjective ⟨data, rfl⟩
  have hdata : s.encrypt k v.1 = data := congrArg Subtype.val hv
  rw [← hdata, hs.decrypt_encrypt]

/-- Datagrams that decrypt to the same are the same. -/
theorem eq_of_plain_eq (hs : s.Invertible) {d d' : Bytes} (hd : 2 ≤ d.length)
    (hd' : 2 ≤ d'.length) (h : s.plain key d = s.plain key d') : d = d' := by
  match d, d', hd, hd' with
  | type :: flags :: body, type' :: flags' :: body', _, _ =>
    rw [plain_cons_cons, plain_cons_cons] at h
    simp only [List.cons.injEq] at h
    obtain ⟨rfl, rfl, hbody⟩ := h
    cases hk : cipherKey key type with
    | none =>
      simp only [hk, Option.elim_none] at hbody
      rw [hbody]
    | some k =>
      simp only [hk, Option.elim_some] at hbody
      rw [← hs.encrypt_decrypt k body, hbody, hs.encrypt_decrypt]

theorem length_sealMessage (hs : s.Invertible) (type : MessageType) (flags : UInt8)
    (nonce : UInt16) (payload : Bytes) :
    (s.sealMessage key type flags nonce payload).length = payload.length + 6 := by
  cases hk : cipherKey key type.toByte with
  | none =>
    rw [sealMessage_clear hk, List.length_append, Header.length_encode, Nat.add_comm]
    rfl
  | some k =>
    rw [sealMessage_keyed hk]
    simp only [List.length_cons, hs.length_encrypt, sealedBody, List.length_append,
      Bytes.length_ofU16]
    omega

/-- Sealing undoes opening, up to a checksum of all ones in place of zero. -/
theorem sealMessage_of_openMessage (hs : s.Invertible) {d payload : Bytes} {h : Header}
    {type : MessageType} (ho : s.openMessage key d = .ok (h, payload))
    (htype : type.toByte = h.type) :
    let d' := s.sealMessage key type h.flags h.nonce payload
    d' = d ∨ h.checksum = 0xFFFF ∧ s.plain key d = h.encode ++ payload ∧
      s.plain key d' = { h with checksum := 0 }.encode ++ payload := by
  intro d'
  obtain ⟨hlen, hplain, hv⟩ := plain_of_openMessage ho
  have hplain' : s.plain key d' = (sealedHeader type h.flags h.nonce payload).encode ++ payload :=
    hs.plain_sealMessage key type h.flags h.nonce payload
  have hlen' : d'.length = payload.length + 6 := hs.length_sealMessage ..
  rcases sealedHeader_of_verifies htype hv with hsame | ⟨hones, hzero⟩
  · left
    have hsame' : s.plain key d' = s.plain key d := by rw [hplain', hsame, hplain]
    exact hs.eq_of_plain_eq (by omega) (by omega) hsame'
  · right
    rw [hplain', hzero]
    exact ⟨hones, hplain, rfl⟩

/-- With a key or without one, what is sealed is opened to the same type, flags, nonce and
payload, and errors travel in the clear.  What is opened, if its type is known, is sealed to
the same datagram again, or else its checksum was all ones and the new one is zero. -/
theorem seal_open_inverse (hs : s.Invertible) (key : Option SessionKey) :
    (∀ type flags nonce payload, ∃ h,
      s.openMessage key (s.sealMessage key type flags nonce payload) = .ok (h, payload) ∧
        h.type = type.toByte ∧ h.flags = flags ∧ h.nonce = nonce) ∧
      (∀ flags nonce payload, s.sealMessage key .error flags nonce payload =
        (sealedHeader .error flags nonce payload).encode ++ payload) ∧
      ∀ d h payload type, d.head?.bind MessageType.ofByte? = some type →
        s.openMessage key d = .ok (h, payload) → h.type = type.toByte ∧
          let d' := s.sealMessage key type h.flags h.nonce payload
          d' = d ∨ h.checksum = 0xFFFF ∧ s.plain key d = h.encode ++ payload ∧
            s.plain key d' = { h with checksum := 0 }.encode ++ payload := by
  refine ⟨?_, fun flags nonce payload => ?_, ?_⟩
  · intro type flags nonce payload
    exact ⟨_, hs.openMessage_sealMessage key type flags nonce payload, rfl, rfl, rfl⟩
  · exact sealMessage_clear (cipherKey_error key) flags nonce payload
  · intro d h payload type hknown ho
    have htype : type.toByte = h.type := by
      rw [head?_of_openMessage ho] at hknown
      exact MessageType.toByte_of_ofByte? hknown
    exact ⟨htype.symm, hs.sealMessage_of_openMessage ho htype⟩

/-- Under a key, a request for the counters whose checksum is all ones is opened, and sealed
with a checksum of zero. -/
theorem seal_open_inverse_ones :
    let s := Suite.standard
    let key : SessionKey := ⟨Bytes.zeros SessionKey.len⟩
    let type : MessageType := .statistics
    let h : Header := ⟨type.toByte, 0, 0xFFFF, 0xFFFF⟩
    let d := type.toByte :: 0 :: s.encrypt key [0xFF, 0xFF, 0xFF, 0xFF]
    let d' := s.sealMessage (some key) type 0 0xFFFF []
    s.Invertible ∧ d.head?.bind MessageType.ofByte? = some type ∧
      s.openMessage (some key) d = .ok (h, []) ∧ d' ≠ d ∧
      h.checksum = 0xFFFF ∧ s.plain (some key) d = h.encode ++ [] ∧
        s.plain (some key) d' = { h with checksum := 0 }.encode ++ [] := by
  intro s key type h d d'
  have hs : s.Invertible := Suite.standard_invertible
  have hknown : d.head?.bind MessageType.ofByte? = some type := by decide
  have ho : s.openMessage (some key) d = .ok (h, []) := by decide +kernel
  have hne : d' ≠ d := by decide +kernel
  obtain ⟨-, -, hreseal⟩ := seal_open_inverse hs (some key)
  exact ⟨hs, hknown, ho, hne, (hreseal d h [] type hknown ho).2.resolve_left hne⟩

end Invertible

end Suite

end FilterBridge
