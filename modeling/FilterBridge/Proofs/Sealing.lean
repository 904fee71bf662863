import FilterBridge.Datagram

/-!
# Opening undoes sealing

The checksum of a sealed datagram holds, since a sum and the complement of what it folds
to fold to all ones.  So under a cipher that can be undone, whoever has the key of the
sender opens a datagram to the type, flags, nonce and payload that were sealed.

## Main definitions

* `sealedHeader` — the header of a sealed datagram, with its checksum.
* `Suite.Invertible` — decryption undoes encryption, which is in place.

## Main results

* `checksum_sealedBody` — the checksum of what is sealed holds.
* `Suite.Invertible.openMessage_sealMessage` — opening undoes sealing, with a key or
  without one.
* `Suite.standard_invertible` — the key stream of ChaCha20 cancels itself.
-/

namespace FilterBridge

/-! ### The checksum -/

theorem wordSum_ofU16_append (w : UInt16) (bs : Bytes) :
    wordSum (Bytes.ofU16 w ++ bs) = w.toNat + wordSum bs := by
  have := w.toNat_lt
  simp only [Bytes.ofU16, List.cons_append, List.nil_append, wordSum_cons_cons,
    UInt8.toNat_ofNat']
  omega

theorem fold_eq_zero_iff {n : Nat} : fold n = 0 ↔ n = 0 := by
  induction n using fold.induct with
  | case1 n h => rw [fold_of_lt h]
  | case2 n h ih =>
    rw [fold, if_neg h, ih]
    omega

/-- A sum and the complement of what it folds to fold to all ones. -/
theorem fold_add_complement (n : Nat) : fold (n + (65535 - fold n)) = 65535 := by
  have hn := fold_lt n
  have hmod := fold_mod n
  have hlt := fold_lt (n + (65535 - fold n))
  have hmod' := fold_mod (n + (65535 - fold n))
  -- the sum is a multiple of 65535, and not zero
  have hne : fold (n + (65535 - fold n)) ≠ 0 := by
    rw [Ne, fold_eq_zero_iff]
    intro h
    have hzero : n = 0 := by omega
    rw [hzero, fold_of_lt (by decide)] at h
    omega
  omega

theorem toNat_checksum (bs : Bytes) : (checksum bs none).toNat = 65535 - fold (wordSum bs) := by
  simp only [checksum, Option.map_none, Option.getD_none, Nat.zero_add, UInt16.toNat_ofNat']
  omega

theorem checksum_eq_zero_iff {bs : Bytes} : checksum bs none = 0 ↔ fold (wordSum bs) = 65535 := by
  have hlt := fold_lt (wordSum bs)
  rw [← UInt16.toNat_inj, toNat_checksum, UInt16.toNat_zero]
  omega

/-- A checksum that is not there yet counts for nothing. -/
theorem wordSum_cleared (nonce : UInt16) (payload : Bytes) :
    wordSum (Bytes.ofU16 nonce ++ Bytes.ofU16 0 ++ payload) =
      nonce.toNat + wordSum payload := by
  rw [List.append_assoc, wordSum_ofU16_append, wordSum_ofU16_append, UInt16.toNat_zero,
    Nat.zero_add]

/-- The checksum of what is sealed holds. -/
theorem checksum_sealedBody (nonce : UInt16) (payload : Bytes) :
    checksum (sealedBody nonce payload) none = 0 := by
  rw [checksum_eq_zero_iff, sealedBody, List.append_assoc, wordSum_ofU16_append,
    wordSum_ofU16_append, toNat_checksum, wordSum_cleared, Nat.add_left_comm,
    Nat.add_comm (65535 - _), fold_add_complement]

/-! ### Datagrams in the clear -/

/-- The header of a sealed datagram. -/
def sealedHeader (type : MessageType) (flags : UInt8) (nonce : UInt16) (payload : Bytes) :
    Header where
  type := type.toByte
  flags := flags
  nonce := nonce
  checksum := checksum (Bytes.ofU16 nonce ++ Bytes.ofU16 0 ++ payload) none

theorem encode_sealedHeader_append (type : MessageType) (flags : UInt8) (nonce : UInt16)
    (payload : Bytes) :
    (sealedHeader type flags nonce payload).encode ++ payload =
      type.toByte :: flags :: sealedBody nonce payload := by
  simp [Header.encode, sealedHeader, sealedBody]

/-- Before it is encrypted, the checksum of a sealed datagram holds. -/
theorem verifies_sealedHeader (type : MessageType) (flags : UInt8) (nonce : UInt16)
    (payload : Bytes) :
    verifies ((sealedHeader type flags nonce payload).encode ++ payload) = true := by
  rw [encode_sealedHeader_append, verifies]
  exact decide_eq_true (checksum_sealedBody nonce payload)

@[simp] theorem cipherKey_none (type : UInt8) : cipherKey none type = none := by
  unfold cipherKey
  split <;> rfl

@[simp] theorem cipherKey_error (key : Option SessionKey) :
    cipherKey key MessageType.error.toByte = none := if_pos rfl

namespace Suite

variable {s : Suite}

/-- What is not encrypted is sent as it is. -/
theorem sealMessage_clear {key : Option SessionKey} {type : MessageType}
    (h : cipherKey key type.toByte = none) (flags : UInt8) (nonce : UInt16) (payload : Bytes) :
    s.sealMessage key type flags nonce payload =
      (sealedHeader type flags nonce payload).encode ++ payload := by
  rw [sealMessage, h, encode_sealedHeader_append]

/-- An error is opened under any key, as errors travel in the clear. -/
theorem openMessage_sealMessage_error (s : Suite) (key : Option SessionKey) (flags : UInt8)
    (nonce : UInt16) (payload : Bytes) :
    s.openMessage key (s.sealMessage none .error flags nonce payload) =
      .ok (sealedHeader .error flags nonce payload, payload) := by
  rw [sealMessage_clear (cipherKey_none _)]
  have hplain : s.plain key ((sealedHeader .error flags nonce payload).encode ++ payload) =
      (sealedHeader .error flags nonce payload).encode ++ payload := by
    rw [encode_sealedHeader_append, plain]
    simp only [List.head?_cons, Option.bind_some, cipherKey_error]
  rw [openMessage, Header.parse_encode, hplain]
  simp only [bind, Except.bind, verifies_sealedHeader, if_true, Header.parse_encode]

/-! ### Datagrams under a key -/

/-- What is encrypted is sent with its type and flags in the clear. -/
theorem sealMessage_keyed {key : Option SessionKey} {k : SessionKey} {type : MessageType}
    (h : cipherKey key type.toByte = some k) (flags : UInt8) (nonce : UInt16) (payload : Bytes) :
    s.sealMessage key type flags nonce payload =
      type.toByte :: flags :: s.encrypt k (sealedBody nonce payload) := by
  rw [sealMessage, h]

/-- Decryption undoes encryption, and encryption keeps the length. -/
structure Invertible (s : Suite) : Prop where
  /-- Decryption undoes encryption. -/
  decrypt_encrypt (key : SessionKey) (data : Bytes) : s.decrypt key (s.encrypt key data) = data
  /-- Encryption keeps the length. -/
  length_encrypt (key : SessionKey) (data : Bytes) : (s.encrypt key data).length = data.length

namespace Invertible

variable (key : Option SessionKey) (type : MessageType) (flags : UInt8) (nonce : UInt16)
  (payload : Bytes)

/-- Type and flags of a sealed datagram can be read without the key. -/
theorem parse_sealMessage (hs : s.Invertible) :
    ∃ h body, Header.parse (s.sealMessage key type flags nonce payload) = .ok (h, body) ∧
      h.type = type.toByte ∧ h.flags = flags := by
  cases hk : cipherKey key type.toByte with
  | none =>
    rw [sealMessage_clear hk, Header.parse_encode]
    exact ⟨_, _, rfl, rfl, rfl⟩
  | some k =>
    have hlen : 4 ≤ (s.encrypt k (sealedBody nonce payload)).length := by
      rw [hs.length_encrypt]
      simp only [sealedBody, List.length_append, Bytes.length_ofU16]
      omega
    rw [sealMessage_keyed hk]
    match s.encrypt k (sealedBody nonce payload), hlen with
    | n₁ :: n₀ :: c₁ :: c₀ :: body, _ =>
      exact ⟨⟨type.toByte, flags, Bytes.u16 n₁ n₀, Bytes.u16 c₁ c₀⟩, body, rfl, rfl, rfl⟩

/-- Decryption brings a sealed datagram back to what it was in the clear. -/
theorem plain_sealMessage (hs : s.Invertible) :
    s.plain key (s.sealMessage key type flags nonce payload) =
      (sealedHeader type flags nonce payload).encode ++ payload := by
  rw [encode_sealedHeader_append]
  cases hk : cipherKey key type.toByte with
  | none =>
    rw [sealMessage_clear hk, encode_sealedHeader_append, plain]
    simp only [List.head?_cons, Option.bind_some, hk]
  | some k =>
    rw [sealMessage_keyed hk, plain]
    simp only [List.head?_cons, Option.bind_some, hk]
    show [type.toByte, flags] ++ s.decrypt k (s.encrypt k (sealedBody nonce payload)) = _
    rw [hs.decrypt_encrypt]
    rfl

/-- Opening undoes sealing. -/
theorem openMessage_sealMessage (hs : s.Invertible) :
    s.openMessage key (s.sealMessage key type flags nonce payload) =
      .ok (sealedHeader type flags nonce payload, payload) := by
  obtain ⟨h, body, hp, -, -⟩ := hs.parse_sealMessage key type flags nonce payload
  rw [openMessage, hp, hs.plain_sealMessage]
  simp only [bind, Except.bind, verifies_sealedHeader, if_true, Header.parse_encode]

end Invertible

end Suite

/-! ### The key stream -/

namespace ChaCha20

theorem length_block (key nonce : Bytes) (counter : UInt32) :
    (block key nonce counter).length = 64 := by
  have hwords : ∀ ws : State,
      (ws.toList.flatMap fun w => (Bytes.ofU32 w).reverse).length = 64 := by
    intro ws
    simp [List.length_flatMap, List.map_const']
  exact hwords _

theorem length_keystream (key nonce : Bytes) (n : Nat) : (keystream key nonce n).length = n := by
  simp only [keystream, List.length_take, List.length_flatMap, length_block]
  simp only [List.map_const', List.length_range, List.sum_replicate_nat]
  omega

theorem length_apply (key nonce data : Bytes) : (apply key nonce data).length = data.length := by
  rw [apply, List.length_zipWith, length_keystream, Nat.min_self]

/-- The key stream cancels itself. -/
theorem apply_apply (key nonce data : Bytes) : apply key nonce (apply key nonce data) = data := by
  rw [apply, length_apply, apply]
  refine List.ext_getElem ?_ fun i h₁ h₂ => ?_
  · simp [length_keystream]
  · simp only [List.getElem_zipWith, UInt8.xor_assoc, UInt8.xor_self, UInt8.xor_zero]

end ChaCha20

theorem Suite.standard_invertible : Suite.standard.Invertible where
  decrypt_encrypt key data := ChaCha20.apply_apply key.bytes (Bytes.zeros 12) data
  length_encrypt key data := ChaCha20.length_apply key.bytes (Bytes.zeros 12) data

end FilterBridge
