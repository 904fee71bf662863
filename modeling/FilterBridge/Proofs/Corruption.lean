import FilterBridge.Proofs.KeyAgreement
import FilterBridge.Proofs.OrderedRules
import FilterBridge.Proofs.Resealing

/-!
# Damage within one word is detected

A datagram that opens is damaged on its way, within one of the 16-bit words under its checksum.
A stream cipher adds a byte to each byte that depends on its place only, so the datagram in the
clear is damaged in the same word and nowhere else, and the sum changes by the difference of
two words.  In ones'-complement arithmetic this difference counts for nothing in one case only,
when the word went from one zero to the other.  To get there both of its bytes have to change,
so a change within one byte is always detected.

An agent with a password takes a damaged datagram for one of another session: it drops its key
and says so.  Only what comes without the password flag is refused before that, damaged or not.

## Main definitions

* `Suite.AddsStream` — a stream cipher, whose stream depends on the key alone.
* `AlteredWord` — datagrams of one length that differ within one word.
* `SwapsZeros` — a word went from one zero to the other.
* `Bytes.alter` — some bits of one byte are flipped.

## Main results

* `wordSum_add_wordAt` — a sum changes as the word that is altered.
* `Suite.AddsStream.exists_pad` — opening adds a byte to each byte, the same at a place for all
  datagrams of a type.
* `Suite.AddsStream.openMessage_alteredWord` — damage within one word is detected.
* `Suite.AddsStream.exists_openMessage_of_ones` — but for the one exception.
* `Suite.AddsStream.openMessage_alter` — damage within one byte is detected without exception.
* `Suite.standard_addsStream` — ChaCha20 is a stream cipher.
* `Suite.AddsStream.corruption_detected` — all of it, and what an agent does.
-/

namespace FilterBridge

/-! ### The sum of the words -/

namespace Bytes

/-- Some bits of one byte are flipped. -/
def alter (bs : Bytes) (pos : Nat) (mask : UInt8) : Bytes := bs.modify pos (· ^^^ mask)

@[simp] theorem length_alter (bs : Bytes) (pos : Nat) (mask : UInt8) :
    (bs.alter pos mask).length = bs.length := List.length_modify ..

/-- The other bytes stay. -/
theorem getElem?_alter_of_ne (bs : Bytes) {pos i : Nat} (hne : pos ≠ i) (mask : UInt8) :
    (bs.alter pos mask)[i]? = bs[i]? := by
  simp [alter, hne]

theorem getD_alter_of_ne (bs : Bytes) {pos i : Nat} (hne : pos ≠ i) (mask : UInt8) :
    (bs.alter pos mask).getD i 0 = bs.getD i 0 := by
  simp only [List.getD_eq_getElem?_getD, getElem?_alter_of_ne bs hne]

theorem wordAt_drop (bs : Bytes) (n i : Nat) : wordAt (bs.drop n) i = bs.wordAt (n + i) := by
  simp only [wordAt, byteAt, List.getD_eq_getElem?_getD, List.getElem?_drop, Nat.add_assoc]

theorem wordAt_congr {bs bs' : Bytes} {i : Nat} (h₁ : bs'[i]? = bs[i]?)
    (h₀ : bs'[i + 1]? = bs[i + 1]?) : bs'.wordAt i = bs.wordAt i := by
  simp only [wordAt, byteAt, List.getD_eq_getElem?_getD, h₁, h₀]

/-- A word tells its bytes. -/
theorem eq_of_u16_eq {b₁ b₀ c₁ c₀ : UInt8} (h : u16 b₁ b₀ = u16 c₁ c₀) : b₁ = c₁ ∧ b₀ = c₀ := by
  have hbytes := congrArg ofU16 h
  rw [ofU16_u16, ofU16_u16] at hbytes
  simpa using hbytes

end Bytes

/-- The first word, and the sum of the others. -/
theorem wordSum_eq_wordAt_add (bs : Bytes) :
    wordSum bs = (bs.wordAt 0).toNat + wordSum (bs.drop 2) := by
  have hword : ∀ b₁ b₀ : UInt8, (Bytes.u16 b₁ b₀).toNat = b₁.toNat * 256 + b₀.toNat := by
    intro b₁ b₀
    have := b₁.toNat_lt
    have := b₀.toNat_lt
    simp only [Bytes.u16, UInt16.toNat_ofNat']
    omega
  rcases bs with _ | ⟨b₁, _ | ⟨b₀, rest⟩⟩
  · rfl
  · show b₁.toNat * 256 = (Bytes.u16 b₁ 0).toNat + 0
    rw [hword, UInt8.toNat_zero, Nat.add_zero]
  · rw [wordSum_cons_cons, ← hword]
    rfl

/-- Where two byte strings differ within word `i` only, their sums differ as that word. -/
theorem wordSum_add_wordAt (i : Nat) {bs bs' : Bytes}
    (h : ∀ j, j ≠ 2 * i → j ≠ 2 * i + 1 → bs'[j]? = bs[j]?) :
    wordSum bs' + (bs.wordAt (2 * i)).toNat = wordSum bs + (bs'.wordAt (2 * i)).toNat := by
  induction i generalizing bs bs' with
  | zero =>
    have hrest : bs'.drop 2 = bs.drop 2 := by
      refine List.ext_getElem? fun j => ?_
      rw [List.getElem?_drop, List.getElem?_drop]
      exact h (2 + j) (by omega) (by omega)
    rw [wordSum_eq_wordAt_add bs, wordSum_eq_wordAt_add bs', hrest, Nat.mul_zero]
    omega
  | succ i ih =>
    have hfirst : bs'.wordAt 0 = bs.wordAt 0 :=
      Bytes.wordAt_congr (h 0 (by omega) (by omega)) (h (0 + 1) (by omega) (by omega))
    have hdrop : ∀ j, j ≠ 2 * i → j ≠ 2 * i + 1 → (bs'.drop 2)[j]? = (bs.drop 2)[j]? := by
      intro j hj hj'
      rw [List.getElem?_drop, List.getElem?_drop]
      exact h (2 + j) (by omega) (by omega)
    have hrest := ih hdrop
    have hplace : 2 + 2 * i = 2 * (i + 1) := by omega
    rw [Bytes.wordAt_drop, Bytes.wordAt_drop, hplace] at hrest
    rw [wordSum_eq_wordAt_add bs, wordSum_eq_wordAt_add bs', hfirst]
    omega

/-- A word went from one zero to the other. -/
def SwapsZeros (w w' : UInt16) : Prop := w = 0 ∧ w' = 0xFFFF ∨ w = 0xFFFF ∧ w' = 0

/-- When one word of a sum changes, the sum still folds to all ones only if that word went from
one zero to the other. -/
theorem swapsZeros_of_fold {n n' : Nat} {w w' : UInt16} (hn : n' + w.toNat = n + w'.toNat)
    (h : fold n = 65535) (h' : fold n' = 65535) (hw : w ≠ w') : SwapsZeros w w' := by
  have hmod := fold_mod n
  have hmod' := fold_mod n'
  have hlt := w.toNat_lt
  have hlt' := w'.toNat_lt
  have hne : w.toNat ≠ w'.toNat := fun heq => hw (UInt16.toNat_inj.mp heq)
  -- the two words leave the same remainder
  have hends : w.toNat = 0 ∧ w'.toNat = 65535 ∨ w.toNat = 65535 ∧ w'.toNat = 0 := by omega
  exact hends.imp (fun hz => ⟨UInt16.toNat_inj.mp hz.1, UInt16.toNat_inj.mp hz.2⟩)
    fun hz => ⟨UInt16.toNat_inj.mp hz.1, UInt16.toNat_inj.mp hz.2⟩

/-- All ones in place of zero does not show. -/
theorem fold_add_ones {n : Nat} (h : fold n = 65535) : fold (n + 65535) = 65535 := by
  have hmod := fold_mod n
  have hmod' := fold_mod (n + 65535)
  have hlt := fold_lt (n + 65535)
  have hne : fold (n + 65535) ≠ 0 := by
    rw [Ne, fold_eq_zero_iff]
    omega
  omega

/-! ### Damaged datagrams -/

/-- Two datagrams of one length differ, but only within word `i` of the part under checksum. -/
structure AlteredWord (i : Nat) (d d' : Bytes) : Prop where
  /-- They have the same length. -/
  length : d'.length = d.length
  /-- Outside the word they are the same. -/
  same : ∀ j, j ≠ 2 * i + 2 → j ≠ 2 * i + 3 → d'[j]? = d[j]?
  /-- They differ. -/
  ne : d' ≠ d

namespace AlteredWord

variable {i : Nat} {d d' : Bytes}

/-- Adding a byte to each byte leaves them to differ where they did. -/
theorem mapIdx (h : AlteredWord i d d') (pad : Nat → UInt8) :
    AlteredWord i (d.mapIdx fun j b => b ^^^ pad j) (d'.mapIdx fun j b => b ^^^ pad j) where
  length := by simpa using h.length
  same := by
    intro j hj hj'
    rw [List.getElem?_mapIdx, List.getElem?_mapIdx, h.same j hj hj']
  ne := by
    intro heq
    refine h.ne (List.ext_getElem? fun j => ?_)
    have hj := congrArg (·[j]?) heq
    simp only [List.getElem?_mapIdx] at hj
    -- what was added can be taken away
    have hadd : Function.Injective fun b : UInt8 => b ^^^ pad j := by
      intro b c hbc
      have hbc := congrArg (· ^^^ pad j) hbc
      simpa only [UInt8.xor_assoc, UInt8.xor_self, UInt8.xor_zero] using hbc
    exact Option.map_injective hadd hj

/-- The word is not the same. -/
theorem wordAt_ne (h : AlteredWord i d d') : d.wordAt (2 * i + 2) ≠ d'.wordAt (2 * i + 2) := by
  intro hword
  obtain ⟨h₁, h₀⟩ := Bytes.eq_of_u16_eq hword
  refine h.ne (List.ext_getElem h.length fun j hj hj' => ?_)
  have hbyte : ∀ bs : Bytes, ∀ hlt : j < bs.length, bs.byteAt j = bs[j] := by
    intro bs hlt
    rw [Bytes.byteAt, List.getD_eq_getElem?_getD, List.getElem?_eq_getElem hlt, Option.getD_some]
  by_cases hhigh : j = 2 * i + 2
  · rw [← hbyte d' hj, ← hbyte d hj', hhigh, h₁]
  by_cases hlow : j = 2 * i + 3
  · rw [← hbyte d' hj, ← hbyte d hj', hlow]
    exact h₀.symm
  have hsame := h.same j hhigh hlow
  rwa [List.getElem?_eq_getElem hj, List.getElem?_eq_getElem hj', Option.some.injEq] at hsame

/-- The sums of the parts under checksum differ as the word. -/
theorem wordSum_drop (h : AlteredWord i d d') :
    wordSum (d'.drop clearLen) + (d.wordAt (2 * i + 2)).toNat =
      wordSum (d.drop clearLen) + (d'.wordAt (2 * i + 2)).toNat := by
  have hsame : ∀ j, j ≠ 2 * i → j ≠ 2 * i + 1 →
      (d'.drop clearLen)[j]? = (d.drop clearLen)[j]? := by
    intro j hj hj'
    rw [List.getElem?_drop, List.getElem?_drop]
    exact h.same (2 + j) (by omega) (by omega)
  have hsum := wordSum_add_wordAt i hsame
  rwa [Bytes.wordAt_drop, Bytes.wordAt_drop, clearLen, Nat.add_comm 2] at hsum

/-- If both of them are sound in the clear, the word went from one zero to the other. -/
theorem swapsZeros_of_verifies (h : AlteredWord i d d') (hv : verifies d = true)
    (hv' : verifies d' = true) : SwapsZeros (d.wordAt (2 * i + 2)) (d'.wordAt (2 * i + 2)) := by
  rw [verifies, decide_eq_true_eq, checksum_eq_zero_iff] at hv hv'
  exact swapsZeros_of_fold h.wordSum_drop hv hv' h.wordAt_ne

/-- A word that went from zero to all ones does not show. -/
theorem verifies_of_ones (h : AlteredWord i d d') (hv : verifies d = true)
    (hw : d.wordAt (2 * i + 2) = 0) (hw' : d'.wordAt (2 * i + 2) = 0xFFFF) :
    verifies d' = true := by
  rw [verifies, decide_eq_true_eq, checksum_eq_zero_iff] at hv ⊢
  have hsum := h.wordSum_drop
  rw [hw, hw'] at hsum
  have hsum : wordSum (d'.drop clearLen) = wordSum (d.drop clearLen) + 65535 := hsum
  rw [hsum]
  exact fold_add_ones hv

/-- The first two bytes are the same. -/
theorem exists_cons_cons (h : AlteredWord i d d') (hlen : 2 ≤ d.length) :
    ∃ type flags body body', d = type :: flags :: body ∧ d' = type :: flags :: body' := by
  have hlen' : 2 ≤ d'.length := by
    rw [h.length]
    exact hlen
  match d, d', hlen, hlen' with
  | type :: flags :: body, type' :: flags' :: body', _, _ =>
    have htype := h.same 0 (by omega) (by omega)
    have hflags := h.same 1 (by omega) (by omega)
    simp only [List.getElem?_cons_zero, List.getElem?_cons_succ, Option.some.injEq] at htype hflags
    exact ⟨type, flags, body, body', rfl, by rw [htype, hflags]⟩

/-- If one byte of the word is the same, the word did not go from one zero to the other. -/
theorem not_swapsZeros {pos : Nat} (hpos : pos = 2 * i + 2 ∨ pos = 2 * i + 3)
    (hsame : d'[pos]? = d[pos]?) :
    ¬ SwapsZeros (d.wordAt (2 * i + 2)) (d'.wordAt (2 * i + 2)) := by
  have hbyte : d'.byteAt pos = d.byteAt pos := by
    simp only [Bytes.byteAt, List.getD_eq_getElem?_getD, hsame]
  -- the bytes of one zero are 0, those of the other 255
  have hbytes : ∀ {bs : Bytes} {w : UInt16} {b : UInt8}, Bytes.u16 b b = w →
      bs.wordAt (2 * i + 2) = w → bs.byteAt pos = b := by
    rintro bs _ b rfl hw
    obtain ⟨h₁, h₀⟩ := Bytes.eq_of_u16_eq hw
    obtain rfl | rfl := hpos
    · exact h₁
    · exact h₀
  have hzero : Bytes.u16 0 0 = 0 := by decide
  have hones : Bytes.u16 255 255 = 0xFFFF := by decide
  rintro (⟨hw, hw'⟩ | ⟨hw, hw'⟩)
  · rw [hbytes hzero hw, hbytes hones hw'] at hbyte
    exact absurd hbyte (by decide)
  · rw [hbytes hones hw, hbytes hzero hw'] at hbyte
    exact absurd hbyte (by decide)

end AlteredWord

/-- Flipping bits of a byte alters the word that it is in. -/
theorem alteredWord_alter {d : Bytes} {pos : Nat} {mask : UInt8} (hpos : clearLen ≤ pos)
    (hlt : pos < d.length) (hmask : mask ≠ 0) :
    AlteredWord ((pos - clearLen) / 2) d (d.alter pos mask) where
  length := Bytes.length_alter d pos mask
  same := by
    intro j hj hj'
    have hne : pos ≠ j := by
      simp only [clearLen] at hpos hj hj'
      omega
    exact Bytes.getElem?_alter_of_ne d hne mask
  ne := by
    intro heq
    have hbyte : d[pos] ^^^ mask = d[pos] := by
      have hpos := congrArg (·[pos]?) heq
      simpa [Bytes.alter, hlt] using hpos
    have hzero := congrArg (d[pos] ^^^ ·) hbyte
    exact hmask (by simpa only [← UInt8.xor_assoc, UInt8.xor_self, UInt8.zero_xor] using hzero)

/-! ### Stream ciphers -/

/-- What is long enough starts with a header. -/
theorem Header.exists_parse {d : Bytes} (hlen : headerLen ≤ d.length) :
    ∃ h payload, parse d = .ok (h, payload) := by
  match d, hlen with
  | type :: flags :: n₁ :: n₀ :: c₁ :: c₀ :: payload, _ => exact ⟨_, payload, rfl⟩

namespace Suite

variable {s : Suite} {key : Option SessionKey} {d d' : Bytes}

/-- Decryption adds a stream of bytes that depends on the key alone. -/
def AddsStream (s : Suite) : Prop :=
  ∀ key, ∃ stream : Nat → UInt8, ∀ data, s.decrypt key data = data.mapIdx fun i b => b ^^^ stream i

/-- A datagram with a header that does not verify in the clear is not opened. -/
theorem openMessage_of_not_verifies (hlen : headerLen ≤ d.length)
    (hv : verifies (s.plain key d) ≠ true) : s.openMessage key d = .error .checksum := by
  obtain ⟨h, payload, hp⟩ := Header.exists_parse hlen
  rw [openMessage, hp]
  exact if_neg hv

/-- A datagram that verifies in the clear is opened. -/
theorem exists_openMessage_of_verifies (hlen : headerLen ≤ d.length)
    (hplain : headerLen ≤ (s.plain key d).length) (hv : verifies (s.plain key d) = true) :
    ∃ q, s.openMessage key d = .ok q := by
  obtain ⟨h, payload, hp⟩ := Header.exists_parse hlen
  obtain ⟨h', payload', hp'⟩ := Header.exists_parse hplain
  refine ⟨(h', payload'), ?_⟩
  rw [openMessage, hp]
  exact (if_pos hv).trans hp'

namespace AddsStream

/-- Opening adds a byte to each byte of a datagram, the same for all of a type. -/
theorem exists_pad (hs : s.AddsStream) (key : Option SessionKey) (type : UInt8) :
    ∃ pad : Nat → UInt8, ∀ flags body, s.plain key (type :: flags :: body) =
      (type :: flags :: body).mapIdx fun i b => b ^^^ pad i := by
  cases hk : cipherKey key type with
  | none =>
    refine ⟨fun _ => 0, fun flags body => ?_⟩
    rw [plain_cons_cons, hk]
    refine List.ext_getElem? fun j => ?_
    simp only [List.getElem?_mapIdx, UInt8.xor_zero, Option.map_id_fun', id, Option.elim_none]
  | some k =>
    obtain ⟨stream, hstream⟩ := hs k
    -- nothing is added to the first two bytes
    let pad : Nat → UInt8
      | 0 | 1 => 0
      | i + 2 => stream i
    refine ⟨pad, fun flags body => ?_⟩
    rw [plain_cons_cons, hk, Option.elim_some, hstream, List.mapIdx_cons, List.mapIdx_cons]
    simp [pad]

/-- A datagram that opens is damaged within one word.  Unless that word, in the clear, went from
one zero to the other, the datagram does not open any more. -/
theorem openMessage_alteredWord (hs : s.AddsStream) {q : Header × Bytes}
    (ho : s.openMessage key d = .ok q) {i : Nat} (h : AlteredWord i d d')
    (hzeros : ¬ SwapsZeros ((s.plain key d).wordAt (2 * i + 2))
      ((s.plain key d').wordAt (2 * i + 2))) :
    s.openMessage key d' = .error .checksum := by
  obtain ⟨hlen, hplain, hv⟩ := plain_of_openMessage ho
  rw [← hplain] at hv
  have hlen' : headerLen ≤ d'.length := by
    rw [h.length]
    exact hlen
  refine openMessage_of_not_verifies hlen' fun hv' => hzeros ?_
  obtain ⟨type, flags, body, body', rfl, rfl⟩ := h.exists_cons_cons (by omega)
  obtain ⟨pad, hpad⟩ := hs.exists_pad key type
  rw [hpad] at hv hv' ⊢
  rw [hpad]
  exact (h.mapIdx pad).swapsZeros_of_verifies hv hv'

/-- The exception is one: a datagram in which a word went from zero to all ones still opens. -/
theorem exists_openMessage_of_ones (hs : s.AddsStream) {q : Header × Bytes}
    (ho : s.openMessage key d = .ok q) {i : Nat} (h : AlteredWord i d d')
    (hw : (s.plain key d).wordAt (2 * i + 2) = 0)
    (hw' : (s.plain key d').wordAt (2 * i + 2) = 0xFFFF) :
    ∃ q', s.openMessage key d' = .ok q' := by
  obtain ⟨hlen, hplain, hv⟩ := plain_of_openMessage ho
  rw [← hplain] at hv
  have hlen' : headerLen ≤ d'.length := by
    rw [h.length]
    exact hlen
  obtain ⟨type, flags, body, body', rfl, rfl⟩ := h.exists_cons_cons (by omega)
  obtain ⟨pad, hpad⟩ := hs.exists_pad key type
  have hsame : (s.plain key (type :: flags :: body')).length = (type :: flags :: body').length := by
    rw [hpad, List.length_mapIdx]
  refine exists_openMessage_of_verifies hlen' (hlen'.trans_eq hsame.symm) ?_
  rw [hpad] at hv hw hw' ⊢
  exact (h.mapIdx pad).verifies_of_ones hv hw hw'

/-- A datagram that opens does not open any more when bits of a byte after the flags are
flipped. -/
theorem openMessage_alter (hs : s.AddsStream) {q : Header × Bytes}
    (ho : s.openMessage key d = .ok q) {pos : Nat} {mask : UInt8} (hpos : clearLen ≤ pos)
    (hlt : pos < d.length) (hmask : mask ≠ 0) :
    s.openMessage key (d.alter pos mask) = .error .checksum := by
  have h := alteredWord_alter hpos hlt hmask
  refine hs.openMessage_alteredWord ho h ?_
  obtain ⟨hlen, -, -⟩ := plain_of_openMessage ho
  obtain ⟨type, flags, body, body', hd, hd'⟩ := h.exists_cons_cons (by omega)
  obtain ⟨pad, hpad⟩ := hs.exists_pad key type
  -- the other byte of the word
  have hother : ∃ other, (other = 2 * ((pos - clearLen) / 2) + 2 ∨
      other = 2 * ((pos - clearLen) / 2) + 3) ∧ pos ≠ other := by
    by_cases hhigh : pos = 2 * ((pos - clearLen) / 2) + 2
    · exact ⟨2 * ((pos - clearLen) / 2) + 3, .inr rfl, by omega⟩
    · exact ⟨2 * ((pos - clearLen) / 2) + 2, .inl rfl, hhigh⟩
  obtain ⟨other, hplace, hne⟩ := hother
  have hsame : (d.alter pos mask)[other]? = d[other]? := Bytes.getElem?_alter_of_ne d hne mask
  refine AlteredWord.not_swapsZeros hplace ?_
  rw [hd', hpad, ← hd', hd, hpad, ← hd, List.getElem?_mapIdx, List.getElem?_mapIdx, hsame]

end AddsStream

end Suite

/-! ### ChaCha20 -/

namespace ChaCha20

/-- A longer key stream begins as a shorter one. -/
theorem take_keystream (key nonce : Bytes) {n m : Nat} (h : n ≤ m) :
    (keystream key nonce m).take n = keystream key nonce n := by
  unfold keystream
  rw [List.take_take, Nat.min_eq_left h]
  obtain ⟨more, hmore⟩ : ∃ more, (m + 63) / 64 = (n + 63) / 64 + more :=
    Nat.exists_eq_add_of_le (Nat.div_le_div_right (by omega))
  rw [hmore, List.range_add, List.flatMap_append]
  refine List.take_append_of_le_length ?_
  simp only [List.length_flatMap, length_block, List.map_const', List.length_range,
    List.sum_replicate_nat]
  omega

/-- What is added to a byte depends on the key and the place of the byte only. -/
theorem apply_eq_mapIdx (key nonce data : Bytes) :
    apply key nonce data =
      data.mapIdx fun i b => b ^^^ (keystream key nonce (i + 1)).getD i 0 := by
  refine List.ext_getElem ?_ fun i hi hi' => ?_
  · rw [length_apply, List.length_mapIdx]
  · have hlt : i < data.length := by
      rwa [length_apply] at hi
    have hstream := take_keystream key nonce (n := i + 1) (m := data.length) hlt
    simp only [apply, List.getElem_zipWith, List.getElem_mapIdx, ← hstream,
      List.getD_eq_getElem?_getD, List.getElem?_take_of_lt (Nat.lt_succ_self i)]
    rw [List.getElem?_eq_getElem, Option.getD_some]

end ChaCha20

theorem Suite.standard_addsStream : Suite.standard.AddsStream := by
  intro key
  exact ⟨_, ChaCha20.apply_eq_mapIdx key.bytes (Bytes.zeros 12)⟩

/-! ### Damaged requests -/

namespace Agent

variable {σ : Type} [TableStore σ] {a : Agent σ} {s : Suite} {datagram : Bytes}

/-- A datagram that needs the key and does not open under it ends the session, which is all that
it does. -/
theorem handle_dropped {key : SessionKey} {e : MessageError} (hup : a.rebooting = false)
    (hpw : a.session.passwordLoaded = true) (hkey : a.session.key = some key)
    (hg : Guarded datagram) (he : s.openMessage (some key) datagram = .error e) (f : Firewall)
    (nonce : UInt16) (challenge : Bytes) :
    a.handle f s nonce challenge datagram =
      ({ a with session := a.session.invalidate }, f,
        some (s.sealMessage none .error passwordFlag nonce [ErrorCode.lostSync.toByte])) := by
  have hflags : a.session.invalidate.flags = passwordFlag := by
    show flagsFor a.session.password = _
    rw [flagsFor, ← Session.passwordLoaded, hpw, if_pos rfl]
  rw [handle, respond_dropped hup hpw hg (not_opens_of_error hkey he)]
  show (_, f, some (s.sealMessage none .error a.session.invalidate.flags nonce _)) = _
  rw [hflags]

/-- An agent with a password refuses whatever comes without the password flag, and does nothing
else. -/
theorem handle_unflagged (hup : a.rebooting = false) (hpw : a.session.passwordLoaded = true)
    (hlen : headerLen ≤ datagram.length) (hflag : datagram.getD 1 0 &&& passwordFlag = 0)
    (f : Firewall) (nonce : UInt16) (challenge : Bytes) :
    a.handle f s nonce challenge datagram =
      (a, f, some (s.sealMessage none .error passwordFlag nonce [ErrorCode.secure.toByte])) := by
  have hflags : a.session.flags = passwordFlag := by
    rw [Session.flags, flagsFor, ← Session.passwordLoaded, hpw, if_pos rfl]
  obtain ⟨h, payload, hp⟩ := Header.exists_parse hlen
  have hunflagged : h.passwordLoaded = false := by
    rw [← Header.encode_of_parse hp] at hflag
    exact decide_eq_false (not_not_intro hflag)
  simp only [handle, respond, hup, hp, accept, hunflagged, hpw, afterRefusal,
    Bool.false_eq_true, if_false, ne_eq, not_false_eq_true, if_true, reduceCtorEq,
    Option.map_some]
  show (a, f, some (s.sealMessage none .error a.session.flags nonce _)) = _
  rw [hflags]

/-- An agent that agrees on a key has that key. -/
theorem key_after_sync {password own : Bytes} (hpw : a.session.password = some password)
    (hup : a.rebooting = false) (hown : own.length = challengeLen) (f : Firewall)
    (nonce nonce' : UInt16) (peer : Bytes) :
    let b := a.after s [⟨f, nonce, peer, s.sealMessage none .sync passwordFlag nonce' own⟩]
    b.rebooting = false ∧ b.session.key = some (s.agree password peer own) := by
  have hagreed := respond_sync (s := s) hpw hup hown f nonce' peer
  exact ⟨(congrArg (fun r => r.1.rebooting) hagreed).trans hup,
    congrArg (fun r => r.1.session.key) hagreed⟩

/-- Damage behind the flags does not change type and flags, so a datagram needs the key as
before. -/
theorem guarded_alter {pos : Nat} (hpos : clearLen ≤ pos) (mask : UInt8) :
    Guarded (datagram.alter pos mask) ↔ Guarded datagram := by
  have hplace : pos ≠ 0 ∧ pos ≠ 1 := by
    simp only [clearLen] at hpos
    omega
  rw [guarded_iff, guarded_iff, Bytes.length_alter, Bytes.getD_alter_of_ne datagram hplace.1,
    Bytes.getD_alter_of_ne datagram hplace.2]

end Agent

namespace Suite

/-- The cipher, if there is a key, is a stream cipher, and a datagram opens.  If it is damaged
within one word after the flags, it is refused for its checksum, unless in the clear that word
went from one zero to the other.  If any bits of one byte after the flags are flipped, it is
refused in any case.

An agent holds the key, after any datagrams, and no restart is due.  If it receives the datagram
with such bits flipped, and this is not for a key agreement, it drops the key and says so, and
changes neither the filter nor its store nor what is being loaded.  Only a datagram without the
password flag is no request to such an agent: it refuses that, damaged or not, and changes
nothing at all. -/
theorem AddsStream.corruption_detected {s : Suite} (hs : s.AddsStream) (key : Option SessionKey)
    (d : Bytes) (q : Header × Bytes) (ho : s.openMessage key d = .ok q) :
    (∀ i d', AlteredWord i d d' →
      ¬ SwapsZeros ((s.plain key d).wordAt (2 * i + 2)) ((s.plain key d').wordAt (2 * i + 2)) →
      s.openMessage key d' = .error .checksum) ∧
    (∀ pos mask, clearLen ≤ pos → pos < d.length → mask ≠ 0 →
      s.openMessage key (d.alter pos mask) = .error .checksum) ∧
    ∀ (σ : Type) [TableStore σ] (store : σ) (password : Option Bytes) (es : List Agent.Incoming),
      let a := (Agent.start store password).after s es
      a.rebooting = false → key.isSome → a.session.key = key →
      d.head? ≠ some MessageType.sync.toByte →
      ∀ (f : Firewall) (nonce : UInt16) (challenge : Bytes),
        let refusal := fun code : ErrorCode =>
          s.sealMessage none .error passwordFlag nonce [code.toByte]
        (Guarded d → ∀ pos mask, clearLen ≤ pos → pos < d.length → mask ≠ 0 →
          a.handle f s nonce challenge (d.alter pos mask) =
            ({ a with session := a.session.invalidate }, f, some (refusal .lostSync))) ∧
        (¬ Guarded d → ∀ pos mask, clearLen ≤ pos →
          a.handle f s nonce challenge (d.alter pos mask) = (a, f, some (refusal .secure))) := by
  refine ⟨fun i d' => hs.openMessage_alteredWord ho, fun pos mask => hs.openMessage_alter ho, ?_⟩
  intro σ _ store password es a hup hsome hkey hhead f nonce challenge refusal
  obtain ⟨k, rfl⟩ := Option.isSome_iff_exists.mp hsome
  have hpw : a.session.passwordLoaded = true :=
    Agent.passwordLoaded_after (by simp [Agent.start, Session.start]) es (by rw [hkey]; rfl)
  constructor
  · intro hg pos mask hpos hlt hmask
    exact Agent.handle_dropped hup hpw hkey ((Agent.guarded_alter hpos mask).mpr hg)
      (hs.openMessage_alter ho hpos hlt hmask) f nonce challenge
  · intro hg pos mask hpos
    have hlen : headerLen ≤ d.length := (plain_of_openMessage ho).1
    have htype : d.getD 0 0 ≠ MessageType.sync.toByte := by
      intro heq
      cases d with
      | nil => exact absurd hlen (by decide)
      | cons type rest => exact hhead (congrArg some heq)
    rw [guarded_iff] at hg
    have hflag : d.getD 1 0 &&& passwordFlag = 0 := by
      by_contra hne
      exact hg ⟨hlen, hne, htype⟩
    have hne : pos ≠ 1 := by
      rintro rfl
      exact absurd hpos (by decide)
    rw [← Bytes.length_alter d pos mask] at hlen
    rw [← Bytes.getD_alter_of_ne d hne mask] at hflag
    exact Agent.handle_unflagged hup hpw hlen hflag f nonce challenge

/-- A key agreement brings a key, and a request to write comes with a bit of its nonce flipped:
it does not open, and the agent has no key any more. -/
theorem AddsStream.corruption_detected_write :
    let s := Suite.standard
    let sync : Agent.Incoming := ⟨{}, 0, Bytes.zeros challengeLen,
      s.sealMessage none .sync passwordFlag 7 (Bytes.zeros challengeLen)⟩
    let a := (Agent.start ({} : MapStore) (some [112])).after s [sync]
    let key := s.agree [112] (Bytes.zeros challengeLen) (Bytes.zeros challengeLen)
    let d := s.sealMessage (some key) .write passwordFlag 9 []
    a.rebooting = false ∧ a.session.key = some key ∧ Guarded d ∧
      s.openMessage (some key) (d.alter 2 8) = .error .checksum ∧
      a.handle {} s 0 [] (d.alter 2 8) =
        ({ a with session := a.session.invalidate }, {},
          some (s.sealMessage none .error passwordFlag 0 [ErrorCode.lostSync.toByte])) := by
  intro s sync a key d
  obtain ⟨hup, hkey⟩ : a.rebooting = false ∧ a.session.key = some key :=
    Agent.key_after_sync rfl rfl rfl {} 0 7 (Bytes.zeros challengeLen)
  have hg : Guarded d := guarded_iff.mpr (by decide +kernel)
  have hhead : d.head? ≠ some MessageType.sync.toByte := by decide +kernel
  have hlen : 2 < d.length := by decide +kernel
  have ho := standard_invertible.openMessage_sealMessage (some key) .write passwordFlag 9 []
  obtain ⟨-, hflip, hagent⟩ := standard_addsStream.corruption_detected (some key) d _ ho
  obtain ⟨hdrop, -⟩ := hagent MapStore {} (some [112]) [sync] hup rfl hkey hhead {} 0 []
  exact ⟨hup, hkey, hg, hflip 2 8 (by decide) hlen (by decide),
    hdrop hg 2 8 (by decide) hlen (by decide)⟩

/-- The same request without the password flag opens under the key, and does not with that bit
flipped.  But the agent refuses it for the flag, and has its key as before. -/
theorem flip_without_flag_keeps_key :
    let s := Suite.standard
    let sync : Agent.Incoming := ⟨{}, 0, Bytes.zeros challengeLen,
      s.sealMessage none .sync passwordFlag 7 (Bytes.zeros challengeLen)⟩
    let a := (Agent.start ({} : MapStore) (some [112])).after s [sync]
    let key := s.agree [112] (Bytes.zeros challengeLen) (Bytes.zeros challengeLen)
    let d := s.sealMessage (some key) .write 0 9 []
    a.rebooting = false ∧ a.session.key = some key ∧
      d.head? ≠ some MessageType.sync.toByte ∧ (∃ q, s.openMessage (some key) d = .ok q) ∧
      s.openMessage (some key) (d.alter 2 8) = .error .checksum ∧
      a.handle {} s 0 [] (d.alter 2 8) =
        (a, {}, some (s.sealMessage none .error passwordFlag 0 [ErrorCode.secure.toByte])) := by
  intro s sync a key d
  obtain ⟨hup, hkey⟩ : a.rebooting = false ∧ a.session.key = some key :=
    Agent.key_after_sync rfl rfl rfl {} 0 7 (Bytes.zeros challengeLen)
  have hpw : a.session.passwordLoaded = true :=
    Agent.passwordLoaded_after (by simp [Agent.start, Session.start]) [sync] (by rw [hkey]; rfl)
  have ho := standard_invertible.openMessage_sealMessage (some key) .write 0 9 []
  have hlen : headerLen ≤ (d.alter 2 8).length := by decide +kernel
  have hflag : (d.alter 2 8).getD 1 0 &&& passwordFlag = 0 := by decide +kernel
  exact ⟨hup, hkey, by decide +kernel, ⟨_, ho⟩,
    standard_addsStream.openMessage_alter ho (by decide) (by decide +kernel) (by decide),
    Agent.handle_unflagged hup hpw hlen hflag {} 0 []⟩

end Suite

end FilterBridge
