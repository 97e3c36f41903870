import SealedGateway.Proofs.Aead.Exact
import SealedGateway.Proofs.Crypto.Aes
import SealedGateway.Proofs.Crypto.Ghash

/-!
# What was tampered with does not open

The tag is the hash of the ciphertext, masked by a block of the key stream. The mask is the cipher's
image of the nonce, so another nonce masks the same hash in another way; and the hash tells apart
what differs in one block, if the hash key is not zero. Where the ciphertext is what was sealed,
only one tag fits it.

- **`Gcm.tag_ne_of_nonce`**, **`Gcm.tag_ne_of_block`**: what another nonce and another block make of
  the tag.
- **`Aead.tampering_detected`**: another nonce, another tag, another block of the body, and another
  bit anywhere.
-/

namespace SealedGateway

namespace Gcm

variable {keys : Aes.RoundKeys} {key : Octets 32} {nonce nonce' : Octets 12} {a b t data : Bytes}

/-- Blocks of the key stream of one number tell nonces apart. -/
theorem streamBlock_injective (i : Nat) : Function.Injective (streamBlock keys · i) := by
  intro nonce nonce' h
  have hlen (o : Octets 12) : (o.toBytes ++ counterBytes i).length = 16 := by
    rw [List.length_append, o.length_eq]
    rfl
  have hblock := keys.encrypt_injective (Aes.Block.toBytes_injective h)
  have hbytes : nonce.toBytes ++ counterBytes i = nonce'.toBytes ++ counterBytes i := by
    rw [← Aes.Block.toBytes_ofBytes (hlen nonce), hblock, Aes.Block.toBytes_ofBytes (hlen nonce')]
  exact Octets.ext_iff.mpr (List.append_cancel_right hbytes)

theorem tag_ne_of_nonce (h : nonce ≠ nonce') : tag keys nonce a ≠ tag keys nonce' a := by
  intro heq
  have hmask := (BitVec.xor_right_inj _).mp (Ghash.toBytes_injective heq)
  have hstream := Ghash.ofBytes_injective (by simp) (by simp) hmask
  exact h (streamBlock_injective 1 hstream)

theorem tag_ne_of_block (hh : hashKey keys ≠ 0) {i : Nat} (h : DiffersInBlock i a b) :
    tag keys nonce a ≠ tag keys nonce b := by
  intro heq
  exact hash_ne hh h ((BitVec.xor_left_inj _).mp (Ghash.toBytes_injective heq))

/-- A body in front of a tag that is not its own does not open. -/
theorem decrypt?_wrong_tag (ht : t.length = 16) (h : tag (.ofKey key) nonce a ≠ t) :
    decrypt? key nonce (a ++ t) = none := by
  have hbody : (a ++ t).length - 16 = a.length := by
    rw [List.length_append, ht, Nat.add_sub_cancel]
  rw [decrypt?, if_neg (by rw [List.length_append]; omega)]
  dsimp only
  rw [hbody, List.take_left, List.drop_left, if_neg h]

theorem decrypt?_other_nonce (h : nonce' ≠ nonce) (text : Bytes) :
    decrypt? key nonce' (encrypt key nonce text) = none :=
  decrypt?_wrong_tag (length_tag ..) (tag_ne_of_nonce h)

/-! ## Places of a ciphertext -/

theorem DiffersIn.behind (h : DiffersIn (a.length ≤ ·) (a ++ t) data) :
    ∃ u, data = a ++ u ∧ u.length = t.length ∧ t ≠ u := by
  have hbody : data.take a.length = a := by
    refine List.ext_getElem? fun j => ?_
    rw [List.getElem?_take]
    split
    · rename_i hj
      rw [← h.same j (by omega), List.getElem?_append_left hj]
    · rw [List.getElem?_eq_none (by omega)]
  have hdata : data = a ++ data.drop a.length := by
    conv_lhs => rw [← List.take_append_drop a.length data, hbody]
  have hlen := h.length_eq
  refine ⟨data.drop a.length, hdata, ?_, fun heq => h.ne ?_⟩
  · rw [List.length_drop, ← hlen, List.length_append, Nat.add_sub_cancel_left]
  · rw [heq, ← hdata]

theorem DiffersIn.before {p : Nat → Prop}
    (h : DiffersIn (fun j => j < a.length ∧ p j) (a ++ t) data) :
    ∃ b, data = b ++ t ∧ DiffersIn p a b := by
  have htag : data.drop a.length = t := by
    refine List.ext_getElem? fun j => ?_
    rw [List.getElem?_drop, ← h.same _ (by omega), List.getElem?_append_right (by omega),
      Nat.add_sub_cancel_left]
  have hdata : data = data.take a.length ++ t := by
    rw [← htag, List.take_append_drop]
  have hlen : a.length = (data.take a.length).length := by
    rw [List.length_take, ← h.length_eq, List.length_append, Nat.min_eq_left (by omega)]
  refine ⟨data.take a.length, hdata, hlen, fun heq => h.ne ?_, fun j hj => ?_⟩
  · rw [hdata, ← heq]
  · rw [List.getElem?_take]
    split
    · rename_i hlt
      rw [← h.same j (by tauto), List.getElem?_append_left hlt]
    · rw [List.getElem?_eq_none (by omega)]

theorem decrypt?_other_tag {text data : Bytes}
    (h : DiffersIn (text.length ≤ ·) (encrypt key nonce text) data) :
    decrypt? key nonce data = none := by
  rw [← length_applyStream (.ofKey key) nonce text] at h
  obtain ⟨t, rfl, hlen, hne⟩ := h.behind
  exact decrypt?_wrong_tag (hlen.trans (length_tag ..)) hne

theorem decrypt?_other_block (hh : hashKey (.ofKey key) ≠ 0) {text data : Bytes} {i : Nat}
    (h : DiffersIn (fun j => j < text.length ∧ j / 16 = i) (encrypt key nonce text) data) :
    decrypt? key nonce data = none := by
  rw [← length_applyStream (.ofKey key) nonce text] at h
  obtain ⟨b, rfl, hab⟩ := h.before
  exact decrypt?_wrong_tag (length_tag ..) (tag_ne_of_block hh hab).symm

end Gcm

/-- The octets with one bit turned over. Bits are numbered from the first octet on, in each octet
from the lowest. -/
def flipBit (b : Bytes) (k : Nat) : Bytes := b.modify (k / 8) (· ^^^ 1 <<< UInt8.ofNat (k % 8))

@[simp] theorem length_flipBit (b : Bytes) (k : Nat) : (flipBit b k).length = b.length := by
  rw [flipBit, List.length_modify]

theorem flipBit_ne {b : Bytes} {k : Nat} (hk : k < 8 * b.length) : flipBit b k ≠ b := by
  have hlt : k / 8 < b.length := by omega
  intro heq
  have hoctet := congrArg (·[k / 8]?) heq
  simp only [flipBit, List.getElem?_modify_eq, List.getElem?_eq_getElem hlt, Option.map_eq_map,
    Option.map_some, Option.some.injEq] at hoctet
  have hbit : ∀ r < 8, (1 : UInt8) <<< UInt8.ofNat r ≠ 0 := by decide
  refine hbit (k % 8) (by omega) ((UInt8.xor_right_inj b[k / 8]).mp ?_)
  rw [hoctet, UInt8.xor_zero]

/-- Only the octet of the bit is another one. -/
theorem differsIn_flipBit {places : Nat → Prop} {b : Bytes} {k : Nat} (hk : k < 8 * b.length)
    (h : places (k / 8)) : Gcm.DiffersIn places b (flipBit b k) := by
  refine ⟨(length_flipBit b k).symm, (flipBit_ne hk).symm, fun j hj => ?_⟩
  rw [flipBit, List.getElem?_modify_ne]
  rintro rfl
  exact hj h

namespace Aead

/-- **Tampering is detected.** If the hash key is not zero, a text within the limit is sealed, and
what is sealed opens under no other nonce. Neither does anything of its length that differs from it
in nothing but the tag, or in nothing but one block of the body. So no bit can be turned over, in
what is sealed or in the nonce. -/
theorem tampering_detected (key : Octets 32) (hkey : Gcm.hashKey (.ofKey key) ≠ 0) {nonce : Bytes}
    (hnonce : nonce.length = 12) {text : Bytes} (htext : text.length ≤ Gcm.maxLength) :
    ∃ data, encrypt key nonce text = .ok data ∧ data.length = text.length + 16 ∧
      (∀ nonce', nonce'.length = 12 → nonce' ≠ nonce →
        decrypt key nonce' data = .error .authenticationFailed) ∧
      (∀ data', Gcm.DiffersIn (text.length ≤ ·) data data' →
        decrypt key nonce data' = .error .authenticationFailed) ∧
      (∀ data' i, Gcm.DiffersIn (fun j => j < text.length ∧ j / 16 = i) data data' →
        decrypt key nonce data' = .error .authenticationFailed) ∧
      (∀ k < 8 * data.length,
        decrypt key nonce (flipBit data k) = .error .authenticationFailed) ∧
      ∀ k < 8 * 12, decrypt key (flipBit nonce k) data = .error .authenticationFailed := by
  obtain ⟨nonce, rfl⟩ : ∃ o : Octets 12, nonce = o.toBytes := ⟨⟨nonce, hnonce⟩, rfl⟩
  have hother (nonce' : Bytes) (hlen : nonce'.length = 12) (hne : nonce' ≠ nonce.toBytes) :
      decrypt key nonce' (Gcm.encrypt key nonce text) = .error .authenticationFailed := by
    obtain ⟨nonce', rfl⟩ : ∃ o : Octets 12, nonce' = o.toBytes := ⟨⟨nonce', hlen⟩, rfl⟩
    exact decrypt_of_none (Gcm.decrypt?_other_nonce (hne <| Octets.ext_iff.mp ·) text)
  have htag (data' : Bytes)
      (h : Gcm.DiffersIn (text.length ≤ ·) (Gcm.encrypt key nonce text) data') :
      decrypt key nonce.toBytes data' = .error .authenticationFailed :=
    decrypt_of_none (Gcm.decrypt?_other_tag h)
  have hblock (data' : Bytes) (i : Nat) (h : Gcm.DiffersIn
      (fun j => j < text.length ∧ j / 16 = i) (Gcm.encrypt key nonce text) data') :
      decrypt key nonce.toBytes data' = .error .authenticationFailed :=
    decrypt_of_none (Gcm.decrypt?_other_block hkey h)
  refine ⟨_, encrypt_eq_ok key htext, Gcm.length_encrypt nonce key text, hother, htag, hblock,
    fun k hk => ?_, fun k hk => ?_⟩
  · -- The octet of the bit lies in the tag, or in one block of the body.
    rcases Nat.lt_or_ge (k / 8) text.length with hlt | hge
    · exact hblock _ (k / 8 / 16) (differsIn_flipBit hk ⟨hlt, rfl⟩)
    · exact htag _ (differsIn_flipBit hk hge)
  · exact hother _ (by rw [length_flipBit, nonce.length_eq])
      (flipBit_ne (by rw [nonce.length_eq]; exact hk))

/-- The sample text under the key of zeros: another nonce, a bit of the last block, a bit of the
tag, the first bit of all and the last bit of the nonce. -/
theorem tampering_detected_partial_block :
    ∃ data, encrypt (.zero 32) Sample.nonce Sample.text = .ok data ∧
      decrypt (.zero 32) (List.replicate 12 8) data = .error .authenticationFailed ∧
      decrypt (.zero 32) Sample.nonce (flipBit data 135) = .error .authenticationFailed ∧
      decrypt (.zero 32) Sample.nonce (flipBit data 136) = .error .authenticationFailed ∧
      decrypt (.zero 32) Sample.nonce (flipBit data 0) = .error .authenticationFailed ∧
      decrypt (.zero 32) (flipBit Sample.nonce 95) data = .error .authenticationFailed := by
  have hkey : Gcm.hashKey (.ofKey (.zero 32)) ≠ 0 := by decide +kernel
  have hnonce : Sample.nonce.length = 12 := by decide
  have htext : Sample.text.length = 17 := by decide
  have hlimit : Sample.text.length ≤ Gcm.maxLength := by
    rw [htext, Gcm.maxLength]
    decide
  obtain ⟨data, hsealed, hlen, hother, htag, hblock, hbits, hnonceBits⟩ :=
    tampering_detected (.zero 32) hkey hnonce hlimit
  rw [htext] at hlen htag hblock
  exact ⟨data, hsealed, hother _ (by decide) (by decide),
    hblock _ 1 (differsIn_flipBit (by omega) (by decide)),
    htag _ (differsIn_flipBit (by omega) (by decide)), hbits 0 (by omega),
    hnonceBits 95 (by decide)⟩

end Aead

end SealedGateway
