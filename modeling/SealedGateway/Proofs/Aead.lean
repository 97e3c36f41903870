import SealedGateway.Aead

/-!
# What was sealed opens again

Counter mode adds a stream that depends on the length of the text only, and it keeps that length,
so adding it twice gives the text back (`applyStream_applyStream`). The tag is made of the
ciphertext, and both ends make it in the same way.

Main statements: **`Gcm.decrypt?_encrypt`**, and **`Aead.decrypt_of_encrypt`** for the checked
operations of the protocol.
-/

namespace SealedGateway

namespace Gcm

/-- Adding the same octets twice changes nothing. -/
theorem zipWith_xor_cancel {text stream : Bytes} (h : text.length ≤ stream.length) :
    List.zipWith (· ^^^ ·) (List.zipWith (· ^^^ ·) text stream) stream = text := by
  induction text generalizing stream with
  | nil => rfl
  | cons a text ih =>
    cases stream with
    | nil => simp only [List.length_cons, List.length_nil] at h; omega
    | cons b stream =>
      have ht : text.length ≤ stream.length := by
        simp only [List.length_cons] at h
        omega
      rw [List.zipWith_cons_cons, List.zipWith_cons_cons, ih ht, UInt8.xor_assoc, UInt8.xor_self,
        UInt8.xor_zero]

variable (keys : Aes.RoundKeys) (nonce : Octets 12)

@[simp] theorem length_streamBlock (i : Nat) : (streamBlock keys nonce i).length = 16 := rfl

@[simp] theorem length_stream (n : Nat) : (stream keys nonce n).length = 16 * n := by
  rw [stream, List.length_flatMap]
  simp only [length_streamBlock, List.map_const', List.sum_replicate_nat, List.length_range]
  omega

theorem length_le_stream (n : Nat) : n ≤ (stream keys nonce (blockCount n)).length := by
  rw [length_stream, blockCount]
  omega

@[simp] theorem length_applyStream (text : Bytes) :
    (applyStream keys nonce text).length = text.length := by
  rw [applyStream, List.length_zipWith]
  exact Nat.min_eq_left (length_le_stream keys nonce text.length)

@[simp] theorem applyStream_applyStream (text : Bytes) :
    applyStream keys nonce (applyStream keys nonce text) = text := by
  rw [applyStream, length_applyStream, applyStream]
  exact zipWith_xor_cancel (length_le_stream keys nonce text.length)

@[simp] theorem length_tag (ciphertext : Bytes) : (tag keys nonce ciphertext).length = 16 := by
  rw [tag, Ghash.toBytes, List.length_map, List.length_range]

@[simp] theorem length_encrypt (key : Octets 32) (text : Bytes) :
    (encrypt key nonce text).length = text.length + 16 := by
  rw [encrypt, List.length_append, length_applyStream, length_tag]

@[simp] theorem decrypt?_encrypt (key : Octets 32) (text : Bytes) :
    decrypt? key nonce (encrypt key nonce text) = some text := by
  have hlen := length_encrypt nonce key text
  have hbody : (encrypt key nonce text).length - 16 =
      (applyStream (Aes.RoundKeys.ofKey key) nonce text).length := by
    rw [hlen, length_applyStream, Nat.add_sub_cancel]
  rw [decrypt?, if_neg (by omega)]
  dsimp only
  rw [hbody, encrypt, List.take_left, List.drop_left, if_pos rfl, applyStream_applyStream]

end Gcm

namespace Aead

@[simp] theorem checkNonce_toBytes (nonce : Octets 12) :
    checkNonce nonce.toBytes = .ok nonce := by simp [checkNonce]

/-- Opening under a nonce of the right length fails in one way only. -/
theorem decrypt_error {key : Octets 32} {nonce : Octets 12} {data : Bytes} {f : Failure}
    (h : decrypt key nonce.toBytes data = .error f) : f = .authenticationFailed := by
  unfold decrypt at h
  rw [checkNonce_toBytes] at h
  change (if Gcm.maxLength + 16 < data.length then _ else _) = _ at h
  split at h
  · cases h; rfl
  · split at h <;> cases h
    rfl

theorem encrypt_eq_ok {nonce : Octets 12} {text : Bytes} (key : Octets 32)
    (h : text.length ≤ Gcm.maxLength) :
    encrypt key nonce.toBytes text = .ok (Gcm.encrypt key nonce text) := by
  rw [encrypt, checkNonce_toBytes]
  simp only [bind, Except.bind]
  rw [if_neg (by omega)]

theorem decrypt_of_encrypt {key : Octets 32} {nonce : Octets 12} {text : Bytes}
    (h : text.length ≤ Gcm.maxLength) :
    decrypt key nonce.toBytes (Gcm.encrypt key nonce text) = .ok text := by
  have hlen := Gcm.length_encrypt nonce key text
  rw [decrypt, checkNonce_toBytes]
  simp only [bind, Except.bind]
  rw [if_neg (by omega), Gcm.decrypt?_encrypt]

end Aead

end SealedGateway
