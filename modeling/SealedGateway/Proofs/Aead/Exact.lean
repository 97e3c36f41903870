import Mathlib.Algebra.GroupWithZero.Nat
import SealedGateway.Proofs.Aead

/-!
# Sealing and opening undo each other

What opens is exactly what was sealed: the tag is checked against the one that sealing makes, so a
ciphertext that opens is the one that sealing its text gives. All others fail in one way, those
without room for a tag among them.

- **`Gcm.decrypt?_eq_some_iff`**: the equivalence for the bare mode of operation.
- **`Aead.sealing_exact`**: the checked operations, with their lengths and with nonces of any
  length.
-/

namespace SealedGateway

namespace Gcm

theorem encrypt_of_decrypt? {key : Octets 32} {nonce : Octets 12} {text data : Bytes}
    (h : decrypt? key nonce data = some text) : encrypt key nonce text = data := by
  rw [decrypt?] at h
  split at h
  · cases h
  · dsimp only at h
    split at h
    · rename_i htag
      obtain rfl := Option.some.inj h
      rw [encrypt, applyStream_applyStream, htag, List.take_append_drop]
    · cases h

theorem decrypt?_eq_some_iff {key : Octets 32} {nonce : Octets 12} {text data : Bytes} :
    decrypt? key nonce data = some text ↔ encrypt key nonce text = data :=
  ⟨encrypt_of_decrypt?, fun h => h ▸ decrypt?_encrypt nonce key text⟩

theorem decrypt?_short {key : Octets 32} {nonce : Octets 12} {data : Bytes}
    (h : data.length < 16) : decrypt? key nonce data = none := by
  rw [decrypt?, if_pos h]

end Gcm

namespace Aead

variable {key : Octets 32}

/-- A nonce of another length is refused with that length. -/
theorem checkNonce_error {nonce : Bytes} (h : nonce.length ≠ 12) :
    checkNonce nonce = .error (.invalidNonce 12 nonce.length) := by
  rw [checkNonce, Octets.ofBytes?_eq_none_iff.mpr h]
  rfl

theorem encrypt_eq_ok_iff {nonce : Octets 12} {text data : Bytes} :
    encrypt key nonce.toBytes text = .ok data ↔
      text.length ≤ Gcm.maxLength ∧ Gcm.encrypt key nonce text = data := by
  rw [encrypt, checkNonce_toBytes]
  simp only [bind, Except.bind]
  split
  · simp only [reduceCtorEq, false_iff, not_and]
    omega
  · simp only [Except.ok.injEq, iff_and_self]
    omega

/-- What does not open for the mode of operation does not open at all. -/
theorem decrypt_of_none {nonce : Octets 12} {data : Bytes}
    (h : Gcm.decrypt? key nonce data = none) :
    decrypt key nonce.toBytes data = .error .authenticationFailed := by
  rw [decrypt, checkNonce_toBytes]
  simp only [bind, Except.bind, h]
  split <;> rfl

theorem decrypt_eq_ok_iff {nonce : Octets 12} {text data : Bytes} :
    decrypt key nonce.toBytes data = .ok text ↔ encrypt key nonce.toBytes text = .ok data := by
  rw [encrypt_eq_ok_iff, ← Gcm.decrypt?_eq_some_iff]
  cases hopen : Gcm.decrypt? key nonce data with
  | none =>
    rw [decrypt_of_none hopen]
    simp
  | some opened =>
    -- The text that comes out is the tag shorter, so both limits say the same.
    have hlen : data.length = opened.length + 16 := by
      rw [← Gcm.encrypt_of_decrypt? hopen, Gcm.length_encrypt]
    rw [decrypt, checkNonce_toBytes]
    simp only [bind, Except.bind, hopen, hlen]
    split
    · simp only [reduceCtorEq, Option.some.injEq, false_iff, not_and]
      rintro hle rfl
      omega
    · simp only [Except.ok.injEq, Option.some.injEq, iff_and_self]
      rintro rfl
      omega

/-- **Sealing and opening undo each other.** A text within the limit is sealed, to 16 octets more.
A ciphertext opens to a text just if sealing the text gives the ciphertext. So what opens is exactly
what was sealed, and whatever else is there to open fails the authentication, as does all that has
no room for a tag. A nonce that is not 12 octets long is refused both ways, with its length. -/
theorem sealing_exact (key : Octets 32) :
    (∀ nonce : Bytes, nonce.length = 12 →
      (∀ text : Bytes, text.length ≤ 2 ^ 36 - 32 →
        ∃ data, encrypt key nonce text = .ok data ∧ data.length = text.length + 16) ∧
      (∀ text data : Bytes, text.length ≤ 2 ^ 36 - 32 → data.length ≤ 2 ^ 36 - 16 →
        (decrypt key nonce data = .ok text ↔ encrypt key nonce text = .ok data)) ∧
      (∀ data : Bytes, data.length ≤ 2 ^ 36 - 16 →
        (∀ text : Bytes, text.length ≤ 2 ^ 36 - 32 → encrypt key nonce text ≠ .ok data) →
          decrypt key nonce data = .error .authenticationFailed) ∧
      ∀ data : Bytes, data.length < 16 →
        decrypt key nonce data = .error .authenticationFailed) ∧
    ∀ nonce : Bytes, nonce.length ≠ 12 → ∀ data : Bytes,
      encrypt key nonce data = .error (.invalidNonce 12 nonce.length) ∧
        decrypt key nonce data = .error (.invalidNonce 12 nonce.length) := by
  have hlimit : Gcm.maxLength = 2 ^ 36 := rfl
  refine ⟨fun nonce hnonce => ?_, fun nonce hnonce data => ?_⟩
  · obtain ⟨nonce, rfl⟩ : ∃ o : Octets 12, nonce = o.toBytes := ⟨⟨nonce, hnonce⟩, rfl⟩
    refine ⟨fun text htext => ?_, fun text data _ _ => decrypt_eq_ok_iff,
      fun data hdata hnone => ?_, fun data hdata => decrypt_of_none (Gcm.decrypt?_short hdata)⟩
    · exact ⟨_, encrypt_eq_ok key (by omega), Gcm.length_encrypt nonce key text⟩
    · cases hopen : decrypt key nonce.toBytes data with
      | error f => rw [decrypt_error hopen]
      | ok text =>
        have hsealed := decrypt_eq_ok_iff.mp hopen
        have hlen : data.length = text.length + 16 := by
          rw [← (encrypt_eq_ok_iff.mp hsealed).2, Gcm.length_encrypt]
        exact absurd hsealed (hnone text (by omega))
  · rw [encrypt, decrypt, checkNonce_error hnonce]
    exact ⟨rfl, rfl⟩

namespace Sample

def nonce : Bytes := List.replicate 12 7

/-- A text with a block that is not full. -/
def text : Bytes := List.replicate 17 0x61

end Sample

/-- A text of a block and an octet, its ciphertext opened, and what is cut off of it or of its
nonce. -/
theorem sealing_exact_partial_block :
    ∃ data, encrypt (.zero 32) Sample.nonce Sample.text = .ok data ∧ data.length = 33 ∧
    decrypt (.zero 32) Sample.nonce data = .ok Sample.text ∧
    decrypt (.zero 32) Sample.nonce (data.take 15) = .error .authenticationFailed ∧
    decrypt (.zero 32) (Sample.nonce.take 8) data = .error (.invalidNonce 12 8) := by
  obtain ⟨hexact, hnonce⟩ := sealing_exact (.zero 32)
  obtain ⟨hseals, hiff, -, hshort⟩ := hexact Sample.nonce (by decide)
  obtain ⟨data, hsealed, hlen⟩ := hseals Sample.text (by decide)
  have hlen33 : data.length = 33 := hlen
  refine ⟨data, hsealed, hlen33, (hiff _ _ (by decide) (by omega)).mpr hsealed, hshort _ ?_,
    (hnonce (Sample.nonce.take 8) (by decide) data).2⟩
  rw [List.length_take]
  omega

end Aead

end SealedGateway
