import SealedGateway.Wire.Frame
import SealedGateway.Wire.Message
import SealedGateway.KeyAgreement

/-!
# How readers fail

Each reader fails in a way of its own: Base64, the documents of the protocol, and the steps of a
key agreement. `Frame.decode_error` says of a whole frame that its faults are its own.
-/

namespace SealedGateway

/-! ## Failing computations -/

section Except

variable {ε α β : Type} {x : Except ε α} {e : ε}

theorem bind_eq_ok_iff {f : α → Except ε β} {b : β} :
    (x >>= f) = .ok b ↔ ∃ a, x = .ok a ∧ f a = .ok b := by
  cases x <;> simp [bind, Except.bind]

theorem bind_eq_error_iff {f : α → Except ε β} :
    (x >>= f) = .error e ↔ x = .error e ∨ ∃ a, x = .ok a ∧ f a = .error e := by
  cases x <;> simp [bind, Except.bind]

theorem map_eq_ok_iff {g : α → β} {b : β} : x.map g = .ok b ↔ ∃ a, x = .ok a ∧ g a = b := by
  cases x <;> simp [Except.map]

theorem map_eq_error_iff {g : α → β} : x.map g = .error e ↔ x = .error e := by
  cases x <;> simp [Except.map]

end Except

/-! ## Documents -/

theorem decodeBase64_error {s : String} {f : Failure} (h : decodeBase64 s = .error f) :
    ∃ e, f = .codec (.base64 e) := by
  unfold decodeBase64 at h
  split at h <;> cases h
  exact ⟨_, rfl⟩

theorem Envelope.decode_error {data : Bytes} {f : Failure} (h : Envelope.decode data = .error f) :
    f = .codec .json := by
  unfold Envelope.decode at h
  split at h <;> cases h
  rfl

theorem Message.decode_error {data : Bytes} {f : Failure} (h : Message.decode data = .error f) :
    f = .codec .json := by
  unfold Message.decode at h
  split at h <;> cases h
  rfl

theorem Frame.packageText_error {tag : String} {v : Json} {f : Failure}
    (h : Frame.packageText tag v = .error f) : ∃ d, f = .invalidMessage d := by
  unfold Frame.packageText at h
  split at h <;> cases h
  exact ⟨_, rfl⟩

/-- A frame that cannot be read costs nothing but itself. -/
theorem Frame.decode_error {data : Bytes} {f : Failure} (h : Frame.decode data = .error f) :
    f.frameLocal = true := by
  rcases bind_eq_error_iff.mp h with he | ⟨e, -, he⟩
  · rw [Envelope.decode_error he]
    rfl
  · unfold Frame.ofEnvelope at he
    split at he
    · obtain ⟨d, rfl⟩ := Frame.packageText_error (map_eq_error_iff.mp he)
      rfl
    · split at he
      · obtain ⟨d, rfl⟩ := Frame.packageText_error (map_eq_error_iff.mp he)
        rfl
      · cases he

/-! ## Key agreement -/

theorem parsePublicKey_error {b : Bytes} {f : Failure} (h : parsePublicKey b = .error f) :
    ∃ d, f = .invalidPeerKey d := by
  unfold parsePublicKey at h
  split at h <;> cases h
  exact ⟨_, rfl⟩

theorem parsePublicKey_eq_ok_iff {b : Bytes} {peer : Octets 32} :
    parsePublicKey b = .ok peer ↔ Octets.ofBytes? 32 b = some peer := by
  unfold parsePublicKey
  cases Octets.ofBytes? 32 b <;> simp

@[simp] theorem parsePublicKey_toBytes (k : Octets 32) : parsePublicKey k.toBytes = .ok k := by
  rw [parsePublicKey, Octets.ofBytes?_toBytes]

theorem sharedSecret_ok {pair : KeyPair} {peer secret : Octets 32}
    (h : sharedSecret pair peer = .ok secret) :
    secret = Curve25519.scalarMult pair.secret peer := by
  unfold sharedSecret at h
  simp only at h
  split at h <;> cases h
  rfl

theorem sharedSecret_error {pair : KeyPair} {peer : Octets 32} {f : Failure}
    (h : sharedSecret pair peer = .error f) : ∃ d, f = .invalidPeerKey d := by
  unfold sharedSecret at h
  simp only at h
  split at h <;> cases h
  exact ⟨_, rfl⟩

theorem scalarMult_of_sharedSecret_error {pair : KeyPair} {peer : Octets 32} {f : Failure}
    (h : sharedSecret pair peer = .error f) :
    Curve25519.scalarMult pair.secret peer = .zero 32 := by
  unfold sharedSecret at h
  simp only at h
  split at h
  · assumption
  · cases h

theorem sharedSecret_eq_error {pair : KeyPair} {peer : Octets 32}
    (h : Curve25519.scalarMult pair.secret peer = .zero 32) :
    sharedSecret pair peer = .error (.invalidPeerKey "low-order point") := by
  simp only [sharedSecret, h, ↓reduceIte]

theorem sharedSecret_eq_ok {pair : KeyPair} {peer : Octets 32}
    (h : Curve25519.scalarMult pair.secret peer ≠ .zero 32) :
    sharedSecret pair peer = .ok (Curve25519.scalarMult pair.secret peer) := by
  simp only [sharedSecret, h, ↓reduceIte]

end SealedGateway
