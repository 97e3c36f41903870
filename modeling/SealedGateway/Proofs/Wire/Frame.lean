import SealedGateway.Proofs.Failure
import SealedGateway.Proofs.Wire

/-!
# Which frames come back

The tag of a frame decides how its text is read, so a frame whose unknown kind is spelled like a
known one is shadowed: its text is read as the known kind, which its null package is not good for.
All other frames come back, whatever characters their texts are made of.

- **`ofEnvelope_distinct`**: what is read is never shadowed, so that a frame that was read can be
  written and read again.
- **`codec_inverse`**: which frames come back, and what comes back instead of the others.
-/

namespace SealedGateway.Frame

theorem distinct_iff {f : Frame} :
    f.Distinct ↔ f ≠ .unknown handshakeTag ∧ f ≠ .unknown sealedTag := by
  cases f <;> simp [Distinct]

/-- A frame with the tag and the null package of a shadowed one is refused for its package. -/
theorem decode_encode_shadowed {tag : String} (h : tag = handshakeTag ∨ tag = sealedTag) :
    decode (Utf8.encode (unknown tag).encode) =
      .error (.invalidMessage (tag ++ " pkg must be a base64 string, got null")) := by
  rw [decode, encode, Envelope.decode_text (unknown tag).packable_toEnvelope]
  obtain rfl | rfl := h <;> rfl

theorem ofEnvelope_distinct {e : Envelope} {f : Frame} (h : ofEnvelope e = .ok f) :
    f.Distinct := by
  rw [ofEnvelope] at h
  split at h
  · obtain ⟨text, -, rfl⟩ := map_eq_ok_iff.mp h
    trivial
  · split at h
    · obtain ⟨text, -, rfl⟩ := map_eq_ok_iff.mp h
      trivial
    · obtain rfl := Except.ok.inj h
      exact ⟨‹_›, ‹_›⟩

theorem distinct_of_decode {data : Bytes} {f : Frame} (h : decode data = .ok f) : f.Distinct := by
  obtain ⟨e, -, he⟩ := bind_eq_ok_iff.mp h
  exact ofEnvelope_distinct he

theorem decode_encode_iff (f : Frame) : decode (Utf8.encode f.encode) = .ok f ↔ f.Distinct :=
  ⟨distinct_of_decode, decode_encode⟩

/-- **Reading undoes writing.** A frame that is written is read back as it was, whatever its texts
are, just if its kind is not an unknown one spelled like a known one. Such a frame is refused for
its package instead. No octets are read as such a frame, so every frame that was read is read back
from its own text. -/
theorem codec_inverse :
    (∀ f : Frame, decode (Utf8.encode f.encode) = .ok f ↔
      f ≠ .unknown "Handshake" ∧ f ≠ .unknown "MessagePkg") ∧
    (∀ tag ∈ ["Handshake", "MessagePkg"], decode (Utf8.encode (unknown tag).encode) =
      .error (.invalidMessage (tag ++ " pkg must be a base64 string, got null"))) ∧
    ∀ data f, decode data = .ok f →
      (f ≠ .unknown "Handshake" ∧ f ≠ .unknown "MessagePkg") ∧
        decode (Utf8.encode f.encode) = .ok f := by
  refine ⟨fun f => ?_, fun tag htag => ?_, fun data f h => ?_⟩
  · rw [decode_encode_iff, distinct_iff]
    rfl
  · exact decode_encode_shadowed (by simpa [handshakeTag, sealedTag] using htag)
  · have hf := distinct_of_decode h
    exact ⟨distinct_iff.mp hf, decode_encode hf⟩

/-- A text that is not written here: members in another order, a null nonce, escapes that are not
needed. -/
def Sample.foreign : Bytes :=
  Utf8.encode "\x7b\"iv\":null, \"pkg\":\"\\/+8=\\u0022\", \"type\":\"MessagePkg\"\x7d"

theorem codec_inverse_foreign :
    decode Sample.foreign = .ok (.sealed "/+8=\"" none) ∧
      decode (Utf8.encode (Frame.sealed "/+8=\"" none).encode) = .ok (.sealed "/+8=\"" none) := by
  have h : decode Sample.foreign = .ok (.sealed "/+8=\"" none) := rfl
  exact ⟨h, (codec_inverse.2.2 _ _ h).2⟩

end SealedGateway.Frame
