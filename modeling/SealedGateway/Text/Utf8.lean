import SealedGateway.Bytes

/-!
# Text as octets

`Utf8.encode` and `Utf8.decode?` are the two directions of UTF-8. Decoding is strict: overlong
forms, surrogates and stray continuation octets are refused, so an octet string is the encoding
of at most one text.

Main statements: **`decode?_encode`** and **`encode_of_decode?`**.
-/

namespace SealedGateway.Utf8

/-- The UTF-8 octets of a text. -/
def encode (s : String) : Bytes := s.toByteArray.data.toList

/-- The text that the octets encode, if they are well-formed UTF-8. -/
def decode? (b : Bytes) : Option String := String.fromUTF8? ⟨b.toArray⟩

theorem decode?_encode (s : String) : decode? (encode s) = some s := by
  have h : (⟨(encode s).toArray⟩ : ByteArray) = s.toByteArray := by simp [encode]
  unfold decode? String.fromUTF8?
  rw [h]
  simpa [String.fromUTF8] using s.isValidUTF8

theorem encode_of_decode? {b : Bytes} {s : String} (h : decode? b = some s) : encode s = b := by
  unfold decode? String.fromUTF8? at h
  split at h
  · cases h
    simp [encode, String.fromUTF8]
  · cases h

theorem encode_append (s t : String) : encode (s ++ t) = encode s ++ encode t := by
  simp [encode]

end SealedGateway.Utf8
