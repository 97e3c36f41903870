import SealedGateway.Wire.Envelope

/-!
# Frames

An inbound frame is a handshake, a sealed message, or of a kind that the gateway does not know.
The tag of an envelope decides which; a known kind carries its package as Base64 text. The text
stays as it is here: the step of the protocol that needs the octets reads it.

- **`Frame.decode`** closes the open tag of an envelope, **`Frame.encode`** is the client's side.
-/

namespace SealedGateway

/-- An inbound frame. -/
inductive Frame where
  /-- The client's public key, in Base64. -/
  | handshake (publicKey : String)
  /-- Ciphertext and nonce, both in Base64. -/
  | sealed (ciphertext : String) (nonce : Option String)
  /-- A tag that the gateway does not know. -/
  | unknown (kind : String)
  deriving DecidableEq, Repr

namespace Frame

/-- The tag of a handshake. -/
def handshakeTag : String := "Handshake"

/-- The tag of a sealed message. -/
def sealedTag : String := "MessagePkg"

/-- The tag of a frame. -/
def kind : Frame → String
  | handshake _ => handshakeTag
  | sealed _ _ => sealedTag
  | unknown k => k

/-- The package of a frame of the known kind `tag`, which must be a string. -/
def packageText (tag : String) : Json → Except Failure String
  | .string s => .ok s
  | v => .error (.invalidMessage (tag ++ " pkg must be a base64 string, got " ++ v.typeName))

/-- The frame that an envelope carries. -/
def ofEnvelope (e : Envelope) : Except Failure Frame :=
  if e.kind = handshakeTag then (packageText handshakeTag e.package).map .handshake
  else if e.kind = sealedTag then (packageText sealedTag e.package).map (.sealed · e.nonce)
  else .ok (.unknown e.kind)

/-- The envelope of a frame. -/
def toEnvelope : Frame → Envelope
  | handshake k => ⟨handshakeTag, .string k, none⟩
  | sealed c n => ⟨sealedTag, .string c, n⟩
  | unknown k => ⟨k, .null, none⟩

/-- Reads a frame. -/
def decode (data : Bytes) : Except Failure Frame := do ofEnvelope (← Envelope.decode data)

/-- Writes a frame. -/
def encode (f : Frame) : String := f.toEnvelope.text

end Frame

end SealedGateway
