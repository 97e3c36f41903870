import SealedGateway.Aead
import SealedGateway.Failure
import SealedGateway.KeyAgreement
import SealedGateway.Wire.Ack
import SealedGateway.Wire.Frame
import SealedGateway.Wire.Message

/-!
# A client of the gateway

The other end of a session. It opens with a handshake (**`Client.hello`**), reads the key off the
acknowledgement (**`Client.complete`**), and seals its messages under it (**`Client.sealMessage`**).
-/

namespace SealedGateway.Client

/-- The frame that opens a handshake. -/
def hello (pair : KeyPair) : Bytes :=
  Utf8.encode (Frame.handshake (Base64.encode pair.publicKey.toBytes)).encode

/-- The session key that the text of an acknowledgement gives a client. -/
def complete (pair : KeyPair) (ack : String) : Except Failure SessionKey := do
  let ack ← Ack.decode (Utf8.encode ack)
  let octets ← decodeBase64 ack.serverKey
  let peer ← parsePublicKey octets
  let secret ← sharedSecret pair peer
  return deriveKey secret.toBytes

/-- The frame of a ciphertext. -/
def sealedFrame (ciphertext : Bytes) (nonce : Octets 12) : Bytes :=
  Utf8.encode
    (Frame.sealed (Base64.encode ciphertext) (some (Base64.encode nonce.toBytes))).encode

/-- The frame of a message sealed under a key. -/
def sealMessage (key : SessionKey) (nonce : Octets 12) (m : Message) : Except Failure Bytes := do
  let ciphertext ← Aead.encrypt key nonce.toBytes m.encode
  return sealedFrame ciphertext nonce

end SealedGateway.Client
