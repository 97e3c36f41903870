import SealedGateway.Crypto.Curve25519
import SealedGateway.Crypto.Blake2s
import SealedGateway.Entropy
import SealedGateway.Failure
import SealedGateway.Text.Hex

/-!
# Key agreement

A session key is the BLAKE2s digest of the X25519 secret that both sides share.

- **`KeyPair`**: a secret with its public key. Its description shows the public key only.
- **`parsePublicKey`** and **`sharedSecret`** refuse what a peer may send and no key is: octet
  strings of another length than 32, and points of low order, whose secret is all zeros.
-/

namespace SealedGateway

/-- The key of a session. -/
abbrev SessionKey := Octets 32

/-- An X25519 key pair. -/
structure KeyPair where
  secret : Octets 32
  publicKey : Octets 32
  deriving DecidableEq

namespace KeyPair

/-- The key pair of a secret. -/
def ofSecret (secret : Octets 32) : KeyPair := ⟨secret, Curve25519.publicKey secret⟩

/-- A fresh key pair. -/
def generate (e : Entropy) : KeyPair × Entropy :=
  let (secret, e) := e.draw 32
  (ofSecret secret, e)

/-- The description of a key pair for logs, which keeps the secret out. -/
def describe (k : KeyPair) : String :=
  "KeyPair \x7b public: \"" ++ Hex.encode k.publicKey.toBytes ++ "\", .. \x7d"

end KeyPair

/-- The description of a session key for logs, which keeps the key out. -/
def SessionKey.describe (_ : SessionKey) : String := "SessionKey(..)"

/-- A public key as a peer sends it. -/
def parsePublicKey (b : Bytes) : Except Failure (Octets 32) :=
  match Octets.ofBytes? 32 b with
  | some k => .ok k
  | none => .error (.invalidPeerKey ("expected 32 bytes, got " ++ toString b.length))

/-- The secret that a key pair shares with a peer. -/
def sharedSecret (pair : KeyPair) (peer : Octets 32) : Except Failure (Octets 32) :=
  let secret := Curve25519.scalarMult pair.secret peer
  if secret = .zero 32 then .error (.invalidPeerKey "low-order point") else .ok secret

/-- The session key of a secret of any length. -/
def deriveKey (secret : Bytes) : SessionKey := Blake2s.digest secret

/-- The short name of a public key in logs: the first eight octets of its digest. -/
def fingerprint (key : Bytes) : String := Hex.encode ((Blake2s.digest key).toBytes.take 8)

/-- The name of a connection that brought none: sixteen random octets in hexadecimal. -/
def generateConnectionId (e : Entropy) : String × Entropy :=
  let (b, e) := e.draw 16
  (Hex.encode b.toBytes, e)

end SealedGateway
