import SealedGateway.Crypto.Gcm
import SealedGateway.Failure

/-!
# Sealing messages

Authenticated encryption as the protocol uses it: the nonce is checked, not padded or cut, and any
ciphertext that `encrypt` did not make fails in the same way.
-/

namespace SealedGateway.Aead

/-- The length of a nonce. -/
def nonceLength : Nat := 12

/-- A nonce of the right length. -/
def checkNonce (b : Bytes) : Except Failure (Octets 12) :=
  match Octets.ofBytes? 12 b with
  | some n => .ok n
  | none => .error (.invalidNonce nonceLength b.length)

/-- Ciphertext and tag of a text. -/
def encrypt (key : Octets 32) (nonce text : Bytes) : Except Failure Bytes := do
  let nonce ← checkNonce nonce
  if Gcm.maxLength < text.length then .error (.other "encryption failed")
  else .ok (Gcm.encrypt key nonce text)

/-- The text of a ciphertext with its tag. -/
def decrypt (key : Octets 32) (nonce data : Bytes) : Except Failure Bytes := do
  let nonce ← checkNonce nonce
  if Gcm.maxLength + 16 < data.length then .error .authenticationFailed
  else
    match Gcm.decrypt? key nonce data with
    | some text => .ok text
    | none => .error .authenticationFailed

end SealedGateway.Aead
