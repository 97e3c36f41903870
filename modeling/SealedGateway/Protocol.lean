import SealedGateway.Session
import SealedGateway.Aead
import SealedGateway.Wire.Ack
import SealedGateway.Wire.Frame
import SealedGateway.Wire.Message

/-!
# The protocol of a session

What one inbound frame does to a session.

- A handshake agrees on a key and is answered by an acknowledgement (**`handshake`**).
- A sealed message is opened under the key (**`openSealed`**). The checks have an order: the nonce
  (text, length, reuse), then the window, then the ciphertext, then what it holds.
- Before the handshake a sealed message is dropped, and so is any frame of an unknown kind.

`openSealed` gives a new session only with a message, so a frame that fails cannot change one. A
handshake that fails can leave a fresh key pair behind, and nothing else.
-/

namespace SealedGateway

/-- Why a well-formed frame was dropped. -/
inductive DropReason where
  | handshakeRequired
  | unknownKind (kind : String)
  deriving DecidableEq, Repr

/-- What came of a frame. -/
inductive Outcome where
  /-- The handshake succeeded, and this goes back to the client. -/
  | acknowledged (ack : Ack)
  /-- A message to forward. -/
  | accepted (message : Message)
  | dropped (reason : DropReason)
  deriving DecidableEq, Repr

namespace Session

/-- Agrees on a key with the peer of the public key `publicKey`, in Base64. -/
def handshake (s : Session) (e : Entropy) (publicKey : String) :
    Except Failure Ack × Session × Entropy :=
  match decodeBase64 publicKey with
  | .error f => (.error (.invalidPeerKey f.message), s, e)
  | .ok octets =>
    match parsePublicKey octets with
    | .error f => (.error f, s, e)
    | .ok peer =>
      let (pair, s, e) := s.keyPairOrGenerate e
      match sharedSecret pair peer with
      | .error f => (.error f, s, e)
      | .ok secret =>
        (.ok (Ack.ofKey (Base64.encode pair.publicKey.toBytes)),
          s.installKey (deriveKey secret.toBytes), e)

/-- Opens a sealed message, given by its ciphertext and nonce in Base64, and keeps its nonce. -/
def openSealed (s : Session) (ciphertext nonce : String) : Except Failure (Message × Session) :=
  match s.key with
  | none => .error (.handshakeRequired Frame.sealedTag)
  | some key => do
    let nonce ← Aead.checkNonce (← decodeBase64 nonce)
    if s.nonceSeen nonce then .error .nonceReused
    else if s.rekeyRequired then .error (.rekeyRequired s.nonceLimit)
    else
      let sealedText ← decodeBase64 ciphertext
      let text ← Aead.decrypt key nonce.toBytes sealedText
      let message ← Message.decode text
      .ok (message, s.recordNonce nonce)

/-- What a frame does to a session. -/
def handleFrame (s : Session) (e : Entropy) : Frame → Except Failure Outcome × Session × Entropy
  | .handshake publicKey =>
    let (r, s, e) := s.handshake e publicKey
    (r.map .acknowledged, s, e)
  | .sealed ciphertext nonce =>
    if !s.handshakeComplete then (.ok (.dropped .handshakeRequired), s, e)
    else
      match nonce with
      | none => (.error (.invalidMessage (Frame.sealedTag ++ " without iv")), s, e)
      | some nonce =>
        match s.openSealed ciphertext nonce with
        | .ok (m, s) => (.ok (.accepted m), s, e)
        | .error f => (.error f, s, e)
  | .unknown kind => (.ok (.dropped (.unknownKind kind)), s, e)

/-- What the octets of a frame do to a session. -/
def process (s : Session) (e : Entropy) (data : Bytes) :
    Except Failure Outcome × Session × Entropy :=
  match Frame.decode data with
  | .error f => (.error f, s, e)
  | .ok f => s.handleFrame e f

end Session

end SealedGateway
