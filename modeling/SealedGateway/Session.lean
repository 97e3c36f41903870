import SealedGateway.KeyAgreement

/-!
# Sessions

What one connection has agreed on with its client. A handshake is complete exactly when there is a
key. The nonces of the messages accepted under the key are kept, so that none is accepted twice;
their number is bounded by a limit, and a full window asks for a new handshake.

The key pair is drawn on first use and kept (`keyPairOrGenerate`); a new key starts with an empty
window (`installKey`).
-/

namespace SealedGateway

/-- The state of a session. -/
inductive SessionState where
  | awaitingHandshake
  | ready
  deriving DecidableEq, Repr

/-- What a connection has agreed on with its client. -/
structure Session where
  connectionId : String
  /-- The most messages accepted under one key. -/
  nonceLimit : Nat
  keyPair : Option KeyPair
  key : Option SessionKey
  /-- The nonces accepted under the key, latest first. -/
  nonces : List (Octets 12)
  deriving DecidableEq

namespace Session

/-- Messages accepted under one key where no other limit is configured. -/
def defaultNonceLimit : Nat := 4096

/-- A session before its first frame. A limit of zero counts as one. -/
def create (connectionId : String) (nonceLimit : Nat) : Session :=
  { connectionId, nonceLimit := max nonceLimit 1, keyPair := none, key := none, nonces := [] }

/-- Whether a handshake has succeeded. -/
def handshakeComplete (s : Session) : Bool := s.key.isSome

/-- The state of a session. -/
def state (s : Session) : SessionState :=
  if s.handshakeComplete then .ready else .awaitingHandshake

/-- The key pair of a session, drawn now if there is none. -/
def keyPairOrGenerate (s : Session) (e : Entropy) : KeyPair × Session × Entropy :=
  match s.keyPair with
  | some k => (k, s, e)
  | none =>
    let (k, e) := KeyPair.generate e
    (k, { s with keyPair := some k }, e)

/-- Takes up a key, under which no message has been accepted yet. -/
def installKey (s : Session) (key : SessionKey) : Session :=
  { s with key := some key, nonces := [] }

/-- Whether a nonce was accepted under the key. -/
def nonceSeen (s : Session) (nonce : Octets 12) : Bool := nonce ∈ s.nonces

/-- Whether the window is full. -/
def rekeyRequired (s : Session) : Bool := s.nonceLimit ≤ s.nonces.length

/-- Keeps a nonce, as long as the window is not full. -/
def recordNonce (s : Session) (nonce : Octets 12) : Session :=
  if s.rekeyRequired || s.nonceSeen nonce then s else { s with nonces := nonce :: s.nonces }

end Session

end SealedGateway
