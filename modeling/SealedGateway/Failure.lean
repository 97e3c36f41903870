import SealedGateway.Text.Base64

/-!
# Failures

What can go wrong between a client's octets and the broker. A failure is a cause; its wording is
`Failure.message`.

**`Failure.frameLocal`** divides the causes: malformed input and steps out of sequence cost the
frame they came with, and the connection goes on. All others end the connection.
-/

namespace SealedGateway

/-- Why octets could not be read. -/
inductive Malformed where
  /-- No JSON document of the expected record. -/
  | json
  | base64 (e : Base64.Error)
  | described (detail : String)
  deriving DecidableEq, Repr

/-- The wording of a reading fault. -/
def Malformed.message : Malformed → String
  | .json => "no JSON text of the expected record"
  | .base64 e => "base64: " ++ e.message
  | .described d => d

/-- A cause of failure. -/
inductive Failure where
  | codec (cause : Malformed)
  | invalidMessage (detail : String)
  | invalidPeerKey (detail : String)
  | authenticationFailed
  | invalidNonce (expected actual : Nat)
  | nonceReused
  | rekeyRequired (limit : Nat)
  | handshakeRequired (before : String)
  | transport (detail : String)
  | broker (detail : String)
  | poolClosed
  | io (detail : String)
  | other (detail : String)
  deriving DecidableEq, Repr

namespace Failure

/-- The wording of a failure. -/
def message : Failure → String
  | codec c => "codec error: " ++ c.message
  | invalidMessage d => "invalid message: " ++ d
  | invalidPeerKey d => "invalid peer key: " ++ d
  | authenticationFailed => "authentication failed"
  | invalidNonce e a =>
    "invalid nonce: expected " ++ toString e ++ " bytes, got " ++ toString a
  | nonceReused => "nonce reused under the current session key"
  | rekeyRequired n =>
    "session key exhausted after " ++ toString n ++ " messages, handshake again"
  | handshakeRequired b => "handshake required before " ++ b
  | transport d => "transport error: " ++ d
  | broker d => "broker error: " ++ d
  | poolClosed => "worker pool closed"
  | io d => "io error: " ++ d
  | other d => d

/-- Whether the failure costs only the frame it came with. -/
def frameLocal : Failure → Bool
  | codec _ | invalidMessage _ | invalidPeerKey _ | authenticationFailed | invalidNonce _ _
  | nonceReused | rekeyRequired _ | handshakeRequired _ => true
  | transport _ | broker _ | poolClosed | io _ | other _ => false

end Failure

/-- Reads Base64 text; a fault is a failure of the frame it stands in. -/
def decodeBase64 (s : String) : Except Failure Bytes :=
  match Base64.decode s with
  | .ok b => .ok b
  | .error e => .error (.codec (.base64 e))

end SealedGateway
