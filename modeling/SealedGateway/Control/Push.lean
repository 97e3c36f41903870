import SealedGateway.Registry.Basic
import SealedGateway.Failure

/-!
# The control plane

What backend services can do with live connections: ask for one, push a payload to it, and close
it. The tasks that own the connections are reached through their handles (**`Lines`**); the control
plane itself knows the registry only.

- **`ControlPlane.push`** uses the handle that is registered at the look-up, and no other.
- **`ControlPlane.disconnect`** removes the entry before it asks the owner to close.
-/

namespace SealedGateway

/-- What came of a push. -/
inductive PushOutcome where
  | sent
  /-- Nobody is connected under the identifier, which is no failure. -/
  | noActiveConnection
  | transportFailed (detail : String)
  deriving DecidableEq, Repr

namespace PushOutcome

/-- The word for an outcome in an answer. -/
def ack : PushOutcome → String
  | sent => "Payload sent"
  | noActiveConnection => "No active connection"
  | transportFailed _ => "Failed to send payload"

/-- The detail of a failed push. -/
def detail? : PushOutcome → Option String
  | transportFailed d => some d
  | _ => none

end PushOutcome

/-- How the owners of connections, whose common state is a `σ`, answer those who hold a handle. -/
structure Lines (σ : Type) where
  /-- Writes a payload to the connection of a serial. -/
  push : σ → UInt64 → Bytes → Except Failure Unit × σ
  /-- Asks the connection of a serial to close, and says whether it was there to be asked. -/
  close : σ → UInt64 → Bool × σ

/-- The registry, the owners of the connections, and how many payloads were pushed. -/
structure ControlPlane (σ : Type) where
  registry : Registry
  owners : σ
  sent : Nat

namespace ControlPlane

variable {σ : Type}

/-- Whether somebody is connected under an identifier. -/
def isConnected (c : ControlPlane σ) (id : String) : Bool :=
  (c.registry.directory.find? id).isSome

/-- Removes the entry of an identifier and closes its connection. -/
def disconnect (lines : Lines σ) (c : ControlPlane σ) (id : String) : Bool × ControlPlane σ :=
  let (removed, registry) := c.registry.remove id
  match removed with
  | none => (false, { c with registry })
  | some handle =>
    let (_, owners) := lines.close c.owners handle.serial
    (true, { c with registry, owners })

/-- Pushes a payload to the connection that is registered under an identifier. -/
def push (lines : Lines σ) (c : ControlPlane σ) (id : String) (payload : Bytes) :
    PushOutcome × ControlPlane σ :=
  match c.registry.directory.find? id with
  | none => (.noActiveConnection, c)
  | some handle =>
    match lines.push c.owners handle.serial payload with
    | (.ok _, owners) => (.sent, { c with owners, sent := c.sent + 1 })
    | (.error f, owners) => (.transportFailed f.message, { c with owners })

/-- What is shown of the control plane. -/
def metrics (c : ControlPlane σ) : Metrics :=
  c.registry.metrics ++ Metrics.counter .payloadsSent c.sent

end ControlPlane

end SealedGateway
