import SealedGateway.Net.Address
import SealedGateway.Failure

/-!
# Listeners

Two listeners cannot have the same address and port. The gateway listens for clients and, on
another port, for the control plane; either one fails to bind with a failure of the transport
(**`Listeners.bind_taken`**).
-/

namespace SealedGateway

/-- What listens. -/
inductive Service where
  | clients
  | control
  deriving DecidableEq, Repr

/-- The addresses that are taken. -/
abbrev Listeners := List SocketAddr

namespace Listeners

/-- The wording of a taken address. -/
def takenText : Service → SocketAddr → String
  | .clients, _ => "WS bind failed: address in use"
  | .control, a => "bind " ++ a.text ++ ": address in use"

/-- Takes an address for a service. -/
def bind (taken : Listeners) (service : Service) (a : SocketAddr) : Except Failure Listeners :=
  if a ∈ taken then .error (.transport (takenText service a)) else .ok (a :: taken)

/-- An address that was taken cannot be taken again, whatever the service. -/
theorem bind_taken {taken : Listeners} {first : Service} {a : SocketAddr} {after : Listeners}
    (h : taken.bind first a = .ok after) (second : Service) :
    after.bind second a = .error (.transport (takenText second a)) := by
  unfold bind at h
  split at h
  · cases h
  · cases h
    simp [bind]

end Listeners

end SealedGateway
