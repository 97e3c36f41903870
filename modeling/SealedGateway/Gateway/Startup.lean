import SealedGateway.Config.Basic
import SealedGateway.Net.Listener

/-!
# Starting a gateway

Three listeners share the configured host and differ in their ports (**`Config.addresses`**). All
addresses are read before the first listener is bound; the one for clients comes last
(**`Addresses.bind`**).
-/

namespace SealedGateway

/-- The addresses of the listeners. -/
structure Addresses where
  clients : SocketAddr
  control : SocketAddr
  metrics : SocketAddr
  deriving DecidableEq, Repr

/-- The addresses that a configuration asks for. -/
def Config.addresses (c : Config) : Except Failure Addresses := do
  let clients ← SocketAddr.listen c.host c.port
  let control ← SocketAddr.listen c.host c.controlPort
  let metrics ← SocketAddr.listen c.host c.metricsPort
  return ⟨clients, control, metrics⟩

/-- Binds the listeners, beside those that are bound already. -/
def Addresses.bind (a : Addresses) (taken : Listeners) : Except Failure Listeners := do
  let taken ← taken.bind .control a.control
  let taken ← taken.bind .control a.metrics
  taken.bind .clients a.clients

end SealedGateway
