import SealedGateway.Gateway.Basic

/-!
# Connections on their way into the registry

`Gateway.accept` takes a connection and makes its entry at once. The task of a connection does that
on its own, some time after the server has taken it, and meanwhile the server can be told to end. So
here the two are two events, and the server waits for tasks that have not made their entry as it
waits for all others (**`Server.step`**).
-/

namespace SealedGateway

/-- A connection that the server has taken, and whose task has not made its entry. -/
structure Arrival where
  name : Option String
  /-- The identifier that it has if its own name does not count. -/
  fresh : String
  remote : SocketAddr
  deriving DecidableEq, Repr

/-- A gateway, and the connections that are not in its registry yet, oldest first. -/
structure Server where
  gateway : Gateway
  arriving : List Arrival

namespace Server

/-- What can happen. -/
inductive Event where
  | arrive (arrival : Arrival)
  /-- The task of the arrival at a position makes its entry. -/
  | register (position : Nat)
  | gateway (event : Gateway.Event)

/-- No connection has come yet. -/
def start (gateway : Gateway) : Server := ⟨gateway, []⟩

/-- The server takes a connection and starts its task. -/
def arrive (s : Server) (arrival : Arrival) : Option Server :=
  match s.gateway.serving with
  | .accepting => some { s with arriving := s.arriving ++ [arrival] }
  | _ => none

/-- A task makes its entry, which it does also after the server was told to end. -/
def register (s : Server) (position : Nat) : Option Server := do
  let arrival ← s.arriving[position]?
  let g ← { s.gateway with serving := .accepting }.accept arrival.name arrival.fresh arrival.remote
  return ⟨{ g with serving := s.gateway.serving }, s.arriving.eraseIdx position⟩

/-- An event of the gateway. Connections come in through `arrive` and `register` only, and the pool
is not closed before all tasks have ended. -/
def gatewayStep (s : Server) (event : Gateway.Event) : Option Server :=
  match event with
  | .accept _ _ _ => none
  | .drain =>
    if s.arriving.isEmpty then (s.gateway.step .drain).map fun gateway => { s with gateway }
    else none
  | event => (s.gateway.step event).map fun gateway => { s with gateway }

/-- One event. -/
def step (s : Server) : Event → Option Server
  | .arrive arrival => s.arrive arrival
  | .register position => s.register position
  | .gateway event => s.gatewayStep event

/-- A list of events, all of which must be enabled. -/
def run? (s : Server) (events : List Event) : Option Server := events.foldlM step s

end Server

end SealedGateway
