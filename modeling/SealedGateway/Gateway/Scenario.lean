import SealedGateway.Control.Http
import SealedGateway.Gateway.Schedule
import SealedGateway.Net.ClientName
import SealedGateway.Net.Target

/-!
# Scenarios

A gateway with clients that do one thing after the other; between two actions everything settles
(**`Scenario.act`**).
-/

namespace SealedGateway

/-- A client and its connection. -/
structure Scenario.Client where
  name : String
  connection : Nat
  /-- How much of what was written to the client has been reported. -/
  reported : Nat
  deriving DecidableEq, Repr

/-- A gateway with its clients. -/
structure Scenario where
  gateway : Gateway
  roster : Roster
  clients : List Scenario.Client
  /-- The identifiers that the gateway made up. -/
  generated : List String
  /-- How many publications have been reported. -/
  reported : Nat

namespace Scenario

/-- What can be done in a scenario. -/
inductive Action where
  /-- A client connects with a request target. -/
  | connect (client target : String)
  | send (client : String) (data : Bytes)
  /-- A client closes its connection, with or without saying so. -/
  | leave (client : String) (silently : Bool)
  /-- Somebody sends octets that are no upgrade request. -/
  | badUpgrade
  | http (request : Request)
  | setRefusing (refuses : Bool)
  | closePool
  | shutdown
  /-- Nothing. -/
  | rest

/-- What an action led to. -/
structure Report where
  response : Option Response
  /-- What each client received, in order; a client that received nothing is left out. -/
  frames : List (String × List ClientFrame)
  published : List Publication

/-- A scenario at its start. -/
def start (config : Config) (entropy : Entropy) : Except Pool.Fault Scenario := do
  let gateway ← Gateway.create config entropy
  let (gateway, roster) := gateway.settle []
  return ⟨gateway, roster, [], [], 0⟩

/-- Lets everything settle. -/
def settle (s : Scenario) : Scenario :=
  let (gateway, roster) := s.gateway.settle s.roster
  { s with gateway, roster }

/-- An event that is enabled happens. -/
def happen (s : Scenario) (e : Gateway.Event) : Scenario :=
  { s with gateway := (s.gateway.step e).getD s.gateway }

/-- The connection of a client. -/
def connectionOf? (s : Scenario) (client : String) : Option Nat :=
  (s.clients.find? fun c => c.name = client).map Client.connection

/-- An identifier for the connection of the given number, in the form of those that are drawn at
random. -/
def freshIdentifier (n : Nat) : String :=
  (generateConnectionId ⟨List.replicate 14 0 ++ [UInt8.ofNat (n / 256), UInt8.ofNat n]⟩).1

/-- A client connects, if connections are taken. -/
def connect (s : Scenario) (client target : String) : Option Scenario :=
  match s.gateway.serving with
  | .accepting =>
    let n := s.gateway.connections.length
    let name := ClientName.ofQuery? (Target.query? target)
    let fresh := freshIdentifier n
    let remote : SocketAddr := ⟨.v4 ⟨127, 0, 0, 1⟩, UInt16.ofNat (49152 + n)⟩
    let id := Gateway.identifier s.gateway.config name fresh
    let s := s.happen (.accept name fresh remote)
    some { s with
      clients := s.clients ++ [⟨client, n, 0⟩]
      generated := if id = fresh then fresh :: s.generated else s.generated }
  | _ => none

/-- A client leaves. One that does so silently is not told any more what came of it. -/
def leave (s : Scenario) (client : String) (silently : Bool) : Scenario :=
  match s.connectionOf? client with
  | none => s
  | some n =>
    let clients := if silently then s.clients.filter (·.name ≠ client) else s.clients
    { s.happen (.hangUp n) with clients }

/-- A request to the control plane. -/
def http (s : Scenario) (request : Request) : Response × Scenario :=
  let (response, c) := s.gateway.controlPlane.respond Gateway.lines 0 request
  (response, { s with gateway := Gateway.ofControlPlane c })

/-- An action, before everything settles. There is none if a client finds nobody who takes its
connection. -/
def begin (s : Scenario) : Action → Option (Option Response × Scenario)
  | .connect client target => (s.connect client target).map fun s => (none, s)
  | .send client data =>
    match s.connectionOf? client with
    | some n => some (none, s.happen (.frame n data))
    | none => some (none, s)
  | .leave client silently => some (none, s.leave client silently)
  | .http request =>
    let (response, s) := s.http request
    some (some response, s)
  | .setRefusing refuses => some (none, s.happen (.setRefusing refuses))
  | .closePool => some (none, s.happen .closePool)
  | .shutdown => some (none, s.happen .shutdown)
  | .badUpgrade | .rest => some (none, s)

/-- What a client has received and was not reported yet, and whether its connection has ended. -/
def unreported (g : Gateway) (c : Client) : List ClientFrame × Bool :=
  match g.connections[c.connection]? with
  | some connection =>
    let ended := connection.loop = .ended
    let frames := (connection.sent.drop c.reported).map Output.received
    (if ended then frames ++ [.closed] else frames, ended)
  | none => ([], true)

/-- Reports what has happened since the last report. Clients whose connections have ended are
gone. -/
def report (s : Scenario) (response : Option Response) : Report × Scenario :=
  let views := s.clients.map fun c => (c, unreported s.gateway c)
  let frames := (views.map fun (c, frames, _) => (c.name, frames)).filter fun v => !v.2.isEmpty
  let staying := views.filter fun (_, _, ended) => !ended
  let clients := staying.map fun (c, frames, _) => { c with reported := c.reported + frames.length }
  let published := s.gateway.broker.published
  (⟨response, frames, published.drop s.reported⟩, { s with clients, reported := published.length })

/-- An action, and what it led to. -/
def act (s : Scenario) (a : Action) : Option (Report × Scenario) := do
  let (response, s) ← s.begin a
  return s.settle.report response

end Scenario

end SealedGateway
