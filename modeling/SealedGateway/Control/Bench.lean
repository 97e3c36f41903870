import SealedGateway.Control.Http
import SealedGateway.Outbound.Mailbox

/-!
# A control plane on a bench

Owners of connections that answer as they are told, and keep a log of what reached them. They show
what the control plane asks of whom, and what it makes of each answer (**`BenchOwner.lines`**).
-/

namespace SealedGateway

/-- How an owner answers pushes. -/
inductive BenchMode where
  | writes
  /-- Drops the call without an answer. -/
  | forgets
  | fails (detail : String)
  deriving DecidableEq, Repr

/-- An owner that answers as it is told. -/
structure BenchOwner where
  mode : BenchMode
  alive : Bool
  /-- What reached the owner, oldest first. -/
  log : List OutboundRequest
  deriving DecidableEq, Repr

namespace BenchOwner

/-- What an owner makes of a push. -/
def push (o : BenchOwner) (payload : Bytes) : Except Failure Unit × BenchOwner :=
  if o.alive then
    let answer : Except Failure Unit := match o.mode with
      | .writes => .ok ()
      | .forgets => .error Mailbox.lostFailure
      | .fails detail => .error (.transport detail)
    (answer, { o with log := o.log ++ [.push payload] })
  else (.error Mailbox.closedFailure, o)

/-- What an owner makes of a request to close. -/
def close (o : BenchOwner) : Bool × BenchOwner :=
  if o.alive then (true, { o with alive := false, log := o.log ++ [.close] }) else (false, o)

end BenchOwner

/-- The owners by the serials of their connections. -/
abbrev BenchOwners := List (UInt64 × BenchOwner)

namespace BenchOwners

/-- The owner of a connection. -/
def owner? (os : BenchOwners) (serial : UInt64) : Option BenchOwner := os.lookup serial

/-- Replaces the owner of a connection. -/
def set (os : BenchOwners) (serial : UInt64) (o : BenchOwner) : BenchOwners :=
  os.map fun entry => if entry.1 = serial then (serial, o) else entry

/-- A push to the owner of a connection. -/
def push (os : BenchOwners) (serial : UInt64) (payload : Bytes) :
    Except Failure Unit × BenchOwners :=
  match os.owner? serial with
  | none => (.error Mailbox.closedFailure, os)
  | some o =>
    let (answer, o) := o.push payload
    (answer, os.set serial o)

/-- A request to close to the owner of a connection. -/
def close (os : BenchOwners) (serial : UInt64) : Bool × BenchOwners :=
  match os.owner? serial with
  | none => (false, os)
  | some o =>
    let (taken, o) := o.close
    (taken, os.set serial o)

/-- How the owners are reached. -/
def lines : Lines BenchOwners := ⟨push, close⟩

end BenchOwners

/-- A control plane whose connections have owners that answer as they are told. -/
abbrev ControlBench := ControlPlane BenchOwners

namespace ControlBench

/-- A control plane without connections. -/
def empty : ControlBench := ⟨.empty, [], 0⟩

/-- A handle to a new connection, which is not registered yet, and whose owner is the given one. -/
def accept (b : ControlBench) (remote : SocketAddr) (owner : BenchOwner) : Handle × ControlBench :=
  let (serial, registry) := b.registry.issueSerial
  (⟨serial, remote, 0⟩, { b with registry, owners := (serial, owner) :: b.owners })

end ControlBench

end SealedGateway
