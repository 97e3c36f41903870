import SealedGateway.Broker.Channel
import SealedGateway.Failure

/-!
# Publishers

- **`Publisher`**: the broker as the gateway sees it. It keeps what it was asked to publish and what
  it published, in order, and can be made to refuse.
- **`BrokerConnection`**: a connection that publishes until it is closed.
- **`Publisher.forward`**: what a worker does with a message, once and without a second try.
-/

namespace SealedGateway

/-- A channel and a payload. -/
abbrev Publication := String × String

/-- A sink for publications. -/
structure Publisher where
  /-- What it was asked to publish, oldest first, whatever became of it. -/
  asked : List Publication
  published : List Publication
  refuses : Bool
  closed : Bool
  deriving DecidableEq, Repr, Inhabited

namespace Publisher

/-- A publisher before its first publication. -/
def empty : Publisher := ⟨[], [], false, false⟩

/-- Publishes a payload on a channel, unless the broker refuses. -/
def publish (p : Publisher) (channel payload : String) : Except Failure Unit × Publisher :=
  let p := { p with asked := p.asked ++ [(channel, payload)] }
  if p.refuses then (.error (.broker "publish rejected"), p)
  else (.ok (), { p with published := p.published ++ [(channel, payload)] })

/-- Publishes a message on the channel of its audience; one without a channel is dropped. -/
def forward (p : Publisher) (m : Message) : Except Failure Unit × Publisher :=
  match m.audience.channel with
  | none => (.ok (), p)
  | some channel => p.publish channel m.payload

/-- Takes the notice that no publication will follow. -/
def close (p : Publisher) : Publisher := { p with closed := true }

end Publisher

/-- A connection to the broker. -/
structure BrokerConnection where
  broker : Publisher
  isOpen : Bool
  deriving DecidableEq, Repr

namespace BrokerConnection

/-- Publishes a payload on a channel, as long as the connection is open. -/
def publish (c : BrokerConnection) (channel payload : String) :
    Except Failure Unit × BrokerConnection :=
  if c.isOpen then
    let (result, broker) := c.broker.publish channel payload
    (result, { c with broker })
  else (.error (.broker "publisher closed"), c)

/-- Closes the connection. -/
def close (c : BrokerConnection) : BrokerConnection := { c with isOpen := false }

end BrokerConnection

end SealedGateway
