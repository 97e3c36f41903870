import SealedGateway.Broker.Publisher
import SealedGateway.Config.Basic
import SealedGateway.Gateway.Connection
import SealedGateway.Pool.Basic
import SealedGateway.Registry.Basic

/-!
# The gateway

Connections, the registry, the pool that forwards messages, and the broker, as one machine of small
steps (**`Gateway.step`**). As in the pool, whatever two tasks can do in either order is two events.

- A frame is counted, then handled. An acknowledgement is written before the next frame is taken,
  and an accepted message is in the queue of the pool before that.
- A worker forwards its message once, and the result is the result of its job (`forward`).
- The server ends in an order: no connection is accepted any more, each connection leaves and
  releases its entry, and only then is the pool closed (`drain`).
-/

namespace SealedGateway

/-- A message on its way to the broker, and the number of the connection that it came from. -/
structure Delivery where
  connection : Nat
  message : Message
  deriving DecidableEq, Repr

/-- How far the server has come. -/
inductive Serving where
  | accepting
  /-- No connection is accepted any more, and all are told to leave. -/
  | closing
  /-- All connections have ended, and the pool is being torn down. -/
  | draining
  | returned
  deriving DecidableEq, Repr

/-- How many frames came in, and what came of them. -/
structure Tally where
  received : Nat
  processed : Nat
  failed : Nat
  deriving DecidableEq, Repr

/-- A gateway. -/
structure Gateway where
  config : Config
  entropy : Entropy
  registry : Registry
  /-- All connections, by number. -/
  connections : List Connection
  pool : Pool Delivery
  broker : Publisher
  /-- What the broker was asked to publish, oldest first, each with the message for which a worker
  asked. -/
  asked : List (Delivery × Publication)
  tally : Tally
  /-- How many payloads the control plane has pushed. -/
  pushed : Nat
  serving : Serving

namespace Gateway

/-- What can happen in a gateway. -/
inductive Event where
  /-- A client connects, with a name or without, from an address. `fresh` is the identifier that it
  has if its own name does not count. -/
  | accept (name : Option String) (fresh : String) (remote : SocketAddr)
  | frame (connection : Nat) (data : Bytes)
  | writeReply (connection : Nat)
  | failReply (connection : Nat)
  | submit (connection : Nat)
  /-- The offer at a position enters the queue of the pool. -/
  | enqueue (position : Nat)
  /-- The offer at a position learns that the pool is cancelled. -/
  | refuse (position : Nat)
  | mailbox (connection : Nat) (event : Mailbox.Event)
  /-- The client is gone, or the socket fails. -/
  | hangUp (connection : Nat)
  /-- A connection learns that the server ends. -/
  | notice (connection : Nat)
  | release (connection : Nat)
  /-- The control plane removes an entry. -/
  | remove (id : String)
  /-- A worker forwards its message. -/
  | forward (worker : Nat)
  /-- The broker refuses publications from now on, or takes them again. -/
  | setRefusing (refuses : Bool)
  /-- Something that concerns the pool alone. -/
  | pool (event : Pool.Event Delivery)
  /-- The pool is closed by somebody else than the server. -/
  | closePool
  | shutdown
  | drain
  | finishServing

/-- A gateway before its first connection. -/
def create (config : Config) (entropy : Entropy) : Except Pool.Fault Gateway := do
  let pool ← Pool.create config.pool
  return { config, entropy, pool
           registry := .empty, connections := [], broker := .empty, asked := []
           tally := ⟨0, 0, 0⟩, pushed := 0, serving := .accepting }

/-- Replaces a connection. -/
def setConnection (g : Gateway) (n : Nat) (c : Connection) : Gateway :=
  { g with connections := g.connections.set n c }

/-! ## Connections -/

/-- The identifier of a new connection. -/
def identifier (config : Config) (name : Option String) (fresh : String) : String :=
  if config.trustsNames then name.getD fresh else fresh

/-- A client connects. -/
def accept (g : Gateway) (name : Option String) (fresh : String) (remote : SocketAddr) :
    Option Gateway :=
  match g.serving with
  | .accepting =>
    let id := identifier g.config name fresh
    let (serial, registry) := g.registry.issueSerial
    let c := Connection.start id serial g.config.nonceLimit g.config.outboundBuffer
    some { g with
      registry := registry.add id ⟨serial, remote, 0⟩
      connections := g.connections ++ [c] }
  | _ => none

/-- A frame is counted. -/
def countReceived (g : Gateway) : Gateway :=
  { g with tally.received := g.tally.received + 1 }

/-- A frame came to nothing. -/
def countFailed (g : Gateway) : Gateway := { g with tally.failed := g.tally.failed + 1 }

/-- A frame is done with. -/
def countProcessed (g : Gateway) : Gateway :=
  { g with tally.processed := g.tally.processed + 1 }

/-- What the outcome of a frame means for the connection that it came from. -/
def settleFrame (g : Gateway) (n : Nat) (c : Connection) : Except Failure Outcome → Gateway
  | .ok (.acknowledged ack) => g.setConnection n { c with loop := .replying ack }
  | .ok (.accepted m) =>
    g.setConnection n { c with loop := .submitting m, accepted := c.accepted ++ [m] }
  | .ok (.dropped _) => (g.setConnection n c).countFailed
  | .error f =>
    if f.frameLocal then (g.setConnection n c).countFailed else g.setConnection n (c.leave true)

/-- A frame comes in. One that is too long is not looked into. -/
def frame (g : Gateway) (n : Nat) (data : Bytes) : Option Gateway :=
  match g.connections[n]? with
  | none => none
  | some c =>
    if !c.listens then none
    else if g.config.maxFrameSize < data.length then some g.countReceived.countFailed
    else
      let (result, session, entropy) := c.session.process g.entropy data
      some ({ g.countReceived with entropy }.settleFrame n { c with session } result)

/-- The acknowledgement of a handshake is written. -/
def writeReply (g : Gateway) (n : Nat) : Option Gateway :=
  match g.connections[n]? with
  | some c =>
    match c.loop with
    | .replying ack =>
      let sent := c.sent ++ [.reply ack.encode]
      some (g.setConnection n { c with loop := .listening, sent }).countProcessed
    | _ => none
  | none => none

/-- The acknowledgement of a handshake cannot be written. -/
def failReply (g : Gateway) (n : Nat) : Option Gateway :=
  match g.connections[n]? with
  | some c =>
    match c.loop with
    | .replying _ => some (g.setConnection n (c.leave true))
    | _ => none
  | none => none

/-- A message is submitted to the pool, which can be closed. -/
def submit (g : Gateway) (n : Nat) : Option Gateway :=
  match g.connections[n]? with
  | some c =>
    match c.loop with
    | .submitting m =>
      let c := if g.pool.isClosed then c.leave true else { c with loop := .offering m }
      some { g.setConnection n c with pool := g.pool.submit ⟨n, m⟩ }
    | _ => none
  | none => none

/-- A message enters the queue of the pool, and its connection goes on. -/
def enqueue (g : Gateway) (position : Nat) : Option Gateway := do
  let offer ← g.pool.offers[position]?
  let pool ← g.pool.enqueue position
  let c ← g.connections[offer.connection]?
  return ({ g with pool }.setConnection offer.connection
    { c with loop := .listening }).countProcessed

/-- The pool refuses a message, and its connection leaves. -/
def refuse (g : Gateway) (position : Nat) : Option Gateway := do
  let offer ← g.pool.offers[position]?
  let pool ← g.pool.refuse position
  let c ← g.connections[offer.connection]?
  return { g with pool }.setConnection offer.connection (c.leave true)

/-- Whether the task of a connection must be free for what happens in its mailbox. -/
def isOwnerEvent : Mailbox.Event → Bool
  | .receive | .write | .failWrite _ | .answer => true
  | .call _ | .enqueue _ | .turnAway _ | .stop | .lose _ => false

/-- What a mailbox has written beyond what `before` had, to the client. -/
def pushedSince (before after : Mailbox) : List Output :=
  (after.written.drop before.written.length).map fun w => .pushed w.2

/-- Something happens in a mailbox. If that ends its owner, the connection leaves. -/
def mailbox (g : Gateway) (n : Nat) (event : Mailbox.Event) : Option Gateway := do
  let c ← g.connections[n]?
  let enabled := match event with
    | .stop => false
    | event => !isOwnerEvent event || c.loop = .listening
  if !enabled then none
  let mailbox ← c.mailbox.step event
  let c := { c with mailbox, sent := c.sent ++ pushedSince c.mailbox mailbox }
  let leaves := c.loop = .listening && mailbox.owner = .stopped
  return g.setConnection n (if leaves then c.leave false else c)

/-- A connection leaves between two frames. -/
def hangUp (g : Gateway) (n : Nat) : Option Gateway :=
  match g.connections[n]? with
  | some c => if c.listens then some (g.setConnection n (c.leave false)) else none
  | none => none

/-- A connection leaves because the server ends. -/
def notice (g : Gateway) (n : Nat) : Option Gateway :=
  match g.serving with
  | .accepting => none
  | _ => g.hangUp n

/-- A connection that leaves releases its entry of the registry, and has ended. -/
def release (g : Gateway) (n : Nat) : Option Gateway :=
  match g.connections[n]? with
  | some c =>
    match c.loop with
    | .leaving =>
      let (_, registry) := g.registry.release c.id c.serial
      some { g.setConnection n { c with loop := .ended } with registry }
    | _ => none
  | none => none

/-! ## Workers -/

/-- What a broker was asked to publish beyond what `before` had been. -/
def askedSince (before after : Publisher) : List Publication :=
  after.asked.drop before.asked.length

/-- A worker forwards its message and is done with it. -/
def forward (g : Gateway) (worker : Nat) : Option Gateway :=
  match g.pool.stage? worker with
  | some (.busy d) =>
    let (result, broker) := g.broker.forward d.message
    let asked := g.asked ++ (askedSince g.broker broker).map fun p => (d, p)
    (g.pool.finish worker result.isOk).map fun pool => { g with pool, broker, asked }
  | _ => none

/-- What concerns the pool alone. Its handler is the broker, which takes the notice that the pool
has ended. -/
def poolStep (g : Gateway) (event : Pool.Event Delivery) : Option Gateway :=
  match event with
  | .submit _ | .enqueue _ | .refuse _ | .finish _ _ | .crash _ | .close => none
  | .release => (g.pool.step .release).map fun pool => { g with pool, broker := g.broker.close }
  | event => (g.pool.step event).map fun pool => { g with pool }

/-! ## The end of the server -/

/-- The pool is closed, which makes no difference to one that is closed already. -/
def closePool (g : Gateway) : Gateway := { g with pool := (g.pool.step .close).getD g.pool }

/-- The server accepts no more connections. -/
def shutdown (g : Gateway) : Option Gateway :=
  match g.serving with
  | .accepting => some { g with serving := .closing }
  | _ => none

/-- Whether all connections have ended. -/
def allEnded (g : Gateway) : Bool := g.connections.all fun c => c.loop = .ended

/-- With all connections ended, the server closes the pool. If somebody else did that before, the
server does not wait for the end of the pool. -/
def drain (g : Gateway) : Option Gateway :=
  match g.serving with
  | .closing =>
    if g.allEnded then
      let next := if g.pool.isClosed then .returned else .draining
      some { g.closePool with serving := next }
    else none
  | _ => none

/-- With the pool torn down, the server returns. -/
def finishServing (g : Gateway) : Option Gateway :=
  match g.serving with
  | .draining => if g.pool.isReleased then some { g with serving := .returned } else none
  | _ => none

/-! ## Steps -/

/-- One event. -/
def step (g : Gateway) : Event → Option Gateway
  | .accept name fresh remote => g.accept name fresh remote
  | .frame n data => g.frame n data
  | .writeReply n => g.writeReply n
  | .failReply n => g.failReply n
  | .submit n => g.submit n
  | .enqueue i => g.enqueue i
  | .refuse i => g.refuse i
  | .mailbox n e => g.mailbox n e
  | .hangUp n => g.hangUp n
  | .notice n => g.notice n
  | .release n => g.release n
  | .remove id => some { g with registry := (g.registry.remove id).2 }
  | .forward w => g.forward w
  | .setRefusing refuses => some { g with broker.refuses := refuses }
  | .pool e => g.poolStep e
  | .closePool => some g.closePool
  | .shutdown => g.shutdown
  | .drain => g.drain
  | .finishServing => g.finishServing

/-- A list of events, all of which must be enabled. -/
def run? (g : Gateway) (events : List Event) : Option Gateway := events.foldlM step g

/-- The name of the pool of a gateway. -/
def poolName : String := "forward"

/-- What is shown of a gateway. -/
def metrics (g : Gateway) : Metrics :=
  g.registry.metrics ++ Metrics.counter .payloadsReceived g.tally.received ++
    Metrics.counter .payloadsProcessed g.tally.processed ++
    Metrics.counter .payloadsFailed g.tally.failed ++
    Metrics.counter .payloadsSent g.pushed ++ g.pool.metrics poolName

end Gateway

end SealedGateway
