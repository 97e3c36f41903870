import SealedGateway.Outbound.Mailbox
import SealedGateway.Protocol
import SealedGateway.Text.Utf8

/-!
# Connections

One task owns a connection: its session, its mailbox, and its socket. Between two frames the task
listens for whatever comes first, a frame, an item in the mailbox, or a reason to leave
(**`Connection.listens`**). While it is busy with a frame it takes nothing else.
-/

namespace SealedGateway

/-- What the task of a connection is doing. -/
inductive Loop where
  | listening
  /-- Writes the acknowledgement of a handshake. -/
  | replying (ack : Ack)
  /-- Is about to submit a message to the pool. -/
  | submitting (message : Message)
  /-- Waits until the pool has taken a message or refused it. -/
  | offering (message : Message)
  /-- Is done with the socket; the entry of the registry is still there. -/
  | leaving
  | ended
  deriving DecidableEq, Repr

/-- What was written to a client. -/
inductive Output where
  | reply (text : String)
  | pushed (payload : Bytes)
  deriving DecidableEq, Repr

/-- What a client receives. -/
inductive ClientFrame where
  | text (s : String)
  | binary (b : Bytes)
  | closed
  deriving DecidableEq, Repr

/-- What a client receives of something that was written to it: a payload goes out as text if it is
UTF-8. -/
def Output.received : Output → ClientFrame
  | .reply text => .text text
  | .pushed payload =>
    match Utf8.decode? payload with
    | some text => .text text
    | none => .binary payload

/-- A connection. -/
structure Connection where
  /-- The identifier under which the connection is registered. -/
  id : String
  serial : UInt64
  session : Session
  mailbox : Mailbox
  loop : Loop
  /-- Whether the task left in the middle of a frame. -/
  brokeOff : Bool
  /-- What was written to the client, oldest first. -/
  sent : List Output
  /-- The messages accepted from the client, oldest first. -/
  accepted : List Message
  deriving DecidableEq

namespace Connection

/-- A connection that has just been accepted. -/
def start (id : String) (serial : UInt64) (nonceLimit outboundBuffer : Nat) : Connection :=
  { id, serial
    session := .create id nonceLimit
    mailbox := .empty outboundBuffer
    loop := .listening
    brokeOff := false, sent := [], accepted := [] }

/-- Whether the task takes whatever comes first. -/
def listens (c : Connection) : Bool := c.loop = .listening && c.mailbox.owner = .receiving

/-- Whether the task is busy with a frame. -/
def inFrame (c : Connection) : Bool :=
  match c.loop with
  | .replying _ | .submitting _ | .offering _ => true
  | .listening | .leaving | .ended => false

/-- The task leaves, and its mailbox has no owner any more. -/
def leave (c : Connection) (inFrame : Bool) : Connection :=
  { c with loop := .leaving, brokeOff := inFrame, mailbox := c.mailbox.halt }

/-- The messages accepted from the client that have a broker channel, oldest first. -/
def forwardable (c : Connection) : List Message :=
  c.accepted.filter fun m => match m.audience with
    | .other _ => false
    | _ => true

end Connection

end SealedGateway
