import SealedGateway.Bytes
import SealedGateway.Failure

/-!
# Pushes to a connection

Other tasks reach a connection through its mailbox, a bounded queue that the task of the connection
empties. A push is answered when its payload has been written, or when it is certain that it never
will be. The mailbox is a machine of small steps (**`Mailbox.step`**).

- A call waits for space, or for the end of the owner (`enqueue`, `turnAway`).
- The owner takes one item at a time. It writes a payload, which can fail, and answers the call; a
  failed write ends it, and so does a request to close.
- The owner can also end between two items (`stop`). What is still queued is dropped, and each call
  that loses its item so is told (`lose`).
-/

namespace SealedGateway

/-- What a call asks of the owner of a connection. -/
inductive OutboundRequest where
  | push (payload : Bytes)
  | close
  deriving DecidableEq, Repr

/-- How far a call has come. -/
inductive CallStage where
  | waitingForSpace
  | queued
  /-- The call is over, with a failure or without. -/
  | answered (failure : Option Failure)
  deriving DecidableEq, Repr

/-- A call on a mailbox. -/
structure Call where
  request : OutboundRequest
  stage : CallStage
  deriving DecidableEq, Repr

/-- What the owner of a mailbox is doing. -/
inductive Owner where
  | receiving
  /-- Writes the payload of a call. -/
  | writing (call : Nat) (payload : Bytes)
  /-- Has written, or failed to write, the payload of a call. -/
  | answering (call : Nat) (failure : Option Failure)
  | stopped
  deriving DecidableEq, Repr

/-- A bounded queue of calls with its owner. -/
structure Mailbox where
  capacity : Nat
  /-- All calls, by number. -/
  calls : List Call
  /-- The numbers of the queued calls, oldest first. -/
  queue : List Nat
  owner : Owner
  /-- The payloads written, with the numbers of their calls, oldest first. -/
  written : List (Nat × Bytes)
  deriving DecidableEq, Repr

namespace Mailbox

/-- A mailbox without calls. -/
def empty (capacity : Nat) : Mailbox := ⟨capacity, [], [], .receiving, []⟩

/-- What a push learns that finds no owner. -/
def closedFailure : Failure := .transport "connection closed"

/-- What a push learns whose item is dropped. -/
def lostFailure : Failure := .transport "connection closed before write"

/-- What can happen in a mailbox. -/
inductive Event where
  | call (request : OutboundRequest)
  | enqueue (call : Nat)
  | turnAway (call : Nat)
  | receive
  | write
  | failWrite (failure : Failure)
  | answer
  | stop
  | lose (call : Nat)
  deriving DecidableEq, Repr

/-- The call of a number goes on to a stage. -/
def setStage (m : Mailbox) (call : Nat) (stage : CallStage) : Mailbox :=
  { m with calls := m.calls.modify call fun c => { c with stage } }

/-- A call enters the queue if there is space and an owner. A request to close is answered by
that. -/
def enqueue (m : Mailbox) (call : Nat) : Option Mailbox :=
  match m.calls[call]? with
  | some ⟨request, .waitingForSpace⟩ =>
    if m.owner ≠ .stopped ∧ m.queue.length < m.capacity then
      let stage := match request with
        | .push _ => .queued
        | .close => .answered none
      some { m.setStage call stage with queue := m.queue ++ [call] }
    else none
  | _ => none

/-- A call finds no owner. -/
def turnAway (m : Mailbox) (call : Nat) : Option Mailbox :=
  match m.calls[call]?, m.owner with
  | some ⟨_, .waitingForSpace⟩, .stopped =>
    some (m.setStage call (.answered (some closedFailure)))
  | _, _ => none

/-- The owner ends, and what is queued is dropped. -/
def halt (m : Mailbox) : Mailbox := { m with owner := .stopped, queue := [] }

/-- The owner takes the oldest item. -/
def receive (m : Mailbox) : Option Mailbox :=
  match m.owner, m.queue with
  | .receiving, call :: rest =>
    match m.calls[call]? with
    | some ⟨.push payload, _⟩ => some { m with queue := rest, owner := .writing call payload }
    | some ⟨.close, _⟩ => some m.halt
    | none => none
  | _, _ => none

/-- The payload is written. -/
def write (m : Mailbox) : Option Mailbox :=
  match m.owner with
  | .writing call payload =>
    some { m with
      owner := .answering call none
      written := m.written ++ [(call, payload)] }
  | _ => none

/-- The payload cannot be written. -/
def failWrite (m : Mailbox) (failure : Failure) : Option Mailbox :=
  match m.owner with
  | .writing call _ => some { m with owner := .answering call (some failure) }
  | _ => none

/-- The owner answers a call, and ends if the write failed. -/
def answer (m : Mailbox) : Option Mailbox :=
  match m.owner with
  | .answering call failure =>
    let m := m.setStage call (.answered failure)
    some (if failure.isNone then { m with owner := .receiving } else m.halt)
  | _ => none

/-- The owner ends between two items. -/
def stop (m : Mailbox) : Option Mailbox :=
  match m.owner with
  | .receiving => some m.halt
  | _ => none

/-- A queued call learns that its item was dropped. -/
def lose (m : Mailbox) (call : Nat) : Option Mailbox :=
  match m.calls[call]?, m.owner with
  | some ⟨_, .queued⟩, .stopped => some (m.setStage call (.answered (some lostFailure)))
  | _, _ => none

/-- One event. -/
def step (m : Mailbox) : Event → Option Mailbox
  | .call request => some { m with calls := m.calls ++ [⟨request, .waitingForSpace⟩] }
  | .enqueue call => m.enqueue call
  | .turnAway call => m.turnAway call
  | .receive => m.receive
  | .write => m.write
  | .failWrite failure => m.failWrite failure
  | .answer => m.answer
  | .stop => m.stop
  | .lose call => m.lose call

/-- A list of events, all of which must be enabled. -/
def run? (m : Mailbox) (events : List Event) : Option Mailbox := events.foldlM step m

end Mailbox

end SealedGateway
