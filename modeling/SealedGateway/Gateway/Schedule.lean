import SealedGateway.Gateway.Basic
import SealedGateway.Control.Push
import SealedGateway.Pool.Schedule

/-!
# A fair schedule of a gateway

Which event comes next when a gateway is left alone, with a broker and sockets that answer at once
(**`Gateway.next?`**), and how the control plane reaches connections that are left alone
(**`Gateway.lines`**).
-/

namespace SealedGateway.Gateway

/-- What a connection does next if its client is silent. -/
def connectionNext? (g : Gateway) (n : Nat) (c : Connection) : Option Event :=
  match c.loop with
  | .listening =>
    match g.serving with
    | .accepting => none
    | _ => some (.notice n)
  | .replying _ => some (.writeReply n)
  | .submitting _ => some (.submit n)
  | .leaving => some (.release n)
  | .offering _ | .ended => none

/-- What an event of the pool is in the gateway. -/
def ofPoolEvent : Pool.Event Delivery → Event
  | .finish w _ => .forward w
  | .enqueue i => .enqueue i
  | .refuse i => .refuse i
  | e => .pool e

/-- What the pool does next. -/
def poolNext? (g : Gateway) (roster : Roster) : Option (Pool.Event Delivery) :=
  g.pool.next? (fun _ => .handled true) roster

/-- What the server does next. -/
def servingNext? (g : Gateway) : Option Event :=
  match g.serving with
  | .closing => if g.allEnded then some .drain else none
  | .draining => if g.pool.isReleased then some .finishServing else none
  | .accepting | .returned => none

/-- The next event of a gateway that is left alone, and the workers that wait then. -/
def next? (g : Gateway) (roster : Roster) : Option (Event × (Gateway → Roster)) :=
  match g.connections.zipIdx.findSome? fun (c, n) => g.connectionNext? n c with
  | some e => some (e, fun _ => roster)
  | none =>
    match g.poolNext? roster with
    | some e => some (ofPoolEvent e, fun after => after.pool.followRoster roster e)
    | none => g.servingNext?.map fun e => (e, fun _ => roster)

/-- More events than can follow when a gateway is left alone. -/
def patience (g : Gateway) : Nat := g.pool.patience + 16 * g.connections.length + 16

/-- Leaves a gateway alone until nothing moves. -/
def settle (g : Gateway) (roster : Roster) : Gateway × Roster :=
  go g.patience g roster
where
  /-- At most a given number of events. -/
  go : Nat → Gateway → Roster → Gateway × Roster
    | 0, g, roster => (g, roster)
    | n + 1, g, roster =>
      match g.next? roster with
      | none => (g, roster)
      | some (e, follow) =>
        match g.step e with
        | none => (g, roster)
        | some after => go n after (follow after)

/-! ## The control plane -/

/-- The number of the connection of a serial. -/
def numberOf? (g : Gateway) (serial : UInt64) : Option Nat :=
  g.connections.findIdx? fun c => c.serial == serial

/-- What a push to a connection that listens leads to: it is queued, taken, written and
answered. -/
def pushEvents (c : Connection) (payload : Bytes) : List Mailbox.Event :=
  [.call (.push payload), .enqueue c.mailbox.calls.length, .receive, .write, .answer]

/-- What a request to close leads to. -/
def closeEvents (c : Connection) : List Mailbox.Event :=
  [.call .close, .enqueue c.mailbox.calls.length, .receive]

/-- Runs events in the mailbox of the connection of a serial, if the connection listens. -/
def runMailbox? (g : Gateway) (serial : UInt64) (events : Connection → List Mailbox.Event) :
    Option Gateway := do
  let n ← g.numberOf? serial
  let c ← g.connections[n]?
  g.run? ((events c).map (.mailbox n))

/-- How the control plane reaches the connections. -/
def lines : Lines Gateway where
  push g serial payload :=
    match g.runMailbox? serial fun c => pushEvents c payload with
    | some g => (.ok (), g)
    | none => (.error Mailbox.closedFailure, g)
  close g serial :=
    match g.runMailbox? serial closeEvents with
    | some g => (true, g)
    | none => (false, g)

/-- The control plane of a gateway. -/
def controlPlane (g : Gateway) : ControlPlane Gateway := ⟨g.registry, g, g.pushed⟩

/-- The gateway that a control plane has come to. -/
def ofControlPlane (c : ControlPlane Gateway) : Gateway :=
  { c.owners with registry := c.registry, pushed := c.sent }

end SealedGateway.Gateway
