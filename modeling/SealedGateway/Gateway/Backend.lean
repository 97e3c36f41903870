import SealedGateway.Control.Push
import SealedGateway.Gateway.Basic

/-!
# Pushes through the control plane

A push looks an identifier up, calls on the connection that it found, and waits to be told what came
of it. Any number of pushes are on their way side by side, and between any two steps of a push the
gateway goes on: an entry can be replaced or removed, and a connection can end
(**`Backend.step`**).
-/

namespace SealedGateway

/-- How far a push through the control plane has come. -/
inductive PushStage where
  | asked
  /-- Nobody was registered at the look-up. -/
  | absent
  /-- Has found a handle, and uses no other. -/
  | found (handle : Handle)
  /-- Has called on a connection, and waits for the answer to the call. -/
  | called (handle : Handle) (connection call : Nat)
  | answered (handle : Handle) (connection call : Nat) (failure : Option Failure)
  deriving DecidableEq

namespace PushStage

/-- What a push came to. -/
def outcome? : PushStage → Option PushOutcome
  | absent => some .noActiveConnection
  | answered _ _ _ none => some .sent
  | answered _ _ _ (some f) => some (.transportFailed f.message)
  | asked | found _ | called _ _ _ => none

/-- What a push found when it looked its identifier up. -/
def entry? : PushStage → Option (Option Handle)
  | asked => none
  | absent => some none
  | found handle | called handle _ _ | answered handle _ _ _ => some (some handle)

/-- The connection that a push called on, and the number of the call. -/
def call? : PushStage → Option (Nat × Nat)
  | called _ n k | answered _ n k _ => some (n, k)
  | asked | absent | found _ => none

/-- What a push was told by the owner whose handle it found. -/
def answer? : PushStage → Option (Handle × Except Failure Unit)
  | answered handle _ _ none => some (handle, .ok ())
  | answered handle _ _ (some f) => some (handle, .error f)
  | asked | absent | found _ | called _ _ _ => none

end PushStage

/-- A push through the control plane. -/
structure PushTask where
  id : String
  payload : Bytes
  stage : PushStage
  deriving DecidableEq

/-- A gateway, and the pushes through its control plane by number. -/
structure Backend where
  gateway : Gateway
  pushes : List PushTask

namespace Backend

/-- What can happen. -/
inductive Event where
  | ask (id : String) (payload : Bytes)
  | lookUp (push : Nat)
  | call (push connection : Nat)
  /-- A push learns the answer to its call. -/
  | learn (push : Nat)
  | gateway (event : Gateway.Event)

/-- Nobody has asked for a push. -/
def start (gateway : Gateway) : Backend := ⟨gateway, []⟩

/-- The entry of an identifier. -/
def find? (b : Backend) (id : String) : Option Handle := b.gateway.registry.directory.find? id

/-- The push of a number goes on to a stage. -/
def setStage (b : Backend) (i : Nat) (stage : PushStage) : Backend :=
  { b with pushes := b.pushes.modify i fun p => { p with stage } }

/-- A push looks its identifier up. -/
def lookUp (b : Backend) (i : Nat) : Option Backend :=
  match b.pushes[i]? with
  | some ⟨id, _, .asked⟩ => some (b.setStage i ((b.find? id).elim .absent .found))
  | _ => none

/-- A push calls on the connection whose handle it has. -/
def call (b : Backend) (i n : Nat) : Option Backend :=
  match b.pushes[i]?, b.gateway.connections[n]? with
  | some ⟨_, payload, .found handle⟩, some c =>
    if c.serial = handle.serial then
      (b.gateway.step (.mailbox n (.call (.push payload)))).map fun gateway =>
        { b.setStage i (.called handle n c.mailbox.calls.length) with gateway }
    else none
  | _, _ => none

/-- A push learns the answer to its call. -/
def learn (b : Backend) (i : Nat) : Option Backend :=
  match b.pushes[i]? with
  | some ⟨_, _, .called handle n k⟩ =>
    match b.gateway.connections[n]?.bind fun c => c.mailbox.calls[k]? with
    | some ⟨_, .answered f⟩ => some (b.setStage i (.answered handle n k f))
    | _ => none
  | _ => none

/-- One event. -/
def step (b : Backend) : Event → Option Backend
  | .ask id payload => some { b with pushes := b.pushes ++ [⟨id, payload, .asked⟩] }
  | .lookUp i => b.lookUp i
  | .call i n => b.call i n
  | .learn i => b.learn i
  | .gateway ev => (b.gateway.step ev).map fun gateway => { b with gateway }

/-- A list of events, all of which must be enabled. -/
def run? (b : Backend) (events : List Event) : Option Backend := events.foldlM step b

end Backend

end SealedGateway
