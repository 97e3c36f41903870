import SealedGateway.Protocol

/-!
# Runs of a session

A fresh session is fed octet strings, whatever they are, and what came of each is kept
(**`Session.run`**).
-/

namespace SealedGateway.Session

/-- What one frame of a run did. -/
structure Event where
  frame : Bytes
  before : Session
  result : Except Failure Outcome
  after : Session

namespace Event

/-- The frame was a handshake that succeeded. -/
def acknowledged (ev : Event) : Bool :=
  match ev.result with
  | .ok (.acknowledged _) => true
  | _ => false

/-- The frame was accepted as a message. -/
def accepted (ev : Event) : Bool :=
  match ev.result with
  | .ok (.accepted _) => true
  | _ => false

end Event

/-- A session with its history. -/
structure Run where
  session : Session
  entropy : Entropy
  events : List Event

namespace Run

/-- A session before its first frame. -/
def start (connectionId : String) (nonceLimit : Nat) (e : Entropy) : Run :=
  ⟨create connectionId nonceLimit, e, []⟩

/-- The run after a frame with this result. -/
def record (r : Run) (frame : Bytes) (result : Except Failure Outcome) (s : Session)
    (e : Entropy) : Run :=
  ⟨s, e, ⟨frame, r.session, result, s⟩ :: r.events⟩

/-- The run after one more frame. -/
def next (r : Run) (frame : Bytes) : Run :=
  let (result, s, e) := r.session.process r.entropy frame
  r.record frame result s e

/-- The run after more frames. -/
def feed (r : Run) (frames : List Bytes) : Run := frames.foldl next r

end Run

/-- A fresh session that is fed frames. -/
def run (connectionId : String) (nonceLimit : Nat) (e : Entropy) (frames : List Bytes) : Run :=
  (Run.start connectionId nonceLimit e).feed frames

end SealedGateway.Session
