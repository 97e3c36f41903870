import SealedGateway.Control.Push
import SealedGateway.Json.Printer
import SealedGateway.Net.Target
import SealedGateway.Text.Percent
import SealedGateway.Text.Split

/-!
# The control plane over HTTP

- **`Resource.ofTarget?`**: the resource that a request target names. Its path is split at slashes
  and compared as it is written; the query does not count.
- **`Request.command`**: what a request asks for. The method is looked at first, then the
  identifier, whose segment is percent-decoded, then the size of the payload.
- **`ControlPlane.respond`**: a `HEAD` request is answered like `GET`, without a body.
-/

namespace SealedGateway

/-- What a request target can name. An identifier is still percent-encoded here. -/
inductive Resource where
  | presence (segment : String)
  | payload (segment : String)
  | connection (segment : String)
  | connections
  | health
  deriving DecidableEq, Repr

namespace Resource

/-- The path of a request target, cut at slashes. -/
def segments (target : String) : List String := (split '/' (Target.path target)).map String.ofList

/-- The resource that a request target names. -/
def ofTarget? (target : String) : Option Resource :=
  match segments target with
  | ["", "v1", "users", segment, "connected"] => some (presence segment)
  | ["", "v1", "users", segment, "payload"] => some (payload segment)
  | ["", "v1", "users", segment, "connection"] => some (connection segment)
  | ["", "v1", "connections"] => some connections
  | ["", "health"] => some health
  | _ => none

end Resource

/-- A request to the control plane. -/
structure Request where
  method : String
  target : String
  body : Bytes
  deriving DecidableEq, Repr

/-- What the control plane can be asked to do. -/
inductive Command where
  | presence (id : String)
  | push (id : String) (payload : Bytes)
  | disconnect (id : String)
  | listing
  | health
  deriving DecidableEq, Repr

/-- Why a request is refused before it reaches the control plane. -/
inductive Refusal where
  | unknownResource
  | methodNotAllowed
  /-- The identifier does not decode to text. -/
  | badIdentifier
  | payloadTooLarge
  deriving DecidableEq, Repr

/-- A status and a body. -/
structure Response where
  status : Nat
  body : String
  deriving DecidableEq, Repr

/-- The answer to a refused request. -/
def Refusal.response : Refusal → Response
  | unknownResource => ⟨404, ""⟩
  | methodNotAllowed => ⟨405, ""⟩
  | badIdentifier => ⟨400, "Invalid URL: Invalid UTF-8 in \x60user_id\x60"⟩
  | payloadTooLarge => ⟨413, "Failed to buffer the request body: length limit exceeded"⟩

namespace Request

/-- The largest payload, in octets. -/
def maxPayload : Nat := 2097152

/-- Whether a request only reads. -/
def reads (r : Request) : Bool := r.method = "GET" || r.method = "HEAD"

/-- The identifier that a segment stands for. -/
def identifier (segment : String) : Except Refusal String :=
  match Percent.decode? segment with
  | some id => .ok id
  | none => .error .badIdentifier

/-- Refuses a request unless its method is the right one. -/
def allow (allowed : Bool) : Except Refusal Unit :=
  if allowed then .ok () else .error .methodNotAllowed

/-- What a request asks for. -/
def command (r : Request) : Except Refusal Command := do
  match Resource.ofTarget? r.target with
  | none => .error .unknownResource
  | some (.presence segment) =>
    allow r.reads
    return .presence (← identifier segment)
  | some (.payload segment) =>
    allow (r.method = "POST")
    let id ← identifier segment
    if maxPayload < r.body.length then .error .payloadTooLarge else return .push id r.body
  | some (.connection segment) =>
    allow (r.method = "DELETE")
    return .disconnect (← identifier segment)
  | some .connections =>
    allow r.reads
    return .listing
  | some .health =>
    allow r.reads
    return .health

end Request

namespace ControlPlane

variable {σ : Type}

/-- The JSON text of a truth value. -/
def truthText (b : Bool) : String := if b then "true" else "false"

/-- The JSON text of an entry of the directory in the second `now`. -/
def entryText (now : Nat) (entry : String × Handle) : String :=
  Json.printRecord
    [("id", Json.quote entry.1), ("remote", Json.quote entry.2.remote.text),
      ("connected_secs", toString (now - entry.2.since))]

/-- The JSON text of all entries of the directory, in the order of their identifiers. -/
def listingText (now : Nat) (d : Directory) : String :=
  Json.printRecord
    [("connections", "[" ++ ",".intercalate (d.entries.map (entryText now)) ++ "]")]

/-- The status of an answer to a push. -/
def pushStatus : PushOutcome → Nat
  | .sent | .noActiveConnection => 200
  | .transportFailed _ => 502

/-- Does what is asked, in the second `now`. -/
def perform (lines : Lines σ) (now : Nat) (c : ControlPlane σ) :
    Command → Response × ControlPlane σ
  | .presence id => (⟨200, Json.printRecord [("connected", truthText (c.isConnected id))]⟩, c)
  | .push id payload =>
    let (outcome, c) := c.push lines id payload
    (⟨pushStatus outcome, Json.printRecord [("ack", Json.quote outcome.ack)]⟩, c)
  | .disconnect id =>
    let (found, c) := c.disconnect lines id
    (⟨200, Json.printRecord [("disconnected", truthText found)]⟩, c)
  | .listing => (⟨200, listingText now c.registry.directory⟩, c)
  | .health =>
    (⟨200, Json.printRecord
      [("status", Json.quote "ok"), ("connections", toString c.registry.directory.size)]⟩, c)

/-- Answers a request in the second `now`. -/
def respond (lines : Lines σ) (now : Nat) (c : ControlPlane σ) (r : Request) :
    Response × ControlPlane σ :=
  let (response, c) := match r.command with
    | .error refusal => (refusal.response, c)
    | .ok command => c.perform lines now command
  (if r.method = "HEAD" then { response with body := "" } else response, c)

end ControlPlane

end SealedGateway
