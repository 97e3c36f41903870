import SealedGateway.Json.Record
import SealedGateway.Json.Printer
import SealedGateway.Failure

/-!
# Handshake acknowledgements

The reply to a handshake carries the gateway's public key in Base64.
-/

namespace SealedGateway

/-- The acknowledgement of a handshake. -/
structure Ack where
  kind : String
  note : String
  serverKey : String
  deriving DecidableEq, Repr

namespace Ack

/-- The acknowledgement that carries `serverKey`. -/
def ofKey (serverKey : String) : Ack := ⟨"HandshakeAck", "Handshake successful", serverKey⟩

/-- The field names, in their order. -/
def fieldNames : List String := ["type", "msg", "serverPubKey"]

/-- An acknowledgement from the fields of its record, all of which must be there. -/
def ofFields? (fields : Json.Fields) : Option Ack := do
  let kind ← fields.text? "type"
  let note ← fields.text? "msg"
  let key ← fields.text? "serverPubKey"
  return ⟨kind, note, key⟩

/-- Writes an acknowledgement. -/
def encode (a : Ack) : String :=
  Json.printRecord
    [("type", Json.quote a.kind), ("msg", Json.quote a.note),
      ("serverPubKey", Json.quote a.serverKey)]

/-- Reads an acknowledgement. -/
def decode (data : Bytes) : Except Failure Ack :=
  match Json.record? fieldNames data >>= ofFields? with
  | some a => .ok a
  | none => .error (.codec .json)

end Ack

end SealedGateway
