import SealedGateway.Json.Record
import SealedGateway.Json.Printer
import SealedGateway.Failure

/-!
# Envelopes

Every inbound frame is a JSON record of a type tag, a package of any JSON value, and an optional
nonce text. `Envelope.decode` and `Envelope.text` are its two directions.
-/

namespace SealedGateway

/-- A frame as it stands on the wire. -/
structure Envelope where
  kind : String
  package : Json
  nonce : Option String
  deriving Inhabited

namespace Envelope

/-- The field names, in the order of an envelope that is spelled as an array. -/
def fieldNames : List String := ["type", "pkg", "iv"]

/-- An envelope from the fields of its record: only the tag must be there. -/
def ofFields? (fields : Json.Fields) : Option Envelope := do
  let kind ← fields.text? "type"
  let nonce ← fields.optionalText? "iv"
  return ⟨kind, fields.valueOrNull "pkg", nonce⟩

/-- Reads an envelope. -/
def decode (data : Bytes) : Except Failure Envelope :=
  match Json.record? fieldNames data >>= ofFields? with
  | some e => .ok e
  | none => .error (.codec .json)

/-- Writes an envelope; the nonce is left out where there is none. -/
def text (e : Envelope) : String :=
  Json.printRecord <|
    [("type", Json.quote e.kind), ("pkg", e.package.print)] ++
      (e.nonce.map fun n => ("iv", Json.quote n)).toList

end Envelope

end SealedGateway
