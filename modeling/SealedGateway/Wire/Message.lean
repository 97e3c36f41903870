import SealedGateway.Json.Record
import SealedGateway.Json.Printer
import SealedGateway.Failure

/-!
# Application messages

What a sealed frame holds once it is opened: a text, who sent it, and whom it is for.

- **`Audience`**: the kind of receiver. Its spelling ignores the case of ASCII letters and has
  two words for a direct message; a kind outside the closed set is kept as it was spelled.
- **`Message.encode`** and **`Message.decode`** are the two directions of its JSON record.
-/

namespace SealedGateway

/-- The kind of receiver a message is addressed to. -/
inductive Audience where
  | direct
  | group
  | broadcast
  /-- A kind outside the closed set, as it was spelled. -/
  | other (raw : String)
  deriving DecidableEq, Repr

namespace Audience

/-- A text with its ASCII capitals in lower case. -/
def foldCase (s : String) : String := s.map Char.toLower

/-- The audience that a text spells. -/
def ofText (raw : String) : Audience :=
  let folded := foldCase raw
  if folded = "dm" ∨ folded = "direct" then .direct
  else if folded = "group" then .group
  else if folded = "broadcast" then .broadcast
  else .other raw

/-- The canonical spelling of an audience. -/
def text : Audience → String
  | direct => "DM"
  | group => "GROUP"
  | broadcast => "BROADCAST"
  | other raw => raw

/-- An audience as it is displayed. -/
def display : Audience → String
  | direct => "DM"
  | group => "GROUP"
  | broadcast => "BROADCAST"
  | other raw => raw

instance : ToString Audience := ⟨display⟩

/-- The JSON text of an audience. -/
def json (a : Audience) : String := Json.quote a.text

end Audience

/-- A message between users. -/
structure Message where
  content : String
  timestamp : String
  sender : String
  audience : Audience
  receiver : String
  id : String
  deriving DecidableEq, Repr

namespace Message

/-- The field names, in their order. -/
def fieldNames : List String :=
  ["content", "timestamp", "senderID", "messageType", "receiverID", "messageID"]

/-- A message from the fields of its record, all of which must be there. -/
def ofFields? (fields : Json.Fields) : Option Message := do
  let content ← fields.text? "content"
  let timestamp ← fields.text? "timestamp"
  let sender ← fields.text? "senderID"
  let audience ← fields.text? "messageType"
  let receiver ← fields.text? "receiverID"
  let id ← fields.text? "messageID"
  return ⟨content, timestamp, sender, .ofText audience, receiver, id⟩

/-- The JSON text of a message. -/
def text (m : Message) : String :=
  Json.printRecord
    [("content", Json.quote m.content), ("timestamp", Json.quote m.timestamp),
      ("senderID", Json.quote m.sender), ("messageType", m.audience.json),
      ("receiverID", Json.quote m.receiver), ("messageID", Json.quote m.id)]

/-- The octets that a client seals. -/
def encode (m : Message) : Bytes := Utf8.encode m.text

/-- Reads an opened message. -/
def decode (data : Bytes) : Except Failure Message :=
  match Json.record? fieldNames data >>= ofFields? with
  | some m => .ok m
  | none => .error (.codec .json)

end Message

end SealedGateway
