import SealedGateway.Wire.Message

/-!
# Broker channels

Where a message goes on the broker, and what is published there: its fields in a fixed order,
separated by bars.
-/

namespace SealedGateway

/-- The channel of an audience; kinds outside the closed set have none. -/
def Audience.channel : Audience → Option String
  | direct => some "dm:new"
  | group => some "group:new"
  | broadcast => some "broadcast:new"
  | other _ => none

/-- What is published of a message. -/
def Message.payload (m : Message) : String :=
  "|".intercalate [m.id, m.content, m.timestamp, m.sender, m.receiver]

end SealedGateway
