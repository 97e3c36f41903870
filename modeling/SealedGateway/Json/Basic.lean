import SealedGateway.Json.Number

/-!
# JSON values

The values of JSON, with object members in the order of their keys and one member a key. Keys are
ordered by code points, which is the order of their UTF-8 octets.
-/

namespace SealedGateway

/-- A JSON value. -/
inductive Json where
  | null
  | bool (b : Bool)
  | number (n : Json.Number)
  | string (s : String)
  | array (items : List Json)
  | object (members : List (String × Json))
  deriving Inhabited

namespace Json

/-- The name of the type of a value. -/
def typeName : Json → String
  | .null => "null"
  | .bool _ => "bool"
  | .number _ => "number"
  | .string _ => "string"
  | .array _ => "array"
  | .object _ => "object"

/-- Sets the member `k` in members ordered by key. -/
def setMember (k : String) (v : Json) : List (String × Json) → List (String × Json)
  | [] => [(k, v)]
  | (k', v') :: r =>
    if k < k' then (k, v) :: (k', v') :: r
    else if k = k' then (k, v) :: r
    else (k', v') :: setMember k v r

/-- The object of members in the order of their text: a later member replaces an earlier one of
the same key. -/
def ofMembers (ms : List (String × Json)) : Json :=
  .object (ms.foldl (fun acc m => setMember m.1 m.2 acc) [])

end Json

end SealedGateway
