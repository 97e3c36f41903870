import SealedGateway.Json.Basic
import SealedGateway.Json.Text

/-!
# Writing JSON

JSON without blanks. Object members are written in the order they have in the value, which is that
of their keys.
-/

namespace SealedGateway.Json

mutual

/-- The text of a value. -/
def print : Json → String
  | .null => "null"
  | .bool b => if b then "true" else "false"
  | .number n => n.text
  | .string s => quote s
  | .array items => "[" ++ printItems items ++ "]"
  | .object members => "\x7b" ++ printMembers members ++ "\x7d"

/-- The texts of array items with commas between them. -/
def printItems : List Json → String
  | [] => ""
  | [v] => print v
  | v :: r => print v ++ "," ++ printItems r

/-- The texts of object members with commas between them. -/
def printMembers : List (String × Json) → String
  | [] => ""
  | [(k, v)] => quote k ++ ":" ++ print v
  | (k, v) :: r => quote k ++ ":" ++ print v ++ "," ++ printMembers r

end

/-- The text of a record: its fields in their order, each value already a text. -/
def printRecord (fields : List (String × String)) : String :=
  let member := fun (f : String × String) => quote f.1 ++ ":" ++ f.2
  "\x7b" ++ ",".intercalate (fields.map member) ++ "\x7d"

end SealedGateway.Json
