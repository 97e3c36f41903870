import SealedGateway.Json.Parser

/-!
# Records in JSON

A record is a document with a fixed list of field names. It is spelled as an object whose members
stand in any order, or as an array of its fields in their order, with trailing ones left out.

- A name that occurs twice is refused; a member under any other key is passed over.
- **`record?`** gives the fields that are there. Which of them must be there, and of which type,
  is for the reader of the record (`text?`, `optionalText?`).
-/

namespace SealedGateway.Json

/-- The fields of a record that its text holds. -/
abbrev Fields := List (String × Json)

/-- What a document may hold behind its value: blanks. -/
def atEnd (fields : Fields) (s : Bytes) : Option Fields :=
  if skipBlank s = [] then some fields else none

/-- The members of a record from the next one on, and the end of the document. The count of steps
left is above the octets left, so it serves the values too. -/
def recordMembers? (names : List String) : (fuel : Nat) → Fields → Bytes → Option Fields
  | 0, _, _ => none
  | fuel + 1, fields, s =>
    match skipBlank s with
    | Ascii.quote :: r =>
      match string? r with
      | none => none
      | some (k, r) =>
        match skipBlank r with
        | Ascii.colon :: r =>
          let member :=
            if k ∈ names then
              if (fields.lookup k).isSome then none
              else (value? fuel (maxDepth - 1) r).map fun (v, r) => ((k, v) :: fields, r)
            else (skip? fuel .value [] r).map fun r => (fields, r)
          match member with
          | none => none
          | some (fields, r) =>
            match skipBlank r with
            | Ascii.comma :: r => recordMembers? names fuel fields r
            | Ascii.closeBrace :: r => atEnd fields r
            | _ => none
        | _ => none
    | _ => none

/-- The fields `names` of a record that is spelled as an array, and the end of the document. -/
def recordItems? (fuel : Nat) : (names : List String) → Fields → Bytes → Option Fields
  | [], _, _ => none
  | n :: names, fields, s =>
    match value? fuel (maxDepth - 1) s with
    | none => none
    | some (v, r) =>
      match skipBlank r with
      | Ascii.comma :: r => recordItems? fuel names ((n, v) :: fields) r
      | Ascii.closeBracket :: r => atEnd ((n, v) :: fields) r
      | _ => none

/-- The fields of the record with the field names `names` that the document `s` spells. -/
def record? (names : List String) (s : Bytes) : Option Fields :=
  match skipBlank s with
  | Ascii.openBrace :: r =>
    match skipBlank r with
    | Ascii.closeBrace :: r => atEnd [] r
    | r => recordMembers? names (r.length + 1) [] r
  | Ascii.openBracket :: r =>
    match skipBlank r with
    | Ascii.closeBracket :: r => atEnd [] r
    | r => recordItems? (r.length + 1) names [] r
  | _ => none

namespace Fields

/-- A field that must be a string. -/
def text? (fields : Fields) (name : String) : Option String :=
  match fields.lookup name with
  | some (.string s) => some s
  | _ => none

/-- A field that is a string, or else null or left out. -/
def optionalText? (fields : Fields) (name : String) : Option (Option String) :=
  match fields.lookup name with
  | none => some none
  | some .null => some none
  | some (.string s) => some (some s)
  | some _ => none

/-- A field of any type, null where it is left out. -/
def valueOrNull (fields : Fields) (name : String) : Json := (fields.lookup name).getD .null

end Fields

end SealedGateway.Json
