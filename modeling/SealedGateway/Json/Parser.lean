import SealedGateway.Json.Basic
import SealedGateway.Json.Text

/-!
# Reading JSON

Strict JSON over octets: blanks are space, tab, line feed and carriage return, and nothing is
tolerated that the grammar does not derive.

- **`value?`** reads a value that is kept. Containers nest at most `maxDepth` deep in a document,
  strings are UTF-8, and numbers are within the finite binary64 values.
- **`skip?`** passes over a value that is not kept. Only its spelling counts: it may nest to any
  depth, so the brackets still open are a stack and not a recursion.

Both end their recursion by a count of steps that the length of the text bounds: a step takes at
least one octet.
-/

namespace SealedGateway.Json

/-- The blanks of JSON. -/
def isBlank (b : UInt8) : Bool :=
  b = Ascii.space || b = Ascii.tab || b = Ascii.lineFeed || b = Ascii.carriageReturn

/-- The text behind the blanks in front of it. -/
def skipBlank (s : Bytes) : Bytes := s.dropWhile isBlank

/-- The most containers that may be open at once, the outermost one included. -/
def maxDepth : Nat := 127

/-! ## Values that are kept -/

mutual

/-- The value in front of `s`, which may open `depth` containers inside each other. -/
def value? : (fuel depth : Nat) → Bytes → Option (Json × Bytes)
  | 0, _, _ => none
  | fuel + 1, depth, s =>
    match skipBlank s with
    | [] => none
    | Ascii.lowerN :: Ascii.lowerU :: Ascii.lowerL :: Ascii.lowerL :: r => some (.null, r)
    | Ascii.lowerT :: Ascii.lowerR :: Ascii.lowerU :: Ascii.lowerE :: r => some (.bool true, r)
    | Ascii.lowerF :: Ascii.lowerA :: Ascii.lowerL :: Ascii.lowerS :: Ascii.lowerE :: r =>
      some (.bool false, r)
    | Ascii.quote :: r => (string? r).map fun (t, r) => (.string t, r)
    | Ascii.openBracket :: r =>
      match depth with
      | 0 => none
      | depth + 1 =>
        match skipBlank r with
        | Ascii.closeBracket :: r => some (.array [], r)
        | r => items? fuel depth [] r
    | Ascii.openBrace :: r =>
      match depth with
      | 0 => none
      | depth + 1 =>
        match skipBlank r with
        | Ascii.closeBrace :: r => some (.object [], r)
        | r => members? fuel depth [] r
    | s =>
      match Number.lexeme? s with
      | some (l, r) => l.value?.map fun n => (.number n, r)
      | none => none

/-- The items of an array from the next one on; `done` holds those read, latest first. -/
def items? : (fuel depth : Nat) → (done : List Json) → Bytes → Option (Json × Bytes)
  | 0, _, _, _ => none
  | fuel + 1, depth, done, s =>
    match value? fuel depth s with
    | none => none
    | some (v, r) =>
      match skipBlank r with
      | Ascii.comma :: r => items? fuel depth (v :: done) r
      | Ascii.closeBracket :: r => some (.array (v :: done).reverse, r)
      | _ => none

/-- The members of an object from the next one on; `done` holds those read, latest first. -/
def members? : (fuel depth : Nat) → (done : List (String × Json)) → Bytes → Option (Json × Bytes)
  | 0, _, _, _ => none
  | fuel + 1, depth, done, s =>
    match skipBlank s with
    | Ascii.quote :: r =>
      match string? r with
      | none => none
      | some (k, r) =>
        match skipBlank r with
        | Ascii.colon :: r =>
          match value? fuel depth r with
          | none => none
          | some (v, r) =>
            match skipBlank r with
            | Ascii.comma :: r => members? fuel depth ((k, v) :: done) r
            | Ascii.closeBrace :: r => some (ofMembers ((k, v) :: done).reverse, r)
            | _ => none
        | _ => none
    | _ => none

end

/-! ## Values that are not kept -/

/-- A container that is still open. -/
inductive Bracket where
  | array
  | object
  deriving DecidableEq, Repr

/-- What a skipped text goes on with. -/
inductive Expected where
  /-- A value. -/
  | value
  /-- A member's key, its colon and its value. -/
  | member
  /-- A comma or the closing bracket of the innermost container. -/
  | next
  deriving DecidableEq, Repr

/-- What follows the literal or number in front of `s`. -/
def skipScalar? : Bytes → Option Bytes
  | Ascii.lowerN :: Ascii.lowerU :: Ascii.lowerL :: Ascii.lowerL :: r => some r
  | Ascii.lowerT :: Ascii.lowerR :: Ascii.lowerU :: Ascii.lowerE :: r => some r
  | Ascii.lowerF :: Ascii.lowerA :: Ascii.lowerL :: Ascii.lowerS :: Ascii.lowerE :: r => some r
  | Ascii.quote :: r => skipString? r
  | s => (Number.lexeme? s).map (·.2)

/-- What follows the containers `opened`, innermost first, where `s` goes on with `expected`. -/
def skip? : (fuel : Nat) → Expected → (opened : List Bracket) → Bytes → Option Bytes
  | 0, _, _, _ => none
  | fuel + 1, .value, opened, s =>
    match skipBlank s with
    | Ascii.openBracket :: r =>
      match skipBlank r with
      | Ascii.closeBracket :: r => skip? fuel .next opened r
      | r => skip? fuel .value (.array :: opened) r
    | Ascii.openBrace :: r =>
      match skipBlank r with
      | Ascii.closeBrace :: r => skip? fuel .next opened r
      | r => skip? fuel .member (.object :: opened) r
    | s =>
      match skipScalar? s with
      | some r => skip? fuel .next opened r
      | none => none
  | fuel + 1, .member, opened, s =>
    match skipBlank s with
    | Ascii.quote :: r =>
      match skipString? r with
      | none => none
      | some r =>
        match skipBlank r with
        | Ascii.colon :: r => skip? fuel .value opened r
        | _ => none
    | _ => none
  | _ + 1, .next, [], s => some s
  | fuel + 1, .next, .array :: opened, s =>
    match skipBlank s with
    | Ascii.comma :: r => skip? fuel .value (.array :: opened) r
    | Ascii.closeBracket :: r => skip? fuel .next opened r
    | _ => none
  | fuel + 1, .next, .object :: opened, s =>
    match skipBlank s with
    | Ascii.comma :: r => skip? fuel .member (.object :: opened) r
    | Ascii.closeBrace :: r => skip? fuel .next opened r
    | _ => none

end SealedGateway.Json
