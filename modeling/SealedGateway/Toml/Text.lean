import SealedGateway.Text.Numeral

/-!
# Text in TOML documents

Blanks, comments, strings and keys. Each reader takes the text from where it stands and gives the
rest back.

- **`basicString?`** and **`literalString?`** read a string behind its opening quotation mark,
  **`basicBlock?`** and **`literalBlock?`** one that can go over several lines. A block can end in
  up to two quotation marks of its own.
- **`key?`** reads a key with its dots.
-/

namespace SealedGateway.Toml

/-! ## Blanks and comments -/

/-- The blanks inside a line. -/
def isBlank (c : Char) : Bool := c = ' ' || c = '\t'

/-- Whether a character can occur in text: all but control characters, of which the tabulator is
none. -/
def isPlain (c : Char) : Bool := c = '\t' || (' ' ≤ c && c ≠ '\x7f')

/-- The text behind the blanks in front of it. -/
def skipBlank (s : List Char) : List Char := s.dropWhile isBlank

/-- The text behind the end of a line. -/
def newline? : List Char → Option (List Char)
  | '\n' :: s => some s
  | '\r' :: '\n' :: s => some s
  | _ => none

/-- The text behind a comment, if there is one. -/
def skipComment : List Char → List Char
  | '#' :: s => s.dropWhile isPlain
  | s => s

/-- The text behind the rest of a line that holds no more than blanks and a comment. -/
def endLine? (s : List Char) : Option (List Char) :=
  match skipComment (skipBlank s) with
  | [] => some []
  | s => newline? s

/-- The text behind blanks, comments and ends of lines; `comment` says that it starts inside a
comment. -/
def skipLines : (comment : Bool) → List Char → List Char
  | _, '\n' :: s => skipLines false s
  | _, '\r' :: '\n' :: s => skipLines false s
  | true, c :: s => if isPlain c then skipLines true s else c :: s
  | false, '#' :: s => skipLines true s
  | false, c :: s => if isBlank c then skipLines false s else c :: s
  | _, [] => []

/-! ## Strings -/

/-- The character that a one-letter escape denotes. -/
def escape? : Char → Option Char
  | 'b' => some '\x08'
  | 't' => some '\t'
  | 'n' => some '\n'
  | 'f' => some '\x0c'
  | 'r' => some '\r'
  | '"' => some '"'
  | '\\' => some '\\'
  | _ => none

/-- The character of a code point in hexadecimal digits. -/
def codePoint? (digits : List Char) : Option Char :=
  match Numeral.whole? 16 digits with
  | some n => if n.isValidChar then some (Char.ofNat n) else none
  | none => none

/-- A string in quotation marks, behind the opening one; `done` holds its text so far, reversed. -/
def basicString? (done : List Char) : List Char → Option (String × List Char)
  | [] => none
  | '"' :: s => some (String.ofList done.reverse, s)
  | '\\' :: 'u' :: a :: b :: c :: d :: s =>
    match codePoint? [a, b, c, d] with
    | some x => basicString? (x :: done) s
    | none => none
  | '\\' :: 'U' :: a :: b :: c :: d :: e :: f :: g :: h :: s =>
    match codePoint? [a, b, c, d, e, f, g, h] with
    | some x => basicString? (x :: done) s
    | none => none
  | '\\' :: e :: s =>
    match escape? e with
    | some x => basicString? (x :: done) s
    | none => none
  | c :: s => if isPlain c && c ≠ '\\' then basicString? (c :: done) s else none

/-- Where a block stands. -/
inductive BlockState where
  | text
  /-- Behind a backslash at the end of a line, before the end of the line. -/
  | lineEnding
  /-- Behind such a line, in the blanks before the text goes on. -/
  | continuing
  deriving DecidableEq, Repr

/-- A string in three quotation marks, behind the opening ones; `done` holds its text so far,
reversed. -/
def basicBlock? (state : BlockState) (done : List Char) : List Char → Option (String × List Char)
  | [] => none
  | '\n' :: s =>
    match state with
    | .text => basicBlock? .text ('\n' :: done) s
    | _ => basicBlock? .continuing done s
  | '\r' :: '\n' :: s =>
    match state with
    | .text => basicBlock? .text ('\n' :: done) s
    | _ => basicBlock? .continuing done s
  | c :: s =>
    if state ≠ .text ∧ isBlank c then basicBlock? state done s
    else if state = .lineEnding then none
    else
      match c, s with
      | '"', '"' :: '"' :: '"' :: '"' :: s => some (String.ofList ('"' :: '"' :: done).reverse, s)
      | '"', '"' :: '"' :: '"' :: s => some (String.ofList ('"' :: done).reverse, s)
      | '"', '"' :: '"' :: s => some (String.ofList done.reverse, s)
      | '\\', 'u' :: a :: b :: c :: d :: s =>
        match codePoint? [a, b, c, d] with
        | some x => basicBlock? .text (x :: done) s
        | none => none
      | '\\', 'U' :: a :: b :: c :: d :: e :: f :: g :: h :: s =>
        match codePoint? [a, b, c, d, e, f, g, h] with
        | some x => basicBlock? .text (x :: done) s
        | none => none
      | '\\', e :: s =>
        match escape? e with
        | some x => basicBlock? .text (x :: done) s
        | none =>
          if isBlank e || e = '\n' || e = '\r' then basicBlock? .lineEnding done (e :: s) else none
      | c, s => if isPlain c && c ≠ '\\' then basicBlock? .text (c :: done) s else none

/-- A string in apostrophes, behind the opening one. -/
def literalString? (s : List Char) : Option (String × List Char) :=
  let isText := fun c => isPlain c && c ≠ '\''
  match s.dropWhile isText with
  | '\'' :: rest => some (String.ofList (s.takeWhile isText), rest)
  | _ => none

/-- A string in three apostrophes, behind the opening ones; `done` holds its text so far,
reversed. -/
def literalBlock? (done : List Char) : List Char → Option (String × List Char)
  | [] => none
  | '\'' :: '\'' :: '\'' :: '\'' :: '\'' :: s =>
    some (String.ofList ('\'' :: '\'' :: done).reverse, s)
  | '\'' :: '\'' :: '\'' :: '\'' :: s => some (String.ofList ('\'' :: done).reverse, s)
  | '\'' :: '\'' :: '\'' :: s => some (String.ofList done.reverse, s)
  | '\n' :: s => literalBlock? ('\n' :: done) s
  | '\r' :: '\n' :: s => literalBlock? ('\n' :: done) s
  | c :: s => if isPlain c then literalBlock? (c :: done) s else none

/-- A block behind its opening marks, where the end of the line that they stand on does not
count. -/
def skipFirstNewline (s : List Char) : List Char := (newline? s).getD s

/-- A string of any of the four forms. -/
def string? : List Char → Option (String × List Char)
  | '"' :: '"' :: '"' :: s => basicBlock? .text [] (skipFirstNewline s)
  | '"' :: s => basicString? [] s
  | '\'' :: '\'' :: '\'' :: s => literalBlock? [] (skipFirstNewline s)
  | '\'' :: s => literalString? s
  | _ => none

/-! ## Keys -/

/-- Whether a character can occur in a bare key. -/
def isBare (c : Char) : Bool := c.isAlphanum || c = '-' || c = '_'

/-- A part of a key: a string on one line or a bare word. -/
def keyPart? : List Char → Option (String × List Char)
  | '"' :: s => basicString? [] s
  | '\'' :: s => literalString? s
  | s =>
    let word := s.takeWhile isBare
    if word.isEmpty then none else some (String.ofList word, s.dropWhile isBare)

/-- At most so many parts may a key have. -/
def maxKeyParts : Nat := 79

/-- A key of at most `count` parts with dots between them, and the blanks around it. -/
def keyParts? : (count : Nat) → List Char → Option (List String × List Char)
  | 0, _ => none
  | count + 1, s =>
    match keyPart? (skipBlank s) with
    | none => none
    | some (part, s) =>
      match skipBlank s with
      | '.' :: s => (keyParts? count s).map fun (parts, s) => (part :: parts, s)
      | s => some ([part], s)

/-- A key, as the parts before its last one, the last one, and the rest of the text. -/
def key? (s : List Char) : Option (List String × String × List Char) := do
  let (parts, s) ← keyParts? maxKeyParts s
  return (parts.dropLast, ← parts.getLast?, s)

end SealedGateway.Toml
