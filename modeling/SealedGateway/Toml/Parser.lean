import SealedGateway.Toml.Number
import SealedGateway.Toml.Text

/-!
# Reading TOML documents

TOML 1.0. A document is a list of statements, each on a line of its own: keys with values, and
headers, which say where the keys that follow belong (**`Draft`**). Arrays and inline tables nest at
most `maxDepth` deep.

**`Toml.parse?`** gives the members of the outermost table.
-/

namespace SealedGateway.Toml

/-- The most arrays and inline tables that may be open at once. -/
def maxDepth : Nat := 79

/-! ## Values -/

mutual

/-- The value in front of `s`, which may open `depth` arrays and tables inside each other. -/
def value? : (fuel depth : Nat) → List Char → Option (Toml × List Char)
  | 0, _, _ => none
  | fuel + 1, depth, s =>
    match s with
    | '[' :: s =>
      match depth with
      | 0 => none
      | depth + 1 => items? fuel depth [] s
    | '{' :: s =>
      match depth with
      | 0 => none
      | depth + 1 =>
        match skipBlank s with
        | '}' :: s => some (.table .braces [], s)
        | s => entries? fuel depth [] s
    | 't' :: 'r' :: 'u' :: 'e' :: s => some (.boolean true, s)
    | 'f' :: 'a' :: 'l' :: 's' :: 'e' :: s => some (.boolean false, s)
    | s => ((string? s).map fun (t, s) => (.string t, s)) <|> number? s

/-- The items of an array from the next one on; `done` holds those read, latest first. -/
def items? : (fuel depth : Nat) → (done : List Toml) → List Char → Option (Toml × List Char)
  | 0, _, _, _ => none
  | fuel + 1, depth, done, s =>
    match skipLines false s with
    | ']' :: s => some (.array done.reverse, s)
    | s =>
      match value? fuel depth s with
      | none => none
      | some (v, s) =>
        match skipLines false s with
        | ',' :: s => items? fuel depth (v :: done) s
        | ']' :: s => some (.array (v :: done).reverse, s)
        | _ => none

/-- The entries of an inline table from the next one on, added to `done`. -/
def entries? : (fuel depth : Nat) → (done : Members) → List Char → Option (Toml × List Char)
  | 0, _, _, _ => none
  | fuel + 1, depth, done, s =>
    match key? s with
    | some (path, name, '=' :: s) =>
      match value? fuel depth (skipBlank s) with
      | none => none
      | some (v, s) =>
        match define name v path done with
        | none => none
        | some done =>
          match skipBlank s with
          | ',' :: s => entries? fuel depth done s
          | '}' :: s => some (.table .braces done, s)
          | _ => none
    | _ => none

end

/-! ## Statements -/

/-- A header that the statements in front stand under. -/
structure Heading where
  path : List String
  name : String
  /-- Whether the header is in double brackets. -/
  repeated : Bool

/-- A document up to some statement. -/
structure Draft where
  /-- The outermost table, without the members of the table under the current header. -/
  root : Members
  heading : Option Heading
  /-- The members of the table under the current header. -/
  current : Members

namespace Draft

/-- A document before its first statement. -/
def empty : Draft := ⟨[], none, []⟩

/-- Adds the table of one header to the tables of that name. -/
def addRepeated (name : String) (table parent : Members) : Option Members :=
  match parent.find? name with
  | none => some (parent.set name (.tables [table]))
  | some (.tables items) => some (parent.set name (.tables (items ++ [table])))
  | some _ => none

/-- Puts the table under the current header in its place. -/
def close? (d : Draft) : Option Members :=
  match d.heading with
  | none => some d.current
  | some ⟨path, name, true⟩ => within (addRepeated name d.current) path d.root
  | some ⟨path, name, false⟩ =>
    within (fun parent => some (parent.set name (.table .header d.current))) path d.root

/-- A key with its value. -/
def define? (d : Draft) (path : List String) (name : String) (value : Toml) : Option Draft :=
  (Toml.define name value path d.current).map fun current => { d with current }

/-- Whether a header may stand for this member, which is the one that it names. -/
def admits (repeated : Bool) : Option Toml → Bool
  | none => true
  | some (.table .implied _) => !repeated
  | some (.tables _) => repeated
  | some _ => false

/-- A header. A table that longer headers have implied keeps its members. -/
def enter? (d : Draft) (h : Heading) : Option Draft := do
  let root ← d.close?
  let check := fun (parent : Members) =>
    if admits h.repeated (parent.find? h.name) then
      some (if h.repeated then parent else parent.erase h.name)
    else none
  let opened ← within check h.path root
  let current := if h.repeated then [] else membersAt root (h.path ++ [h.name])
  return ⟨opened, some h, current⟩

end Draft

/-- The header behind its opening bracket or brackets. -/
def heading? (repeated : Bool) (s : List Char) : Option (Heading × List Char) := do
  let (path, name, s) ← key? s
  match repeated, s with
  | true, ']' :: ']' :: s => return (⟨path, name, true⟩, s)
  | false, ']' :: s => return (⟨path, name, false⟩, s)
  | _, _ => none

/-- The key with its value in front of `s`. -/
def binding? (s : List Char) : Option ((List String × String × Toml) × List Char) := do
  let (path, name, s) ← key? s
  let (v, s) ← value? (s.length + 1) maxDepth (skipBlank (← mark? '=' s))
  return ((path, name, v), s)

/-- What one statement makes of a document, and the text behind its line. -/
def statement? (d : Draft) (s : List Char) : Option (Draft × List Char) :=
  match s with
  | '[' :: '[' :: s => do
    let (h, s) ← heading? true s
    return (← d.enter? h, ← endLine? s)
  | '[' :: s => do
    let (h, s) ← heading? false s
    return (← d.enter? h, ← endLine? s)
  | s => do
    let ((path, name, v), s) ← binding? s
    return (← d.define? path name v, ← endLine? s)

/-- The statements from here on, each of which takes at least one character. -/
def statements? : (fuel : Nat) → Draft → List Char → Option Draft
  | 0, _, _ => none
  | fuel + 1, d, s =>
    match skipBlank s with
    | [] => some d
    | s =>
      if s.head? = some '#' then (endLine? s) >>= statements? fuel d
      else
        match newline? s with
        | some s => statements? fuel d s
        | none =>
          match statement? d s with
          | some (d, s) => statements? fuel d s
          | none => none

/-- The members of the outermost table of a document, which can start with a byte order mark. -/
def parse? (text : String) : Option Members :=
  let s := match text.toList with
    | '\uFEFF' :: s => s
    | s => s
  statements? (s.length + 1) .empty s >>= Draft.close?

end SealedGateway.Toml
