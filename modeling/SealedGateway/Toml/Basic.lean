/-!
# TOML values

The values of TOML, and the rules by which statements of a document add to a table.

A table remembers what made it, for that decides what may add to it later. A dotted key adds to
tables that dotted keys made, a header to tables that longer headers implied, and neither changes
a table that is complete (**`Toml.define`**, **`Toml.within`**).
-/

namespace SealedGateway

/-- What made a table. -/
inductive Toml.Origin where
  /-- Braces: the table is complete. -/
  | braces
  /-- A header of its own. -/
  | header
  /-- The header of a table inside it. -/
  | implied
  /-- A dotted key. -/
  | dotted
  deriving DecidableEq, Repr

/-- A TOML value. -/
inductive Toml where
  | string (s : String)
  | integer (n : Int)
  | float (text : String)
  | boolean (b : Bool)
  | datetime (text : String)
  | array (items : List Toml)
  | table (origin : Toml.Origin) (members : List (String × Toml))
  /-- Tables under headers in double brackets, at least one. -/
  | tables (items : List (List (String × Toml)))
  deriving Inhabited

namespace Toml

/-- The members of a table, in the order of their definition. -/
abbrev Members := List (String × Toml)

namespace Members

/-- The member of a name. -/
def find? (ms : Members) (name : String) : Option Toml := ms.lookup name

/-- Replaces the member of a name, or adds one at the end. -/
def set (name : String) (value : Toml) : Members → Members
  | [] => [(name, value)]
  | (n, v) :: ms => if n = name then (n, value) :: ms else (n, v) :: set name value ms

/-- Removes the member of a name. -/
def erase (ms : Members) (name : String) : Members := ms.filter fun m => m.1 ≠ name

/-- Changes the last of several tables. -/
def changeLast? (items : List Members) (change : Members → Option Members) : Option Toml :=
  match items.getLast? with
  | none => none
  | some last => (change last).map fun changed => .tables (items.dropLast ++ [changed])

end Members

/-- Whether a dotted key may add to a table; `last` says that it would define its last part there.
Tables that a header implied can only be passed through. -/
def Origin.addsDotted (last : Bool) : Origin → Bool
  | .braces | .header => false
  | .implied => !last
  | .dotted => true

/-- Defines `name` in the table at the end of `path`, as a dotted key does. -/
def define (name : String) (value : Toml) : (path : List String) → Members → Option Members
  | [], ms => if (ms.find? name).isSome then none else some (ms ++ [(name, value)])
  | key :: path, ms =>
    match ms.find? key with
    | none => (define name value path []).map fun sub => ms.set key (.table .dotted sub)
    | some (.table origin sub) =>
      if origin.addsDotted path.isEmpty then
        (define name value path sub).map fun sub => ms.set key (.table origin sub)
      else none
    | some (.tables items) =>
      if path.isEmpty then none
      else (Members.changeLast? items (define name value path)).map fun v => ms.set key v
    | some _ => none

/-- Changes the table at the end of `path`, as a header does that names a table inside it. -/
def within (change : Members → Option Members) : (path : List String) → Members → Option Members
  | [], ms => change ms
  | key :: path, ms =>
    match ms.find? key with
    | none => (within change path []).map fun sub => ms.set key (.table .implied sub)
    | some (.table .braces _) => none
    | some (.table origin sub) =>
      (within change path sub).map fun sub => ms.set key (.table origin sub)
    | some (.tables items) =>
      (Members.changeLast? items (within change path)).map fun v => ms.set key v
    | some _ => none

/-- The members of the table at the end of `path`, none where nothing is defined there yet. -/
def membersAt (ms : Members) : (path : List String) → Members
  | [] => ms
  | key :: path =>
    match ms.find? key with
    | some (.table _ sub) => membersAt sub path
    | some (.tables items) => membersAt (items.getLast?.getD []) path
    | _ => []

end Toml

end SealedGateway
