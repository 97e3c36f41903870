/-!
# Request targets

A request names what it is for by a path with an optional query. They stand alone, or behind the
scheme and the authority of an absolute target, which count for nothing here. A fragment is no part
of what is asked for.

- **`Target.path`**, **`Target.query?`**: the two parts of a target.
- **`Target.behindAuthority?_slash`**: a target that starts with a slash is not absolute.
-/

namespace SealedGateway.Target

/-- Whether a character can occur in a scheme. -/
def isSchemeChar (c : Char) : Bool :=
  c.isAlphanum || c = '+' || c = '-' || c = '.' || c = '~'

/-- What follows the authority of an absolute target. The authority is not empty. -/
def behindAuthority? (target : List Char) : Option (List Char) :=
  match target.dropWhile isSchemeChar with
  | ':' :: '/' :: '/' :: rest =>
    let behind := rest.dropWhile fun c => c ≠ '/' && c ≠ '?'
    if behind.length < rest.length then some behind else none
  | _ => none

/-- Path and query of a target. -/
def reference (target : String) : List Char :=
  let whole := target.toList.takeWhile (· ≠ '#')
  (behindAuthority? whole).getD whole

/-- The path of a target. -/
def path (target : String) : List Char := (reference target).takeWhile (· ≠ '?')

/-- The query of a target, if there is one. -/
def query? (target : String) : Option String :=
  match (reference target).dropWhile (· ≠ '?') with
  | _ :: query => some (String.ofList query)
  | [] => none

theorem behindAuthority?_slash (s : List Char) : behindAuthority? ('/' :: s) = none := by
  simp [behindAuthority?, isSchemeChar]

end SealedGateway.Target
