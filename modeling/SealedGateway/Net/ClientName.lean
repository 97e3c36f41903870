import SealedGateway.Text.Split

/-!
# The name that a client asks for

A client can name itself with the parameter `user` of the query of its upgrade request. The first
such parameter counts, and only if its value is a safe name: one to 128 characters that mean nothing
in a path, a query or a log (**`ClientName.ofQuery?`**).
-/

namespace SealedGateway.ClientName

/-- The longest name. -/
def maxLength : Nat := 128

/-- Whether a character can occur in a name. -/
def allows (c : Char) : Bool :=
  c.isAlphanum || c = '_' || c = '.' || c = ':' || c = '@' || c = '-'

/-- Whether a text is a name. -/
def isValid (name : List Char) : Bool :=
  !name.isEmpty && name.length ≤ maxLength && name.all allows

/-- The value of the first parameter `user` of a query. -/
def requested? (query : String) : Option (List Char) :=
  (split '&' query.toList).findSome? fun pair => "user=".toList.isPrefixOf? pair

/-- The name that a query asks for, if it is a safe one. -/
def ofQuery? (query : Option String) : Option String := do
  let name ← requested? (← query)
  if isValid name then some (String.ofList name) else none

end SealedGateway.ClientName
