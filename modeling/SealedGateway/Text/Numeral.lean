/-!
# Numerals

Numbers as digits of a radix, for readers of text formats.

**`Numeral.leading?`** splits off the longest run of digits and gives its value; there is no sign
and no separator.
-/

namespace SealedGateway.Numeral

/-- The value of a digit of the radix, letters of either case counting from ten. -/
def digit? (radix : Nat) (c : Char) : Option Nat :=
  let value :=
    if '0' ≤ c ∧ c ≤ '9' then c.toNat - '0'.toNat
    else if 'a' ≤ c ∧ c ≤ 'z' then c.toNat - 'a'.toNat + 10
    else if 'A' ≤ c ∧ c ≤ 'Z' then c.toNat - 'A'.toNat + 10
    else radix
  if value < radix then some value else none

/-- Whether a character is a digit of the radix. -/
def isDigit (radix : Nat) (c : Char) : Bool := (digit? radix c).isSome

/-- The value of a run of digits, the highest first. -/
def value (radix : Nat) (digits : List Char) : Nat :=
  digits.foldl (fun n c => n * radix + (digit? radix c).getD 0) 0

/-- The value of the longest run of digits at the start of a text, which has at least one, and the
rest of the text. -/
def leading? (radix : Nat) (s : List Char) : Option (Nat × List Char) :=
  let digits := s.takeWhile (isDigit radix)
  if digits.isEmpty then none else some (value radix digits, s.dropWhile (isDigit radix))

/-- The value of a text of digits only. -/
def whole? (radix : Nat) (s : List Char) : Option Nat :=
  match leading? radix s with
  | some (n, []) => some n
  | _ => none

end SealedGateway.Numeral
