import SealedGateway.Number.Shortest
import SealedGateway.Text.Ascii
import SealedGateway.Bytes

/-!
# JSON numbers

A number is read in two steps: its **lexeme** (the grammar of numbers, which is all that matters
where a value is skipped) and the **value** that is kept. Integers of at most 64 bits are kept
exactly; any other number is a binary64 value, and one beyond the finite binary64 values is no
value at all.

The digits of a binary64 value are gathered into a natural of 64 bits before they are scaled;
digits behind the point are gathered as long as they fit, and so count only then.
-/

namespace SealedGateway.Json

/-- A number as it is kept. -/
inductive Number where
  | integer (i : Int)
  | binary (negative : Bool) (magnitude : Binary64)
  deriving DecidableEq, Repr, Inhabited

namespace Number

/-- A number as it is spelled. Digits are ASCII octets. -/
structure Lexeme where
  negative : Bool
  whole : Bytes
  fraction : Option Bytes
  exponent : Option (Bool × Bytes)
  deriving DecidableEq, Repr

/-- The digits in front of `s`, and the rest. -/
def digits (s : Bytes) : Bytes × Bytes := s.span Ascii.isDigit

/-- At least one digit. -/
def digits1? (s : Bytes) : Option (Bytes × Bytes) :=
  match digits s with
  | ([], _) => none
  | (ds, r) => some (ds, r)

/-- The whole part: a zero alone, or digits that start with another one. -/
def whole? : Bytes → Option (Bytes × Bytes)
  | [] => none
  | c :: r =>
    if c = Ascii.zero then
      match r with
      | d :: _ => if Ascii.isDigit d then none else some ([c], r)
      | [] => some ([c], [])
    else digits1? (c :: r)

/-- The fraction, if a point follows. -/
def fraction? : Bytes → Option (Option Bytes × Bytes)
  | Ascii.dot :: r => (digits1? r).map fun (ds, r) => (some ds, r)
  | s => some (none, s)

/-- The sign of an exponent: `true` for a minus. -/
def exponentSign : Bytes → Bool × Bytes
  | Ascii.plus :: r => (false, r)
  | Ascii.minus :: r => (true, r)
  | s => (false, s)

/-- The exponent, if an `e` follows. -/
def exponent? : Bytes → Option (Option (Bool × Bytes) × Bytes)
  | [] => some (none, [])
  | c :: r =>
    if c = Ascii.lowerE ∨ c = Ascii.upperE then
      let (negative, r) := exponentSign r
      (digits1? r).map fun (ds, r) => (some (negative, ds), r)
    else some (none, c :: r)

/-- The number without its sign. -/
def unsigned? (negative : Bool) (s : Bytes) : Option (Lexeme × Bytes) := do
  let (w, s) ← whole? s
  let (f, s) ← fraction? s
  let (e, s) ← exponent? s
  return (⟨negative, w, f, e⟩, s)

/-- The number in front of `s`, and the rest. -/
def lexeme? : Bytes → Option (Lexeme × Bytes)
  | Ascii.minus :: r => unsigned? true r
  | s => unsigned? false s

/-- The value of digits, most significant first. -/
def natural (ds : Bytes) : Nat := ds.foldl (fun n d => 10 * n + Ascii.digitValue d) 0

/-- Gathers digits into `n` as long as the result fits 64 bits; the digits that are left over. -/
def gather (n : Nat) : Bytes → Nat × Bytes
  | [] => (n, [])
  | d :: ds =>
    let m := 10 * n + Ascii.digitValue d
    if m < Nat.pow 2 64 then gather m ds else (n, d :: ds)

/-- The value of a lexeme, if it is within the finite binary64 values. -/
def Lexeme.value? (l : Lexeme) : Option Number :=
  let (n, excess) := gather 0 l.whole
  if excess = [] ∧ l.fraction = none ∧ l.exponent = none ∧
      (l.negative = false ∨ 0 < n ∧ n ≤ Nat.pow 2 63) then
    some (.integer (if l.negative then -n else n))
  else
    let ds := l.fraction.getD []
    let (n, unread) := gather n ds
    let power : Int := excess.length - (ds.length - unread.length : Nat)
    let power := match l.exponent with
      | some (true, e) => power - natural e
      | some (false, e) => power + natural e
      | none => power
    (Binary64.scaleTen? n power).map (.binary l.negative)

/-- The text of a number. -/
def text : Number → String
  | .integer i => toString i
  | .binary negative m => (if negative then "-" else "") ++ m.decimalText

end Number

end SealedGateway.Json
