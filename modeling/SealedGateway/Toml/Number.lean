import SealedGateway.Toml.Basic
import SealedGateway.Text.Numeral

/-!
# Numbers and dates in TOML documents

Integers of 64 bits, floats, dates and times. Underscores can stand between two digits. A float is
kept as it is written; one above the finite binary64 values is refused (**`overflows`**).
-/

namespace SealedGateway.Toml

/-- The text of `s` in front of its end `rest`. -/
def consumed (s rest : List Char) : String := String.ofList (s.take (s.length - rest.length))

/-! ## Digits -/

/-- The digits behind a first one, without the underscores between them. -/
def moreDigits? (radix : Nat) : List Char → Option (List Char × List Char)
  | [] => some ([], [])
  | '_' :: c :: s =>
    if Numeral.isDigit radix c then (moreDigits? radix s).map fun (ds, s) => (c :: ds, s) else none
  | ['_'] => none
  | c :: s =>
    if Numeral.isDigit radix c then (moreDigits? radix s).map fun (ds, s) => (c :: ds, s)
    else some ([], c :: s)

/-- At least one digit. -/
def digits? (radix : Nat) : List Char → Option (List Char × List Char)
  | [] => none
  | c :: s =>
    if Numeral.isDigit radix c then (moreDigits? radix s).map fun (ds, s) => (c :: ds, s) else none

/-- A sign, and whether it is a minus. -/
def sign : List Char → Bool × List Char
  | '-' :: s => (true, s)
  | '+' :: s => (false, s)
  | s => (false, s)

/-- The digits of a decimal integer, which has no leading zeros. -/
def wholeDigits? : List Char → Option (List Char × List Char)
  | '0' :: s => some (['0'], s)
  | s => digits? 10 s

/-! ## Integers -/

/-- The integer of 64 bits with the given sign and magnitude. -/
def int64? (negative : Bool) (magnitude : Nat) : Option Int :=
  if negative then if magnitude ≤ Nat.pow 2 63 then some (-(magnitude : Int)) else none
  else if magnitude < Nat.pow 2 63 then some magnitude else none

/-- An integer of a radix without a sign. -/
def radixInteger? (radix : Nat) (s : List Char) : Option (Toml × List Char) := do
  let (ds, s) ← digits? radix s
  return (.integer (← int64? false (Numeral.value radix ds)), s)

/-- An integer. -/
def integer? : List Char → Option (Toml × List Char)
  | '0' :: 'x' :: s => radixInteger? 16 s
  | '0' :: 'o' :: s => radixInteger? 8 s
  | '0' :: 'b' :: s => radixInteger? 2 s
  | s => do
    let (negative, s) := sign s
    let (ds, s) ← wholeDigits? s
    return (.integer (← int64? negative (Numeral.value 10 ds)), s)

/-! ## Floats -/

/-- The least number that is nearer to the power of two above the finite binary64 values than to
the largest of them, or as near. -/
def binary64Bound : Nat := Nat.pow 2 1024 - Nat.pow 2 970

/-- Whether a number rounds to more than the finite binary64 values. It is made of the digits `ds`,
as an integer, times ten to the power of `exponent`. -/
def overflows (ds : List Char) (exponent : Int) : Bool :=
  let ds := ds.dropWhile (· = '0')
  let places := (ds.length : Int) + exponent
  if ds.isEmpty || places < 309 then false
  else if 309 < places then true
  else
    let n := Numeral.value 10 ds
    if 0 ≤ exponent then binary64Bound ≤ n * Nat.pow 10 exponent.toNat
    else binary64Bound * Nat.pow 10 (-exponent).toNat ≤ n

/-- The exponent of a float: whether it is negative, and its digits. -/
def exponent? : List Char → Option ((Bool × List Char) × List Char)
  | c :: s =>
    if c = 'e' || c = 'E' then do
      let (negative, s) := sign s
      let (ds, s) ← digits? 10 s
      return ((negative, ds), s)
    else none
  | [] => none

/-- Whether an exponent may follow here. -/
def atExponent (s : List Char) : Bool := s.head? = some 'e' || s.head? = some 'E'

/-- The value of an exponent. -/
def exponentValue (negative : Bool) (ds : List Char) : Int :=
  if negative then -(Numeral.value 10 ds : Int) else Numeral.value 10 ds

/-- The digits behind the point, if there is one. -/
def fraction? : List Char → Option (List Char × List Char)
  | '.' :: s => digits? 10 s
  | s => some ([], s)

/-- A float with a point, an exponent or both. -/
def decimal? (s : List Char) : Option (Toml × List Char) := do
  let (negative, unsigned) := sign s
  let (whole, afterWhole) ← wholeDigits? unsigned
  let (fraction, afterFraction) ← fraction? afterWhole
  if fraction.isEmpty && !atExponent afterFraction then none
  let ((down, places), rest) ←
    if atExponent afterFraction then exponent? afterFraction
    else some ((false, ['0']), afterFraction)
  let exponent := exponentValue down places - fraction.length
  if !negative && overflows (whole ++ fraction) exponent then none
  return (.float (consumed s rest), rest)

/-- Infinity and the value that is no number. -/
def special? (s : List Char) : Option (Toml × List Char) :=
  match (sign s).2 with
  | 'i' :: 'n' :: 'f' :: rest => some (.float (consumed s rest), rest)
  | 'n' :: 'a' :: 'n' :: rest => some (.float (consumed s rest), rest)
  | _ => none

/-! ## Dates and times -/

/-- A number of exactly `count` digits within bounds. -/
def fixed? (count low high : Nat) (s : List Char) : Option (Nat × List Char) := do
  let n ← if (s.take count).length = count then Numeral.whole? 10 (s.take count) else none
  if low ≤ n ∧ n ≤ high then some (n, s.drop count) else none

/-- One given character. -/
def mark? (c : Char) : List Char → Option (List Char)
  | x :: s => if x = c then some s else none
  | [] => none

/-- The number of days of a month. -/
def daysOf (year month : Nat) : Nat :=
  let leap := year % 4 = 0 ∧ (year % 100 ≠ 0 ∨ year % 400 = 0)
  if month = 2 then if leap then 29 else 28
  else if month = 4 ∨ month = 6 ∨ month = 9 ∨ month = 11 then 30
  else 31

/-- The text behind a date. -/
def date? (s : List Char) : Option (List Char) := do
  let (year, s) ← fixed? 4 0 9999 s
  let (month, s) ← fixed? 2 1 12 (← mark? '-' s)
  let (_, s) ← fixed? 2 1 (daysOf year month) (← mark? '-' s)
  return s

/-- The text behind the fraction of a second, if there is one. -/
def skipFraction : List Char → List Char
  | '.' :: s =>
    if (s.head?.map (Numeral.isDigit 10)) = some true then s.dropWhile (Numeral.isDigit 10)
    else '.' :: s
  | s => s

/-- The text behind a time of day. A minute can have 61 seconds. -/
def time? (s : List Char) : Option (List Char) := do
  let (_, s) ← fixed? 2 0 23 s
  let (_, s) ← fixed? 2 0 59 (← mark? ':' s)
  let (_, s) ← fixed? 2 0 60 (← mark? ':' s)
  return skipFraction s

/-- The text behind the offset of a time zone, if there is one. -/
def skipOffset? : List Char → Option (List Char)
  | c :: s =>
    if c = 'Z' || c = 'z' then some s
    else if c = '+' || c = '-' then do
      let (_, s) ← fixed? 2 0 23 s
      let (_, s) ← fixed? 2 0 59 (← mark? ':' s)
      return s
    else some (c :: s)
  | [] => some []

/-- The text behind a time that follows a date, if one does. -/
def skipTimeOfDate? : List Char → Option (List Char)
  | c :: s =>
    if c = 'T' || c = 't' || c = ' ' then
      match time? s with
      | some rest => skipOffset? rest
      | none => some (c :: s)
    else some (c :: s)
  | [] => some []

/-- A date, with or without a time, or a time. -/
def datetime? (s : List Char) : Option (Toml × List Char) := do
  let rest ← (date? s >>= skipTimeOfDate?) <|> time? s
  return (.datetime (consumed s rest), rest)

/-- A number, a date or a time. -/
def number? (s : List Char) : Option (Toml × List Char) :=
  datetime? s <|> decimal? s <|> special? s <|> integer? s

end SealedGateway.Toml
