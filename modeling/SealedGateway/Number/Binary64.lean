/-!
# Binary floating-point magnitudes

A finite non-negative binary64 value is `mantissa * 2 ^ exponent` with a mantissa below `2 ^ 53`.
All arithmetic here is exact on naturals with one rounding at the end (`ofRatio?`, half to even),
so statements about it need no opaque operation.

- **`ofRatio?`**: the binary64 value nearest to a quotient, or nothing where that overflows.
- **`mul?`, `div?`**: product and quotient, each rounded once.
- **`scaleTen?`**: a natural times a power of ten, computed the usual way in binary64: the natural
  and the power are each rounded, then their product or quotient is.
-/

namespace SealedGateway

/-- A finite non-negative binary64 value. -/
structure Binary64 where
  mantissa : Nat
  exponent : Int
  deriving DecidableEq, Repr, Inhabited

namespace Binary64

/-- The least exponent: that of the subnormal values. -/
def minExponent : Int := -1074

/-- The greatest exponent of a finite value. -/
def maxExponent : Int := 971

/-- The quotient rounded to the nearest natural, a half to the even one. -/
def roundQuotient (num den : Nat) : Nat :=
  let q := num / den
  let r := num % den
  if 2 * r < den then q
  else if den < 2 * r then q + 1
  else if q % 2 = 0 then q else q + 1

/-- `num / den` in units of `2 ^ e`, as a numerator and a denominator. -/
def inUnits (num den : Nat) (e : Int) : Nat × Nat :=
  (num * Nat.pow 2 (-e).toNat, den * Nat.pow 2 e.toNat)

/-- The value nearest to `num / den`; `none` where the rounded value is beyond the finite ones. -/
def ofRatio? (num den : Nat) : Option Binary64 :=
  if num = 0 then some ⟨0, minExponent⟩
  else
    let rough := max minExponent ((num.log2 : Int) - den.log2 - 53)
    let (n, d) := inUnits num den rough
    let e := if Nat.pow 2 53 ≤ n / d then rough + 1 else rough
    let (n, d) := inUnits num den e
    let m := roundQuotient n d
    let v : Binary64 := if m = Nat.pow 2 53 then ⟨Nat.pow 2 52, e + 1⟩ else ⟨m, e⟩
    if maxExponent < v.exponent then none else some v

/-- The value nearest to a natural. -/
def ofNat? (n : Nat) : Option Binary64 := ofRatio? n 1

/-- The exact value as a numerator and a denominator. -/
def toRatio (v : Binary64) : Nat × Nat :=
  (v.mantissa * Nat.pow 2 v.exponent.toNat, Nat.pow 2 (-v.exponent).toNat)

/-- The rounded product. -/
def mul? (a b : Binary64) : Option Binary64 :=
  let (an, ad) := a.toRatio
  let (bn, bd) := b.toRatio
  ofRatio? (an * bn) (ad * bd)

/-- The rounded quotient by a value that is not zero. -/
def div? (a b : Binary64) : Option Binary64 :=
  let (an, ad) := a.toRatio
  let (bn, bd) := b.toRatio
  ofRatio? (an * bd) (ad * bn)

/-- The greatest power of ten that is finite. -/
def maxPowerOfTen : Nat := 308

/-- The power of ten with a natural exponent, rounded. -/
def powerOfTen? (k : Nat) : Option Binary64 := ofNat? (Nat.pow 10 k)

/-- Divides by the greatest finite power of ten `n` times, or until the value is zero. -/
def divideOut (a : Binary64) : Nat → Option Binary64
  | 0 => some a
  | n + 1 =>
    if a.mantissa = 0 then some a
    else do divideOut (← div? a (← powerOfTen? maxPowerOfTen)) n

/-- `a * 10 ^ e`. A power beyond the finite ones overflows; the inverse of one is divided out
`10 ^ 308` at a time until the rest of it is finite. -/
def timesPowerOfTen? (a : Binary64) (e : Int) : Option Binary64 :=
  if a.mantissa = 0 then some a
  else if 0 ≤ e then
    if maxPowerOfTen < e.toNat then none else do mul? a (← powerOfTen? e.toNat)
  else
    let d := (-e).toNat
    let steps := (d - 1) / maxPowerOfTen
    do div? (← divideOut a steps) (← powerOfTen? (d - steps * maxPowerOfTen))

/-- `n * 10 ^ e` for a natural `n`. -/
def scaleTen? (n : Nat) (e : Int) : Option Binary64 := do timesPowerOfTen? (← ofNat? n) e

end Binary64

end SealedGateway
