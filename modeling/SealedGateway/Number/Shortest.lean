import SealedGateway.Number.Binary64

/-!
# Shortest decimal texts

The decimal text of a binary64 value with the fewest digits that read back as the value; of two
such texts the nearer one, and of two equally near ones the even one.

- **`Binary64.shortest`**: digits and power of ten.
- **`Binary64.decimalText`**: positional from `10 ^ -5` up to below `10 ^ 16`, with a fraction
  always, and in scientific notation beyond, where the power of ten has a sign always.
-/

namespace SealedGateway.Binary64

/-- Whether `t * 10 ^ k` lies between the midpoints to the neighbours of `v`, which themselves
read back as `v` exactly when its mantissa is even. -/
def readsBack (v : Binary64) (t : Nat) (k : Int) : Bool :=
  let lowGap := if v.mantissa = Nat.pow 2 52 ∧ minExponent < v.exponent then 1 else 2
  let unit := v.exponent - 2
  -- both sides in units of `2 ^ min(unit, 0) * 10 ^ min(k, 0)`
  let side := fun x : Nat => x * Nat.pow 2 unit.toNat * Nat.pow 10 (-k).toNat
  let point := t * Nat.pow 10 k.toNat * Nat.pow 2 (-unit).toNat
  let low := side (4 * v.mantissa - lowGap)
  let high := side (4 * v.mantissa + 2)
  if v.mantissa % 2 = 0 then low ≤ point && point ≤ high else low < point && point < high

/-- The least `p` with `v < 10 ^ p`, searched upwards from `p`. -/
def decimalPoint (num den : Nat) : Nat → Int → Int
  | 0, p => p
  | fuel + 1, p =>
    if num * Nat.pow 10 (-p).toNat < den * Nat.pow 10 p.toNat then p
    else decimalPoint num den fuel (p + 1)

/-- The first grid of at least `n` digits below `10 ^ p` with a point that reads back. -/
def firstGrid (v : Binary64) (num den : Nat) (p : Int) (n : Nat) : Nat → Nat × Int
  | 0 => (v.mantissa, 0)
  | fuel + 1 =>
    let k := p - n
    let sn := num * Nat.pow 10 (-k).toNat
    let sd := den * Nat.pow 10 k.toNat
    let below := sn / sd
    let nearest := roundQuotient sn sd
    let other := if nearest = below then below + 1 else below
    if v.readsBack nearest k then (nearest, k)
    else if v.readsBack other k then (other, k)
    else firstGrid v num den p (n + 1) fuel

/-- Moves the zeros at the end of `t` into the power of ten. -/
def stripZeros (t : Nat) (k : Int) : Nat × Int :=
  if h : t ≠ 0 ∧ t % 10 = 0 then stripZeros (t / 10) (k + 1) else (t, k)
termination_by t
decreasing_by omega

/-- Digits and power of ten of the shortest text of a value that is not zero. -/
def shortest (v : Binary64) : Nat × Int :=
  let (num, den) := v.toRatio
  let start := ((num.log2 : Int) - den.log2 - 1) * 30103 / 100000 - 1
  let p := decimalPoint num den 6 start
  let (t, k) := firstGrid v num den p 1 20
  stripZeros t k

/-- A power of ten in scientific notation, with its sign. -/
def powerText (power : Int) : List Char :=
  'e' :: (if power < 0 then '-' else '+') :: (toString power.natAbs).toList

/-- The decimal text of a value. -/
def decimalText (v : Binary64) : String :=
  if v.mantissa = 0 then "0.0"
  else
    let (t, k) := v.shortest
    let ds := Nat.toDigits 10 t
    let point := (ds.length : Int) + k
    let zeros := fun n : Int => List.replicate n.toNat '0'
    String.ofList <|
      if 0 ≤ k ∧ point ≤ 16 then ds ++ zeros k ++ ['.', '0']
      else if 0 < point ∧ point ≤ 16 then ds.take point.toNat ++ '.' :: ds.drop point.toNat
      else if -5 < point ∧ point ≤ 0 then '0' :: '.' :: zeros (-point) ++ ds
      else
        let power := powerText (point - 1)
        match ds with
        | [d] => d :: power
        | d :: r => d :: '.' :: r ++ power
        | [] => power

end SealedGateway.Binary64
