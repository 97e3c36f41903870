import SealedGateway.Bytes

/-!
# X25519

Diffie-Hellman on the Montgomery curve `y² = x³ + 486662 x² + x` over the integers modulo
`2 ^ 255 - 19`, with points given by their `x` coordinate in projective form.

- **`scalarMult`**: the key agreement function on octet strings. A scalar is clamped, and the top
  bit of a coordinate is ignored; coordinates that are not reduced are taken modulo the prime.
- **`publicKey`**: the multiple of the base point.
-/

namespace SealedGateway.Curve25519

/-- The prime of the field. -/
def prime : Nat := Nat.pow 2 255 - 19

/-- `(486662 - 2) / 4`, the constant of the doubling formula. -/
def a24 : Nat := 121665

def add (a b : Nat) : Nat := (a + b) % prime
def sub (a b : Nat) : Nat := (a + (prime - b)) % prime
def mul (a b : Nat) : Nat := a * b % prime

/-- The `n` low bits of `k`, highest first. -/
def bits (n k : Nat) : List Bool := (List.range n).reverse.map k.testBit

/-- The power of `a` whose exponent has the given bits. -/
def power (a : Nat) (exponent : List Bool) : Nat :=
  exponent.foldl (fun r b => let r := mul r r; if b then mul r a else r) 1

/-- The inverse of a non-zero element, by Fermat's little theorem; zero for zero. -/
def inverse (a : Nat) : Nat := power a (bits 255 (prime - 2))

/-- An `x` coordinate as the quotient `x / z`. -/
structure Point where
  x : Nat
  z : Nat
  deriving DecidableEq, Repr

/-- One step of the ladder for the base coordinate `u`: from `n P` and `(n + 1) P` to `2 n P` and
`(2 n + 1) P`. -/
def doubleAndAdd (u : Nat) (p q : Point) : Point × Point :=
  let a := add p.x p.z
  let b := sub p.x p.z
  let aa := mul a a
  let bb := mul b b
  let e := sub aa bb
  let da := mul (sub q.x q.z) a
  let cb := mul (add q.x q.z) b
  let s := add da cb
  let d := sub da cb
  (⟨mul aa bb, mul e (add aa (mul a24 e))⟩, ⟨mul s s, mul u (mul d d)⟩)

/-- The ladder step for one bit: a set bit moves on from `n + 1`. -/
def ladderStep (u : Nat) (s : Point × Point) (bit : Bool) : Point × Point :=
  if bit then
    let (p, q) := doubleAndAdd u s.2 s.1
    (q, p)
  else doubleAndAdd u s.1 s.2

/-- The `x` coordinate of `k` times the point with `x` coordinate `u`. -/
def multiply (k u : Nat) : Nat :=
  let (p, _) := (bits 255 k).foldl (ladderStep u) (⟨1, 0⟩, ⟨u, 1⟩)
  mul p.x (inverse p.z)

/-! ## Octet strings -/

/-- The natural whose octets are `b`, least significant first. -/
def ofLittleEndian (b : Bytes) : Nat := b.foldr (fun x n => x.toNat + 256 * n) 0

/-- The `n` low octets of `v`, least significant first. -/
def toLittleEndian (n v : Nat) : Octets n :=
  ⟨(List.range n).map fun i => UInt8.ofNat (v >>> (8 * i)), by simp⟩

/-- A scalar with its lowest three bits cleared and its highest bit, bit 254, set. -/
def clamp (k : Nat) : Nat := k % Nat.pow 2 254 / 8 * 8 + Nat.pow 2 254

/-- The key agreement function. -/
def scalarMult (secret peer : Octets 32) : Octets 32 :=
  toLittleEndian 32
    (multiply (clamp (ofLittleEndian secret.toBytes))
      (ofLittleEndian peer.toBytes % Nat.pow 2 255 % prime))

/-- The coordinate of the base point. -/
def basePoint : Octets 32 := toLittleEndian 32 9

/-- The public key of a secret. -/
def publicKey (secret : Octets 32) : Octets 32 := scalarMult secret basePoint

end SealedGateway.Curve25519
