import SealedGateway.Text.Utf8
import SealedGateway.Text.Ascii

/-!
# Base64

The standard alphabet with required padding and zero trailing bits. Three octets are one group of
four symbols; the last group may stand for one or two octets, and is then filled with `=`.

- **`encode`** writes octets as text, **`decode`** reads them back.
- **`Error`** names the first fault of a text that is not the encoding of any octets. The order of
  the checks is part of the format: a stray last octet, then the symbols of the full groups from
  the left, then the last group (its symbols, the amount of them, its padding, its unused bits).
-/

namespace SealedGateway.Base64

/-- Why a text is not Base64. Offsets count octets of the text from zero. -/
inductive Error where
  | invalidSymbol (symbol : UInt8) (offset : Nat)
  | invalidLength (length : Nat)
  | invalidLastSymbol (symbol : UInt8) (offset : Nat)
  | invalidPadding
  deriving DecidableEq, Repr

/-- The wording of a fault. -/
def Error.message : Error → String
  | .invalidSymbol b o => "Invalid symbol " ++ toString b.toNat ++ ", offset " ++ toString o ++ "."
  | .invalidLength n => "Invalid input length: " ++ toString n
  | .invalidLastSymbol b o =>
    "Invalid last symbol " ++ toString b.toNat ++ ", offset " ++ toString o ++ "."
  | .invalidPadding => "Invalid padding"

/-! ## Symbols -/

/-- The symbol of a value below 64. -/
def symbol (v : Nat) : Char :=
  if v < 26 then Char.ofNat (0x41 + v)
  else if v < 52 then Char.ofNat (0x61 + (v - 26))
  else if v < 62 then Char.ofNat (0x30 + (v - 52))
  else if v = 62 then '+' else '/'

/-- The value of a symbol, if the octet is one. -/
def value? (b : UInt8) : Option Nat :=
  if 0x41 ≤ b ∧ b ≤ 0x5A then some (b.toNat - 0x41)
  else if 0x61 ≤ b ∧ b ≤ 0x7A then some (b.toNat - 0x61 + 26)
  else if 0x30 ≤ b ∧ b ≤ 0x39 then some (b.toNat - 0x30 + 52)
  else if b = 0x2B then some 62
  else if b = 0x2F then some 63
  else none

/-! ## Writing -/

/-- The four symbols of a full group. -/
def group (a b c : UInt8) : List Char :=
  let v := a.toNat * 65536 + b.toNat * 256 + c.toNat
  [symbol (v / 262144), symbol (v / 4096 % 64), symbol (v / 64 % 64), symbol (v % 64)]

/-- The symbols of `b`, put before the reversed symbols `done`: the result is reversed too. -/
def encodeOnto (done : List Char) : Bytes → List Char
  | a :: b :: c :: r => encodeOnto ((group a b c).reverse ++ done) r
  | [a, b] =>
    let v := a.toNat * 256 + b.toNat
    '=' :: symbol (v % 16 * 4) :: symbol (v / 16 % 64) :: symbol (v / 1024) :: done
  | [a] => '=' :: '=' :: symbol (a.toNat % 4 * 16) :: symbol (a.toNat / 4) :: done
  | [] => done

/-- The Base64 text of `b`. -/
def encode (b : Bytes) : String := String.ofList (encodeOnto [] b).reverse

/-! ## Reading -/

/-- The value of the symbol at `offset`. -/
def valueAt (offset : Nat) (b : UInt8) : Except Error Nat :=
  match value? b with
  | some v => .ok v
  | none => .error (.invalidSymbol b offset)

/-- The octets of full groups that start at `offset`, put before the reversed octets `done`. -/
def decodeGroups (offset : Nat) (done : Bytes) : Bytes → Except Error Bytes
  | a :: b :: c :: d :: r => do
    let va ← valueAt offset a
    let vb ← valueAt (offset + 1) b
    let vc ← valueAt (offset + 2) c
    let vd ← valueAt (offset + 3) d
    let v := va * 262144 + vb * 4096 + vc * 64 + vd
    decodeGroups (offset + 4)
      (UInt8.ofNat v :: UInt8.ofNat (v / 256) :: UInt8.ofNat (v / 65536) :: done) r
  | _ => .ok done.reverse

/-- The last group, read from the left: its symbols with their values, latest first, and the
number of `=` after them. -/
structure LastGroup where
  symbols : List (UInt8 × Nat)
  padding : Nat

/-- Reads the last group, whose first octet stands at `offset`; `read` counts the octets before
`r`. -/
def lastGroup (offset : Nat) (read : Nat) (g : LastGroup) : Bytes → Except Error LastGroup
  | [] => .ok g
  | b :: r =>
    if b = Ascii.equals then
      if read < 2 then .error (.invalidSymbol b (offset + read))
      else lastGroup offset (read + 1) { g with padding := g.padding + 1 } r
    else if g.padding ≠ 0 then
      .error (.invalidSymbol Ascii.equals (offset + g.symbols.length))
    else do
      let v ← valueAt (offset + read) b
      lastGroup offset (read + 1) { g with symbols := (b, v) :: g.symbols } r

/-- The octets of the last group: its symbols and padding fill a group of four, and the bits that
no octet takes are zero. -/
def LastGroup.octets (offset : Nat) (g : LastGroup) : Except Error Bytes :=
  if (g.symbols.length + g.padding) % 4 ≠ 0 then .error .invalidPadding
  else
    match g.symbols with
    | [(_, d), (_, c), (_, b), (_, a)] =>
      let v := a * 262144 + b * 4096 + c * 64 + d
      .ok [UInt8.ofNat (v / 65536), UInt8.ofNat (v / 256), UInt8.ofNat v]
    | [(s, c), (_, b), (_, a)] =>
      if c % 4 ≠ 0 then .error (.invalidLastSymbol s (offset + 2))
      else
        let v := a * 1024 + b * 16 + c / 4
        .ok [UInt8.ofNat (v / 256), UInt8.ofNat v]
    | [(s, b), (_, a)] =>
      if b % 16 ≠ 0 then .error (.invalidLastSymbol s (offset + 1))
      else .ok [UInt8.ofNat (a * 4 + b / 16)]
    | _ => .ok []

/-- Where the last group of a text of `n` octets starts. -/
def lastGroupOffset (n : Nat) : Nat :=
  if n % 4 = 0 then n - 4 else n - n % 4

/-- A single octet behind full groups that is no symbol is reported before all other faults. -/
def strayLast (s : Bytes) : Except Error Unit :=
  match s.getLast? with
  | some b =>
    if s.length % 4 = 1 ∧ b ≠ Ascii.equals ∧ value? b = none then
      .error (.invalidSymbol b (s.length - 1))
    else .ok ()
  | none => .ok ()

/-- The octets that the octets of a Base64 text stand for. -/
def decodeOctets (s : Bytes) : Except Error Bytes := do
  strayLast s
  let offset := lastGroupOffset s.length
  let full ← decodeGroups 0 [] (s.take offset)
  let g ← lastGroup offset 0 ⟨[], 0⟩ (s.drop offset)
  if s ≠ [] ∧ g.symbols.length < 2 then
    throw (.invalidLength (offset + g.symbols.length))
  let rest ← g.octets offset
  return full ++ rest

/-- The octets that a Base64 text stands for, or its first fault. -/
def decode (s : String) : Except Error Bytes := decodeOctets (Utf8.encode s)

end SealedGateway.Base64
