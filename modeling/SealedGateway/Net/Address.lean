import SealedGateway.Text.Numeral
import SealedGateway.Failure

/-!
# Socket addresses

An IP address and the number of a TCP port, and their text.

- **`Host.read?`** reads dotted IPv4, whose numbers have no leading zeros, and IPv6 in brackets.
  There `::` stands for at least one group of zeros, the last two groups can be a dotted address,
  and a numeric scope can follow.
- **`Host.text`** writes IPv6 in the short form: the longest run of at least two zero groups, the
  first of several, becomes `::`.
- **`SocketAddr.listen`** joins a configured host and a port, and reads the result.
-/

namespace SealedGateway

/-- An IPv4 address. -/
structure Ipv4 where
  a : UInt8
  b : UInt8
  c : UInt8
  d : UInt8
  deriving DecidableEq, Repr

/-- An IPv6 address: eight groups of sixteen bits. -/
structure Ipv6 where
  groups : List UInt16
  length_eq : groups.length = 8
  deriving DecidableEq, Repr

/-- An address that a socket can have; IPv6 comes with the number of its scope. -/
inductive Host where
  | v4 (ip : Ipv4)
  | v6 (ip : Ipv6) (scope : UInt32)
  deriving DecidableEq, Repr

/-- An address and a port. -/
structure SocketAddr where
  host : Host
  port : UInt16
  deriving DecidableEq, Repr

/-! ## Reading

A reader takes what it can from the start of a text and gives the rest back. -/

/-- One given character. -/
def readChar? (c : Char) : List Char → Option (List Char)
  | x :: rest => if x = c then some rest else none
  | [] => none

namespace Ipv4

/-- A number below 256 without leading zeros. -/
def readOctet? (s : List Char) : Option (UInt8 × List Char) := do
  let (n, rest) ← Numeral.leading? 10 s
  let count := s.length - rest.length
  if 3 < count || (1 < count && s.head? = some '0') || 255 < n then none
  else some (UInt8.ofNat n, rest)

/-- Four numbers with dots between them. -/
def read? (s : List Char) : Option (Ipv4 × List Char) := do
  let (a, s) ← readOctet? s
  let (b, s) ← readOctet? (← readChar? '.' s)
  let (c, s) ← readOctet? (← readChar? '.' s)
  let (d, s) ← readOctet? (← readChar? '.' s)
  return (⟨a, b, c, d⟩, s)

/-- The dotted form. -/
def text (ip : Ipv4) : String :=
  ".".intercalate [toString ip.a, toString ip.b, toString ip.c, toString ip.d]

/-- The address as two groups of an IPv6 address. -/
def groups (ip : Ipv4) : List UInt16 :=
  [ip.a.toUInt16 * 256 + ip.b.toUInt16, ip.c.toUInt16 * 256 + ip.d.toUInt16]

end Ipv4

namespace Ipv6

/-- The address of eight groups. -/
def ofGroups? (groups : List UInt16) : Option Ipv6 :=
  if h : groups.length = 8 then some ⟨groups, h⟩ else none

/-- Up to four hexadecimal digits. -/
def readGroup? (s : List Char) : Option (UInt16 × List Char) := do
  let (n, rest) ← Numeral.leading? 16 s
  if 4 < s.length - rest.length then none else some (UInt16.ofNat n, rest)

/-- Skips the colon before a group that is not the first. -/
def skipSeparator? (first : Bool) (s : List Char) : Option (List Char) :=
  if first then some s else readChar? ':' s

/-- As many groups as there are, up to `limit`; a dotted address counts as two and is the last.
Gives the groups, whether a dotted address was among them, and the rest. -/
def readGroups (limit : Nat) (first : Bool) (s : List Char) : List UInt16 × Bool × List Char :=
  match limit with
  | 0 => ([], false, s)
  | n + 1 =>
    match skipSeparator? first s with
    | none => ([], false, s)
    | some r =>
      match if n = 0 then none else Ipv4.read? r with
      | some (ip, r) => (ip.groups, true, r)
      | none =>
        match readGroup? r with
        | none => ([], false, s)
        | some (g, r) =>
          let (gs, dotted, r) := readGroups n false r
          (g :: gs, dotted, r)

/-- Eight groups, or fewer around a `::`, which nothing dotted may precede. -/
def read? (s : List Char) : Option (Ipv6 × List Char) := do
  let (head, dotted, s) := readGroups 8 true s
  if head.length = 8 then return (← ofGroups? head, s)
  if dotted then none
  let s ← readChar? ':' (← readChar? ':' s)
  let (tail, _, s) := readGroups (7 - head.length) true s
  let zeros := List.replicate (8 - (head.length + tail.length)) 0
  return (← ofGroups? (head ++ zeros ++ tail), s)

/-- The first of the longest runs of zero groups, as its position and length. The groups are those
from position `index` on, `run` ends there, and `best` is the answer so far. -/
def longestZeros (index : Nat) (run best : Nat × Nat) : List UInt16 → Nat × Nat
  | [] => best
  | g :: gs =>
    if g = 0 then
      let run := if run.2 = 0 then (index, 1) else (run.1, run.2 + 1)
      longestZeros (index + 1) run (if best.2 < run.2 then run else best) gs
    else longestZeros (index + 1) (0, 0) best gs

/-- Groups in hexadecimal without leading zeros, colons between them. -/
def groupsText (groups : List UInt16) : String :=
  ":".intercalate (groups.map fun g => String.ofList (Nat.toDigits 16 g.toNat))

/-- The dotted address that an address stands for, if it is of the form `::ffff:a.b.c.d`. -/
def mapped? (ip : Ipv6) : Option Ipv4 :=
  match ip.groups with
  | [0, 0, 0, 0, 0, 0xFFFF, x, y] =>
    some ⟨(x / 256).toUInt8, x.toUInt8, (y / 256).toUInt8, y.toUInt8⟩
  | _ => none

/-- The short form. -/
def text (ip : Ipv6) : String :=
  match ip.mapped? with
  | some v4 => "::ffff:" ++ v4.text
  | none =>
    let (start, length) := longestZeros 0 (0, 0) (0, 0) ip.groups
    if 1 < length then
      groupsText (ip.groups.take start) ++ "::" ++ groupsText (ip.groups.drop (start + length))
    else groupsText ip.groups

end Ipv6

namespace Host

/-- The number of a scope. -/
def readScope? (s : List Char) : Option (UInt32 × List Char) := do
  let (n, s) ← Numeral.leading? 10 (← readChar? '%' s)
  if n < UInt32.size then return (UInt32.ofNat n, s) else none

/-- An IPv6 address in brackets; without a scope the scope is zero. -/
def readBracketed? (s : List Char) : Option (Host × List Char) := do
  let (ip, s) ← Ipv6.read? (← readChar? '[' s)
  let (scope, s) := (readScope? s).getD (0, s)
  return (v6 ip scope, ← readChar? ']' s)

/-- A host as it stands before a port. -/
def read? (s : List Char) : Option (Host × List Char) :=
  ((Ipv4.read? s).map fun (ip, s) => (v4 ip, s)) <|> readBracketed? s

/-- The text of the IP address alone. -/
def ipText : Host → String
  | v4 ip => ip.text
  | v6 ip _ => ip.text

/-- The text of a host before a port. -/
def text : Host → String
  | v4 ip => ip.text
  | v6 ip scope =>
    if scope = 0 then "[" ++ ip.text ++ "]" else "[" ++ ip.text ++ "%" ++ toString scope ++ "]"

/-- Whether the address is one of IPv6. -/
def isV6 : Host → Bool
  | v4 _ => false
  | v6 _ _ => true

end Host

namespace SocketAddr

/-- A colon and the number of a port. -/
def readPort? (s : List Char) : Option (UInt16 × List Char) := do
  let (n, s) ← Numeral.leading? 10 (← readChar? ':' s)
  if n < UInt16.size then return (UInt16.ofNat n, s) else none

/-- Reads the text of a socket address. -/
def parse? (s : String) : Option SocketAddr := do
  let (host, rest) ← Host.read? s.toList
  match ← readPort? rest with
  | (port, []) => return ⟨host, port⟩
  | _ => none

/-- The text of a socket address. -/
def text (a : SocketAddr) : String := a.host.text ++ ":" ++ toString a.port

/-- The address of a listener at a configured host. -/
def listen (host : String) (port : UInt16) : Except Failure SocketAddr :=
  let joined := host ++ ":" ++ toString port
  match parse? joined with
  | some a => .ok a
  | none => .error (.other ("invalid address " ++ joined ++ ": invalid socket address syntax"))

end SocketAddr

end SealedGateway
