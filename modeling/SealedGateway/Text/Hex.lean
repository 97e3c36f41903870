import SealedGateway.Bytes

/-!
# Hexadecimal text

Octets written as two lower-case hexadecimal digits each: the spelling of fingerprints and of
generated connection identifiers.
-/

namespace SealedGateway.Hex

/-- The lower-case hexadecimal digit of a value below sixteen. -/
def digit (v : Nat) : Char :=
  if v < 10 then Char.ofNat (0x30 + v) else Char.ofNat (0x61 + (v - 10))

/-- Two digits an octet, high half first. -/
def encode (b : Bytes) : String :=
  String.ofList (b.flatMap fun x => [digit (x.toNat / 16), digit (x.toNat % 16)])

end SealedGateway.Hex
