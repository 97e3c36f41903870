import SealedGateway.Bytes

/-!
# AES with a key of 256 bits

The block cipher, in the direction that a stream mode needs. A block is four columns of four
octets; a round substitutes each octet, shifts the rows, mixes the columns (all rounds but the
last) and adds a round key.
-/

namespace SealedGateway.Aes

/-- Four octets of a block or of a key. -/
structure Column where
  a : UInt8
  b : UInt8
  c : UInt8
  d : UInt8
  deriving DecidableEq, Repr

/-- A block of sixteen octets, column by column. -/
structure Block where
  c0 : Column
  c1 : Column
  c2 : Column
  c3 : Column
  deriving DecidableEq, Repr

/-! ## The steps of a round -/

set_option maxRecDepth 2000 in
/-- The substitution table. -/
def substitution : Vector UInt8 256 :=
  #v[0x63, 0x7C, 0x77, 0x7B, 0xF2, 0x6B, 0x6F, 0xC5, 0x30, 0x01, 0x67, 0x2B, 0xFE, 0xD7, 0xAB, 0x76,
    0xCA, 0x82, 0xC9, 0x7D, 0xFA, 0x59, 0x47, 0xF0, 0xAD, 0xD4, 0xA2, 0xAF, 0x9C, 0xA4, 0x72, 0xC0,
    0xB7, 0xFD, 0x93, 0x26, 0x36, 0x3F, 0xF7, 0xCC, 0x34, 0xA5, 0xE5, 0xF1, 0x71, 0xD8, 0x31, 0x15,
    0x04, 0xC7, 0x23, 0xC3, 0x18, 0x96, 0x05, 0x9A, 0x07, 0x12, 0x80, 0xE2, 0xEB, 0x27, 0xB2, 0x75,
    0x09, 0x83, 0x2C, 0x1A, 0x1B, 0x6E, 0x5A, 0xA0, 0x52, 0x3B, 0xD6, 0xB3, 0x29, 0xE3, 0x2F, 0x84,
    0x53, 0xD1, 0x00, 0xED, 0x20, 0xFC, 0xB1, 0x5B, 0x6A, 0xCB, 0xBE, 0x39, 0x4A, 0x4C, 0x58, 0xCF,
    0xD0, 0xEF, 0xAA, 0xFB, 0x43, 0x4D, 0x33, 0x85, 0x45, 0xF9, 0x02, 0x7F, 0x50, 0x3C, 0x9F, 0xA8,
    0x51, 0xA3, 0x40, 0x8F, 0x92, 0x9D, 0x38, 0xF5, 0xBC, 0xB6, 0xDA, 0x21, 0x10, 0xFF, 0xF3, 0xD2,
    0xCD, 0x0C, 0x13, 0xEC, 0x5F, 0x97, 0x44, 0x17, 0xC4, 0xA7, 0x7E, 0x3D, 0x64, 0x5D, 0x19, 0x73,
    0x60, 0x81, 0x4F, 0xDC, 0x22, 0x2A, 0x90, 0x88, 0x46, 0xEE, 0xB8, 0x14, 0xDE, 0x5E, 0x0B, 0xDB,
    0xE0, 0x32, 0x3A, 0x0A, 0x49, 0x06, 0x24, 0x5C, 0xC2, 0xD3, 0xAC, 0x62, 0x91, 0x95, 0xE4, 0x79,
    0xE7, 0xC8, 0x37, 0x6D, 0x8D, 0xD5, 0x4E, 0xA9, 0x6C, 0x56, 0xF4, 0xEA, 0x65, 0x7A, 0xAE, 0x08,
    0xBA, 0x78, 0x25, 0x2E, 0x1C, 0xA6, 0xB4, 0xC6, 0xE8, 0xDD, 0x74, 0x1F, 0x4B, 0xBD, 0x8B, 0x8A,
    0x70, 0x3E, 0xB5, 0x66, 0x48, 0x03, 0xF6, 0x0E, 0x61, 0x35, 0x57, 0xB9, 0x86, 0xC1, 0x1D, 0x9E,
    0xE1, 0xF8, 0x98, 0x11, 0x69, 0xD9, 0x8E, 0x94, 0x9B, 0x1E, 0x87, 0xE9, 0xCE, 0x55, 0x28, 0xDF,
    0x8C, 0xA1, 0x89, 0x0D, 0xBF, 0xE6, 0x42, 0x68, 0x41, 0x99, 0x2D, 0x0F, 0xB0, 0x54, 0xBB, 0x16]

/-- The substitute of an octet. -/
def substitute (x : UInt8) : UInt8 := substitution.get ⟨x.toNat, x.toNat_lt⟩

/-- Applies a function to each octet of a column. -/
def Column.map (f : UInt8 → UInt8) (w : Column) : Column := ⟨f w.a, f w.b, f w.c, f w.d⟩

/-- The sum of two columns. -/
def Column.add (w v : Column) : Column :=
  ⟨w.a ^^^ v.a, w.b ^^^ v.b, w.c ^^^ v.c, w.d ^^^ v.d⟩

/-- The sum of two blocks. -/
def Block.add (s t : Block) : Block :=
  ⟨s.c0.add t.c0, s.c1.add t.c1, s.c2.add t.c2, s.c3.add t.c3⟩

/-- Substitutes each octet. -/
def Block.substitute (s : Block) : Block :=
  ⟨s.c0.map Aes.substitute, s.c1.map Aes.substitute, s.c2.map Aes.substitute,
    s.c3.map Aes.substitute⟩

/-- Turns row `i` left by `i` columns. -/
def Block.shiftRows (s : Block) : Block :=
  ⟨⟨s.c0.a, s.c1.b, s.c2.c, s.c3.d⟩, ⟨s.c1.a, s.c2.b, s.c3.c, s.c0.d⟩,
    ⟨s.c2.a, s.c3.b, s.c0.c, s.c1.d⟩, ⟨s.c3.a, s.c0.b, s.c1.c, s.c2.d⟩⟩

/-- Twice an octet in the field of 256 elements. -/
def double (x : UInt8) : UInt8 := (x <<< 1) ^^^ (if x < 0x80 then 0 else 0x1B)

/-- Multiplies a column by the circulant matrix of 2, 3, 1, 1. -/
def Column.mix (w : Column) : Column :=
  let all := w.a ^^^ w.b ^^^ w.c ^^^ w.d
  ⟨w.a ^^^ all ^^^ double (w.a ^^^ w.b), w.b ^^^ all ^^^ double (w.b ^^^ w.c),
    w.c ^^^ all ^^^ double (w.c ^^^ w.d), w.d ^^^ all ^^^ double (w.d ^^^ w.a)⟩

/-- Mixes each column. -/
def Block.mixColumns (s : Block) : Block := ⟨s.c0.mix, s.c1.mix, s.c2.mix, s.c3.mix⟩

/-! ## Keys -/

/-- Eight columns of the key schedule, as two blocks. -/
structure KeyGroup where
  low : Block
  high : Block
  deriving DecidableEq, Repr

/-- The column with its octets turned by one. -/
def Column.rotate (w : Column) : Column := ⟨w.b, w.c, w.d, w.a⟩

/-- A block whose first column is `f` plus the old one, and whose next ones add the one before. -/
def Block.chain (s : Block) (f : Column) : Block :=
  let c0 := s.c0.add f
  let c1 := s.c1.add c0
  let c2 := s.c2.add c1
  ⟨c0, c1, c2, s.c3.add c2⟩

/-- The next eight columns of the key schedule, with the round constant `r`. -/
def KeyGroup.next (g : KeyGroup) (r : UInt8) : KeyGroup :=
  let low := g.low.chain ((g.high.c3.rotate.map substitute).add ⟨r, 0, 0, 0⟩)
  ⟨low, g.high.chain (low.c3.map substitute)⟩

/-- The keys of the fourteen rounds: the one before them, those of the rounds that mix, and the
last. -/
structure RoundKeys where
  first : Block
  middle : List Block
  last : Block
  deriving DecidableEq, Repr

/-- The round keys that start with a group of columns. -/
def KeyGroup.expand (g : KeyGroup) : RoundKeys :=
  let g1 := g.next 0x01
  let g2 := g1.next 0x02
  let g3 := g2.next 0x04
  let g4 := g3.next 0x08
  let g5 := g4.next 0x10
  let g6 := g5.next 0x20
  let g7 := g6.next 0x40
  ⟨g.low, [g.high, g1.low, g1.high, g2.low, g2.high, g3.low, g3.high, g4.low, g4.high, g5.low,
    g5.high, g6.low, g6.high], g7.low⟩

/-! ## Blocks and octets -/

/-- The block of sixteen octets; missing ones count as zeros. -/
def Block.ofBytes (b : Bytes) : Block :=
  let x := fun i => b.getD i 0
  ⟨⟨x 0, x 1, x 2, x 3⟩, ⟨x 4, x 5, x 6, x 7⟩, ⟨x 8, x 9, x 10, x 11⟩, ⟨x 12, x 13, x 14, x 15⟩⟩

/-- The octets of a block. -/
def Block.toBytes (s : Block) : Bytes :=
  [s.c0.a, s.c0.b, s.c0.c, s.c0.d, s.c1.a, s.c1.b, s.c1.c, s.c1.d,
    s.c2.a, s.c2.b, s.c2.c, s.c2.d, s.c3.a, s.c3.b, s.c3.c, s.c3.d]

/-- The round keys of a key. -/
def RoundKeys.ofKey (key : Octets 32) : RoundKeys :=
  (KeyGroup.mk (Block.ofBytes key.toBytes) (Block.ofBytes (key.toBytes.drop 16))).expand

/-- A round that mixes. -/
def mixingRound (s k : Block) : Block := s.substitute.shiftRows.mixColumns.add k

/-- The image of a block under the cipher. -/
def RoundKeys.encrypt (k : RoundKeys) (s : Block) : Block :=
  ((k.middle.foldl mixingRound (s.add k.first)).substitute.shiftRows).add k.last

end SealedGateway.Aes
