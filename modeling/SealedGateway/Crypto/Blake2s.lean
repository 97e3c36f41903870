import SealedGateway.Bytes

/-!
# BLAKE2s

The hash with a digest of 32 octets and no key. A message is cut into blocks of 64 octets, the last
one filled with zeros; the empty message is one block. Each block is mixed into a chain of eight
words together with the number of octets so far.
-/

namespace SealedGateway.Blake2s

/-- The initial chain, before the parameters. -/
def initial : Vector UInt32 8 :=
  #v[0x6A09E667, 0xBB67AE85, 0x3C6EF372, 0xA54FF53A, 0x510E527F, 0x9B05688C, 0x1F83D9AB, 0x5BE0CD19]

/-- The order in which each of the ten rounds takes the words of a block. -/
def schedule : List (Vector (Fin 16) 16) :=
  [#v[0, 1, 2, 3, 4, 5, 6, 7, 8, 9, 10, 11, 12, 13, 14, 15],
   #v[14, 10, 4, 8, 9, 15, 13, 6, 1, 12, 0, 2, 11, 7, 5, 3],
   #v[11, 8, 12, 0, 5, 2, 15, 13, 10, 14, 3, 6, 7, 1, 9, 4],
   #v[7, 9, 3, 1, 13, 12, 11, 14, 2, 6, 5, 10, 4, 0, 15, 8],
   #v[9, 0, 5, 7, 2, 4, 10, 15, 14, 1, 11, 12, 6, 8, 3, 13],
   #v[2, 12, 6, 10, 0, 11, 8, 3, 4, 13, 7, 5, 15, 14, 1, 9],
   #v[12, 5, 1, 15, 14, 13, 4, 10, 0, 7, 6, 3, 9, 2, 8, 11],
   #v[13, 11, 7, 14, 12, 1, 3, 9, 5, 0, 15, 4, 8, 6, 2, 10],
   #v[6, 15, 14, 9, 11, 3, 0, 8, 12, 2, 13, 7, 1, 4, 10, 5],
   #v[10, 2, 8, 4, 7, 6, 1, 5, 15, 11, 9, 14, 3, 12, 13, 0]]

/-- The word turned right by `n` bits. -/
def rotateRight (x n : UInt32) : UInt32 := (x >>> n) ||| (x <<< (32 - n))

/-- The mixing function on four of the sixteen working words. -/
def mix (v : Vector UInt32 16) (a b c d : Fin 16) (x y : UInt32) : Vector UInt32 16 :=
  let va := v[a] + v[b] + x
  let vd := rotateRight (v[d] ^^^ va) 16
  let vc := v[c] + vd
  let vb := rotateRight (v[b] ^^^ vc) 12
  let va := va + vb + y
  let vd := rotateRight (vd ^^^ va) 8
  let vc := vc + vd
  let vb := rotateRight (vb ^^^ vc) 7
  (((v.set a va).set b vb).set c vc).set d vd

/-- One round: the four columns, then the four diagonals. -/
def round (m : Vector UInt32 16) (v : Vector UInt32 16) (s : Vector (Fin 16) 16) :
    Vector UInt32 16 :=
  let w := fun i : Fin 16 => m[s[i]]
  let v := mix v 0 4 8 12 (w 0) (w 1)
  let v := mix v 1 5 9 13 (w 2) (w 3)
  let v := mix v 2 6 10 14 (w 4) (w 5)
  let v := mix v 3 7 11 15 (w 6) (w 7)
  let v := mix v 0 5 10 15 (w 8) (w 9)
  let v := mix v 1 6 11 12 (w 10) (w 11)
  let v := mix v 2 7 8 13 (w 12) (w 13)
  mix v 3 4 9 14 (w 14) (w 15)

/-- The word of four octets, least significant first. -/
def word (b : Bytes) : UInt32 := b.foldr (fun x n => x.toUInt32 + 256 * n) 0

/-- The words of a block; octets that are missing count as zeros. -/
def words (block : Bytes) : Vector UInt32 16 :=
  Vector.ofFn fun i => word ((block.drop (4 * i)).take 4)

/-- Mixes a block into the chain; `count` octets of the message have been taken with it. -/
def compress (chain : Vector UInt32 8) (block : Bytes) (count : Nat) (isLast : Bool) :
    Vector UInt32 8 :=
  let low := UInt32.ofNat count
  let high := UInt32.ofNat (count / Nat.pow 2 32)
  let v := chain ++ initial
  let v := v.set 12 (v[12] ^^^ low)
  let v := v.set 13 (v[13] ^^^ high)
  let v := if isLast then v.set 14 (v[14] ^^^ 0xFFFFFFFF) else v
  let v := schedule.foldl (round (words block)) v
  Vector.ofFn fun i : Fin 8 => chain[i] ^^^ v[i.val] ^^^ v[i.val + 8]

/-- The chain after the blocks of `data`, the last one being number `blocks` from here. -/
def absorb (chain : Vector UInt32 8) (count : Nat) (data : Bytes) : (blocks : Nat) → Vector UInt32 8
  | 0 => compress chain data (count + data.length) true
  | n + 1 => absorb (compress chain (data.take 64) (count + 64) false) (count + 64) (data.drop 64) n

/-- The digest of `data`. -/
def digest (data : Bytes) : Octets 32 :=
  let start := initial.set 0 (initial[0] ^^^ 0x01010020)
  let chain := absorb start 0 data ((data.length - 1) / 64)
  ⟨(List.range 32).map fun i => UInt8.ofNat ((chain[i / 4]?.getD 0).toNat >>> (8 * (i % 4))),
    by simp⟩

end SealedGateway.Blake2s
