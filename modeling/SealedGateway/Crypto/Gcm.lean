import SealedGateway.Crypto.Aes

/-!
# Galois/Counter Mode

Authenticated encryption with AES-256, a nonce of 12 octets, a tag of 16 octets and no associated
data.

- **`Ghash`**: the universal hash. Its field has the polynomials over two elements modulo
  `x^128 + x^7 + x^2 + x + 1`; the first bit of a block is the constant coefficient, so a product
  is a sum of the multiples `h, h x, h x^2, …` picked by the bits of the other factor.
- **`encrypt`** and **`decrypt?`**: the text is added to a key stream, and the tag is the hash of
  the ciphertext and its length, added to the stream's first block.
-/

namespace SealedGateway.Gcm

/-- An element of the field. -/
abbrev Element := BitVec 128

namespace Ghash

/-- An element times `x`. -/
def timesX (v : Element) : Element :=
  if v.getLsbD 0 then (v >>> 1) ^^^ (0xE1#128 <<< 120) else v >>> 1

/-- The multiples `v, v x, …` of an element, `n` of them. -/
def multiples : (n : Nat) → (v : Element) → List Element
  | 0, _ => []
  | n + 1, v => v :: multiples n (timesX v)

/-- The sum of the multiples that the bits of `y` pick, the first multiple belonging to bit `i`. -/
def pick (y : Element) : (i : Nat) → List Element → Element
  | _, [] => 0
  | i, v :: vs => (if y.getMsbD i then v else 0) ^^^ pick y (i + 1) vs

/-- The element of sixteen octets; missing ones count as zeros. -/
def ofBytes (b : Bytes) : Element :=
  let padded := b ++ List.replicate (16 - b.length) 0
  BitVec.ofNat 128 (padded.foldl (fun n (x : UInt8) => n * 256 + x.toNat) 0)

/-- The octets of an element. -/
def toBytes (v : Element) : Bytes :=
  (List.range 16).map fun i => UInt8.ofNat (v.toNat >>> (8 * (15 - i)))

/-- Hashes `n` blocks of `data` onto `acc`, with the multiples of the hash key. -/
def absorb (table : List Element) (acc : Element) : (n : Nat) → (data : Bytes) → Element
  | 0, _ => acc
  | n + 1, data => absorb table (pick (acc ^^^ ofBytes (data.take 16)) 0 table) n (data.drop 16)

end Ghash

/-- The number of blocks that `n` octets take. -/
def blockCount (n : Nat) : Nat := (n + 15) / 16

/-- The four octets of a block counter. -/
def counterBytes (i : Nat) : Bytes :=
  [UInt8.ofNat (i >>> 24), UInt8.ofNat (i >>> 16), UInt8.ofNat (i >>> 8), UInt8.ofNat i]

/-- Block `i` of the stream: the cipher's image of the nonce and the counter. -/
def streamBlock (keys : Aes.RoundKeys) (nonce : Octets 12) (i : Nat) : Bytes :=
  (keys.encrypt (.ofBytes (nonce.toBytes ++ counterBytes i))).toBytes

/-- The key stream of `n` blocks. Block 1 masks the tag, so the text takes the blocks from 2 on. -/
def stream (keys : Aes.RoundKeys) (nonce : Octets 12) (n : Nat) : Bytes :=
  (List.range n).flatMap fun i => streamBlock keys nonce (i + 2)

/-- Adds the key stream to a text. -/
def applyStream (keys : Aes.RoundKeys) (nonce : Octets 12) (text : Bytes) : Bytes :=
  List.zipWith (· ^^^ ·) text (stream keys nonce (blockCount text.length))

/-- The hash key: the cipher's image of the zero block. -/
def hashKey (keys : Aes.RoundKeys) : Element := Ghash.ofBytes (keys.encrypt (.ofBytes [])).toBytes

/-- The hash of a ciphertext: its blocks, then the block of its length in bits. -/
def hash (h : Element) (ciphertext : Bytes) : Element :=
  let table := Ghash.multiples 128 h
  let n := ciphertext.length
  let body := Ghash.absorb table 0 (blockCount n) ciphertext
  Ghash.pick (body ^^^ BitVec.ofNat 128 (8 * n)) 0 table

/-- The tag of a ciphertext. -/
def tag (keys : Aes.RoundKeys) (nonce : Octets 12) (ciphertext : Bytes) : Bytes :=
  Ghash.toBytes (hash (hashKey keys) ciphertext ^^^ Ghash.ofBytes (streamBlock keys nonce 1))

/-- The longest text: its blocks are numbered by the counter's 32 bits. -/
def maxLength : Nat := Nat.pow 2 36

/-- Ciphertext and tag of a text. -/
def encrypt (key : Octets 32) (nonce : Octets 12) (text : Bytes) : Bytes :=
  let keys := Aes.RoundKeys.ofKey key
  let body := applyStream keys nonce text
  body ++ tag keys nonce body

/-- The text of a ciphertext with its tag, if the tag is right. -/
def decrypt? (key : Octets 32) (nonce : Octets 12) (data : Bytes) : Option Bytes :=
  if data.length < 16 then none
  else
    let keys := Aes.RoundKeys.ofKey key
    let body := data.take (data.length - 16)
    if tag keys nonce body = data.drop (data.length - 16) then some (applyStream keys nonce body)
    else none

end SealedGateway.Gcm
