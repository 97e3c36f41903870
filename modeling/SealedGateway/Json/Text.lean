import SealedGateway.Text.Utf8
import SealedGateway.Text.Ascii
import SealedGateway.Text.Hex

/-!
# JSON strings

- **`quote`** writes a text as a string literal: the quotation mark, the backslash and the control
  characters below U+0020 are escaped, all else stands for itself.
- **`string?`** reads a literal behind its opening quotation mark. A `\u` escape of a surrogate
  counts only as the first half of a pair, and the octets must be UTF-8.
- **`skipString?`** passes over a literal whose text is not kept: it checks the spelling of the
  escapes and nothing of what they denote.
-/

namespace SealedGateway.Json

/-! ## Writing -/

/-- The spelling of a character inside a literal. -/
def escape (c : Char) : List Char :=
  if c = '"' then ['\\', '"']
  else if c = '\\' then ['\\', '\\']
  else if c = '\x08' then ['\\', 'b']
  else if c = '\t' then ['\\', 't']
  else if c = '\n' then ['\\', 'n']
  else if c = '\x0c' then ['\\', 'f']
  else if c = '\r' then ['\\', 'r']
  else if c.toNat < 0x20 then
    ['\\', 'u', '0', '0', Hex.digit (c.toNat / 16), Hex.digit (c.toNat % 16)]
  else [c]

/-- The literal of a text. -/
def quote (s : String) : String :=
  String.ofList ('"' :: (s.toList.flatMap escape ++ ['"']))

/-! ## Reading -/

/-- The value of four hexadecimal digits. -/
def hex4? (a b c d : UInt8) : Option Nat := do
  let a ← Ascii.hexValue? a
  let b ← Ascii.hexValue? b
  let c ← Ascii.hexValue? c
  let d ← Ascii.hexValue? d
  return ((a * 16 + b) * 16 + c) * 16 + d

/-- The octet that a one-letter escape denotes. -/
def simpleEscape? : UInt8 → Option UInt8
  | Ascii.quote => some Ascii.quote
  | Ascii.backslash => some Ascii.backslash
  | Ascii.slash => some Ascii.slash
  | Ascii.lowerB => some Ascii.backspace
  | Ascii.lowerF => some Ascii.formFeed
  | Ascii.lowerN => some Ascii.lineFeed
  | Ascii.lowerR => some Ascii.carriageReturn
  | Ascii.lowerT => some Ascii.tab
  | _ => none

/-- Whether a code unit is the first half of a surrogate pair. -/
def isHighSurrogate (u : Nat) : Bool := 0xD800 ≤ u && u ≤ 0xDBFF

/-- Whether a code unit is the second half of a surrogate pair. -/
def isLowSurrogate (u : Nat) : Bool := 0xDC00 ≤ u && u ≤ 0xDFFF

/-- The code point of a surrogate pair. -/
def pairCodePoint (high low : Nat) : Nat := 0x10000 + (high - 0xD800) * 0x400 + (low - 0xDC00)

/-- The octets of a literal's text, reversed and put before `done`, and what follows the closing
quotation mark. -/
def stringOctets? (done : Bytes) : Bytes → Option (Bytes × Bytes)
  | [] => none
  | Ascii.quote :: r => some (done, r)
  | Ascii.backslash :: Ascii.lowerU :: a :: b :: c :: d :: r =>
    match hex4? a b c d with
    | none => none
    | some u =>
      if isLowSurrogate u then none
      else if isHighSurrogate u then
        match r with
        | Ascii.backslash :: Ascii.lowerU :: a :: b :: c :: d :: r =>
          match hex4? a b c d with
          | some l =>
            if isLowSurrogate l then
              let octets := String.utf8EncodeChar (Char.ofNat (pairCodePoint u l))
              stringOctets? (octets.reverse ++ done) r
            else none
          | none => none
        | _ => none
      else stringOctets? ((String.utf8EncodeChar (Char.ofNat u)).reverse ++ done) r
  | Ascii.backslash :: e :: r =>
    match simpleEscape? e with
    | some b => stringOctets? (b :: done) r
    | none => none
  | b :: r => if b < Ascii.space ∨ b = Ascii.backslash then none else stringOctets? (b :: done) r

/-- The text of a literal behind its opening quotation mark, and the rest. -/
def string? (s : Bytes) : Option (String × Bytes) := do
  let (octets, r) ← stringOctets? [] s
  return (← Utf8.decode? octets.reverse, r)

/-- What follows a literal behind its opening quotation mark. -/
def skipString? : Bytes → Option Bytes
  | [] => none
  | Ascii.quote :: r => some r
  | Ascii.backslash :: Ascii.lowerU :: a :: b :: c :: d :: r =>
    if (hex4? a b c d).isSome then skipString? r else none
  | Ascii.backslash :: e :: r => if (simpleEscape? e).isSome then skipString? r else none
  | b :: r => if b < Ascii.space ∨ b = Ascii.backslash then none else skipString? r

end SealedGateway.Json
