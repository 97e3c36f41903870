import SealedGateway.Proofs.Text.Utf8
import SealedGateway.Text.Hex
import SealedGateway.Text.Percent

/-!
# Percent-encoding a text

A client writes an identifier into a path: letters, digits and four marks stand for themselves, and
every other octet is written with a percent sign. What is written can be read again
(**`decode?_encode`**), and it holds no character that means something in a request target
(**`notMem_encode`**).
-/

namespace SealedGateway.Percent

/-- Whether a character stands for itself in a path. -/
def isUnreserved (c : Char) : Bool := c.isAlphanum || c = '-' || c = '.' || c = '_' || c = '~'

/-- The spelling of an octet. -/
def escape (b : UInt8) : List Char :=
  let c := Char.ofNat b.toNat
  if isUnreserved c then [c] else ['%', Hex.digit (b.toNat / 16), Hex.digit (b.toNat % 16)]

/-- The spelling of a text. -/
def encode (s : String) : String := String.ofList ((Utf8.encode s).flatMap escape)

theorem escape_chars (b : UInt8) :
    ∀ c ∈ escape b, c.toNat < 0x80 ∧ (isUnreserved c = true ∨ c = '%') := by
  have hall : ∀ n < 256, (escape (UInt8.ofNat n)).all
      fun c => c.toNat < 0x80 && (isUnreserved c || c == '%') := by
    decide +kernel
  have hb := hall b.toNat b.toNat_lt
  rw [UInt8.ofNat_toNat] at hb
  simpa using hb

/-- No character that is neither unreserved nor a percent sign is written. -/
theorem notMem_encode {s : String} {c : Char} (hc : isUnreserved c = false) (hne : c ≠ '%') :
    c ∉ (encode s).toList := by
  intro hmem
  rw [encode, String.toList_ofList] at hmem
  obtain ⟨b, -, hb⟩ := List.mem_flatMap.mp hmem
  rcases (escape_chars b c hb).2 with hu | hp
  · rw [hc] at hu
    cases hu
  · exact hne hp

/-! ## Reading what was written -/

/-- The octets of a spelling. -/
def escapeOctets (b : UInt8) : Bytes := (escape b).map fun c => UInt8.ofNat c.toNat

theorem hexValue?_digit {v : Nat} (h : v < 16) :
    Ascii.hexValue? (UInt8.ofNat (Hex.digit v).toNat) = some v := by
  revert v
  decide

theorem decodeOctets_cons_ne {b : UInt8} (hb : b ≠ 0x25) (r : Bytes) :
    decodeOctets (b :: r) = b :: decodeOctets r := by
  rw [decodeOctets]
  exact fun _ _ _ heq => absurd heq hb

theorem decodeOctets_escape (b : UInt8) (r : Bytes) :
    decodeOctets (escapeOctets b ++ r) = b :: decodeOctets r := by
  have hlt : b.toNat < 256 := b.toNat_lt
  by_cases hu : isUnreserved (Char.ofNat b.toNat) = true
  · have hself : ∀ n < 256, isUnreserved (Char.ofNat n) = true →
        UInt8.ofNat (Char.ofNat n).toNat = UInt8.ofNat n ∧ UInt8.ofNat n ≠ 0x25 := by
      decide +kernel
    obtain ⟨hb, hne⟩ := hself b.toNat hlt hu
    rw [UInt8.ofNat_toNat] at hb hne
    rw [escapeOctets, escape, if_pos hu, List.map_singleton, hb]
    exact decodeOctets_cons_ne hne r
  · have hb : UInt8.ofNat (b.toNat / 16 * 16 + b.toNat % 16) = b := by
      rw [Nat.div_add_mod', UInt8.ofNat_toNat]
    rw [escapeOctets, escape, if_neg hu]
    change decodeOctets (0x25 :: UInt8.ofNat (Hex.digit (b.toNat / 16)).toNat ::
      UInt8.ofNat (Hex.digit (b.toNat % 16)).toNat :: r) = _
    rw [decodeOctets, hexValue?_digit (by omega), hexValue?_digit (by omega)]
    dsimp only
    rw [hb]

theorem decodeOctets_encode (bs : Bytes) : decodeOctets (bs.flatMap escapeOctets) = bs := by
  induction bs with
  | nil => rfl
  | cons b bs ih => rw [List.flatMap_cons, decodeOctets_escape, ih]

theorem encode_octets (s : String) :
    Utf8.encode (encode s) = (Utf8.encode s).flatMap escapeOctets := by
  have hascii : ∀ c ∈ (Utf8.encode s).flatMap escape, c.toNat < 0x80 := by
    intro c hc
    obtain ⟨b, -, hb⟩ := List.mem_flatMap.mp hc
    exact (escape_chars b c hb).1
  rw [encode, Utf8.encode_ofList_ascii hascii, List.map_flatMap]
  rfl

theorem decode?_encode (s : String) : decode? (encode s) = some s := by
  rw [decode?, encode_octets, decodeOctets_encode, Utf8.decode?_encode]

end SealedGateway.Percent
