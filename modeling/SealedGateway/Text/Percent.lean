import SealedGateway.Text.Ascii
import SealedGateway.Text.Utf8

/-!
# Percent-encoded text

A percent sign and two hexadecimal digits stand for an octet; all else, a percent sign without two
digits too, stands for itself. Text that holds no percent sign is its own decoding
(**`decodeOctets_eq_self`**).
-/

namespace SealedGateway.Percent

/-- The octets that percent-encoded octets stand for. -/
def decodeOctets : Bytes → Bytes
  | [] => []
  | 0x25 :: high :: low :: rest =>
    match Ascii.hexValue? high, Ascii.hexValue? low with
    | some h, some l => UInt8.ofNat (h * 16 + l) :: decodeOctets rest
    | _, _ => 0x25 :: decodeOctets (high :: low :: rest)
  | b :: rest => b :: decodeOctets rest

/-- The text that percent-encoded text stands for, if it is well-formed UTF-8. -/
def decode? (s : String) : Option String := Utf8.decode? (decodeOctets (Utf8.encode s))

theorem decodeOctets_eq_self {b : Bytes} (h : 0x25 ∉ b) : decodeOctets b = b := by
  fun_induction decodeOctets b with
  | case1 => rfl
  | case2 => simp at h
  | case3 => simp at h
  | case4 b rest _ ih => rw [ih (fun m => h (List.mem_cons_of_mem _ m))]

end SealedGateway.Percent
