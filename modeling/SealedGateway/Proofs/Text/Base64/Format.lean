import Mathlib.Data.Nat.Digits.Lemmas
import SealedGateway.Proofs.Text.Base64.Exact

/-!
# The format of Base64

Octets are the digits of a number in base 256. Their text has the digits of that number in base 64,
with two zero bits behind it for each `=` (**`Spells`**). A digit list of a given length is
determined by its number, so each text stands for one octet string and each octet string has one
text.

- **`written_iff`**: the texts that are written are those of the format.
- **`isCanonical_iff`**: which texts these are, said without the octets.
- **`reading_exact`**: reading and writing are inverse to each other on the texts of the format,
  and all other texts are refused.
-/

namespace SealedGateway.Base64

/-! ## The format -/

/-- The symbols in the order of their values. -/
def alphabet : Vector Char 64 :=
  ⟨"ABCDEFGHIJKLMNOPQRSTUVWXYZabcdefghijklmnopqrstuvwxyz0123456789+/".toList.toArray, rfl⟩

/-- The symbols of values, and `=` behind them. -/
def render (values : List (Fin 64)) (padding : Nat) : List Char :=
  values.map (fun v => alphabet[v]) ++ List.replicate padding '='

/-- Values stand for octets: they are the digits of the same number, but for the zero bits behind
it. Groups of four symbols, the padding among them, are as many as groups of three octets. -/
structure Spells (values : List (Fin 64)) (padding : Nat) (octets : Bytes) : Prop where
  padding_le : padding ≤ 2
  length_eq : 3 * (values.length + padding) = 4 * (octets.length + padding)
  number_eq : Nat.ofDigits 64 (values.map Fin.val).reverse =
    Nat.ofDigits 256 (octets.map UInt8.toNat).reverse * 4 ^ padding

/-- A text is octets in Base64. -/
def Written (text : List Char) (octets : Bytes) : Prop :=
  ∃ values padding, text = render values padding ∧ Spells values padding octets

/-- A text is Base64: symbols of the alphabet that at most two `=` fill up to groups of four, the
last of them with zeros for the bits that no octet takes. -/
def IsCanonical (text : List Char) : Prop :=
  ∃ values padding, text = render values padding ∧ padding ≤ 2 ∧ 4 ∣ values.length + padding ∧
    ∀ v ∈ values.getLast?, 4 ^ padding ∣ v.val

/-! ## Symbols -/

theorem symbol_eq (v : Fin 64) : symbol v = alphabet[v] := by
  revert v; decide +kernel

theorem render_cons (v : Fin 64) (values : List (Fin 64)) (padding : Nat) :
    render (v :: values) padding = symbol v :: render values padding := by
  rw [symbol_eq]
  rfl

/-! ## Numbers -/

theorem pow_values {n m padding : Nat} (h : 3 * (n + padding) = 4 * (m + padding)) :
    64 ^ n = 256 ^ m * 4 ^ padding := by
  rw [show 64 = 2 ^ 6 from rfl, show 256 = 2 ^ 8 from rfl, show 4 = 2 ^ 2 from rfl, ← Nat.pow_mul,
    ← Nat.pow_mul, ← Nat.pow_mul, ← Nat.pow_add]
  congr 1
  omega

/-- A full group before what is spelled already. -/
theorem Spells.group {values : List (Fin 64)} {padding : Nat} {octets : Bytes}
    (h : Spells values padding octets) {a b c : UInt8} {va vb vc vd : Fin 64}
    (hv : va.val * 262144 + vb.val * 4096 + vc.val * 64 + vd.val =
      a.toNat * 65536 + b.toNat * 256 + c.toNat) :
    Spells (va :: vb :: vc :: vd :: values) padding (a :: b :: c :: octets) where
  padding_le := h.padding_le
  length_eq := by
    have := h.length_eq
    simp only [List.length_cons]
    omega
  number_eq := by
    have hdigits : vd.val + 64 * (vc.val + 64 * (vb.val + 64 * (va.val + 64 * 0))) =
        c.toNat + 256 * (b.toNat + 256 * (a.toNat + 256 * 0)) := by omega
    simp only [List.map_cons, List.reverse_cons, List.append_assoc, List.cons_append,
      List.nil_append, Nat.ofDigits_append, List.length_reverse, List.length_map, h.number_eq,
      pow_values h.length_eq, Nat.ofDigits_cons, Nat.ofDigits_nil]
    rw [hdigits, Nat.add_mul, Nat.mul_right_comm]

/-! ## What is written is of the format -/

theorem written_symbols (octets : Bytes) : Written (symbols octets) octets := by
  fun_induction symbols octets with
  | case1 a b c r ih =>
    have ha := a.toNat_lt
    have hb := b.toNat_lt
    have hc := c.toNat_lt
    obtain ⟨values, padding, htext, hspells⟩ := ih
    let v := a.toNat * 65536 + b.toNat * 256 + c.toNat
    let va : Fin 64 := ⟨v / 262144, by omega⟩
    let vb : Fin 64 := ⟨v / 4096 % 64, by omega⟩
    let vc : Fin 64 := ⟨v / 64 % 64, by omega⟩
    let vd : Fin 64 := ⟨v % 64, by omega⟩
    refine ⟨va :: vb :: vc :: vd :: values, padding, ?_, hspells.group ?_⟩
    · rw [render_cons, render_cons, render_cons, render_cons, ← htext]
      rfl
    · simp only [va, vb, vc, vd]
      omega
  | case2 a b v =>
    have ha := a.toNat_lt
    have hb := b.toNat_lt
    let va : Fin 64 := ⟨v / 1024, by omega⟩
    let vb : Fin 64 := ⟨v / 16 % 64, by omega⟩
    let vc : Fin 64 := ⟨v % 16 * 4, by omega⟩
    refine ⟨[va, vb, vc], 1, ?_, Nat.le_succ 1, rfl, ?_⟩
    · rw [render_cons, render_cons, render_cons]
      rfl
    · simp only [va, vb, vc, List.map_cons, List.map_nil, List.reverse_cons, List.reverse_nil,
        List.nil_append, List.cons_append, Nat.ofDigits_cons, Nat.ofDigits_nil]
      omega
  | case3 a =>
    have ha := a.toNat_lt
    let va : Fin 64 := ⟨a.toNat / 4, by omega⟩
    let vb : Fin 64 := ⟨a.toNat % 4 * 16, by omega⟩
    refine ⟨[va, vb], 2, ?_, Nat.le_refl 2, rfl, ?_⟩
    · rw [render_cons, render_cons]
      rfl
    · simp only [va, vb, List.map_cons, List.map_nil, List.reverse_cons, List.reverse_nil,
        List.nil_append, List.cons_append, Nat.ofDigits_cons, Nat.ofDigits_nil]
      omega
  | case4 => exact ⟨[], 0, rfl, Nat.zero_le 2, rfl, rfl⟩

/-! ## One text for each octet string -/

theorem lt_of_mem_values {values : List (Fin 64)} : ∀ n ∈ (values.map Fin.val).reverse, n < 64 := by
  intro n hn
  obtain ⟨v, -, rfl⟩ := List.mem_map.mp (List.mem_reverse.mp hn)
  exact v.isLt

/-- Octets have one spelling. -/
theorem Spells.unique {values values' : List (Fin 64)} {padding padding' : Nat} {octets : Bytes}
    (h : Spells values padding octets) (h' : Spells values' padding' octets) :
    values = values' ∧ padding = padding' := by
  have hle := h.padding_le
  have hle' := h'.padding_le
  have hlength := h.length_eq
  have hlength' := h'.length_eq
  obtain rfl : padding = padding' := by omega
  have hdigits : (values.map Fin.val).reverse = (values'.map Fin.val).reverse := by
    refine Nat.ofDigits_inj_of_len_eq (by decide : 1 < 64) ?_ lt_of_mem_values lt_of_mem_values ?_
    · simp only [List.length_reverse, List.length_map]
      omega
    · rw [h.number_eq, h'.number_eq]
  exact ⟨List.map_injective_iff.mpr Fin.val_injective (List.reverse_injective hdigits), rfl⟩

/-- The texts of the format are those that are written. -/
theorem written_iff {s : String} {octets : Bytes} :
    Written s.toList octets ↔ encode octets = s := by
  have hencode : (encode octets).toList = symbols octets := by rw [encode_eq, String.toList_ofList]
  constructor
  · rintro ⟨values, padding, htext, hspells⟩
    obtain ⟨values', padding', htext', hspells'⟩ := written_symbols octets
    obtain ⟨rfl, rfl⟩ := hspells.unique hspells'
    rw [← String.toList_inj, hencode, htext, htext']
  · rintro rfl
    rw [hencode]
    exact written_symbols octets

/-! ## The texts of the format -/

/-- A number has digits in base 256, as many as it fits into. -/
theorem exists_octets {m n : Nat} (h : n < 256 ^ m) :
    ∃ octets : Bytes, octets.length = m ∧
      Nat.ofDigits 256 (octets.map UInt8.toNat).reverse = n := by
  induction m generalizing n with
  | zero =>
    obtain rfl : n = 0 := Nat.lt_one_iff.mp h
    exact ⟨[], rfl, rfl⟩
  | succ m ih =>
    obtain ⟨octets, hlength, hnumber⟩ := ih (n := n / 256)
      (Nat.div_lt_of_lt_mul (by rwa [Nat.pow_succ, Nat.mul_comm] at h))
    refine ⟨octets ++ [UInt8.ofNat n], ?_, ?_⟩
    · rw [List.length_append, hlength, List.length_singleton]
    · rw [List.map_append, List.reverse_append, List.map_singleton, List.reverse_singleton,
        List.singleton_append, Nat.ofDigits_cons, hnumber, UInt8.toNat_ofNat']
      exact Nat.mod_add_div n 256

/-- The zero bits behind a number are those of its last digit. -/
theorem pow_dvd_number_iff {values : List (Fin 64)} {padding : Nat} (h : padding ≤ 2) :
    4 ^ padding ∣ Nat.ofDigits 64 (values.map Fin.val).reverse ↔
      ∀ v ∈ values.getLast?, 4 ^ padding ∣ v.val := by
  have hbase : 4 ^ padding ∣ 64 := Nat.pow_dvd_pow 4 (show padding ≤ 3 by omega)
  rcases List.eq_nil_or_concat' values with rfl | ⟨init, v, rfl⟩
  · simp
  · rw [List.map_append, List.reverse_append, List.map_singleton, List.reverse_singleton,
      List.singleton_append, Nat.ofDigits_cons, List.getLast?_concat,
      Nat.dvd_add_left (Nat.dvd_mul_right_of_dvd hbase _)]
    simp only [Option.mem_def, Option.some.injEq, forall_eq']

theorem isCanonical_iff {text : List Char} : IsCanonical text ↔ ∃ octets, Written text octets := by
  constructor
  · rintro ⟨values, padding, htext, hpadding, ⟨k, hk⟩, hzero⟩
    have hlength : 3 * (values.length + padding) = 4 * (3 * k - padding + padding) := by omega
    have hlt : Nat.ofDigits 64 (values.map Fin.val).reverse < 64 ^ _ :=
      Nat.ofDigits_lt_base_pow_length (by decide) lt_of_mem_values
    rw [List.length_reverse, List.length_map, pow_values hlength, Nat.mul_comm] at hlt
    obtain ⟨octets, hoctets, hnumber⟩ := exists_octets (Nat.div_lt_of_lt_mul hlt)
    refine ⟨octets, values, padding, htext, hpadding, hoctets ▸ hlength, ?_⟩
    rw [hnumber, Nat.div_mul_cancel ((pow_dvd_number_iff hpadding).mpr hzero)]
  · rintro ⟨octets, values, padding, htext, hspells⟩
    have hlength := hspells.length_eq
    refine ⟨values, padding, htext, hspells.padding_le, by omega, ?_⟩
    rw [← pow_dvd_number_iff hspells.padding_le, hspells.number_eq]
    exact Nat.dvd_mul_left _ _

/-! ## Reading -/

/-- Reading and writing Base64 are inverse to each other, so no two texts stand for the same octets.
The texts of the format are just those that are written, and every other text is a fault of the
frame it stands in. -/
theorem reading_exact :
    (∀ octets, decodeBase64 (encode octets) = .ok octets) ∧
    (∀ s octets, decodeBase64 s = .ok octets → encode octets = s) ∧
    (∀ s t octets, decodeBase64 s = .ok octets → decodeBase64 t = .ok octets → s = t) ∧
    (∀ s octets, encode octets = s ↔ Written s.toList octets) ∧
    (∀ s, (∃ octets, encode octets = s) ↔ IsCanonical s.toList) ∧
    ∀ s, (∃ e, decodeBase64 s = .error (.codec (.base64 e))) ↔ ¬ IsCanonical s.toList := by
  have hcanonical : ∀ s, (∃ octets, encode octets = s) ↔ IsCanonical s.toList := by
    intro s
    simp only [isCanonical_iff, written_iff]
  refine ⟨fun octets => decodeBase64_eq_ok_iff.mpr rfl, fun s octets => decodeBase64_eq_ok_iff.mp,
    fun s t octets hs ht => ?_, fun s octets => written_iff.symm, hcanonical, fun s => ?_⟩
  · rw [← decodeBase64_eq_ok_iff.mp hs, ← decodeBase64_eq_ok_iff.mp ht]
  · rw [← hcanonical]
    constructor
    · rintro ⟨e, he⟩ ⟨octets, hoctets⟩
      rw [decodeBase64_eq_ok_iff.mpr hoctets] at he
      cases he
    · intro hnone
      cases hread : decodeBase64 s with
      | ok octets => exact absurd ⟨octets, decodeBase64_eq_ok_iff.mp hread⟩ hnone
      | error f =>
        obtain ⟨e, rfl⟩ := decodeBase64_error hread
        exact ⟨e, rfl⟩

/-- Two octets with padding behind them, and what is no text of any octets: with bits set that no
octet takes, without padding, with padding in between, with a symbol of another alphabet, and with
a blank. -/
theorem reading_exact_filled :
    decodeBase64 "Zm8=" = .ok [0x66, 0x6F] ∧ encode [0x66, 0x6F] = "Zm8=" ∧
    Written "Zm8=".toList [0x66, 0x6F] ∧
    ∀ s ∈ ["Zm9=", "Zm8", "Zg==Zm8=", "Zm-_", "Zm 8"], ¬ IsCanonical s.toList := by
  obtain ⟨-, hwrites, -, hformat, -, hfault⟩ := reading_exact
  have hread : decodeBase64 "Zm8=" = .ok [0x66, 0x6F] := by rfl
  refine ⟨hread, hwrites _ _ hread, (hformat _ _).mp (hwrites _ _ hread), ?_⟩
  intro s hs
  rw [← hfault]
  revert s
  simp only [List.forall_mem_cons, List.not_mem_nil, false_implies, implies_true, and_true]
  exact ⟨⟨_, rfl⟩, ⟨_, rfl⟩, ⟨_, rfl⟩, ⟨_, rfl⟩, ⟨_, rfl⟩⟩

end SealedGateway.Base64
