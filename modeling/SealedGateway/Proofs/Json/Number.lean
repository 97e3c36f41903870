import Mathlib.Algebra.GroupWithZero.Nat
import Mathlib.Data.List.TakeDrop
import SealedGateway.Json.Number
import SealedGateway.Proofs.Text.Utf8

/-!
# Numbers

A number is a sign, a whole part, a fraction and an exponent (**`Grammar.Numeral`**). In front of
anything that does not go on with a number it is read part by part, each part in front of what the
next one can start with.

- **`lexeme?_numeral`**: what the grammar derives is read.
- **`numeral_decimal`** and **`value?_decimal`**: a natural number that fits 64 bits is spelled in
  decimal.
-/

namespace SealedGateway.Json

/-! ## Grammar -/

namespace Grammar

/-- At least one digit. -/
structure Digits (ds : Bytes) : Prop where
  ne_nil : ds ≠ []
  digits : ∀ b ∈ ds, Ascii.isDigit b = true

/-- A whole part: a zero alone, or digits that start with another one. -/
structure Whole (ds : Bytes) : Prop extends Digits ds where
  zero : ds.head? = some Ascii.zero → ds = [Ascii.zero]

/-- The spellings of a fraction. -/
inductive Fraction : Bytes → Option Bytes → Prop where
  | absent : Fraction [] none
  | point {ds : Bytes} (h : Digits ds) : Fraction (Ascii.dot :: ds) (some ds)

/-- The spellings of the sign of an exponent. -/
inductive ExponentSign : Bytes → Bool → Prop where
  | absent : ExponentSign [] false
  | plus : ExponentSign [Ascii.plus] false
  | minus : ExponentSign [Ascii.minus] true

/-- The spellings of an exponent. -/
inductive Exponent : Bytes → Option (Bool × Bytes) → Prop where
  | absent : Exponent [] none
  | letter {e : UInt8} {sign ds : Bytes} {negative : Bool}
      (he : e = Ascii.lowerE ∨ e = Ascii.upperE) (hs : ExponentSign sign negative)
      (h : Digits ds) : Exponent (e :: (sign ++ ds)) (some (negative, ds))

/-- The spellings of a number. -/
inductive Numeral : Bytes → Number.Lexeme → Prop where
  | positive {w f e : Bytes} {fraction : Option Bytes} {exponent : Option (Bool × Bytes)}
      (hw : Whole w) (hf : Fraction f fraction) (he : Exponent e exponent) :
      Numeral (w ++ (f ++ e)) ⟨false, w, fraction, exponent⟩
  | negative {w f e : Bytes} {fraction : Option Bytes} {exponent : Option (Bool × Bytes)}
      (hw : Whole w) (hf : Fraction f fraction) (he : Exponent e exponent) :
      Numeral (Ascii.minus :: (w ++ (f ++ e))) ⟨true, w, fraction, exponent⟩

end Grammar

namespace Number

open Grammar

/-- The octets of a natural number in decimal. -/
def decimal (n : Nat) : Bytes := (Nat.toDigits 10 n).map fun c => UInt8.ofNat c.toNat

/-! ## Digits -/

theorem isDigit_iff {c : Char} : c.isDigit = true ↔ 0x30 ≤ c.toNat ∧ c.toNat ≤ 0x39 := by
  simp only [Char.isDigit, Bool.and_eq_true, decide_eq_true_eq, ge_iff_le, UInt32.le_iff_toNat_le]
  exact Iff.rfl

theorem encode_toString (n : Nat) : Utf8.encode (toString n) = decimal n := by
  have hascii : ∀ c ∈ Nat.toDigits 10 n, c.toNat < 0x80 := by
    intro c hc
    have hdigit := isDigit_iff.mp (Nat.isDigit_of_mem_toDigits (by decide) (by decide) hc)
    omega
  rw [Nat.toString_eq_ofList_toDigits, Utf8.encode_ofList_ascii hascii, decimal]

theorem isDigit_octet {c : Char} (h : c.isDigit = true) :
    Ascii.isDigit (UInt8.ofNat c.toNat) = true ∧
      Ascii.digitValue (UInt8.ofNat c.toNat) = c.toNat - 0x30 := by
  have hc := isDigit_iff.mp h
  have hoctet : (UInt8.ofNat c.toNat).toNat = c.toNat := by
    rw [UInt8.toNat_ofNat']
    omega
  simp only [Ascii.isDigit, Ascii.digitValue, Bool.and_eq_true, decide_eq_true_eq,
    UInt8.le_iff_toNat_le, hoctet]
  exact ⟨hc, trivial⟩

theorem isDigit_of_mem_decimal {n : Nat} {b : UInt8} (hb : b ∈ decimal n) :
    Ascii.isDigit b = true := by
  obtain ⟨c, hc, rfl⟩ := List.mem_map.mp hb
  exact (isDigit_octet (Nat.isDigit_of_mem_toDigits (by decide) (by decide) hc)).1

theorem decimal_ne_nil (n : Nat) : decimal n ≠ [] := by simp [decimal]

/-- A positive number starts with a digit that is not zero. -/
theorem decimal_of_pos {n : Nat} (h : 0 < n) : ∃ b bs, decimal n = b :: bs ∧ b ≠ Ascii.zero := by
  induction n using Nat.strongRecOn with
  | ind n ih =>
    by_cases hlt : n < 10
    · have hne : ∀ m < 10, 0 < m → UInt8.ofNat (Nat.digitChar m).toNat ≠ Ascii.zero := by decide
      exact ⟨_, [], by rw [decimal, Nat.toDigits_of_lt_base hlt]; rfl, hne n hlt h⟩
    · obtain ⟨b, bs, hb, hne⟩ := ih (n / 10) (by omega) (by omega)
      refine ⟨b, bs ++ [UInt8.ofNat (Nat.digitChar (n % 10)).toNat], ?_, hne⟩
      rw [decimal, Nat.toDigits_of_base_le (by decide) (by omega), List.map_append, ← decimal, hb]
      rfl

/-! ## Reading a number -/

variable {r : Bytes}

/-- What does not go on with a number. -/
def Ended (r : Bytes) : Prop :=
  ∀ b ∈ r.head?, Ascii.isDigit b = false ∧ b ≠ Ascii.dot ∧ b ≠ Ascii.lowerE ∧ b ≠ Ascii.upperE

/-- What does not go on with a digit. -/
def NoDigit (r : Bytes) : Prop := ∀ b ∈ r.head?, Ascii.isDigit b = false

theorem Ended.noDigit (hr : Ended r) : NoDigit r := fun b hb => (hr b hb).1

theorem digits_append {ds : Bytes} (hds : ∀ b ∈ ds, Ascii.isDigit b = true) (hr : NoDigit r) :
    digits (ds ++ r) = (ds, r) := by
  have htake : r.takeWhile Ascii.isDigit = [] ∧ r.dropWhile Ascii.isDigit = r := by
    cases r with
    | nil => exact ⟨rfl, rfl⟩
    | cons b r => simp [hr b rfl]
  rw [digits, List.span_eq_takeWhile_dropWhile, List.takeWhile_append_of_pos hds,
    List.dropWhile_append_of_pos hds, htake.1, htake.2, List.append_nil]

theorem digits1?_append {ds : Bytes} (hds : Digits ds) (hr : NoDigit r) :
    digits1? (ds ++ r) = some (ds, r) := by
  obtain ⟨b, bs, rfl⟩ := List.exists_cons_of_ne_nil hds.ne_nil
  rw [digits1?, digits_append hds.digits hr]

theorem whole?_append {w : Bytes} (hw : Whole w) (hr : NoDigit r) :
    whole? (w ++ r) = some (w, r) := by
  have hdigits := digits1?_append hw.toDigits hr
  obtain ⟨b, bs, rfl⟩ := List.exists_cons_of_ne_nil hw.ne_nil
  rw [List.cons_append] at hdigits ⊢
  rw [whole?.eq_def]
  dsimp only
  by_cases hb : b = Ascii.zero
  · subst hb
    obtain rfl : bs = [] := (List.cons.inj (hw.zero rfl)).2
    rw [if_pos rfl, List.nil_append]
    cases r with
    | nil => rfl
    | cons d r =>
      dsimp only
      rw [hr d rfl, if_neg Bool.false_ne_true]
  · rw [if_neg hb, hdigits]

theorem fraction?_append {f : Bytes} {fraction : Option Bytes} (hf : Fraction f fraction)
    (hr : NoDigit r) (hdot : ∀ b ∈ r.head?, b ≠ Ascii.dot) :
    fraction? (f ++ r) = some (fraction, r) := by
  cases hf with
  | absent =>
    rw [List.nil_append]
    unfold fraction?
    split
    · exact absurd rfl (hdot _ rfl)
    · rfl
  | @point ds h =>
    show (digits1? (ds ++ r)).map _ = _
    rw [digits1?_append h hr]
    rfl

theorem exponentSign_append {sign ds : Bytes} {negative : Bool} (hs : ExponentSign sign negative)
    (h : Digits ds) : exponentSign (sign ++ (ds ++ r)) = (negative, ds ++ r) := by
  cases hs with
  | plus | minus => rfl
  | absent =>
    obtain ⟨b, bs, rfl⟩ := List.exists_cons_of_ne_nil h.ne_nil
    have hb : Ascii.isDigit b = true := h.digits b List.mem_cons_self
    rw [List.nil_append, List.cons_append]
    unfold exponentSign
    split
    · next heq =>
      rw [(List.cons.inj heq).1] at hb
      exact absurd hb (by decide)
    · next heq =>
      rw [(List.cons.inj heq).1] at hb
      exact absurd hb (by decide)
    · rfl

theorem exponent?_append {e : Bytes} {exponent : Option (Bool × Bytes)}
    (he : Exponent e exponent) (hr : Ended r) : exponent? (e ++ r) = some (exponent, r) := by
  cases he with
  | absent =>
    cases r with
    | nil => rfl
    | cons b r =>
      obtain ⟨-, -, hlower, hupper⟩ := hr b rfl
      rw [List.nil_append, exponent?, if_neg (not_or.mpr ⟨hlower, hupper⟩)]
  | letter he hs h =>
    rw [List.cons_append, List.append_assoc, exponent?, if_pos he, exponentSign_append hs h]
    dsimp only
    rw [digits1?_append h hr.noDigit]
    rfl

/-- Neither an exponent nor what follows it goes on with the digits before it. -/
theorem noDigit_exponent {e : Bytes} {exponent : Option (Bool × Bytes)}
    (he : Exponent e exponent) (hr : Ended r) :
    NoDigit (e ++ r) ∧ ∀ b ∈ (e ++ r).head?, b ≠ Ascii.dot := by
  cases he with
  | absent => exact ⟨hr.noDigit, fun b hb => (hr b hb).2.1⟩
  | @letter letter _ _ _ he hs h =>
    have hstart : Ascii.isDigit letter = false ∧ letter ≠ Ascii.dot := by
      rcases he with rfl | rfl <;> decide
    refine ⟨fun b hb => ?_, fun b hb => ?_⟩
    · obtain rfl := Option.some.inj hb
      exact hstart.1
    · obtain rfl := Option.some.inj hb
      exact hstart.2

theorem noDigit_fraction {f : Bytes} {fraction : Option Bytes} (hf : Fraction f fraction)
    (hr : NoDigit r) : NoDigit (f ++ r) := by
  cases hf with
  | absent => exact hr
  | point h =>
    intro b hb
    obtain rfl := Option.some.inj hb
    rfl

theorem unsigned?_append {w f e : Bytes} {fraction : Option Bytes}
    {exponent : Option (Bool × Bytes)} (hw : Whole w) (hf : Fraction f fraction)
    (he : Exponent e exponent) (hr : Ended r) (negative : Bool) :
    unsigned? negative (w ++ (f ++ e) ++ r) = some (⟨negative, w, fraction, exponent⟩, r) := by
  obtain ⟨hdigit, hdot⟩ := noDigit_exponent he hr
  have hwhole := whole?_append hw (noDigit_fraction hf hdigit)
  have hfraction := fraction?_append hf hdigit hdot
  rw [List.append_assoc, List.append_assoc]
  simp only [unsigned?, hwhole, hfraction, exponent?_append he hr, bind, Option.bind, pure]

/-- Whole parts start with a digit. -/
theorem exists_digit {w : Bytes} (hw : Whole w) :
    ∃ b bs, w = b :: bs ∧ Ascii.isDigit b = true := by
  obtain ⟨b, bs, rfl⟩ := List.exists_cons_of_ne_nil hw.ne_nil
  exact ⟨b, bs, rfl, hw.digits b List.mem_cons_self⟩

/-- A number is read as what it spells. -/
theorem lexeme?_numeral {t : Bytes} {l : Lexeme} (h : Numeral t l) (hr : Ended r) :
    lexeme? (t ++ r) = some (l, r) := by
  cases h with
  | negative hw hf he => exact unsigned?_append hw hf he hr true
  | positive hw hf he =>
    obtain ⟨b, bs, rfl, hb⟩ := exists_digit hw
    rw [← unsigned?_append hw hf he hr false, List.cons_append, List.cons_append]
    unfold lexeme?
    split
    · next heq =>
      rw [(List.cons.inj heq).1] at hb
      exact absurd hb (by decide)
    · rfl

/-- The spelling of a natural number. -/
def Lexeme.ofNat (n : Nat) : Lexeme := ⟨false, decimal n, none, none⟩

theorem whole_decimal (n : Nat) : Whole (decimal n) where
  ne_nil := decimal_ne_nil n
  digits := fun _ => isDigit_of_mem_decimal
  zero := by
    rcases Nat.eq_zero_or_pos n with rfl | hpos
    · exact fun _ => by decide
    · obtain ⟨b, bs, hb, hne⟩ := decimal_of_pos hpos
      rw [hb]
      exact fun h => absurd (Option.some.inj h) hne

theorem numeral_decimal (n : Nat) : Numeral (decimal n) (.ofNat n) := by
  have h := Numeral.positive (whole_decimal n) .absent .absent
  rw [List.append_nil, List.append_nil] at h
  exact h

/-! ## The value of a number -/

theorem le_ofDigitChars (cs : List Char) (m : Nat) : m ≤ Nat.ofDigitChars 10 cs m := by
  induction cs generalizing m with
  | nil => exact Nat.le_refl m
  | cons c cs ih =>
    have hstep := ih (10 * m + (c.toNat - '0'.toNat))
    rw [Nat.ofDigitChars, List.foldl_cons, ← Nat.ofDigitChars]
    omega

theorem gather_digits {cs : List Char} {m : Nat} (hcs : ∀ c ∈ cs, c.isDigit = true)
    (hlt : Nat.ofDigitChars 10 cs m < 2 ^ 64) :
    gather m (cs.map fun c => UInt8.ofNat c.toNat) = (Nat.ofDigitChars 10 cs m, []) := by
  induction cs generalizing m with
  | nil => rfl
  | cons c cs ih =>
    have hc := (isDigit_octet (hcs c List.mem_cons_self)).2
    have hle := le_ofDigitChars cs (10 * m + (c.toNat - 0x30))
    rw [Nat.ofDigitChars, List.foldl_cons, ← Nat.ofDigitChars] at hlt ⊢
    rw [List.map_cons, gather, hc]
    exact (if_pos (Nat.lt_of_le_of_lt hle hlt)).trans
      (ih (fun d hd => hcs d (List.mem_cons_of_mem _ hd)) hlt)

/-- A natural number of 64 bits is kept as it is. -/
theorem value?_decimal {n : Nat} (hn : n < 2 ^ 64) :
    (Lexeme.ofNat n).value? = some (.integer n) := by
  have hvalue : Nat.ofDigitChars 10 (Nat.toDigits 10 n) 0 = n :=
    Nat.ofDigitChars_toDigits (by decide) (by decide)
  have hgather : gather 0 (decimal n) = (n, []) := by
    have hdigits : ∀ c ∈ Nat.toDigits 10 n, c.isDigit = true :=
      fun c hc => Nat.isDigit_of_mem_toDigits (by decide) (by decide) hc
    rw [decimal, gather_digits hdigits (by rwa [hvalue]), hvalue]
  simp only [Lexeme.value?, Lexeme.ofNat, hgather, and_self, true_or, ↓reduceIte,
    Bool.false_eq_true]

end Number

end SealedGateway.Json
