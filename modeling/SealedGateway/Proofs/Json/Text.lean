import SealedGateway.Json.Text
import SealedGateway.Proofs.Text.Utf8

/-!
# String literals

A character can be spelled in several ways inside a literal: by its octets, by a letter behind a
backslash, by its code unit or by a pair of them (**`Grammar.Character`**). A literal is read as the
text whose characters it spells, whichever way each of them is spelled: the reader goes octet by
octet, so it is followed through one spelling (`stringOctets?_character`), and by induction through
a literal.

- **`string?_text`**: what the grammar derives is read, behind the opening quotation mark.
- **`text_literal`**: what is written is in the grammar, so **`string?_literal`**: it is read back.
- **`skipString?_marks`**: a literal that is not kept is passed over, whatever its escapes denote.
-/

namespace SealedGateway.Json

/-- The octets of characters. -/
def octets (cs : List Char) : Bytes := cs.flatMap String.utf8EncodeChar

theorem octets_append (cs ds : List Char) : octets (cs ++ ds) = octets cs ++ octets ds :=
  List.flatMap_append

/-- The octets of the literal of `s` behind its opening quotation mark. -/
def literal (s : String) : Bytes := octets (s.toList.flatMap escape) ++ [Ascii.quote]

theorem encode_quote (s : String) : Utf8.encode (quote s) = Ascii.quote :: literal s := by
  have hopen : String.utf8EncodeChar '"' = [Ascii.quote] := by decide
  rw [quote, Utf8.encode_ofList, List.flatMap_cons, List.flatMap_append, hopen]
  rfl

/-! ## Grammar -/

/-- An octet that stands for itself. -/
structure Plain (b : UInt8) : Prop where
  printable : 0x20 ≤ b.toNat
  ne_quote : b ≠ Ascii.quote
  ne_backslash : b ≠ Ascii.backslash

namespace Grammar

/-- The letters that stand for a character behind a backslash, with that character. -/
def letters : List (Char × Char) :=
  [('"', '"'), ('\\', '\\'), ('/', '/'), ('b', '\x08'), ('f', '\x0c'), ('n', '\n'), ('r', '\r'),
    ('t', '\t')]

/-- The spellings of a character. -/
inductive Character : Bytes → Char → Prop where
  | plain {c : Char} (hquote : c ≠ '"') (hbackslash : c ≠ '\\') (hcontrol : ¬ c.toNat < 0x20) :
      Character (String.utf8EncodeChar c) c
  | letter {e c : Char} (h : (e, c) ∈ letters) :
      Character [Ascii.backslash, UInt8.ofNat e.toNat] c
  | unit {a b c d : UInt8} {u : Nat} (h : hex4? a b c d = some u)
      (hlow : isLowSurrogate u = false) (hhigh : isHighSurrogate u = false) :
      Character [Ascii.backslash, Ascii.lowerU, a, b, c, d] (Char.ofNat u)
  /-- Two code units that are the halves of a surrogate pair. -/
  | pair {a b c d a' b' c' d' : UInt8} {u l : Nat} (hu : hex4? a b c d = some u)
      (hl : hex4? a' b' c' d' = some l) (hhigh : isHighSurrogate u = true)
      (hlow : isLowSurrogate l = true) :
      Character
        [Ascii.backslash, Ascii.lowerU, a, b, c, d, Ascii.backslash, Ascii.lowerU, a', b', c', d']
        (Char.ofNat (pairCodePoint u l))

/-- The spellings of a text, with the closing quotation mark. -/
inductive Text : Bytes → List Char → Prop where
  | closed : Text [Ascii.quote] []
  | more {p t : Bytes} {c : Char} {cs : List Char} (hp : Character p c) (ht : Text t cs) :
      Text (p ++ t) (c :: cs)

/-- What can stand in a literal that is not kept, with the closing quotation mark. -/
inductive Marks : Bytes → Prop where
  | closed : Marks [Ascii.quote]
  | plain {b : UInt8} {t : Bytes} (h : Plain b) (ht : Marks t) : Marks (b :: t)
  | letter {e c : Char} {t : Bytes} (h : (e, c) ∈ letters) (ht : Marks t) :
      Marks (Ascii.backslash :: UInt8.ofNat e.toNat :: t)
  | unit {a b c d : UInt8} {t : Bytes} (h : (hex4? a b c d).isSome = true) (ht : Marks t) :
      Marks (Ascii.backslash :: Ascii.lowerU :: a :: b :: c :: d :: t)

end Grammar

/-! ## One octet, one escape -/

variable {done r : Bytes} {b e : UInt8}

theorem Plain.of_le (h : 0x80 ≤ b.toNat) : Plain b where
  printable := Nat.le_trans (by decide) h
  ne_quote := by rintro rfl; exact absurd h (by decide)
  ne_backslash := by rintro rfl; exact absurd h (by decide)

theorem Plain.not_refused (h : Plain b) : ¬ (b < Ascii.space ∨ b = Ascii.backslash) := by
  rintro (hlt | heq)
  · have := UInt8.lt_iff_toNat_lt.mp hlt
    exact absurd h.printable (Nat.not_le.mpr this)
  · exact h.ne_backslash heq

theorem stringOctets?_plain (h : Plain b) :
    stringOctets? done (b :: r) = stringOctets? (b :: done) r := by
  rw [stringOctets?, if_neg h.not_refused]
  · exact h.ne_quote
  · exact fun _ _ _ _ _ heq _ => h.ne_backslash heq
  · exact fun _ _ heq _ => h.ne_backslash heq

theorem stringOctets?_plains {bs : Bytes} (h : ∀ b ∈ bs, Plain b) :
    stringOctets? done (bs ++ r) = stringOctets? (bs.reverse ++ done) r := by
  induction bs generalizing done with
  | nil => rfl
  | cons b bs ih =>
    rw [List.cons_append, stringOctets?_plain (h b List.mem_cons_self),
      ih fun b' hb' => h b' (List.mem_cons_of_mem _ hb'), List.reverse_cons, List.append_assoc]
    rfl

theorem stringOctets?_simpleEscape (h : simpleEscape? e = some b) :
    stringOctets? done (Ascii.backslash :: e :: r) = stringOctets? (b :: done) r := by
  unfold simpleEscape? at h
  split at h <;> cases h <;> rfl

theorem stringOctets?_unicode {a b c d : UInt8} {u : Nat} (h : hex4? a b c d = some u)
    (hlow : isLowSurrogate u = false) (hhigh : isHighSurrogate u = false) :
    stringOctets? done (Ascii.backslash :: Ascii.lowerU :: a :: b :: c :: d :: r) =
      stringOctets? ((String.utf8EncodeChar (Char.ofNat u)).reverse ++ done) r := by
  have heq := stringOctets?.eq_3 done a b c d r
  simp only [h, hlow, hhigh, Bool.false_eq_true, ↓reduceIte] at heq
  exact heq

theorem not_isLowSurrogate {u : Nat} (h : isHighSurrogate u = true) : isLowSurrogate u = false := by
  simp only [isHighSurrogate, isLowSurrogate, Bool.and_eq_true, decide_eq_true_eq,
    Bool.and_eq_false_iff, decide_eq_false_iff_not] at h ⊢
  omega

/-- How a literal goes on behind the code unit `u` of a pair and the escape of its other half. -/
def afterHigh? (done : Bytes) (u : Nat) (r : Bytes) : Option Nat → Option (Bytes × Bytes)
  | some l =>
    if isLowSurrogate l then
      stringOctets? ((String.utf8EncodeChar (Char.ofNat (pairCodePoint u l))).reverse ++ done) r
    else none
  | none => none

theorem stringOctets?_pair {a b c d a' b' c' d' : UInt8} {u l : Nat} (hu : hex4? a b c d = some u)
    (hl : hex4? a' b' c' d' = some l) (hhigh : isHighSurrogate u = true)
    (hlow : isLowSurrogate l = true) :
    stringOctets? done (Ascii.backslash :: Ascii.lowerU :: a :: b :: c :: d ::
        Ascii.backslash :: Ascii.lowerU :: a' :: b' :: c' :: d' :: r) =
      stringOctets?
        ((String.utf8EncodeChar (Char.ofNat (pairCodePoint u l))).reverse ++ done) r := by
  have heq := stringOctets?.eq_3 done a b c d
    (Ascii.backslash :: Ascii.lowerU :: a' :: b' :: c' :: d' :: r)
  simp only [hu, hhigh, not_isLowSurrogate hhigh, Bool.false_eq_true, ↓reduceIte] at heq
  refine heq.trans ?_
  show afterHigh? done u r (hex4? a' b' c' d') = _
  rw [hl]
  exact if_pos hlow

/-! ## One character -/

/-- A character that is not escaped has octets that stand for themselves. -/
theorem plain_of_mem {c : Char} (hquote : c ≠ '"') (hbackslash : c ≠ '\\')
    (hcontrol : ¬ c.toNat < 0x20) (hb : b ∈ String.utf8EncodeChar c) : Plain b := by
  by_cases h : c.toNat < 0x80
  · rw [Utf8.utf8EncodeChar_of_lt h, List.mem_singleton] at hb
    have hn : b.toNat = c.toNat := by rw [hb, UInt8.toNat_ofNat']; omega
    have hne : ∀ d : Char, c ≠ d → c.toNat ≠ d.toNat := fun d hd heq => hd (Char.toNat_inj.mp heq)
    refine ⟨by omega, ?_, ?_⟩
    · rintro rfl
      exact hne _ hquote hn.symm
    · rintro rfl
      exact hne _ hbackslash hn.symm
  · exact Plain.of_le (Utf8.le_of_mem_utf8EncodeChar (by omega) hb)

open Grammar (Character Text Marks letters)

theorem simpleEscape?_letters : ∀ l ∈ letters,
    simpleEscape? (UInt8.ofNat l.1.toNat) = some (UInt8.ofNat l.2.toNat) ∧
      String.utf8EncodeChar l.2 = [UInt8.ofNat l.2.toNat] := by
  decide

theorem stringOctets?_character {p : Bytes} {c : Char} (h : Character p c) :
    stringOctets? done (p ++ r) =
      stringOctets? ((String.utf8EncodeChar c).reverse ++ done) r := by
  cases h with
  | plain hquote hbackslash hcontrol =>
    exact stringOctets?_plains fun b hb => plain_of_mem hquote hbackslash hcontrol hb
  | letter h =>
    obtain ⟨hescape, hoctets⟩ := simpleEscape?_letters _ h
    rw [hoctets]
    exact stringOctets?_simpleEscape hescape
  | unit h hlow hhigh => exact stringOctets?_unicode h hlow hhigh
  | pair hu hl hhigh hlow => exact stringOctets?_pair hu hl hhigh hlow

/-! ## Texts -/

theorem stringOctets?_text {t : Bytes} {cs : List Char} (h : Text t cs) :
    stringOctets? done (t ++ r) = some ((octets cs).reverse ++ done, r) := by
  induction h generalizing done with
  | closed => rfl
  | @more p t c cs hp ht ih =>
    have hc : octets (c :: cs) = String.utf8EncodeChar c ++ octets cs := rfl
    rw [List.append_assoc, stringOctets?_character hp, ih, hc, List.reverse_append,
      List.append_assoc]

/-- A literal is read as the text that it spells. -/
theorem string?_text {t : Bytes} {s : String} (h : Text t s.toList) :
    string? (t ++ r) = some (s, r) := by
  have hs : (octets s.toList).reverse.reverse = Utf8.encode s := by
    rw [List.reverse_reverse, Utf8.encode_eq_flatMap, octets]
  rw [string?, stringOctets?_text h, List.append_nil]
  simp only [bind, Option.bind, hs, Utf8.decode?_encode, pure]

theorem skipString?_plain (h : Plain b) : skipString? (b :: r) = skipString? r := by
  rw [skipString?, if_neg h.not_refused]
  · exact h.ne_quote
  · exact fun _ _ _ _ _ heq _ => h.ne_backslash heq
  · exact fun _ _ heq _ => h.ne_backslash heq

theorem skipString?_simpleEscape (h : simpleEscape? e = some b) :
    skipString? (Ascii.backslash :: e :: r) = skipString? r := by
  unfold simpleEscape? at h
  split at h <;> cases h <;> rfl

/-- A literal is passed over to its end. -/
theorem skipString?_marks {t : Bytes} (h : Marks t) : skipString? (t ++ r) = some r := by
  induction h with
  | closed => rfl
  | plain h ht ih => exact (skipString?_plain h).trans ih
  | letter h ht ih => exact (skipString?_simpleEscape (simpleEscape?_letters _ h).1).trans ih
  | @unit a b c d t h ht ih =>
    have heq := skipString?.eq_3 a b c d (t ++ r)
    rw [if_pos h] at heq
    exact heq.trans ih

/-! ## Writing -/

/-- The octet of a hexadecimal digit. -/
def digitOctet (v : Nat) : UInt8 := UInt8.ofNat (Hex.digit v).toNat

theorem hex4?_control {n : Nat} (h : n < 0x20) :
    hex4? Ascii.zero Ascii.zero (digitOctet (n / 16)) (digitOctet (n % 16)) = some n := by
  revert n
  decide

theorem octets_control {n : Nat} (h : n < 0x20) :
    octets ['\\', 'u', '0', '0', Hex.digit (n / 16), Hex.digit (n % 16)] =
      [Ascii.backslash, Ascii.lowerU, Ascii.zero, Ascii.zero, digitOctet (n / 16),
        digitOctet (n % 16)] := by
  revert n
  decide

/-- The escape of a control character is its code unit. -/
theorem character_control {c : Char} (h : c.toNat < 0x20) :
    Character (octets ['\\', 'u', '0', '0', Hex.digit (c.toNat / 16), Hex.digit (c.toNat % 16)])
      c := by
  have hlow : isLowSurrogate c.toNat = false := by simp [isLowSurrogate]; omega
  have hhigh : isHighSurrogate c.toNat = false := by simp [isHighSurrogate]; omega
  have hunit := Character.unit (hex4?_control h) hlow hhigh
  rw [Char.ofNat_toNat] at hunit
  rw [octets_control h]
  exact hunit

theorem character_escape (c : Char) : Character (octets (escape c)) c := by
  unfold escape
  -- Seven characters are spelled with a letter of their own.
  iterate 7
    split
    next h => subst h; exact .letter (by decide)
  split
  next h => exact character_control h
  next hquote hbackslash _ _ _ _ _ hcontrol =>
    have hc : octets [c] = String.utf8EncodeChar c := List.append_nil _
    rw [hc]
    exact .plain hquote hbackslash hcontrol

theorem text_escape (cs : List Char) : Text (octets (cs.flatMap escape) ++ [Ascii.quote]) cs := by
  induction cs with
  | nil => exact .closed
  | cons c cs ih =>
    rw [List.flatMap_cons, octets_append, List.append_assoc]
    exact .more (character_escape c) ih

/-- What is written is a spelling of the text. -/
theorem text_literal (s : String) : Text (literal s) s.toList := text_escape s.toList

theorem string?_literal (s : String) : string? (literal s ++ r) = some (s, r) :=
  string?_text (text_literal s)

end SealedGateway.Json
