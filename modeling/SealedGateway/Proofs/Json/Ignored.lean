import SealedGateway.Proofs.Json.Grammar

/-!
# Values that are not kept

The texts that can stand where a value is passed over (**`Grammar.Ignored`**). Only the spelling
counts: they nest to any depth, their numbers have any size, and their escapes need not denote a
character.

The reader keeps the containers still open on a stack. A text **`Skips`** if it is taken off the
front of what is read and leaves the stack as it was, whatever stands behind it and below; the parts
of a container do so on the stack with its bracket, and by induction on them the container does.

- **`Ignored.skips`**: what the grammar derives is taken off.
- **`skip?_ignored`**: so a value is passed over exactly to its end.
-/

namespace SealedGateway.Json

/-! ## Grammar -/

namespace Grammar

/-- The key has the spelling of a key. -/
def Pair.HasMarks {κ α : Type} (p : Pair κ α) : Prop :=
  ∃ t, p.key.text = Ascii.quote :: t ∧ Marks t

/-- The spellings of a value that is not kept. -/
inductive Ignored : Bytes → Prop where
  | null : Ignored [Ascii.lowerN, Ascii.lowerU, Ascii.lowerL, Ascii.lowerL]
  | true : Ignored [Ascii.lowerT, Ascii.lowerR, Ascii.lowerU, Ascii.lowerE]
  | false : Ignored [Ascii.lowerF, Ascii.lowerA, Ascii.lowerL, Ascii.lowerS, Ascii.lowerE]
  | string {t : Bytes} (h : Marks t) : Ignored (Ascii.quote :: t)
  | number {t : Bytes} {l : Number.Lexeme} (h : Numeral t l) : Ignored t
  | emptyArray {w : Bytes} (hw : Blanks w) :
      Ignored (Ascii.openBracket :: (w ++ [Ascii.closeBracket]))
  | array {items : List (Slot Unit)} (hne : items ≠ []) (h : ∀ i ∈ items, Ignored i.text) :
      Ignored (Ascii.openBracket :: (commas (items.map Slot.octets) ++ [Ascii.closeBracket]))
  | emptyObject {w : Bytes} (hw : Blanks w) :
      Ignored (Ascii.openBrace :: (w ++ [Ascii.closeBrace]))
  | object {pairs : List (Pair Unit Unit)} (hne : pairs ≠ []) (hkeys : ∀ p ∈ pairs, p.HasMarks)
      (h : ∀ p ∈ pairs, Ignored p.value.text) :
      Ignored (Ascii.openBrace :: (commas (pairs.map Pair.octets) ++ [Ascii.closeBrace]))

end Grammar

open Grammar

variable {fuel : Nat} {opened : List Bracket} {k : Bracket} {r s s' t : Bytes}

theorem Grammar.Ignored.starts (h : Ignored t) : Starts t := by
  cases h with
  | number h => exact h.starts
  | _ => exact ⟨_, _, rfl, rfl, by decide⟩

/-! ## Brackets -/

namespace Bracket

/-- The octet that opens a container. -/
def opening : Bracket → UInt8
  | array => Ascii.openBracket
  | object => Ascii.openBrace

/-- The octet that closes a container. -/
def closing : Bracket → UInt8
  | array => Ascii.closeBracket
  | object => Ascii.closeBrace

/-- What the parts of a container are. -/
def expected : Bracket → Expected
  | array => .value
  | object => .member

end Bracket

/-- A value is passed over behind blanks as it is in front of them. -/
theorem skip?_value_congr (h : skipBlank s = skipBlank s') :
    skip? fuel .value opened s = skip? fuel .value opened s' := by
  cases fuel with
  | zero => rw [skip?, skip?]
  | succ fuel => rw [skip?, skip?, h]

/-- Inside a container, all that is read can stand behind blanks. -/
theorem skip?_congr {e : Expected} (h : skipBlank s = skipBlank s') :
    skip? fuel e (k :: opened) s = skip? fuel e (k :: opened) s' := by
  cases e with
  | value => exact skip?_value_congr h
  | member =>
    cases fuel with
    | zero => rw [skip?, skip?]
    | succ fuel => rw [skip?, skip?, h]
  | next =>
    cases fuel with
    | zero => rw [skip?, skip?]
    | succ fuel => cases k <;> rw [skip?, skip?, h]

/-- How a text goes on behind the opening octet of a container. -/
def afterOpening? (fuel : Nat) (opened : List Bracket) : Bracket → Bytes → Option Bytes
  | .array, s =>
    match skipBlank s with
    | Ascii.closeBracket :: r => skip? fuel .next opened r
    | r => skip? fuel .value (.array :: opened) r
  | .object, s =>
    match skipBlank s with
    | Ascii.closeBrace :: r => skip? fuel .next opened r
    | r => skip? fuel .member (.object :: opened) r

theorem skip?_opening (k : Bracket) :
    skip? (fuel + 1) .value opened (k.opening :: s) = afterOpening? fuel opened k s := by
  cases k <;> rfl

theorem afterOpening?_empty {w : Bytes} (hw : Blanks w) (k : Bracket) :
    afterOpening? fuel opened k (w ++ k.closing :: r) = skip? fuel .next opened r := by
  cases k with
  | array =>
    rw [afterOpening?, skipBlank_append hw]
    rfl
  | object =>
    rw [afterOpening?, skipBlank_append hw]
    rfl

theorem afterOpening?_parts (k : Bracket) {b : UInt8} (hs : skipBlank s = b :: t)
    (hb : b ≠ k.closing) :
    afterOpening? fuel opened k s = skip? fuel k.expected (k :: opened) s := by
  have hcongr : skip? fuel k.expected (k :: opened) (b :: t) =
      skip? fuel k.expected (k :: opened) s := by
    refine skip?_congr ?_
    rw [← hs, skipBlank_skipBlank]
  cases k with
  | array =>
    rw [afterOpening?, hs]
    split
    next heq => exact absurd (List.cons.inj heq).1 hb
    next => exact hcongr
  | object =>
    rw [afterOpening?, hs]
    split
    next heq => exact absurd (List.cons.inj heq).1 hb
    next => exact hcongr

/-- Behind a part of a container stands a comma, and then the next part. -/
theorem skip?_comma (k : Bracket) :
    skip? (fuel + 1) .next (k :: opened) (Ascii.comma :: r) =
      skip? fuel k.expected (k :: opened) r := by
  cases k <;> rfl

theorem skip?_close (k : Bracket) :
    skip? (fuel + 1) .next (k :: opened) (k.closing :: r) = skip? fuel .next opened r := by
  cases k <;> rfl

/-! ## Texts that are taken off -/

/-- A value is taken off, in at most as many steps as it has octets. -/
def Skips (t : Bytes) : Prop :=
  ∃ n ≤ t.length, ∀ {fuel : Nat} {opened : List Bracket} {r : Bytes}, Number.Ended r →
    skip? (fuel + n) .value opened (t ++ r) = skip? fuel .next opened r

/-- A part of a container is taken off. -/
def SkipsIn (k : Bracket) (t : Bytes) : Prop :=
  ∃ n ≤ t.length, ∀ {fuel : Nat} {opened : List Bracket} {r : Bytes}, Delimited r →
    skip? (fuel + n) k.expected (k :: opened) (t ++ r) = skip? fuel .next (k :: opened) r

/-- What follows a scalar is what follows the value. -/
theorem skip?_scalar {b : UInt8} (hblank : isBlank b = false) (harray : b ≠ Ascii.openBracket)
    (hobject : b ≠ Ascii.openBrace) (h : skipScalar? (b :: t) = some r) :
    skip? (fuel + 1) .value opened (b :: t) = skip? fuel .next opened r := by
  rw [skip?.eq_def]
  dsimp only
  rw [skipBlank_cons hblank]
  split
  next heq => exact absurd (List.cons.inj heq).1 harray
  next heq => exact absurd (List.cons.inj heq).1 hobject
  next => rw [h]

theorem skipScalar?_numeral {b : UInt8} {l : Number.Lexeme} (hb : Leads b)
    (h : Number.lexeme? (b :: s) = some (l, r)) : skipScalar? (b :: s) = some r := by
  unfold skipScalar?
  split
  case h_5 => rw [h]; rfl
  all_goals exact absurd (List.cons.inj ‹b :: s = _›).1 (hb.ne rfl (by decide))

theorem skips_numeral {l : Number.Lexeme} (h : Numeral t l) : Skips t := by
  obtain ⟨b, t', rfl, hb⟩ := h.leads
  refine ⟨1, Nat.le_add_left 1 _, fun {fuel opened r} hr => ?_⟩
  have hlexeme := Number.lexeme?_numeral h hr
  exact skip?_scalar hb.not_blank (hb.ne rfl (by decide)) (hb.ne rfl (by decide))
    (skipScalar?_numeral hb hlexeme)

/-- The blanks around a value are taken off with it. -/
theorem skip?_slot {α : Type} {i : Slot α} (h : Skips i.text) :
    ∃ n ≤ i.octets.length, ∀ {fuel : Nat} {k : Bracket} {opened : List Bracket} {r : Bytes},
      Delimited r → skip? (fuel + n) .value (k :: opened) (i.octets ++ r) =
        skip? fuel .next (k :: opened) r := by
  obtain ⟨n, hn, hskip⟩ := h
  refine ⟨n, ?_, fun {fuel k opened r} hr => ?_⟩
  · rw [Slot.octets, List.length_append, List.length_append]
    omega
  · rw [skip?_congr (skipBlank_octets i r), hskip (ended_append i.blanks_after hr.ended)]
    exact skip?_congr (skipBlank_append i.blanks_after r)

/-- How an object goes on behind the key of a member. -/
def afterKey? (fuel : Nat) (opened : List Bracket) : Option Bytes → Option Bytes
  | none => none
  | some s =>
    match skipBlank s with
    | Ascii.colon :: r => skip? fuel .value opened r
    | _ => none

theorem skipsIn_pair {κ α : Type} {p : Pair κ α} (hkey : p.HasMarks) (h : Skips p.value.text) :
    SkipsIn .object p.octets := by
  obtain ⟨t, htext, hmarks⟩ := hkey
  obtain ⟨n, hn, hskip⟩ := skip?_slot h
  refine ⟨n + 1, ?_, fun {fuel opened r} hr => ?_⟩
  · rw [Pair.octets, List.length_append, List.length_cons]
    omega
  · have hquote := skipBlank_pair htext r
    have hstep : skip? (fuel + n + 1) .member (.object :: opened) (p.octets ++ r) =
        afterKey? (fuel + n) (.object :: opened)
          (skipString? (t ++ (p.key.after ++ Ascii.colon :: (p.value.octets ++ r)))) := by
      rw [skip?_congr (hquote.trans (skipBlank_cons rfl).symm)]
      rfl
    have hcolon : afterKey? (fuel + n) (.object :: opened)
        (some (p.key.after ++ Ascii.colon :: (p.value.octets ++ r))) =
          skip? (fuel + n) .value (.object :: opened) (p.value.octets ++ r) := by
      rw [afterKey?, skipBlank_colon]
      rfl
    rw [skipString?_marks hmarks, hcolon] at hstep
    exact hstep.trans (hskip hr)

/-- The parts of a container are taken off with its closing octet. -/
theorem skip?_commas {α : Type} (k : Bracket) (f : α → Bytes) {as : List α} (hne : as ≠ [])
    (h : ∀ a ∈ as, SkipsIn k (f a)) :
    ∃ n ≤ (commas (as.map f)).length + 1, ∀ {fuel : Nat} {opened : List Bracket} {r : Bytes},
      skip? (fuel + n) k.expected (k :: opened) (commas (as.map f) ++ k.closing :: r) =
        skip? fuel .next opened r := by
  induction as with
  | nil => exact absurd rfl hne
  | cons a as ih =>
    obtain ⟨n, hn, hskip⟩ := h a List.mem_cons_self
    rw [List.map_cons]
    by_cases hrest : as = []
    · subst hrest
      rw [List.map_nil, commas_singleton]
      refine ⟨1 + n, by omega, fun {fuel opened r} => ?_⟩
      rw [← Nat.add_assoc, hskip (by cases k <;> simp [Delimited, Bracket.closing]), skip?_close]
    · have htexts : as.map f ≠ [] := fun heq => hrest (List.map_eq_nil_iff.mp heq)
      obtain ⟨m, hm, hskips⟩ := ih hrest fun a' ha' => h a' (List.mem_cons_of_mem _ ha')
      rw [commas_cons _ htexts]
      refine ⟨m + 1 + n, ?_, fun {fuel opened r} => ?_⟩
      · rw [List.length_append, List.length_cons]
        omega
      · rw [List.append_assoc, List.cons_append, ← Nat.add_assoc,
          hskip (by simp [Delimited]), ← Nat.add_assoc, skip?_comma, hskips]

theorem skips_empty {w : Bytes} (hw : Blanks w) (k : Bracket) :
    Skips (k.opening :: (w ++ [k.closing])) := by
  refine ⟨1, Nat.le_add_left 1 _, fun {fuel opened r} _ => ?_⟩
  rw [List.cons_append, List.append_assoc, skip?_opening]
  exact afterOpening?_empty hw k

theorem skips_container {α : Type} (k : Bracket) (f : α → Bytes) {as : List α} (hne : as ≠ [])
    (h : ∀ a ∈ as, SkipsIn k (f a))
    (hstart : ∀ r, ∃ b t, skipBlank (commas (as.map f) ++ r) = b :: t ∧ b ≠ k.closing) :
    Skips (k.opening :: (commas (as.map f) ++ [k.closing])) := by
  obtain ⟨n, hn, hskip⟩ := skip?_commas k f hne h
  refine ⟨n + 1, ?_, fun {fuel opened r} _ => ?_⟩
  · rw [List.length_cons, List.length_append, List.length_singleton]
    omega
  · obtain ⟨b, t, hb, hclose⟩ := hstart (k.closing :: r)
    rw [List.cons_append, List.append_assoc, List.singleton_append, ← Nat.add_assoc, skip?_opening,
      afterOpening?_parts k hb hclose, hskip]

/-- **What the grammar derives is taken off.** -/
theorem Grammar.Ignored.skips (h : Ignored t) : Skips t := by
  induction h with
  | null | true | false => exact ⟨1, by decide, fun _ => rfl⟩
  | @string t h =>
    refine ⟨1, Nat.le_add_left 1 _, fun {fuel opened r} _ => ?_⟩
    exact skip?_scalar rfl (by decide) (by decide) (skipString?_marks h)
  | number h => exact skips_numeral h
  | emptyArray hw => exact skips_empty hw .array
  | @array items hne h ih =>
    refine skips_container .array Slot.octets hne (fun i hi => ?_) fun r => ?_
    · obtain ⟨n, hn, hskip⟩ := skip?_slot (ih i hi)
      exact ⟨n, hn, hskip⟩
    · obtain ⟨b, t, hb, -, hclose⟩ := starts_commas hne (fun i hi => (h i hi).starts) r
      exact ⟨b, t, hb, hclose⟩
  | emptyObject hw => exact skips_empty hw .object
  | @object pairs hne hkeys h ih =>
    refine skips_container .object Pair.octets hne (fun p hp => ?_) fun r => ?_
    · exact skipsIn_pair (hkeys p hp) (ih p hp)
    · obtain ⟨t, ht⟩ := quote_commas hne (fun p hp => (hkeys p hp).imp fun _ => And.left) r
      exact ⟨_, t, ht, by decide⟩

/-- **A value that is not kept is passed over to its end**, with enough steps left. -/
theorem skip?_ignored {α : Type} {i : Slot α} (h : Ignored i.text)
    (hfuel : i.octets.length < fuel) (hr : Delimited r) :
    skip? fuel .value [] (i.octets ++ r) = some (i.after ++ r) := by
  obtain ⟨n, hn, hskip⟩ := h.skips
  have hlength : i.text.length ≤ i.octets.length := by
    rw [Slot.octets, List.length_append, List.length_append]
    omega
  obtain ⟨m, rfl⟩ : ∃ m, fuel = m + 1 + n := ⟨fuel - n - 1, by omega⟩
  rw [skip?_value_congr (skipBlank_octets i r), hskip (ended_append i.blanks_after hr.ended)]
  rfl

end SealedGateway.Json
