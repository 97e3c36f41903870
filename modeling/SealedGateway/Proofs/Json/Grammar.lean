import Mathlib.Data.List.DropRight
import SealedGateway.Json.Parser
import SealedGateway.Proofs.Json.Number
import SealedGateway.Proofs.Json.Text

/-!
# Values

The texts that spell a value, blanks between all tokens included (**`Grammar.Value`**). A container
is spelled by parts with blanks around them and commas between them, where a part is spelled like a
value of its own (**`Grammar.Slot`**).

- **`PartReader.read_commas`**: a reader that is right about one part of a container is right about
  all of them. It carries the induction of arrays, objects and records.
- **`Value.reads`**: what the grammar derives is read, in front of anything that does not go on with
  a number, and with as many steps as it has octets.
- **`Value.mono`**: a text that may nest deeper still spells the same.
-/

namespace SealedGateway.Json

/-! ## Grammar -/

namespace Grammar

/-- Blanks only. -/
def Blanks (w : Bytes) : Prop := ∀ b ∈ w, isBlank b = true

instance (w : Bytes) : Decidable (Blanks w) := List.decidableBAll _ w

theorem blanks_nil : Blanks [] := nofun

/-- A part of a text with the blanks around it, and what it spells. -/
structure Slot (α : Type) where
  before : Bytes
  text : Bytes
  after : Bytes
  value : α
  blanks_before : Blanks before
  blanks_after : Blanks after

/-- The octets of a part. -/
def Slot.octets {α : Type} (s : Slot α) : Bytes := s.before ++ (s.text ++ s.after)

/-- Texts with commas between them. -/
def commas (texts : List Bytes) : Bytes := [Ascii.comma].intercalate texts

/-- A key with a value, which spell a member of an object. -/
structure Pair (κ α : Type) where
  key : Slot κ
  value : Slot α

namespace Pair

variable {κ α : Type}

/-- The octets of a member. -/
def octets (p : Pair κ α) : Bytes := p.key.octets ++ Ascii.colon :: p.value.octets

/-- The member that is spelled. -/
def member (p : Pair κ α) : κ × α := (p.key.value, p.value.value)

/-- The key is spelled. -/
def HasKey (p : Pair String α) : Prop :=
  ∃ t, p.key.text = Ascii.quote :: t ∧ Text t p.key.value.toList

end Pair

/-- The spellings of a value, in which at most `depth` containers are inside each other. -/
inductive Value : (depth : Nat) → Bytes → Json → Prop where
  | null {depth : Nat} :
      Value depth [Ascii.lowerN, Ascii.lowerU, Ascii.lowerL, Ascii.lowerL] .null
  | true {depth : Nat} :
      Value depth [Ascii.lowerT, Ascii.lowerR, Ascii.lowerU, Ascii.lowerE] (.bool true)
  | false {depth : Nat} :
      Value depth [Ascii.lowerF, Ascii.lowerA, Ascii.lowerL, Ascii.lowerS, Ascii.lowerE]
        (.bool false)
  | string {depth : Nat} {t : Bytes} {s : String} (h : Text t s.toList) :
      Value depth (Ascii.quote :: t) (.string s)
  /-- A number within the finite binary64 values. -/
  | number {depth : Nat} {t : Bytes} {l : Number.Lexeme} {n : Number} (h : Numeral t l)
      (hn : l.value? = some n) : Value depth t (.number n)
  | emptyArray {depth : Nat} {w : Bytes} (hw : Blanks w) :
      Value (depth + 1) (Ascii.openBracket :: (w ++ [Ascii.closeBracket])) (.array [])
  | array {depth : Nat} {items : List (Slot Json)} (hne : items ≠ [])
      (h : ∀ i ∈ items, Value depth i.text i.value) :
      Value (depth + 1)
        (Ascii.openBracket :: (commas (items.map Slot.octets) ++ [Ascii.closeBracket]))
        (.array (items.map Slot.value))
  | emptyObject {depth : Nat} {w : Bytes} (hw : Blanks w) :
      Value (depth + 1) (Ascii.openBrace :: (w ++ [Ascii.closeBrace])) (.object [])
  | object {depth : Nat} {pairs : List (Pair String Json)} (hne : pairs ≠ [])
      (hkeys : ∀ p ∈ pairs, p.HasKey) (h : ∀ p ∈ pairs, Value depth p.value.text p.value.value) :
      Value (depth + 1)
        (Ascii.openBrace :: (commas (pairs.map Pair.octets) ++ [Ascii.closeBrace]))
        (ofMembers (pairs.map Pair.member))

theorem commas_cons (t : Bytes) {ts : List Bytes} (h : ts ≠ []) :
    commas (t :: ts) = t ++ Ascii.comma :: commas ts := by
  obtain ⟨t', ts, rfl⟩ := List.exists_cons_of_ne_nil h
  rw [commas, List.intercalate_cons_cons, List.append_assoc]
  rfl

theorem commas_singleton (t : Bytes) : commas [t] = t := by
  simp [commas]

/-- Texts with commas between them start with the first of them. -/
theorem exists_commas (ts : List Bytes) : ∃ u, ∀ t, commas (t :: ts) = t ++ u := by
  by_cases hts : ts = []
  · subst hts
    exact ⟨[], fun t => by rw [commas_singleton, List.append_nil]⟩
  · exact ⟨_, fun t => commas_cons t hts⟩

theorem exists_commas_append {α : Type} (f : α → Bytes) {as : List α} (hne : as ≠ [])
    (r : Bytes) : ∃ a ∈ as, ∃ r', commas (as.map f) ++ r = f a ++ r' := by
  obtain ⟨a, as, rfl⟩ := List.exists_cons_of_ne_nil hne
  obtain ⟨u, hu⟩ := exists_commas (as.map f)
  exact ⟨a, List.mem_cons_self, u ++ r, by rw [List.map_cons, hu, List.append_assoc]⟩

/-- A text that may nest deeper spells the same. -/
theorem Value.mono {depth depth' : Nat} {t : Bytes} {v : Json} (h : Value depth t v)
    (hle : depth ≤ depth') : Value depth' t v := by
  induction h generalizing depth' with
  | null => exact .null
  | true => exact .true
  | false => exact .false
  | string h => exact .string h
  | number h hn => exact .number h hn
  | emptyArray hw =>
    obtain ⟨d, rfl⟩ := Nat.exists_eq_add_of_lt hle
    exact .emptyArray hw
  | array hne h ih =>
    obtain ⟨d, rfl⟩ := Nat.exists_eq_add_of_lt hle
    exact .array hne fun i hi => ih i hi (by omega)
  | emptyObject hw =>
    obtain ⟨d, rfl⟩ := Nat.exists_eq_add_of_lt hle
    exact .emptyObject hw
  | object hne hkeys h ih =>
    obtain ⟨d, rfl⟩ := Nat.exists_eq_add_of_lt hle
    exact .object hne hkeys fun p hp => ih p hp (by omega)

end Grammar

open Grammar

/-! ## Blanks -/

variable {fuel depth : Nat} {r s s' w : Bytes}

theorem skipBlank_cons {b : UInt8} (h : isBlank b = false) : skipBlank (b :: r) = b :: r := by
  simp [skipBlank, h]

theorem skipBlank_append (hw : Blanks w) (s : Bytes) : skipBlank (w ++ s) = skipBlank s :=
  List.dropWhile_append_of_pos hw

theorem skipBlank_skipBlank (s : Bytes) : skipBlank (skipBlank s) = skipBlank s :=
  List.dropWhile_idempotent isBlank s

/-- A value is read behind blanks as it is in front of them. -/
theorem value?_congr (h : skipBlank s = skipBlank s') :
    value? fuel depth s = value? fuel depth s' := by
  cases fuel with
  | zero => rw [value?, value?]
  | succ fuel =>
    rw [value?.eq_def (fuel + 1) depth s, value?.eq_def (fuel + 1) depth s']
    dsimp only
    rw [h]

theorem items?_congr {done : List Json} (h : skipBlank s = skipBlank s') :
    items? fuel depth done s = items? fuel depth done s' := by
  cases fuel with
  | zero => rw [items?, items?]
  | succ fuel => rw [items?, items?, value?_congr h]

theorem members?_congr {done : List (String × Json)} (h : skipBlank s = skipBlank s') :
    members? fuel depth done s = members? fuel depth done s' := by
  cases fuel with
  | zero => rw [members?, members?]
  | succ fuel => rw [members?, members?, h]

/-- What does not go on with a number, behind blanks too. -/
theorem ended_append (hw : Blanks w) (hr : Number.Ended r) : Number.Ended (w ++ r) := by
  have hblank : ∀ n < 256, isBlank (UInt8.ofNat n) = true → Ascii.isDigit (UInt8.ofNat n) = false ∧
      UInt8.ofNat n ≠ Ascii.dot ∧ UInt8.ofNat n ≠ Ascii.lowerE ∧
      UInt8.ofNat n ≠ Ascii.upperE := by
    decide +kernel
  cases w with
  | nil => exact hr
  | cons b w =>
    intro c hc
    obtain rfl := Option.some.inj hc
    have hall := hblank b.toNat b.toNat_lt
    rw [UInt8.ofNat_toNat] at hall
    exact hall (hw b List.mem_cons_self)

/-! ## What values start with -/

/-- What no blank and no end of an array is taken for. -/
def Starts (t : Bytes) : Prop :=
  ∃ b t', t = b :: t' ∧ isBlank b = false ∧ b ≠ Ascii.closeBracket

theorem isBlank_of_isDigit {b : UInt8} (hb : Ascii.isDigit b = true) : isBlank b = false := by
  have hall : ∀ n < 256, Ascii.isDigit (UInt8.ofNat n) = true →
      isBlank (UInt8.ofNat n) = false := by
    decide +kernel
  have := hall b.toNat b.toNat_lt
  rw [UInt8.ofNat_toNat] at this
  exact this hb

/-- What a number can start with. -/
def Leads (b : UInt8) : Prop := Ascii.isDigit b = true ∨ b = Ascii.minus

theorem Leads.ne {b c : UInt8} (hb : Leads b) (hdigit : Ascii.isDigit c = false)
    (hminus : c ≠ Ascii.minus) : b ≠ c := by
  rintro rfl
  rcases hb with hb | hb
  · rw [hdigit] at hb
    cases hb
  · exact hminus hb

theorem Leads.not_blank {b : UInt8} (hb : Leads b) : isBlank b = false := by
  rcases hb with hb | rfl
  · exact isBlank_of_isDigit hb
  · rfl

theorem Grammar.Numeral.leads {t : Bytes} {l : Number.Lexeme} (h : Numeral t l) :
    ∃ b t', t = b :: t' ∧ Leads b := by
  cases h with
  | positive hw hf he =>
    obtain ⟨b, bs, rfl, hb⟩ := Number.exists_digit hw
    exact ⟨b, _, rfl, .inl hb⟩
  | negative hw hf he => exact ⟨Ascii.minus, _, rfl, .inr rfl⟩

theorem Grammar.Numeral.starts {t : Bytes} {l : Number.Lexeme} (h : Numeral t l) : Starts t := by
  obtain ⟨b, t', rfl, hb⟩ := h.leads
  exact ⟨b, t', rfl, hb.not_blank, hb.ne rfl (by decide)⟩

theorem Grammar.Value.starts {t : Bytes} {v : Json} (h : Value depth t v) : Starts t := by
  cases h with
  | number h _ => exact h.starts
  | _ => exact ⟨_, _, rfl, rfl, by decide⟩

theorem Starts.append {t : Bytes} (h : Starts t) (r : Bytes) : Starts (t ++ r) := by
  obtain ⟨b, t', rfl, hblank, hclose⟩ := h
  exact ⟨b, t' ++ r, rfl, hblank, hclose⟩

theorem Starts.skipBlank_eq {t : Bytes} (h : Starts t) : skipBlank t = t := by
  obtain ⟨b, t', rfl, hblank, -⟩ := h
  exact skipBlank_cons hblank

theorem skipBlank_octets {α : Type} (i : Slot α) (r : Bytes) :
    skipBlank (i.octets ++ r) = skipBlank (i.text ++ (i.after ++ r)) := by
  rw [Slot.octets, List.append_assoc, List.append_assoc, skipBlank_append i.blanks_before]

/-- Behind the blanks in front of them, parts start as a part does. -/
theorem starts_commas {α : Type} {items : List (Slot α)} (hne : items ≠ [])
    (h : ∀ i ∈ items, Starts i.text) (r : Bytes) :
    Starts (skipBlank (commas (items.map Slot.octets) ++ r)) := by
  obtain ⟨i, hi, r', hr⟩ := exists_commas_append Slot.octets hne r
  have hstarts : Starts (i.text ++ (i.after ++ r')) := (h i hi).append _
  rw [hr, skipBlank_octets, hstarts.skipBlank_eq]
  exact hstarts

/-! ## Parts -/

/-- A text is read as a value: in front of anything that does not go on with a number, and with as
many steps as it has octets. -/
def ReadAs (depth : Nat) (t : Bytes) (v : Json) : Prop :=
  ∀ {fuel : Nat} {r : Bytes}, t.length < fuel → Number.Ended r →
    value? fuel depth (t ++ r) = some (v, r)

/-- What can follow a value inside a container. -/
def Delimited (r : Bytes) : Prop :=
  ∀ b ∈ r.head?, b = Ascii.comma ∨ b = Ascii.closeBracket ∨ b = Ascii.closeBrace

theorem Delimited.ended (h : Delimited r) : Number.Ended r := by
  intro b hb
  rcases h b hb with rfl | rfl | rfl <;> decide

theorem value?_slot {i : Slot Json} (h : ReadAs depth i.text i.value)
    (hfuel : i.octets.length < fuel) (hr : Delimited r) :
    value? fuel depth (i.octets ++ r) = some (i.value, i.after ++ r) := by
  have hlength : i.text.length < fuel := by
    rw [Slot.octets, List.length_append, List.length_append] at hfuel
    omega
  rw [value?_congr (skipBlank_octets i r)]
  exact h hlength (ended_append i.blanks_after hr.ended)

/-- A reader of the parts of a container. What is read of them is held in a `δ`; each part that it
is ready for takes it a step further. -/
structure PartReader (α δ β : Type) where
  octets : α → Bytes
  /-- Goes on in front of a part. -/
  read : Nat → δ → Bytes → Option β
  /-- Goes on behind a part. -/
  after : Nat → δ → Bytes → Option β
  next : δ → α → δ
  Ready : δ → List α → Prop
  ready_tail {done : δ} {a : α} {as : List α} : Ready done (a :: as) → Ready (next done a) as
  read_part {fuel : Nat} {done : δ} {a : α} {as : List α} {r : Bytes} : Ready done (a :: as) →
    (octets a).length < fuel → Delimited r →
      read (fuel + 1) done (octets a ++ r) = after fuel (next done a) r
  after_comma {fuel : Nat} {done : δ} {r : Bytes} :
    after fuel done (Ascii.comma :: r) = read fuel done r

/-- With as many steps as they have octets, the parts of a container are read to its end. -/
theorem PartReader.read_commas {α δ β : Type} (R : PartReader α δ β) {done : δ} {as : List α}
    {close : UInt8} (hne : as ≠ []) (hready : R.Ready done as) (hclose : Delimited (close :: r))
    (hfuel : (commas (as.map R.octets)).length + 1 < fuel) :
    ∃ n, R.read fuel done (commas (as.map R.octets) ++ close :: r) =
      R.after n (as.foldl R.next done) (close :: r) := by
  induction as generalizing fuel done with
  | nil => exact absurd rfl hne
  | cons a as ih =>
    obtain ⟨fuel, rfl⟩ : ∃ n, fuel = n + 1 := ⟨fuel - 1, by omega⟩
    rw [List.map_cons] at hfuel ⊢
    rw [List.foldl_cons]
    by_cases hrest : as = []
    · subst hrest
      rw [List.map_nil, commas_singleton] at hfuel ⊢
      exact ⟨fuel, R.read_part hready (by omega) hclose⟩
    · have htexts : as.map R.octets ≠ [] := fun heq => hrest (List.map_eq_nil_iff.mp heq)
      rw [commas_cons _ htexts, List.length_append, List.length_cons] at hfuel
      rw [commas_cons _ htexts, List.append_assoc, List.cons_append,
        R.read_part hready (by omega) (by simp [Delimited]), R.after_comma]
      exact ih hrest (R.ready_tail hready) (by omega)

/-! ## Arrays -/

section Items

variable {done : List Json} {i : Slot Json} {items : List (Slot Json)}

/-- How an array goes on behind an item. -/
def afterItem? (fuel depth : Nat) (done : List Json) (s : Bytes) : Option (Json × Bytes) :=
  match skipBlank s with
  | Ascii.comma :: r => items? fuel depth done r
  | Ascii.closeBracket :: r => some (.array done.reverse, r)
  | _ => none

theorem items?_slot (h : ReadAs depth i.text i.value) (hfuel : i.octets.length < fuel)
    (hr : Delimited r) :
    items? (fuel + 1) depth done (i.octets ++ r) = afterItem? fuel depth (i.value :: done) r := by
  have hafter : afterItem? fuel depth (i.value :: done) (i.after ++ r) =
      afterItem? fuel depth (i.value :: done) r := by
    rw [afterItem?, afterItem?, skipBlank_append i.blanks_after]
  rw [items?, value?_slot h hfuel hr]
  exact hafter

/-- The reader of the items of an array. -/
def itemReader (depth : Nat) : PartReader (Slot Json) (List Json) (Json × Bytes) where
  octets := Slot.octets
  read := fun fuel => items? fuel depth
  after := fun fuel => afterItem? fuel depth
  next := fun done i => i.value :: done
  Ready := fun _ items => ∀ i ∈ items, ReadAs depth i.text i.value
  ready_tail := fun h i hi => h i (List.mem_cons_of_mem _ hi)
  read_part := fun h hfuel hr => items?_slot (h _ List.mem_cons_self) hfuel hr
  after_comma := rfl

theorem items?_commas (hne : items ≠ []) (h : ∀ i ∈ items, ReadAs depth i.text i.value)
    (hfuel : (commas (items.map Slot.octets)).length + 1 < fuel) :
    items? fuel depth [] (commas (items.map Slot.octets) ++ Ascii.closeBracket :: r) =
      some (.array (items.map Slot.value), r) := by
  have hvalues : (items.foldl (itemReader depth).next []).reverse = items.map Slot.value := by
    show (items.foldl (fun done i => i.value :: done) []).reverse = _
    rw [List.foldl_flip_cons_eq_append, List.append_nil, List.reverse_reverse]
  have hclose : Delimited (Ascii.closeBracket :: r) := by simp [Delimited]
  obtain ⟨n, hread⟩ := (itemReader depth).read_commas hne h hclose hfuel
  rw [← hvalues]
  exact hread

end Items

/-- How an array goes on behind its opening bracket. -/
def afterOpenBracket? (fuel depth : Nat) (s : Bytes) : Option (Json × Bytes) :=
  match skipBlank s with
  | Ascii.closeBracket :: r => some (.array [], r)
  | r => items? fuel depth [] r

theorem afterOpenBracket?_items (h : Starts (skipBlank s)) :
    afterOpenBracket? fuel depth s = items? fuel depth [] s := by
  obtain ⟨b, t, hb, -, hclose⟩ := h
  rw [afterOpenBracket?]
  split
  next heq => exact absurd (List.cons.inj (hb.symm.trans heq)).1 hclose
  next => exact items?_congr (skipBlank_skipBlank s)

/-! ## Objects -/

section Members

variable {done : List (String × Json)} {p : Pair String Json}
  {pairs : List (Pair String Json)}

/-- How an object goes on behind a member. -/
def afterPart? (fuel depth : Nat) (done : List (String × Json)) (s : Bytes) :
    Option (Json × Bytes) :=
  match skipBlank s with
  | Ascii.comma :: r => members? fuel depth done r
  | Ascii.closeBrace :: r => some (ofMembers done.reverse, r)
  | _ => none

/-- How an object goes on with the value of a member. -/
def afterColon? (fuel depth : Nat) (done : List (String × Json)) (k : String) :
    Option (Json × Bytes) → Option (Json × Bytes)
  | none => none
  | some (v, s) => afterPart? fuel depth ((k, v) :: done) s

/-- How an object goes on with the name of a member. -/
def afterName? (fuel depth : Nat) (done : List (String × Json)) :
    Option (String × Bytes) → Option (Json × Bytes)
  | none => none
  | some (k, s) =>
    match skipBlank s with
    | Ascii.colon :: s => afterColon? fuel depth done k (value? fuel depth s)
    | _ => none

/-- Behind the blanks before it, a member starts with its key. -/
theorem skipBlank_pair {κ α : Type} {p : Pair κ α} {t : Bytes}
    (h : p.key.text = Ascii.quote :: t) (r : Bytes) :
    skipBlank (p.octets ++ r) =
      Ascii.quote :: (t ++ (p.key.after ++ Ascii.colon :: (p.value.octets ++ r))) := by
  rw [Pair.octets, List.append_assoc, List.cons_append, skipBlank_octets, h, List.cons_append]
  exact skipBlank_cons rfl

theorem skipBlank_colon {κ α : Type} (p : Pair κ α) (r : Bytes) :
    skipBlank (p.key.after ++ Ascii.colon :: r) = Ascii.colon :: r := by
  rw [skipBlank_append p.key.blanks_after]
  exact skipBlank_cons rfl

theorem Grammar.Pair.length_value {κ α : Type} (p : Pair κ α) (h : p.octets.length < fuel) :
    p.value.octets.length < fuel := by
  rw [Pair.octets, List.length_append, List.length_cons] at h
  omega

theorem members?_pair (hkey : p.HasKey) (h : ReadAs depth p.value.text p.value.value)
    (hfuel : p.octets.length < fuel) (hr : Delimited r) :
    members? (fuel + 1) depth done (p.octets ++ r) =
      afterPart? fuel depth (p.member :: done) r := by
  obtain ⟨t, htext, hname⟩ := hkey
  have hquote := skipBlank_pair htext r
  have hstep : members? (fuel + 1) depth done (p.octets ++ r) =
      afterName? fuel depth done
        (string? (t ++ (p.key.after ++ Ascii.colon :: (p.value.octets ++ r)))) := by
    rw [members?_congr (hquote.trans (skipBlank_cons rfl).symm)]
    rfl
  have hafter : afterPart? fuel depth (p.member :: done) (p.value.after ++ r) =
      afterPart? fuel depth (p.member :: done) r := by
    rw [afterPart?, afterPart?, skipBlank_append p.value.blanks_after]
  rw [hstep, string?_text hname, afterName?, skipBlank_colon]
  show afterColon? fuel depth done p.key.value (value? fuel depth (p.value.octets ++ r)) = _
  rw [value?_slot h (p.length_value hfuel) hr]
  exact hafter

/-- The reader of the members of an object. -/
def memberReader (depth : Nat) :
    PartReader (Pair String Json) (List (String × Json)) (Json × Bytes) where
  octets := Pair.octets
  read := fun fuel => members? fuel depth
  after := fun fuel => afterPart? fuel depth
  next := fun done p => p.member :: done
  Ready := fun _ pairs => ∀ p ∈ pairs, p.HasKey ∧ ReadAs depth p.value.text p.value.value
  ready_tail := fun h p hp => h p (List.mem_cons_of_mem _ hp)
  read_part := fun h hfuel hr =>
    members?_pair (h _ List.mem_cons_self).1 (h _ List.mem_cons_self).2 hfuel hr
  after_comma := rfl

theorem members?_commas (hne : pairs ≠ []) (hkeys : ∀ p ∈ pairs, p.HasKey)
    (h : ∀ p ∈ pairs, ReadAs depth p.value.text p.value.value)
    (hfuel : (commas (pairs.map Pair.octets)).length + 1 < fuel) :
    members? fuel depth [] (commas (pairs.map Pair.octets) ++ Ascii.closeBrace :: r) =
      some (ofMembers (pairs.map Pair.member), r) := by
  have hmembers : (pairs.foldl (memberReader depth).next []).reverse = pairs.map Pair.member := by
    show (pairs.foldl (fun done p => p.member :: done) []).reverse = _
    rw [List.foldl_flip_cons_eq_append, List.append_nil, List.reverse_reverse]
  have hclose : Delimited (Ascii.closeBrace :: r) := by simp [Delimited]
  obtain ⟨n, hread⟩ := (memberReader depth).read_commas hne
    (fun p hp => ⟨hkeys p hp, h p hp⟩) hclose hfuel
  rw [← hmembers]
  exact hread

end Members

/-- How an object goes on behind its opening brace. -/
def afterOpenBrace? (fuel depth : Nat) (s : Bytes) : Option (Json × Bytes) :=
  match skipBlank s with
  | Ascii.closeBrace :: r => some (.object [], r)
  | r => members? fuel depth [] r

/-- Behind the blanks in front of them, members start with a quotation mark. -/
theorem quote_commas {κ α : Type} {pairs : List (Pair κ α)} (hne : pairs ≠ [])
    (hkeys : ∀ p ∈ pairs, ∃ t, p.key.text = Ascii.quote :: t) (r : Bytes) :
    ∃ t, skipBlank (commas (pairs.map Pair.octets) ++ r) = Ascii.quote :: t := by
  obtain ⟨p, hp, r', hr⟩ := exists_commas_append Pair.octets hne r
  obtain ⟨t, ht⟩ := hkeys p hp
  exact ⟨_, hr ▸ skipBlank_pair ht r'⟩

theorem afterOpenBrace?_members {t : Bytes} (h : skipBlank s = Ascii.quote :: t) :
    afterOpenBrace? fuel depth s = members? fuel depth [] s := by
  rw [afterOpenBrace?, h]
  exact members?_congr (h.symm ▸ skipBlank_cons rfl)

/-! ## Values -/

/-- What starts like a number is read as one. -/
theorem value?_numeral {t : Bytes} {l : Number.Lexeme} (h : Numeral t l) (hr : Number.Ended r) :
    value? (fuel + 1) depth (t ++ r) = l.value?.map fun n => (.number n, r) := by
  have hlexeme := Number.lexeme?_numeral h hr
  have hblank : skipBlank (t ++ r) = t ++ r := (h.starts.append r).skipBlank_eq
  obtain ⟨b, t', rfl, hb⟩ := h.leads
  rw [List.cons_append] at hlexeme hblank ⊢
  rw [value?.eq_def]
  dsimp only
  rw [hblank]
  -- No other value starts with a digit or a minus.
  have hne : ∀ {c : UInt8} {s : Bytes}, Ascii.isDigit c = false → c ≠ Ascii.minus →
      b :: (t' ++ r) ≠ c :: s :=
    fun hdigit hminus heq => hb.ne hdigit hminus (List.cons.inj heq).1
  split
  case h_8 =>
    rw [hlexeme]
  all_goals
    first
      | exact absurd ‹b :: (t' ++ r) = _› (hne rfl (by decide))
      | exact absurd ‹b :: (t' ++ r) = _› (List.cons_ne_nil b _)

/-- **What the grammar derives is read.** -/
theorem Grammar.Value.reads {t : Bytes} {v : Json} (h : Value depth t v) : ReadAs depth t v := by
  induction h with
  | null | true | false =>
    intro fuel r hfuel _
    obtain ⟨fuel, rfl⟩ := Nat.exists_eq_add_of_lt hfuel
    rfl
  | @string depth t s h =>
    intro fuel r hfuel _
    obtain ⟨fuel, rfl⟩ := Nat.exists_eq_add_of_lt hfuel
    show (string? (t ++ r)).map _ = _
    rw [string?_text h]
    rfl
  | number h hn =>
    intro fuel r hfuel hr
    obtain ⟨fuel, rfl⟩ := Nat.exists_eq_add_of_lt hfuel
    rw [value?_numeral h hr, hn]
    rfl
  | @emptyArray depth w hw =>
    intro fuel r hfuel _
    obtain ⟨fuel, rfl⟩ : ∃ n, fuel = n + 1 := ⟨fuel - 1, by omega⟩
    show afterOpenBracket? fuel depth (w ++ [Ascii.closeBracket] ++ r) = _
    rw [List.append_assoc, afterOpenBracket?, skipBlank_append hw]
    rfl
  | @array depth items hne h ih =>
    intro fuel r hfuel _
    obtain ⟨fuel, rfl⟩ : ∃ n, fuel = n + 1 := ⟨fuel - 1, by omega⟩
    rw [List.length_cons, List.length_append, List.length_singleton] at hfuel
    have hstarts := starts_commas hne (fun i hi => (h i hi).starts) (Ascii.closeBracket :: r)
    show afterOpenBracket? fuel depth
      (commas (items.map Slot.octets) ++ [Ascii.closeBracket] ++ r) = _
    rw [List.append_assoc, List.singleton_append, afterOpenBracket?_items hstarts]
    exact items?_commas hne ih (by omega)
  | @emptyObject depth w hw =>
    intro fuel r hfuel _
    obtain ⟨fuel, rfl⟩ : ∃ n, fuel = n + 1 := ⟨fuel - 1, by omega⟩
    show afterOpenBrace? fuel depth (w ++ [Ascii.closeBrace] ++ r) = _
    rw [List.append_assoc, afterOpenBrace?, skipBlank_append hw]
    rfl
  | @object depth pairs hne hkeys h ih =>
    intro fuel r hfuel _
    obtain ⟨fuel, rfl⟩ : ∃ n, fuel = n + 1 := ⟨fuel - 1, by omega⟩
    rw [List.length_cons, List.length_append, List.length_singleton] at hfuel
    obtain ⟨t, hquote⟩ :=
      quote_commas hne (fun p hp => (hkeys p hp).imp fun _ => And.left) (Ascii.closeBrace :: r)
    show afterOpenBrace? fuel depth
      (commas (pairs.map Pair.octets) ++ [Ascii.closeBrace] ++ r) = _
    rw [List.append_assoc, List.singleton_append, afterOpenBrace?_members hquote]
    exact members?_commas hne hkeys ih (by omega)

end SealedGateway.Json
