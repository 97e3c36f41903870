import SealedGateway.Json.Printer
import SealedGateway.Proofs.Json.Grammar

/-!
# Values read back as they were written

What is written is in the grammar (**`Reads`**): literals, texts and natural numbers by themselves,
and arrays and records by what they are made of.

- **`Reads.array`** and **`Reads.record`**: the two ways of putting values together.
- **`document?`** is how a client reads a body, and **`document?_eq`** what it finds there.
-/

namespace SealedGateway.Json

open Grammar (Slot Pair commas)

variable {height : Nat} {text : String} {v : Json}

/-- `text` spells `v`, in which at most `height` containers are inside each other. -/
def Reads (height : Nat) (text : String) (v : Json) : Prop :=
  Grammar.Value height (Utf8.encode text) v

theorem Reads.mono {height' : Nat} (h : Reads height text v) (hle : height ≤ height') :
    Reads height' text v :=
  Grammar.Value.mono h hle

/-- `text` is a spelling of `v`: it is read in front of any text and with any depth left. -/
def Spells (text : String) (v : Json) : Prop :=
  ∀ fuel depth r, value? (fuel + 1) depth (Utf8.encode text ++ r) = some (v, r)

/-! ## Values without parts -/

theorem spells_quote (s : String) : Spells (quote s) (.string s) := by
  intro fuel depth r
  rw [encode_quote, List.cons_append]
  change (string? (literal s ++ r)).map _ = _
  rw [string?_literal]
  rfl

theorem Reads.null : Reads height "null" .null := by
  have hnull : Utf8.encode "null" = [Ascii.lowerN, Ascii.lowerU, Ascii.lowerL, Ascii.lowerL] := by
    decide
  rw [Reads, hnull]
  exact .null

theorem Reads.quote (s : String) : Reads height (quote s) (.string s) := by
  rw [Reads, encode_quote]
  exact .string (text_literal s)

theorem Reads.bool (b : Bool) : Reads height (if b then "true" else "false") (.bool b) := by
  have htrue : Utf8.encode "true" = [Ascii.lowerT, Ascii.lowerR, Ascii.lowerU, Ascii.lowerE] := by
    decide
  have hfalse : Utf8.encode "false" =
      [Ascii.lowerF, Ascii.lowerA, Ascii.lowerL, Ascii.lowerS, Ascii.lowerE] := by
    decide
  cases b with
  | true =>
    rw [Reads, if_pos rfl, htrue]
    exact .true
  | false =>
    rw [Reads, if_neg (by decide), hfalse]
    exact .false

theorem Reads.natural {n : Nat} (hn : n < 2 ^ 64) :
    Reads height (toString n) (.number (.integer n)) := by
  rw [Reads, Number.encode_toString]
  exact .number (Number.numeral_decimal n) (Number.value?_decimal hn)

/-! ## Arrays -/

/-- A part without blanks around it. -/
def bare {α : Type} (t : Bytes) (a : α) : Slot α :=
  ⟨[], t, [], a, Grammar.blanks_nil, Grammar.blanks_nil⟩

theorem octets_bare {α : Type} (t : Bytes) (a : α) : (bare t a).octets = t := by
  simp [Slot.octets, bare]

theorem encode_intercalate (ts : List String) :
    Utf8.encode (",".intercalate ts) = commas (ts.map Utf8.encode) := by
  have hcomma : Utf8.encode "," = [Ascii.comma] := by decide
  induction ts with
  | nil => rfl
  | cons t ts ih =>
    by_cases hts : ts = []
    · subst hts
      rw [String.intercalate_singleton]
      exact (Grammar.commas_singleton _).symm
    · have htexts : ts.map Utf8.encode ≠ [] := fun heq => hts (List.map_eq_nil_iff.mp heq)
      rw [List.map_cons, Grammar.commas_cons _ htexts, ← ih]
      obtain ⟨t', ts, rfl⟩ := List.exists_cons_of_ne_nil hts
      rw [String.intercalate_cons_cons, Utf8.encode_append, Utf8.encode_append, hcomma,
        List.append_assoc]
      rfl

/-- An array of values spells the array of what they spell. -/
theorem Reads.array {items : List (String × Json)} (h : ∀ i ∈ items, Reads height i.1 i.2) :
    Reads (height + 1) ("[" ++ ",".intercalate (items.map Prod.fst) ++ "]")
      (.array (items.map Prod.snd)) := by
  have hopen : Utf8.encode "[" = [Ascii.openBracket] := by decide
  have hclose : Utf8.encode "]" = [Ascii.closeBracket] := by decide
  rw [Reads, Utf8.encode_append, Utf8.encode_append, hopen, hclose, encode_intercalate]
  by_cases hne : items = []
  · subst hne
    exact .emptyArray nofun
  · let slots := items.map fun i => bare (Utf8.encode i.1) i.2
    have htexts : slots.map Slot.octets = (items.map Prod.fst).map Utf8.encode := by
      simp [slots, octets_bare]
    have hvalues : slots.map Slot.value = items.map Prod.snd := by
      simp [slots, bare]
    have hspelled : ∀ s ∈ slots, Grammar.Value height s.text s.value := by
      intro s hs
      obtain ⟨i, hi, rfl⟩ := List.mem_map.mp hs
      exact h i hi
    rw [← htexts, ← hvalues]
    exact .array (fun heq => hne (List.map_eq_nil_iff.mp heq)) hspelled

/-! ## Records -/

/-- A field of a record: its name, and a text with the value that it spells. -/
structure Part where
  name : String
  text : String
  value : Json

namespace Part

/-- The field as it is written. -/
def field (p : Part) : String × String := (p.name, p.text)

/-- A field that is a text. -/
def ofText (name s : String) : Part := ⟨name, Json.quote s, .string s⟩

/-- The member that is read. -/
def member (p : Part) : String × Json := (p.name, p.value)

/-- The spelling of the field. -/
def pair (p : Part) : Pair String Json :=
  ⟨bare (Ascii.quote :: literal p.name) p.name, bare (Utf8.encode p.text) p.value⟩

theorem hasKey_pair (p : Part) : p.pair.HasKey := ⟨literal p.name, rfl, text_literal p.name⟩

theorem octets_pair (p : Part) :
    p.pair.octets = Utf8.encode (Json.quote p.name ++ ":" ++ p.text) := by
  have hcolon : Utf8.encode ":" = [Ascii.colon] := by decide
  rw [Pair.octets, pair, octets_bare, octets_bare, Utf8.encode_append, Utf8.encode_append, hcolon,
    encode_quote, List.append_assoc]
  rfl

end Part

theorem encode_record (parts : List Part) :
    Utf8.encode (printRecord (parts.map Part.field)) =
      Ascii.openBrace ::
        (commas (parts.map fun p => p.pair.octets) ++ [Ascii.closeBrace]) := by
  have hopen : Utf8.encode "\x7b" = [Ascii.openBrace] := by decide
  have hclose : Utf8.encode "\x7d" = [Ascii.closeBrace] := by decide
  have htexts : ((parts.map Part.field).map fun f => Json.quote f.1 ++ ":" ++ f.2).map Utf8.encode =
      parts.map fun p => p.pair.octets := by
    rw [List.map_map, List.map_map]
    exact List.map_congr_left fun p _ => p.octets_pair.symm
  rw [printRecord, Utf8.encode_append, Utf8.encode_append, hopen, hclose, encode_intercalate,
    htexts]
  rfl

/-- A record of values spells the object of what they spell. -/
theorem Reads.record (p : Part) (parts : List Part)
    (h : ∀ q ∈ p :: parts, Reads height q.text q.value) :
    Reads (height + 1) (printRecord ((p :: parts).map Part.field))
      (ofMembers ((p :: parts).map Part.member)) := by
  have htexts : ((p :: parts).map Part.pair).map Pair.octets =
      (p :: parts).map fun q => q.pair.octets := by
    rw [List.map_map]
    rfl
  have hmembers : ((p :: parts).map Part.pair).map Pair.member = (p :: parts).map Part.member := by
    rw [List.map_map]
    rfl
  rw [Reads, encode_record, ← htexts, ← hmembers]
  refine .object (List.cons_ne_nil _ _) ?_ ?_
  · exact List.forall_mem_map.mpr fun q _ => q.hasKey_pair
  · exact List.forall_mem_map.mpr h

/-! ## Documents -/

/-- The value of a document, behind which there are only blanks. -/
def document? (s : Bytes) : Option Json :=
  match value? (s.length + 1) maxDepth s with
  | some (v, r) => if skipBlank r = [] then some v else none
  | none => none

theorem document?_eq (h : Reads height text v) (hheight : height ≤ maxDepth) :
    document? (Utf8.encode text) = some v := by
  have hread : value? ((Utf8.encode text).length + 1) maxDepth (Utf8.encode text ++ []) =
      some (v, []) := (h.mono hheight).reads (Nat.lt_succ_self _) nofun
  rw [List.append_nil] at hread
  rw [document?, hread]
  rfl

end SealedGateway.Json
