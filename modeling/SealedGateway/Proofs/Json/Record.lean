import SealedGateway.Json.Record
import SealedGateway.Proofs.Json.Ignored
import SealedGateway.Proofs.Json.Value

/-!
# Records

The texts that spell a record as an object (**`Grammar.Record`**): its members stand in any order
among those under other keys, with blanks between all tokens. The reader goes member by member
(`entryReader`); what it holds are the fields of those behind it, latest first, and no name twice.

- **`record?_record`**: what the grammar derives is read.
- **`Fields.lookup_perm`**: the order of fields does not count where each has a name of its own.
- **`record?_printRecord`**: a record is read back as it was written.
-/

namespace SealedGateway.Json

/-! ## Grammar -/

namespace Grammar

/-- The spellings of a member of a record with the field names `names`, and what it adds to the
fields of the record. -/
inductive Entry (names : List String) : Bytes → Fields → Prop where
  | field {p : Pair String Json} (hkey : p.HasKey) (hname : p.key.value ∈ names)
      (h : Value (maxDepth - 1) p.value.text p.value.value) : Entry names p.octets [p.member]
  /-- Under another key there can be any value. -/
  | foreign {p : Pair String Unit} (hkey : p.HasKey) (hname : p.key.value ∉ names)
      (h : Ignored p.value.text) : Entry names p.octets []

/-- The spellings of a record as an object, and its fields in the order of their text. -/
inductive Record (names : List String) : Bytes → Fields → Prop where
  | empty {w w₁ w₂ : Bytes} (hw : Blanks w) (hw₁ : Blanks w₁) (hw₂ : Blanks w₂) :
      Record names (w ++ Ascii.openBrace :: (w₁ ++ Ascii.closeBrace :: w₂)) []
  | members {w w' : Bytes} {entries : List (Bytes × Fields)} (hw : Blanks w) (hw' : Blanks w')
      (hne : entries ≠ []) (h : ∀ e ∈ entries, Entry names e.1 e.2)
      (hnodup : ((entries.flatMap Prod.snd).map Prod.fst).Nodup) :
      Record names
        (w ++ Ascii.openBrace :: (commas (entries.map Prod.fst) ++ Ascii.closeBrace :: w'))
        (entries.flatMap Prod.snd)

end Grammar

open Grammar

/-! ## Members -/

variable {names : List String} {fields kept : Fields} {fuel : Nat} {r s t w : Bytes}

/-- The fields with a member of the name `k`, whose value stands in front of `s`, and the rest. -/
def readMember? (names : List String) (fuel : Nat) (fields : Fields) (k : String) (s : Bytes) :
    Option (Fields × Bytes) :=
  if k ∈ names then
    if (fields.lookup k).isSome then none
    else (value? fuel (maxDepth - 1) s).map fun (v, r) => ((k, v) :: fields, r)
  else (skip? fuel .value [] s).map fun r => (fields, r)

/-- The fields of a record that goes on with `s` once `fields` are read. -/
def afterMember (names : List String) (fuel : Nat) (fields : Fields) (s : Bytes) : Option Fields :=
  match skipBlank s with
  | Ascii.comma :: r => recordMembers? names fuel fields r
  | Ascii.closeBrace :: r => atEnd fields r
  | _ => none

theorem atEnd_blanks (hw : Blanks w) : atEnd fields w = some fields := by
  have hskip : skipBlank w = [] := by
    have h := skipBlank_append hw []
    rw [List.append_nil] at h
    exact h
  rw [atEnd, if_pos hskip]

theorem recordMembers?_pair {α : Type} {p : Pair String α} (hkey : p.HasKey) :
    recordMembers? names (fuel + 1) fields (p.octets ++ r) =
      (readMember? names fuel fields p.key.value (p.value.octets ++ r)).bind fun (fields, r) =>
        afterMember names fuel fields r := by
  obtain ⟨t, htext, hname⟩ := hkey
  have hquote := skipBlank_pair htext r
  rw [recordMembers?, hquote]
  split
  next s' heq =>
    rw [← (List.cons.inj heq).2, string?_text hname]
    dsimp only
    rw [skipBlank_colon]
    split
    next r' heq =>
      rw [← (List.cons.inj heq).2, ← readMember?]
      cases readMember? names fuel fields p.key.value (p.value.octets ++ r) <;> rfl
    next hne => exact absurd rfl (hne _)
  next hne => exact absurd rfl (hne _)

/-- One member, read in front of what follows it. -/
theorem recordMembers?_entry (h : Entry names t kept) (hfuel : t.length < fuel)
    (hnodup : ((kept.reverse ++ fields).map Prod.fst).Nodup) (hr : Delimited r) :
    recordMembers? names (fuel + 1) fields (t ++ r) =
      afterMember names fuel (kept.reverse ++ fields) r := by
  cases h with
  | @field p hkey hname h =>
    have hfresh : fields.lookup p.key.value = none := by
      rw [List.lookup_eq_none_iff]
      intro m hm
      refine bne_iff_ne.mpr fun heq => (List.nodup_cons.mp hnodup).1 ?_
      show p.key.value ∈ fields.map Prod.fst
      exact heq ▸ List.mem_map_of_mem hm
    have hread : readMember? names fuel fields p.key.value (p.value.octets ++ r) =
        some (p.member :: fields, p.value.after ++ r) := by
      rw [readMember?, if_pos hname, hfresh, value?_slot h.reads (p.length_value hfuel) hr]
      rfl
    rw [recordMembers?_pair hkey, hread]
    show afterMember names fuel (p.member :: fields) (p.value.after ++ r) = _
    rw [afterMember, skipBlank_append p.value.blanks_after]
    rfl
  | @foreign p hkey hname h =>
    have hread : readMember? names fuel fields p.key.value (p.value.octets ++ r) =
        some (fields, p.value.after ++ r) := by
      rw [readMember?, if_neg hname, skip?_ignored h (p.length_value hfuel) hr]
      rfl
    rw [recordMembers?_pair hkey, hread]
    show afterMember names fuel fields (p.value.after ++ r) = _
    rw [afterMember, skipBlank_append p.value.blanks_after]
    rfl

/-- The reader of the members of a record. -/
def entryReader (names : List String) : PartReader (Bytes × Fields) Fields Fields where
  octets := Prod.fst
  read := recordMembers? names
  after := afterMember names
  next := fun fields e => e.2.reverse ++ fields
  Ready := fun fields entries => (∀ e ∈ entries, Entry names e.1 e.2) ∧
    (((entries.flatMap Prod.snd).reverse ++ fields).map Prod.fst).Nodup
  ready_tail := by
    rintro fields e entries ⟨h, hnodup⟩
    rw [List.flatMap_cons, List.reverse_append, List.append_assoc] at hnodup
    exact ⟨fun e' he' => h e' (List.mem_cons_of_mem _ he'), hnodup⟩
  read_part := by
    rintro fuel fields e entries r ⟨h, hnodup⟩ hfuel hr
    rw [List.flatMap_cons, List.reverse_append, List.append_assoc] at hnodup
    have hfirst : ((e.2.reverse ++ fields).map Prod.fst).Nodup :=
      hnodup.sublist ((List.sublist_append_right _ _).map Prod.fst)
    exact recordMembers?_entry (h e List.mem_cons_self) hfuel hfirst hr
  after_comma := rfl

theorem recordMembers?_commas {entries : List (Bytes × Fields)} (hne : entries ≠ [])
    (h : ∀ e ∈ entries, Entry names e.1 e.2)
    (hnodup : ((entries.flatMap Prod.snd).map Prod.fst).Nodup)
    (hfuel : (commas (entries.map Prod.fst)).length + 1 < fuel) (hw : Blanks w) :
    recordMembers? names fuel [] (commas (entries.map Prod.fst) ++ Ascii.closeBrace :: w) =
      some (entries.flatMap Prod.snd).reverse := by
  have hfields : entries.foldl (entryReader names).next [] =
      (entries.flatMap Prod.snd).reverse := by
    show entries.foldl (fun fields e => e.2.reverse ++ fields) [] = _
    rw [List.foldl_flip_append_eq_append, List.append_nil, List.flatMap, List.reverse_flatten,
      List.map_map]
    rfl
  have hready : (entryReader names).Ready [] entries := by
    refine ⟨h, ?_⟩
    rw [List.append_nil, List.map_reverse]
    exact (List.reverse_perm _).nodup_iff.mpr hnodup
  have hclose : Delimited (Ascii.closeBrace :: w) := by simp [Delimited]
  obtain ⟨n, hread⟩ := (entryReader names).read_commas hne hready hclose hfuel
  rw [hfields] at hread
  exact hread.trans (atEnd_blanks hw)

/-! ## Records -/

/-- A member without the blanks before it. -/
def Grammar.Pair.strip {κ α : Type} (p : Pair κ α) : Pair κ α :=
  { p with key := { p.key with before := [], blanks_before := blanks_nil } }

theorem octets_strip {κ α : Type} {p : Pair κ α} (h : p.key.text = Ascii.quote :: t) :
    ∃ u, p.strip.octets = Ascii.quote :: u ∧
      ∀ r, skipBlank (p.octets ++ r) = Ascii.quote :: (u ++ r) := by
  refine ⟨t ++ (p.key.after ++ Ascii.colon :: p.value.octets), ?_, fun r => ?_⟩
  · show p.key.text ++ p.key.after ++ _ = _
    rw [h, List.cons_append, List.cons_append, List.append_assoc]
    rfl
  · rw [skipBlank_pair h, List.append_assoc, List.append_assoc]
    rfl

/-- Without the blanks before it, a member starts with its key and adds the same. -/
theorem Grammar.Entry.strip (h : Entry names t kept) :
    ∃ u, Entry names (Ascii.quote :: u) kept ∧
      ∀ r, skipBlank (t ++ r) = Ascii.quote :: (u ++ r) := by
  cases h with
  | @field p hkey hname h =>
    obtain ⟨t, htext, ht⟩ := hkey
    obtain ⟨u, hu, hskip⟩ := octets_strip htext
    have hstripped : Entry names p.strip.octets [p.strip.member] := .field ⟨t, htext, ht⟩ hname h
    exact ⟨u, hu ▸ hstripped, hskip⟩
  | @foreign p hkey hname h =>
    obtain ⟨t, htext, ht⟩ := hkey
    obtain ⟨u, hu, hskip⟩ := octets_strip htext
    have hstripped : Entry names p.strip.octets [] := .foreign ⟨t, htext, ht⟩ hname h
    exact ⟨u, hu ▸ hstripped, hskip⟩

/-- How a record goes on behind its opening brace. -/
def afterRecordBrace? (names : List String) (s : Bytes) : Option Fields :=
  match skipBlank s with
  | Ascii.closeBrace :: r => atEnd [] r
  | r => recordMembers? names (r.length + 1) [] r

theorem record?_brace (hw : Blanks w) :
    record? names (w ++ Ascii.openBrace :: s) = afterRecordBrace? names s := by
  rw [record?, skipBlank_append hw]
  rfl

/-- **What the grammar derives is read**, latest field first. -/
theorem record?_record (h : Record names s fields) : record? names s = some fields.reverse := by
  cases h with
  | @empty w w₁ w₂ hw hw₁ hw₂ =>
    rw [record?_brace hw, afterRecordBrace?, skipBlank_append hw₁]
    exact atEnd_blanks hw₂
  | @members w w' entries hw hw' hne h hnodup =>
    obtain ⟨e, entries, rfl⟩ := List.exists_cons_of_ne_nil hne
    obtain ⟨u, hu, hskip⟩ := (h e List.mem_cons_self).strip
    obtain ⟨v, hv⟩ := exists_commas (entries.map Prod.fst)
    -- The count of steps is taken behind the blanks in front of the first member.
    have hstripped : ∀ e' ∈ (Ascii.quote :: u, e.2) :: entries, Entry names e'.1 e'.2 :=
      List.forall_mem_cons.mpr ⟨hu, fun e' he' => h e' (List.mem_cons_of_mem _ he')⟩
    have hread : afterRecordBrace? names
        (commas ((e :: entries).map Prod.fst) ++ Ascii.closeBrace :: w') =
          recordMembers? names ((u ++ (v ++ Ascii.closeBrace :: w')).length + 2) []
            (commas (((Ascii.quote :: u, e.2) :: entries).map Prod.fst) ++
              Ascii.closeBrace :: w') := by
      rw [List.map_cons, hv, List.append_assoc, afterRecordBrace?, hskip, List.map_cons, hv,
        List.append_assoc]
      rfl
    have hfields : ((Ascii.quote :: u, e.2) :: entries).flatMap Prod.snd =
        (e :: entries).flatMap Prod.snd := rfl
    rw [record?_brace hw, hread, ← hfields]
    refine recordMembers?_commas (List.cons_ne_nil _ _) hstripped (hfields ▸ hnodup) ?_ hw'
    rw [List.map_cons, hv]
    simp only [List.length_append, List.length_cons]
    omega

/-- The order of fields does not count where each has a name of its own. -/
theorem Fields.lookup_perm {fields' : Fields} (h : fields.Perm fields')
    (hnodup : (fields.map Prod.fst).Nodup) (name : String) :
    fields.lookup name = fields'.lookup name := by
  induction h with
  | nil => rfl
  | cons m h ih => rw [List.lookup_cons, List.lookup_cons, ih (List.nodup_cons.mp hnodup).2]
  | swap m m' fields =>
    have hne : m'.1 ≠ m.1 := fun heq =>
      (List.nodup_cons.mp hnodup).1 (heq ▸ List.mem_cons_self)
    rw [List.lookup_cons, List.lookup_cons, List.lookup_cons, List.lookup_cons]
    by_cases hname : name = m.1
    · have hname' : name ≠ m'.1 := fun heq => hne (heq.symm.trans hname)
      simp only [hname, beq_self_eq_true, beq_eq_false_iff_ne.mpr (hname ▸ hname')]
    · simp only [beq_eq_false_iff_ne.mpr hname]
  | trans h₁ h₂ ih₁ ih₂ =>
    exact (ih₁ hnodup).trans (ih₂ ((h₁.map Prod.fst).nodup_iff.mp hnodup))

/-! ## Writing -/

/-- What a reader needs of the fields that are written. -/
structure Readable (names : List String) (parts : List Part) : Prop where
  known : ∀ p ∈ parts, p.name ∈ names
  reads : ∀ p ∈ parts, Reads (maxDepth - 1) p.text p.value
  nodup : (parts.map Part.name).Nodup

/-- What is written is a spelling of the record. -/
theorem record_printRecord {parts : List Part} (h : Readable names parts) :
    Record names (Utf8.encode (printRecord (parts.map Part.field))) (parts.map Part.member) := by
  rw [encode_record]
  by_cases hne : parts = []
  · subst hne
    exact .empty blanks_nil blanks_nil blanks_nil
  · let entries := parts.map fun p => (p.pair.octets, [p.member])
    have htexts : entries.map Prod.fst = parts.map fun p => p.pair.octets := by
      simp [entries]
    have hfields : entries.flatMap Prod.snd = parts.map Part.member := by
      rw [List.flatMap_map, List.map_eq_flatMap]
    have hspelled : ∀ e ∈ entries, Entry names e.1 e.2 := by
      intro e he
      obtain ⟨p, hp, rfl⟩ := List.mem_map.mp he
      exact .field p.hasKey_pair (h.known p hp) (h.reads p hp)
    have hnodup : ((parts.map Part.member).map Prod.fst).Nodup := by
      rw [List.map_map]
      exact h.nodup
    rw [← hfields] at hnodup
    rw [← htexts, ← hfields]
    have hne' : entries ≠ [] := fun heq => hne (List.map_eq_nil_iff.mp heq)
    exact .members blanks_nil blanks_nil hne' hspelled hnodup

theorem record?_printRecord {parts : List Part} (h : Readable names parts) :
    record? names (Utf8.encode (printRecord (parts.map Part.field))) =
      some (parts.map Part.member).reverse :=
  record?_record (record_printRecord h)

end SealedGateway.Json
