import Mathlib.Data.List.Basic
import SealedGateway.KeyAgreement
import SealedGateway.Net.ClientName
import SealedGateway.Proofs.Text.Split

/-!
# Identifiers that connections have

A connection is registered under the name that its client asked for, or under a generated one. Both
are names in the sense of **`IsName`**, which says it character by character.

- **`ofQuery?_eq_some_iff`**: the first parameter `user` of a query decides, whether or not its
  value is a name.
- **`isName_generated`**: generated identifiers are names, so a client could ask for one.
-/

namespace SealedGateway.ClientName

/-- The characters of a name: letters and digits of ASCII, and five marks. -/
def Safe (c : Char) : Prop :=
  ('A' ≤ c ∧ c ≤ 'Z') ∨ ('a' ≤ c ∧ c ≤ 'z') ∨ ('0' ≤ c ∧ c ≤ '9') ∨ c ∈ ['_', '.', ':', '@', '-']

/-- A name. -/
structure IsName (name : String) : Prop where
  one_le_length : 1 ≤ name.length
  length_le : name.length ≤ 128
  safe : ∀ c ∈ name.toList, Safe c

theorem allows_iff {c : Char} : allows c = true ↔ Safe c := by
  have halphanum : c.isAlphanum =
      ((decide ('A' ≤ c ∧ c ≤ 'Z') || decide ('a' ≤ c) && decide (c ≤ 'z')) ||
        decide ('0' ≤ c) && decide (c ≤ '9')) := rfl
  simp [allows, Safe, halphanum, or_assoc]

theorem isValid_iff {name : List Char} : isValid name = true ↔ IsName (String.ofList name) := by
  have hlength : (String.ofList name).length = name.length := by simp
  rw [isValid, Bool.and_eq_true, Bool.and_eq_true, Bool.not_eq_true', List.isEmpty_eq_false_iff,
    decide_eq_true_iff, List.all_eq_true]
  constructor
  · rintro ⟨⟨hne, hle⟩, hall⟩
    refine ⟨?_, hlength ▸ hle, fun c hc => ?_⟩
    · rw [hlength]
      exact List.length_pos_iff.mpr hne
    · rw [String.toList_ofList] at hc
      exact allows_iff.mp (hall c hc)
  · intro h
    refine ⟨⟨List.length_pos_iff.mp ?_, hlength ▸ h.length_le⟩, fun c hc => ?_⟩
    · rw [← hlength]
      exact h.one_le_length
    · exact allows_iff.mpr (h.safe c (by rwa [String.toList_ofList]))

/-! ## What a query asks for -/

theorem requested?_eq_some_iff {query : String} {value : List Char} :
    requested? query = some value ↔ ∃ before after,
      query.toList.splitOn '&' = before ++ ("user=".toList ++ value) :: after ∧
        ∀ pair ∈ before, ¬ "user=".toList <+: pair := by
  have hother : ∀ pair : List Char,
      "user=".toList.isPrefixOf? pair = none ↔ ¬ "user=".toList <+: pair := by
    intro pair
    rw [← List.isPrefixOf_iff_prefix, ← List.isSome_isPrefixOf?_eq_isPrefixOf,
      Option.not_isSome_iff_eq_none]
  simp only [requested?, split_eq_splitOn, List.findSome?_eq_some_iff, hother,
    List.isPrefixOf?_eq_some_iff_append_eq]
  constructor
  · rintro ⟨before, pair, after, hsplit, rfl, hbefore⟩
    exact ⟨before, after, hsplit, hbefore⟩
  · rintro ⟨before, after, hsplit, hbefore⟩
    exact ⟨before, _, after, hsplit, rfl, hbefore⟩

/-- A query asks for a name just if the first of its pairs that sets `user` sets it to that name. -/
theorem ofQuery?_eq_some_iff {query : String} {name : String} :
    ofQuery? (some query) = some name ↔
      (∃ before after,
        query.toList.splitOn '&' = before ++ ("user=".toList ++ name.toList) :: after ∧
          ∀ pair ∈ before, ¬ "user=".toList <+: pair) ∧ IsName name := by
  have hread : ofQuery? (some query) = some name ↔
      ∃ value, requested? query = some value ∧ isValid value = true ∧
        String.ofList value = name := by
    simp [ofQuery?, Option.bind_eq_some_iff]
  rw [hread]
  constructor
  · rintro ⟨value, hvalue, hvalid, rfl⟩
    rw [@String.toList_ofList value]
    exact ⟨requested?_eq_some_iff.mp hvalue, isValid_iff.mp hvalid⟩
  · rintro ⟨hvalue, hname⟩
    refine ⟨name.toList, requested?_eq_some_iff.mpr hvalue, isValid_iff.mpr ?_,
      String.ofList_toList⟩
    rwa [String.ofList_toList]

theorem isName_of_query {query : Option String} {name : String}
    (h : ofQuery? query = some name) : IsName name := by
  cases query with
  | none => cases h
  | some query => exact (ofQuery?_eq_some_iff.mp h).2

/-! ## Generated identifiers -/

theorem safe_digit : ∀ v < 16, Safe (Hex.digit v) := by
  simp only [← allows_iff]
  decide

theorem safe_hex {b : Bytes} : ∀ c ∈ (Hex.encode b).toList, Safe c := by
  intro c hc
  rw [Hex.encode, String.toList_ofList] at hc
  obtain ⟨x, -, hx⟩ := List.mem_flatMap.mp hc
  have hlt := x.toNat_lt
  simp only [List.mem_cons, List.not_mem_nil, or_false] at hx
  rcases hx with rfl | rfl
  · exact safe_digit _ (by omega)
  · exact safe_digit _ (by omega)

theorem length_hex (b : Bytes) : (Hex.encode b).length = 2 * b.length := by
  induction b with
  | nil => rfl
  | cons x b ih =>
    simp only [Hex.encode, String.length_ofList, List.flatMap_cons, List.length_append,
      List.length_cons, List.length_nil] at ih ⊢
    omega

theorem isName_generated (e : Entropy) : IsName (generateConnectionId e).1 := by
  have hlength : (generateConnectionId e).1.length = 32 :=
    (length_hex _).trans (congrArg (2 * ·) (e.draw 16).1.length_eq)
  refine ⟨?_, ?_, safe_hex⟩ <;> rw [hlength] <;> decide

end SealedGateway.ClientName
