import Mathlib.Algebra.GroupWithZero.Nat
import SealedGateway.Text.Split

/-!
# Splitting what was joined

`split` is the library's `splitOn`, so joining the pieces of a text gives the text back. Pieces that
were joined come back as they are just if none of them holds the separator
(**`split_intercalate_iff`**), and separators in a joined text are those of the pieces and one
between each two of them (**`count_intercalate`**).
-/

namespace SealedGateway

variable {c : Char}

theorem split_eq_splitOn (c : Char) (s : List Char) : split c s = s.splitOn c := by
  induction s with
  | nil => simp [split]
  | cons d s ih =>
    rw [split, List.splitOn_cons_eq_if_modifyHead, ih]
    by_cases hd : d = c
    · simp [hd]
    · simp only [hd, ↓reduceIte, beq_iff_eq]
      cases hs : s.splitOn c with
      | nil => exact absurd hs (List.splitOn_ne_nil c s)
      | cons piece pieces => rfl

/-- No piece holds the separator. -/
theorem notMem_of_mem_split {s piece : List Char} (h : piece ∈ split c s) : c ∉ piece := by
  induction s generalizing piece with
  | nil =>
    rw [split, List.mem_singleton] at h
    exact h ▸ List.not_mem_nil
  | cons d s ih =>
    rw [split] at h
    split at h
    case isTrue hd =>
      rcases List.mem_cons.mp h with rfl | h
      · exact List.not_mem_nil
      · exact ih h
    case isFalse hd =>
      split at h
      case h_1 hs => exact absurd hs (split_ne_nil c s)
      case h_2 first rest hs =>
        rw [hs] at ih
        rcases List.mem_cons.mp h with rfl | h
        · rw [List.mem_cons, not_or]
          exact ⟨Ne.symm hd, ih List.mem_cons_self⟩
        · exact ih (List.mem_cons_of_mem _ h)

/-- Joined pieces come back just if none of them holds the separator. -/
theorem split_intercalate_iff {pieces : List (List Char)} (hne : pieces ≠ []) :
    split c ([c].intercalate pieces) = pieces ↔ ∀ piece ∈ pieces, c ∉ piece := by
  constructor
  · intro h piece hpiece
    rw [← h] at hpiece
    exact notMem_of_mem_split hpiece
  · intro h
    rw [split_eq_splitOn, List.splitOn_intercalate c h hne]

/-- The separators in a joined text. -/
theorem count_intercalate {pieces : List (List Char)} (hne : pieces ≠ []) :
    ([c].intercalate pieces).count c + 1 = (pieces.map (List.count c)).sum + pieces.length := by
  induction pieces with
  | nil => exact absurd rfl hne
  | cons piece pieces ih =>
    cases pieces with
    | nil => simp
    | cons next pieces =>
      have hrest := ih (List.cons_ne_nil _ _)
      rw [List.intercalate_cons_cons, List.count_append, List.count_append,
        List.count_singleton_self]
      simp only [List.map_cons, List.sum_cons, List.length_cons] at hrest ⊢
      omega

end SealedGateway
