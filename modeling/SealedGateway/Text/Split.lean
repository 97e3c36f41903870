/-!
# Text between separators

**`split`** gives the pieces of a text between the occurrences of a character, one more than there
are occurrences, and **`split_ne_nil`** says that there is always one.
-/

namespace SealedGateway

/-- The pieces between the occurrences of a separator. -/
def split (separator : Char) : List Char → List (List Char)
  | [] => [[]]
  | c :: s =>
    if c = separator then [] :: split separator s
    else
      match split separator s with
      | [] => [[c]]
      | piece :: pieces => (c :: piece) :: pieces

theorem split_ne_nil (separator : Char) (s : List Char) : split separator s ≠ [] := by
  cases s with
  | nil => simp [split]
  | cons c s =>
    simp only [split]
    split
    · simp
    · split <;> simp

end SealedGateway
