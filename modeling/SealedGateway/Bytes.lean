/-!
# Octet strings

- **`Bytes`**: octet strings of any length, first octet first. Wire data, keys and payloads are
  all octet strings; a list makes every cut and concatenation a list lemma.
- **`Octets n`**: octet strings of exactly `n` octets, for keys (32) and nonces (12). A value of
  this type has passed its length check (`ofBytes?`), so nothing behind the check repeats it.
-/

namespace SealedGateway

/-- A finite string of octets, first octet first. -/
abbrev Bytes := List UInt8

/-- An octet string of exactly `n` octets. -/
structure Octets (n : Nat) where
  toBytes : Bytes
  length_eq : toBytes.length = n
  deriving DecidableEq

namespace Octets

variable {n : Nat}

/-- The length check: `b` as a string of `n` octets, if it has that many. -/
def ofBytes? (n : Nat) (b : Bytes) : Option (Octets n) :=
  if h : b.length = n then some ⟨b, h⟩ else none

/-- The string of `n` zero octets. -/
def zero (n : Nat) : Octets n := ⟨List.replicate n 0, by simp⟩

/-- The first `n` octets of a string that has at least that many. -/
def take (n : Nat) (b : Bytes) (h : n ≤ b.length) : Octets n := ⟨b.take n, by simp [h]⟩

theorem ext_iff {a b : Octets n} : a = b ↔ a.toBytes = b.toBytes := by
  cases a; cases b; simp

@[simp] theorem ofBytes?_toBytes (o : Octets n) : ofBytes? n o.toBytes = some o := by
  simp [ofBytes?, o.length_eq]

theorem ofBytes?_eq_some_iff {b : Bytes} {o : Octets n} :
    ofBytes? n b = some o ↔ b = o.toBytes := by
  constructor
  · intro h
    unfold ofBytes? at h
    split at h
    · cases h; rfl
    · cases h
  · rintro rfl; simp

theorem ofBytes?_eq_none_iff {b : Bytes} : ofBytes? n b = none ↔ b.length ≠ n := by
  unfold ofBytes?
  split <;> simp_all

end Octets

end SealedGateway
