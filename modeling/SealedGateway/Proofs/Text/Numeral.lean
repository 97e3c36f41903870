import Mathlib.Algebra.GroupWithZero.Nat
import Mathlib.Data.List.TakeDrop
import SealedGateway.Text.Numeral

/-!
# Numerals

A numeral is read as far as its digits go, so it is read in front of anything that does not start
with a digit (**`leading?_eq_some_iff`**). Leading zeros do not count. Without them a number has one
decimal numeral, the one that is printed (**`toDigits_of_spells`**).
-/

namespace SealedGateway.Numeral

variable {radix : Nat}

/-- What does not go on with a digit. -/
def Ended (radix : Nat) (r : List Char) : Prop := ∀ c ∈ r.head?, isDigit radix c = false

/-- The digits of a number, behind zeros or not. -/
structure Spells (radix : Nat) (w : List Char) (n : Nat) : Prop where
  ne_nil : w ≠ []
  digits : ∀ c ∈ w, isDigit radix c = true
  value_eq : value radix w = n

theorem ended_nil : Ended radix [] := nofun

theorem ended_cons {c : Char} (h : isDigit radix c = false) (r : List Char) :
    Ended radix (c :: r) := by
  rintro _ ⟨⟩
  exact h

/-! ## Reading -/

/-- The digits in front of what does not go on with one. -/
theorem span_digits {w r : List Char} (hw : ∀ c ∈ w, isDigit radix c = true)
    (hr : Ended radix r) :
    (w ++ r).takeWhile (isDigit radix) = w ∧ (w ++ r).dropWhile (isDigit radix) = r := by
  rw [List.takeWhile_append_of_pos hw, List.dropWhile_append_of_pos hw]
  cases r with
  | nil => simp
  | cons c r => simp [hr c rfl]

theorem ended_dropWhile (s : List Char) : Ended radix (s.dropWhile (isDigit radix)) := by
  intro c hc
  have hhead := List.head?_dropWhile_not (isDigit radix) s
  rwa [Option.mem_def.mp hc] at hhead

theorem leading?_eq_some_iff {s r : List Char} {n : Nat} :
    leading? radix s = some (n, r) ↔ ∃ w, s = w ++ r ∧ Spells radix w n ∧ Ended radix r := by
  constructor
  · intro h
    rw [leading?] at h
    split at h
    · cases h
    case isFalse hne =>
      cases h
      exact ⟨_, List.takeWhile_append_dropWhile.symm,
        ⟨by simpa using hne, List.all_eq_true.mp List.all_takeWhile, rfl⟩, ended_dropWhile s⟩
  · rintro ⟨w, rfl, hw, hr⟩
    obtain ⟨htake, hdrop⟩ := span_digits hw.digits hr
    rw [leading?, htake, hdrop, if_neg (by simpa using hw.ne_nil), hw.value_eq]

theorem leading?_append {w r : List Char} {n : Nat} (hw : Spells radix w n) (hr : Ended radix r) :
    leading? radix (w ++ r) = some (n, r) :=
  leading?_eq_some_iff.mpr ⟨w, rfl, hw, hr⟩

theorem leading?_eq_none {s : List Char} (h : Ended radix s) : leading? radix s = none := by
  have hnone := (span_digits (w := []) nofun h).1
  rw [List.nil_append] at hnone
  rw [leading?, hnone]
  rfl

theorem digit?_lt {c : Char} {d : Nat} (h : digit? radix c = some d) : d < radix := by
  simp only [digit?, Option.ite_none_right_eq_some, Option.some.injEq] at h
  obtain ⟨hlt, rfl⟩ := h
  exact hlt

/-- The value of a run of digits behind a number that was read already. -/
theorem foldl_lt_pow {w : List Char} (hw : ∀ c ∈ w, isDigit radix c = true) (m : Nat) :
    w.foldl (fun n c => n * radix + (digit? radix c).getD 0) m < (m + 1) * radix ^ w.length := by
  induction w generalizing m with
  | nil => simp
  | cons c w ih =>
    rw [List.forall_mem_cons] at hw
    obtain ⟨d, hd⟩ := Option.isSome_iff_exists.mp hw.1
    have hlt := digit?_lt hd
    rw [List.foldl_cons, hd, Option.getD_some, List.length_cons, Nat.pow_succ']
    calc _ < (m * radix + d + 1) * radix ^ w.length := ih hw.2 _
      _ ≤ (m + 1) * radix * radix ^ w.length := by
          refine Nat.mul_le_mul_right _ ?_
          rw [Nat.add_mul, Nat.one_mul]
          omega
      _ = (m + 1) * (radix * radix ^ w.length) := Nat.mul_assoc _ _ _

/-- A numeral bounds its number by its length. -/
theorem Spells.lt_pow {w : List Char} {n : Nat} (h : Spells radix w n) : n < radix ^ w.length := by
  have hlt := foldl_lt_pow h.digits 0
  rwa [Nat.zero_add, Nat.one_mul, ← value, h.value_eq] at hlt

/-! ## Decimals -/

theorem digit?_ten_eq_some_iff {c : Char} {d : Nat} :
    digit? 10 c = some d ↔ d < 10 ∧ c = Nat.digitChar d := by
  constructor
  · intro h
    refine ⟨digit?_lt h, Char.toNat_inj.mp ?_⟩
    rw [Nat.toNat_digitChar_of_lt_ten (digit?_lt h)]
    simp only [digit?, Option.ite_none_right_eq_some, Option.some.injEq] at h
    obtain ⟨hlt, h⟩ := h
    by_cases hc : '0' ≤ c ∧ c ≤ '9'
    · have hzero : '0'.toNat = 48 := rfl
      have hle : '0'.toNat ≤ c.toNat := hc.1
      rw [if_pos hc] at h
      omega
    · rw [if_neg hc] at hlt
      split at hlt
      · omega
      · split at hlt <;> omega
  · rintro ⟨hd, rfl⟩
    revert d
    decide

theorem isDigit_sixteen {c : Char} (h : isDigit 10 c = true) : isDigit 16 c = true := by
  obtain ⟨d, hd⟩ := Option.isSome_iff_exists.mp h
  obtain ⟨hlt, rfl⟩ := digit?_ten_eq_some_iff.mp hd
  clear h hd
  revert d
  decide

theorem Ended.ten {r : List Char} (h : Ended 16 r) : Ended 10 r := by
  intro c hc
  rw [Bool.eq_false_iff]
  intro hdigit
  exact absurd (isDigit_sixteen hdigit) (Bool.eq_false_iff.mp (h c hc))

/-- A numeral behind a number that is not zero goes on with its digits. -/
theorem toDigits_foldl {w : List Char} (hw : ∀ c ∈ w, isDigit 10 c = true) {m : Nat} (hm : 0 < m) :
    Nat.toDigits 10 (w.foldl (fun n c => n * 10 + (digit? 10 c).getD 0) m) =
      Nat.toDigits 10 m ++ w := by
  induction w generalizing m with
  | nil => rw [List.foldl_nil, List.append_nil]
  | cons c w ih =>
    rw [List.forall_mem_cons] at hw
    obtain ⟨d, hd⟩ := Option.isSome_iff_exists.mp hw.1
    obtain ⟨hlt, rfl⟩ := digit?_ten_eq_some_iff.mp hd
    rw [List.foldl_cons, hd, Option.getD_some, ih hw.2 (by omega), Nat.mul_comm,
      ← Nat.toDigits_append_toDigits (by decide) hm hlt, Nat.toDigits_of_lt_base hlt,
      List.append_assoc, List.singleton_append]

/-- A numeral without leading zeros is the one that is printed. -/
theorem toDigits_of_spells {w : List Char} {n : Nat} (h : Spells 10 w n)
    (hzero : w.head? = some '0' → w.length = 1) : Nat.toDigits 10 n = w := by
  obtain ⟨c, w, rfl⟩ := List.exists_cons_of_ne_nil h.ne_nil
  obtain ⟨hc, hw⟩ := List.forall_mem_cons.mp h.digits
  obtain ⟨d, hd⟩ := Option.isSome_iff_exists.mp hc
  obtain ⟨hlt, rfl⟩ := digit?_ten_eq_some_iff.mp hd
  have hn := h.value_eq
  rw [value, List.foldl_cons, hd, Option.getD_some, Nat.zero_mul, Nat.zero_add] at hn
  by_cases h0 : d = 0
  · subst h0
    obtain rfl : w = [] := by simpa using hzero rfl
    rw [← hn]
    rfl
  · rw [← hn, toDigits_foldl hw (Nat.pos_of_ne_zero h0), Nat.toDigits_of_lt_base hlt,
      List.singleton_append]

/-- What is printed is a numeral without leading zeros. -/
theorem spells_toDigits (n : Nat) :
    Spells 10 (Nat.toDigits 10 n) n ∧
      ((Nat.toDigits 10 n).head? = some '0' → (Nat.toDigits 10 n).length = 1) := by
  induction n using Nat.strongRecOn with
  | ind n ih =>
    by_cases hlt : n < 10
    · have hdigit := digit?_ten_eq_some_iff.mpr ⟨hlt, rfl⟩
      rw [Nat.toDigits_of_lt_base hlt]
      refine ⟨⟨nofun, ?_, ?_⟩, fun _ => rfl⟩
      · simp [isDigit, hdigit]
      · simp [value, hdigit]
    · obtain ⟨hw, hzero⟩ := ih (n / 10) (by omega)
      have hmod := Nat.mod_lt n (by decide : 0 < 10)
      have hdigit := digit?_ten_eq_some_iff.mpr ⟨hmod, rfl⟩
      rw [Nat.toDigits_of_base_le (by decide) (by omega)]
      refine ⟨⟨by simp, ?_, ?_⟩, fun hhead => ?_⟩
      · intro c hc
        rcases List.mem_append.mp hc with hc | hc
        · exact hw.digits c hc
        · rw [List.mem_singleton.mp hc, isDigit, hdigit]
          rfl
      · have hvalue := hw.value_eq
        rw [value] at hvalue
        rw [value, List.foldl_append, hvalue, List.foldl_cons, List.foldl_nil, hdigit,
          Option.getD_some, Nat.mul_comm]
        exact Nat.div_add_mod n 10
      · -- A zero in front would be all of the number that the other digits make up.
        obtain ⟨c, u, hu⟩ := List.exists_cons_of_ne_nil hw.ne_nil
        have hvalue := hw.value_eq
        rw [hu] at hhead hzero hvalue
        obtain rfl : c = '0' := Option.some.inj hhead
        obtain rfl : u = [] := by simpa using hzero rfl
        have h0 : value 10 ['0'] = 0 := by decide
        omega

end SealedGateway.Numeral
