import Mathlib.Algebra.CharP.Two
import Mathlib.FieldTheory.Finite.Extension
import Mathlib.RingTheory.AdjoinRoot
import Mathlib.Tactic.ComputeDegree
import SealedGateway.Crypto.Gcm

/-!
# The field of the hash

The elements of the hash are the polynomials over two elements modulo `x^128 + x^7 + x^2 + x + 1`
(`value`), and the sum of the multiples that the bits of an element pick is a product there
(`value_mul`).

The modulus is irreducible (`irreducible_modulus`), so there are no divisors of zero. Over two
elements, an irreducible factor of degree `d` divides `X^(2^n) - X` just if `d` divides `n`. The
modulus divides it for `n = 128`, and has no factor in common with it for `n = 64`, so its factors
have degree 128. The powers of `x` that show it are computed with the elements themselves, by
squaring.

Main statement: **`mul_injective`**, a product with a factor other than zero determines the other
factor.
-/

namespace SealedGateway.Gcm.Ghash

open Polynomial

/-- The product of two elements. -/
def mul (v h : Element) : Element := pick v 0 (multiples 128 h)

/-! ## Elements as polynomials -/

/-- What the power of degree 128 is worth. -/
noncomputable def reduction : (ZMod 2)[X] := X ^ 7 + X ^ 2 + X + 1

/-- The polynomial that the field is made with. -/
noncomputable def modulus : (ZMod 2)[X] := X ^ 128 + reduction

theorem modulus_eq : modulus = X ^ 128 + reduction := by
  unfold modulus
  rfl

theorem degree_reduction_lt : reduction.degree < (128 : Nat) := by
  have h : reduction.degree ≤ (7 : Nat) := by
    unfold reduction
    compute_degree
    exact le_rfl
  exact h.trans_lt (Nat.cast_lt.mpr (by norm_num))

theorem monic_modulus : modulus.Monic := by
  unfold modulus
  apply monic_X_pow_add
  exact degree_reduction_lt

theorem natDegree_modulus : modulus.natDegree = 128 := by
  have hlt : reduction.degree < (X ^ 128 : (ZMod 2)[X]).degree := by
    rw [degree_X_pow]
    exact degree_reduction_lt
  unfold modulus
  rw [natDegree_add_eq_left_of_degree_lt hlt]
  exact natDegree_X_pow 128

/-- A bit as a coefficient. -/
def coefficient (b : Bool) : ZMod 2 := if b then 1 else 0

theorem coefficient_xor (a b : Bool) : coefficient (a ^^ b) = coefficient a + coefficient b := by
  cases a <;> cases b <;> decide

theorem coefficient_injective : Function.Injective coefficient := by decide

/-- The polynomial of an element. The first bit is its constant coefficient. -/
noncomputable def polynomial (v : Element) : (ZMod 2)[X] :=
  ∑ i ∈ Finset.range 128, C (coefficient (v.getMsbD i)) * X ^ i

theorem coeff_polynomial (v : Element) (k : Nat) :
    (polynomial v).coeff k = coefficient (v.getMsbD k) := by
  simp only [polynomial, finsetSum_coeff, coeff_C_mul_X_pow, Finset.sum_ite_eq, Finset.mem_range]
  split_ifs with hk
  · rfl
  · rw [BitVec.getMsbD_of_ge v k (by omega)]
    rfl

theorem polynomial_zero : polynomial 0 = 0 := by
  ext k
  simp [coeff_polynomial, coefficient]

theorem polynomial_xor (v w : Element) : polynomial (v ^^^ w) = polynomial v + polynomial w := by
  ext k
  rw [coeff_add, coeff_polynomial, coeff_polynomial, coeff_polynomial, BitVec.getMsbD_xor,
    coefficient_xor]

theorem polynomial_injective : Function.Injective polynomial := by
  intro v w h
  refine BitVec.eq_of_getMsbD_eq fun k _ => coefficient_injective ?_
  rw [← coeff_polynomial, ← coeff_polynomial, h]

theorem degree_polynomial_lt (v : Element) : (polynomial v).degree < (128 : Nat) := by
  refine (degree_lt_iff_coeff_zero _ _).mpr fun k hk => ?_
  rw [coeff_polynomial, BitVec.getMsbD_of_ge v k hk]
  rfl

/-- The power `x ^ k`, for `k` below 128. -/
def power (k : Nat) : Element := BitVec.twoPow 128 (127 - k)

theorem polynomial_power {k : Nat} (hk : k < 128) : polynomial (power k) = X ^ k := by
  ext i
  rw [coeff_polynomial, coeff_X_pow, power, BitVec.getMsbD_eq_getLsbD, BitVec.getLsbD_twoPow]
  by_cases hi : i = k
  · subst hi
    simp [hk, coefficient]
    omega
  · rw [if_neg hi]
    by_cases hlt : i < 128
    · have hne : 127 - k ≠ 127 - i := by omega
      simp [hne, coefficient]
    · simp [hlt, coefficient]

theorem polynomial_reduction : polynomial (0xE1#128 <<< 120) = reduction := by
  have hsum : (0xE1#128 <<< 120 : Element) = power 7 ^^^ power 2 ^^^ power 1 ^^^ power 0 := by
    decide
  rw [hsum, polynomial_xor, polynomial_xor, polynomial_xor, polynomial_power (by decide),
    polynomial_power (by decide), polynomial_power (by decide), polynomial_power (by decide),
    pow_one, pow_zero, reduction]

/-- A shift multiplies by `X`, and loses the term of degree 128. -/
theorem X_mul_polynomial (v : Element) :
    X * polynomial v = polynomial (v >>> 1) + C (coefficient (v.getLsbD 0)) * X ^ 128 := by
  have hlast : v.getLsbD 0 = v.getMsbD 127 := by
    rw [BitVec.getMsbD_eq_getLsbD]
    rfl
  ext k
  rw [coeff_add, coeff_polynomial, coeff_C_mul_X_pow, BitVec.getMsbD_ushiftRight, hlast]
  cases k with
  | zero => simp [coefficient]
  | succ k =>
    rw [coeff_X_mul, coeff_polynomial]
    rcases Nat.lt_trichotomy k 127 with hk | rfl | hk
    · have hlt : k + 1 < 128 := by omega
      have hne : k ≠ 127 := by omega
      simp [hlt, hne]
    · simp [coefficient]
    · have hne : k ≠ 127 := by omega
      simp [BitVec.getMsbD_of_ge v k (by omega), coefficient, hne]

/-! ## The values of elements -/

/-- What an element stands for. -/
noncomputable def value (v : Element) : AdjoinRoot modulus := AdjoinRoot.mk modulus (polynomial v)

theorem value_zero : value 0 = 0 := by rw [value, polynomial_zero, map_zero]

theorem value_xor (v w : Element) : value (v ^^^ w) = value v + value w := by
  rw [value, polynomial_xor, map_add, value, value]

theorem value_injective : Function.Injective value := by
  intro v w h
  have hmod : polynomial v %ₘ modulus = polynomial w %ₘ modulus := by
    have := congrArg (AdjoinRoot.modByMonicHom monic_modulus) h
    rwa [value, value, AdjoinRoot.modByMonicHom_mk, AdjoinRoot.modByMonicHom_mk] at this
  have hdegree (u : Element) : (polynomial u).degree < modulus.degree := by
    rw [degree_eq_natDegree monic_modulus.ne_zero, natDegree_modulus]
    exact degree_polynomial_lt u
  rw [(modByMonic_eq_self_iff monic_modulus).mpr (hdegree v),
    (modByMonic_eq_self_iff monic_modulus).mpr (hdegree w)] at hmod
  exact polynomial_injective hmod

/-- The modulus is zero, so the power of degree 128 is a sum of lower ones. -/
theorem mk_X_pow : AdjoinRoot.mk modulus (X ^ 128) = AdjoinRoot.mk modulus reduction := by
  rw [AdjoinRoot.mk_eq_mk, CharTwo.sub_eq_add, ← modulus_eq]

theorem value_timesX (v : Element) : value (timesX v) = AdjoinRoot.root modulus * value v := by
  rw [← AdjoinRoot.mk_X, value, value, ← map_mul, X_mul_polynomial, map_add, map_mul, mk_X_pow,
    timesX]
  cases v.getLsbD 0 with
  | true =>
    rw [if_pos rfl, polynomial_xor, polynomial_reduction, map_add, coefficient, if_pos rfl,
      map_one, map_one, one_mul]
  | false => simp [coefficient]

/-- The multiples that bits pick sum up to a product with the polynomial of these bits. -/
theorem value_pick (v h : Element) (i n : Nat) :
    value (pick v i (multiples n h)) =
      AdjoinRoot.mk modulus (∑ k ∈ Finset.range n, C (coefficient (v.getMsbD (i + k))) * X ^ k) *
        value h := by
  induction n generalizing i h with
  | zero => rw [multiples, pick, Finset.sum_range_zero, map_zero, zero_mul, value_zero]
  | succ n ih =>
    have hfirst : value (if v.getMsbD i then h else 0) =
        AdjoinRoot.mk modulus (C (coefficient (v.getMsbD i))) * value h := by
      cases v.getMsbD i with
      | true => rw [if_pos rfl, coefficient, if_pos rfl, map_one, map_one, one_mul]
      | false =>
        rw [if_neg Bool.false_ne_true, coefficient, if_neg Bool.false_ne_true, map_zero, map_zero,
          zero_mul, value_zero]
    have hrest : ∑ k ∈ Finset.range n, C (coefficient (v.getMsbD (i + (k + 1)))) * X ^ (k + 1) =
        (∑ k ∈ Finset.range n, C (coefficient (v.getMsbD (i + 1 + k))) * X ^ k) * X := by
      rw [Finset.sum_mul]
      refine Finset.sum_congr rfl fun k _ => ?_
      rw [pow_succ, mul_assoc, Nat.add_right_comm, Nat.add_assoc]
    rw [multiples, pick, value_xor, ih, value_timesX, hfirst, Finset.sum_range_succ', hrest,
      map_add, map_mul, AdjoinRoot.mk_X, pow_zero, mul_one, Nat.add_zero i, add_mul, mul_assoc,
      add_comm]

theorem value_mul (v h : Element) : value (mul v h) = value v * value h := by
  rw [mul, value_pick]
  simp only [Nat.zero_add]
  rfl

/-! ## The modulus is irreducible -/

/-- The square of an element. -/
def square (v : Element) : Element := mul v v

theorem value_square_iterate (v : Element) (n : Nat) :
    value (square^[n] v) = value v ^ 2 ^ n := by
  induction n with
  | zero => rw [Function.iterate_zero_apply, pow_zero, pow_one]
  | succ n ih =>
    rw [Function.iterate_succ_apply', square, value_mul, ih, ← pow_two, ← pow_mul, ← pow_succ]

theorem mk_X : AdjoinRoot.mk modulus X = value (power 1) := by
  rw [value, polynomial_power (by decide), pow_one]

/-- Squaring `x` again and again gives the powers of `X` by the powers of two. -/
theorem mk_X_pow_two_pow (n : Nat) :
    AdjoinRoot.mk modulus (X ^ 2 ^ n) = value (square^[n] (power 1)) := by
  rw [value_square_iterate, ← mk_X, map_pow]

section Factor

variable {g : (ZMod 2)[X]} {n : Nat}

theorem natDegree_dvd_iff (hg : Irreducible g) : g.natDegree ∣ n ↔ g ∣ X ^ 2 ^ n - X := by
  rw [hg.natDegree_dvd_iff_dvd_X_pow_card_pow_sub_X, Nat.card_zmod]

theorem natDegree_dvd (hg : Irreducible g) (hdvd : g ∣ modulus)
    (hn : square^[n] (power 1) = power 1) : g.natDegree ∣ n := by
  have hmodulus : modulus ∣ X ^ 2 ^ n - X := by
    rw [← AdjoinRoot.mk_eq_mk, mk_X_pow_two_pow, mk_X, hn]
  exact (natDegree_dvd_iff hg).mpr (hdvd.trans hmodulus)

/-- Where `X ^ (2 ^ n) - X` has an inverse, a factor that it shares with the modulus is a unit. -/
theorem not_natDegree_dvd (hg : Irreducible g) (hdvd : g ∣ modulus) {u : Element}
    (hu : mul u (square^[n] (power 1) ^^^ power 1) = power 0) : ¬ g.natDegree ∣ n := by
  intro h
  have hinverse : modulus ∣ polynomial u * (X ^ 2 ^ n - X) - 1 := by
    rw [← AdjoinRoot.mk_eq_mk, map_mul, CharTwo.sub_eq_add, map_add, mk_X_pow_two_pow, mk_X,
      ← value_xor, ← value, ← value_mul, hu, value, polynomial_power (by decide), pow_zero]
  have hshared : g ∣ polynomial u * (X ^ 2 ^ n - X) := ((natDegree_dvd_iff hg).mp h).mul_left _
  exact hg.not_isUnit (isUnit_of_dvd_one ((dvd_sub_right hshared).mp (hdvd.trans hinverse)))

end Factor

/-- The power `x ^ (2 ^ 64)`. -/
def halfway : Element := 0x6F9945A9E519A7229D4C1AD657F8A686#128

theorem square_to_halfway : square^[64] (power 1) = halfway := by decide +kernel

theorem square_from_halfway : square^[64] halfway = power 1 := by decide +kernel

/-- The inverse of `x ^ (2 ^ 64) - x`. -/
def cofactor : Element := 0x180DA934BF53158251C13DBB149F5279#128

theorem mul_cofactor : mul cofactor (halfway ^^^ power 1) = power 0 := by decide +kernel

theorem square_round : square^[64 + 64] (power 1) = power 1 := by
  rw [Function.iterate_add_apply, square_to_halfway, square_from_halfway]

theorem irreducible_modulus : Irreducible modulus := by
  have hnotUnit : ¬ IsUnit modulus := by
    refine not_isUnit_of_natDegree_pos modulus ?_
    rw [natDegree_modulus]
    norm_num
  obtain ⟨g, hg, hdvd⟩ :=
    WfDvdMonoid.exists_irreducible_factor hnotUnit monic_modulus.ne_zero
  have hfull : g.natDegree ∣ 2 ^ 7 := natDegree_dvd hg hdvd square_round
  have hhalf : ¬ g.natDegree ∣ 2 ^ 6 :=
    not_natDegree_dvd hg hdvd (square_to_halfway.symm ▸ mul_cofactor)
  have hdegree : g.natDegree = 2 ^ 7 := by
    obtain ⟨k, hk, hpow⟩ := (Nat.dvd_prime_pow Nat.prime_two).mp hfull
    rw [hpow] at hhalf ⊢
    obtain rfl : k = 7 := by
      by_contra hne
      exact hhalf (Nat.pow_dvd_pow 2 (by omega))
    rfl
  have hassociated : Associated g modulus := by
    refine associated_of_dvd_of_natDegree_le hdvd monic_modulus.ne_zero ?_
    rw [natDegree_modulus, hdegree]
    norm_num
  exact hassociated.irreducible hg

instance : Fact (Irreducible modulus) := ⟨irreducible_modulus⟩

/-- A product with a factor other than zero determines the other factor. -/
theorem mul_injective {h : Element} (hh : h ≠ 0) : Function.Injective (mul · h) := by
  intro v w hvw
  have hvalue : value h ≠ 0 := fun h0 => hh (value_injective (h0.trans value_zero.symm))
  have hprod : value v * value h = value w * value h := by
    rw [← value_mul, ← value_mul]
    exact congrArg value hvw
  exact value_injective (mul_right_cancel₀ hvalue hprod)

end SealedGateway.Gcm.Ghash
