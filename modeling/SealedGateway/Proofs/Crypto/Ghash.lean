import SealedGateway.Proofs.Crypto.Field

/-!
# A changed block changes the hash

The hash takes the blocks one after the other: it adds the next one and multiplies by the hash key.
If that key is not zero, each step keeps sums apart that differ. So two texts of one length that
differ in one block only have different hashes: up to that block the sums are the same, then they
differ, and the rest of the text and its length keep them apart.

- **`ofBytes_injective`**, **`toBytes_injective`**: octets and elements determine each other.
- **`absorb_ne`**: the induction over the blocks.
- **`hash_ne`**: the hash of two texts that differ in one block.
-/

namespace SealedGateway.Gcm

/-- Two texts of one length differ, but only in some of their places. -/
structure DiffersIn (places : Nat → Prop) (a b : Bytes) : Prop where
  length_eq : a.length = b.length
  ne : a ≠ b
  same : ∀ j, ¬places j → a[j]? = b[j]?

/-- Two texts differ in one block only, whose number is `i`. -/
abbrev DiffersInBlock (i : Nat) : Bytes → Bytes → Prop := DiffersIn (· / 16 = i)

variable {h : Element}

namespace Ghash

/-! ## Octets of elements -/

/-- Digits of a number in base 256 can be read off it again. -/
theorem digits_injective {a b : Bytes} {m n : Nat} (hlen : a.length = b.length)
    (h : a.foldl (fun n (x : UInt8) => n * 256 + x.toNat) m =
      b.foldl (fun n (x : UInt8) => n * 256 + x.toNat) n) : m = n ∧ a = b := by
  induction a generalizing b m n with
  | nil =>
    obtain rfl := List.length_eq_zero_iff.mp hlen.symm
    exact ⟨h, rfl⟩
  | cons x a ih =>
    cases b with
    | nil => cases hlen
    | cons y b =>
      obtain ⟨hnext, rfl⟩ := ih (Nat.succ.inj hlen) h
      have hx := x.toNat_lt
      have hy := y.toNat_lt
      dsimp only at hnext
      obtain ⟨rfl, hxy⟩ : m = n ∧ x.toNat = y.toNat := by omega
      exact ⟨rfl, congrArg (· :: a) (UInt8.toNat_inj.mp hxy)⟩

theorem digits_lt (a : Bytes) (m : Nat) :
    a.foldl (fun n (x : UInt8) => n * 256 + x.toNat) m < (m + 1) * 256 ^ a.length := by
  induction a generalizing m with
  | nil => simp
  | cons x a ih =>
    have hx := x.toNat_lt
    calc _ < (m * 256 + x.toNat + 1) * 256 ^ a.length := ih _
      _ ≤ ((m + 1) * 256) * 256 ^ a.length := Nat.mul_le_mul_right _ (by omega)
      _ = (m + 1) * 256 ^ (x :: a).length := by
        rw [List.length_cons, Nat.pow_succ', Nat.mul_assoc]

theorem ofBytes_injective {a b : Bytes} (hlen : a.length = b.length) (ha : a.length ≤ 16)
    (h : ofBytes a = ofBytes b) : a = b := by
  have hbound (c : Bytes) (hc : c.length ≤ 16) :
      (c ++ List.replicate (16 - c.length) 0).foldl (fun n (x : UInt8) => n * 256 + x.toNat) 0 <
        2 ^ 128 := by
    have hfull : (c ++ List.replicate (16 - c.length) 0).length = 16 := by simp [hc]
    have := digits_lt (c ++ List.replicate (16 - c.length) 0) 0
    rw [hfull] at this
    exact this
  have hnat := congrArg BitVec.toNat h
  simp only [ofBytes, BitVec.toNat_ofNat] at hnat
  rw [Nat.mod_eq_of_lt (hbound a ha), Nat.mod_eq_of_lt (hbound b (hlen ▸ ha))] at hnat
  have hpadded := (digits_injective (by simp [hlen]) hnat).2
  exact List.append_inj_left hpadded hlen

theorem toBytes_injective : Function.Injective toBytes := by
  intro v w h
  refine BitVec.eq_of_getLsbD_eq fun k hk => ?_
  -- Bit `k` is in the octet of place `15 - k / 8`.
  have hoctet := congrArg (·[15 - k / 8]?) h
  have hplace : 15 - k / 8 < 16 := by omega
  have hshift : 15 - (15 - k / 8) = k / 8 := by omega
  simp only [toBytes, List.getElem?_map, List.getElem?_range hplace, Option.map_some,
    Option.some.injEq, hshift] at hoctet
  have hbit := congrArg (fun x : UInt8 => x.toNat.testBit (k % 8)) hoctet
  have hlt : k % 8 < 8 := Nat.mod_lt _ (by decide)
  simp only [UInt8.toNat_ofNat', Nat.testBit_mod_two_pow, hlt, decide_true, Bool.true_and,
    Nat.testBit_shiftRight, Nat.div_add_mod] at hbit
  exact hbit

/-! ## Blocks -/

/-- The hash of the rest keeps sums apart. -/
theorem absorb_injective (hh : h ≠ 0) (n : Nat) (data : Bytes) :
    Function.Injective (absorb (multiples 128 h) · n data) := by
  induction n generalizing data with
  | zero => exact Function.injective_id
  | succ n ih =>
    intro s t hst
    exact (BitVec.xor_left_inj _).mp (mul_injective hh (ih _ hst))

end Ghash


/-- The part behind the first block differs in one block, if the difference is there. -/
theorem DiffersInBlock.drop {i : Nat} {a b : Bytes} (h : DiffersInBlock (i + 1) a b) :
    a.take 16 = b.take 16 ∧ DiffersInBlock i (a.drop 16) (b.drop 16) := by
  have htake : a.take 16 = b.take 16 := by
    refine List.ext_getElem? fun j => ?_
    rw [List.getElem?_take, List.getElem?_take]
    split
    · exact h.same j (by omega)
    · rfl
  refine ⟨htake, by rw [List.length_drop, List.length_drop, h.length_eq], fun hdrop => h.ne ?_,
    fun j hj => ?_⟩
  · rw [← List.take_append_drop 16 a, htake, hdrop, List.take_append_drop]
  · rw [List.getElem?_drop, List.getElem?_drop]
    exact h.same _ (by omega)

theorem DiffersInBlock.take {a b : Bytes} (h : DiffersInBlock 0 a b) :
    a.take 16 ≠ b.take 16 ∧ a.drop 16 = b.drop 16 := by
  have hdrop : a.drop 16 = b.drop 16 := by
    refine List.ext_getElem? fun j => ?_
    rw [List.getElem?_drop, List.getElem?_drop]
    exact h.same _ (by omega)
  refine ⟨fun htake => h.ne ?_, hdrop⟩
  rw [← List.take_append_drop 16 a, htake, hdrop, List.take_append_drop]

/-- The block in which two texts differ is one of theirs. -/
theorem DiffersInBlock.lt_blockCount {i : Nat} {a b : Bytes} (h : DiffersInBlock i a b) :
    i < blockCount a.length := by
  by_contra hle
  refine h.ne (List.ext_getElem? fun j => ?_)
  by_cases hj : j / 16 = i
  · have hlen : a.length ≤ j := by
      rw [blockCount] at hle
      omega
    rw [List.getElem?_eq_none hlen, List.getElem?_eq_none (h.length_eq ▸ hlen)]
  · exact h.same j hj

/-- Sums that differ in a block stay apart. -/
theorem absorb_ne (hh : h ≠ 0) {i n : Nat} {a b : Bytes} (hab : DiffersInBlock i a b)
    (hi : i < n) (acc : Element) :
    Ghash.absorb (Ghash.multiples 128 h) acc n a ≠
      Ghash.absorb (Ghash.multiples 128 h) acc n b := by
  induction n generalizing i a b acc with
  | zero => omega
  | succ n ih =>
    cases i with
    | zero =>
      obtain ⟨htake, hdrop⟩ := hab.take
      intro heq
      rw [Ghash.absorb, Ghash.absorb, hdrop] at heq
      have hsum := Ghash.mul_injective hh (Ghash.absorb_injective hh n _ heq)
      have hblock := Ghash.ofBytes_injective (by simp [hab.length_eq]) (by simp)
        ((BitVec.xor_right_inj _).mp hsum)
      exact htake hblock
    | succ i =>
      obtain ⟨htake, hdrop⟩ := hab.drop
      rw [Ghash.absorb, Ghash.absorb, htake]
      exact ih hdrop (Nat.lt_of_succ_lt_succ hi) _

theorem hash_ne (hh : h ≠ 0) {i : Nat} {a b : Bytes} (hab : DiffersInBlock i a b) :
    hash h a ≠ hash h b := by
  intro heq
  rw [hash, hash, hab.length_eq] at heq
  have hsum := Ghash.mul_injective hh heq
  refine absorb_ne hh hab hab.lt_blockCount 0 ?_
  rw [hab.length_eq]
  exact (BitVec.xor_left_inj _).mp hsum

end SealedGateway.Gcm
