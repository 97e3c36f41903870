import Mathlib.Data.List.Nodup
import Mathlib.Logic.Function.Basic
import SealedGateway.Crypto.Aes

/-!
# No two blocks have the same image

Each step of the cipher can be undone: the substitution table has no octet twice, shifting rows only
moves octets, mixing a column four times gives it back, and a round key is added. So a round is
injective, and by induction on the round keys the cipher is.

- **`RoundKeys.encrypt_injective`**: the cipher under any round keys.
- **`Block.toBytes_ofBytes`**: sixteen octets are one block, and are read off it again.
-/

namespace SealedGateway.Aes

/-! ## Substitution -/

/-- Whether the octets of a list differ from each other and from those seen, which are the bits of a
number. -/
def allNew : (seen : Nat) → Bytes → Bool
  | _, [] => true
  | seen, x :: xs => !seen.testBit x.toNat && allNew (seen ||| 1 <<< x.toNat) xs

theorem nodup_of_allNew {seen : Nat} {xs : Bytes} (h : allNew seen xs = true) :
    xs.Nodup ∧ ∀ x ∈ xs, seen.testBit x.toNat = false := by
  induction xs generalizing seen with
  | nil => exact ⟨.nil, nofun⟩
  | cons x xs ih =>
    simp only [allNew, Bool.and_eq_true, Bool.not_eq_true'] at h
    obtain ⟨hx, hxs⟩ := h
    obtain ⟨hnodup, hseen⟩ := ih hxs
    simp only [Nat.testBit_or, Bool.or_eq_false_iff] at hseen
    refine ⟨List.nodup_cons.mpr ⟨fun hmem => ?_, hnodup⟩,
      List.forall_mem_cons.mpr ⟨hx, fun y hy => (hseen y hy).1⟩⟩
    have hself := (hseen x hmem).2
    simp at hself

theorem substitute_injective : Function.Injective substitute := by
  have hnew : allNew 0 substitution.toList = true := by decide +kernel
  have hnodup : substitution.toList.Nodup := (nodup_of_allNew hnew).1
  intro x y h
  have hx : x.toNat < 256 := x.toNat_lt
  have hy : y.toNat < 256 := y.toNat_lt
  have hget : substitution[x.toNat] = substitution[y.toNat] := h
  rw [← Vector.getElem_toList (by simpa using hx),
    ← Vector.getElem_toList (by simpa using hy)] at hget
  exact UInt8.toNat_inj.mp (hnodup.getElem_inj_iff.mp hget)

/-! ## Columns -/

theorem Column.map_injective {f : UInt8 → UInt8} (hf : Function.Injective f) :
    Function.Injective (Column.map f) := by
  rintro ⟨a, b, c, d⟩ ⟨a', b', c', d'⟩ h
  simpa only [Column.map, Column.mk.injEq, hf.eq_iff] using h

theorem Column.add_injective (v : Column) : Function.Injective (Column.add · v) := by
  rintro ⟨a, b, c, d⟩ ⟨a', b', c', d'⟩ h
  simpa only [Column.add, Column.mk.injEq, UInt8.xor_left_inj] using h

/-- Where the top bit is lost, doubling takes the modulus off. -/
theorem double_eq (x : UInt8) :
    double x = (x <<< 1) ^^^ if x.toBitVec.msb then 0x1B else 0 := by
  have hmsb : x < 0x80 ↔ x.toBitVec.msb = false := by
    rw [BitVec.msb_eq_decide, decide_eq_false_iff_not, UInt8.lt_iff_toNat_lt]
    exact Nat.not_le.symm
  rw [double]
  cases hx : x.toBitVec.msb with
  | true => rw [if_neg (by simp [hmsb, hx]), if_pos rfl]
  | false => rw [if_pos (hmsb.mpr hx), if_neg Bool.false_ne_true]

theorem xor_cancel_left (x y : UInt8) : x ^^^ (x ^^^ y) = y := by
  rw [← UInt8.xor_assoc, UInt8.xor_self, UInt8.zero_xor]

theorem double_xor (x y : UInt8) : double (x ^^^ y) = double x ^^^ double y := by
  rw [double_eq, double_eq, double_eq, UInt8.shiftLeft_xor, UInt8.toBitVec_xor, BitVec.msb_xor]
  cases x.toBitVec.msb <;> cases y.toBitVec.msb <;> simp <;> ac_nf
  simp only [xor_cancel_left]

/-- Mixing twice adds the same to two octets that lie opposite each other, so their sum stays. -/
theorem Column.mix_mix (w : Column) :
    w.mix.mix = ⟨w.a ^^^ double (double (w.a ^^^ w.c)), w.b ^^^ double (double (w.b ^^^ w.d)),
      w.c ^^^ double (double (w.a ^^^ w.c)), w.d ^^^ double (double (w.b ^^^ w.d))⟩ := by
  simp only [Column.mix, double_xor]
  ac_nf
  simp only [xor_cancel_left, UInt8.xor_self, UInt8.xor_zero]

theorem Column.mix_mix_mix_mix (w : Column) : w.mix.mix.mix.mix = w := by
  rw [mix_mix, mix_mix]
  simp only [double_xor]
  ac_nf
  simp only [UInt8.xor_self, UInt8.xor_zero]

theorem Column.mix_injective : Function.Injective Column.mix := by
  intro w v h
  rw [← w.mix_mix_mix_mix, h, v.mix_mix_mix_mix]

/-! ## Blocks -/

theorem Block.add_injective (k : Block) : Function.Injective (Block.add · k) := by
  rintro ⟨c0, c1, c2, c3⟩ ⟨d0, d1, d2, d3⟩ h
  simpa only [Block.add, Block.mk.injEq, (Column.add_injective _).eq_iff] using h

theorem Block.substitute_injective : Function.Injective Block.substitute := by
  rintro ⟨c0, c1, c2, c3⟩ ⟨d0, d1, d2, d3⟩ h
  simpa only [Block.substitute, Block.mk.injEq,
    (Column.map_injective Aes.substitute_injective).eq_iff] using h

theorem Block.shiftRows_injective : Function.Injective Block.shiftRows := by
  rintro ⟨⟨⟩, ⟨⟩, ⟨⟩, ⟨⟩⟩ ⟨⟨⟩, ⟨⟩, ⟨⟩, ⟨⟩⟩ h
  simp only [Block.shiftRows, Block.mk.injEq, Column.mk.injEq] at h ⊢
  tauto

theorem Block.mixColumns_injective : Function.Injective Block.mixColumns := by
  rintro ⟨c0, c1, c2, c3⟩ ⟨d0, d1, d2, d3⟩ h
  simpa only [Block.mixColumns, Block.mk.injEq, Column.mix_injective.eq_iff] using h

theorem mixingRound_injective (k : Block) : Function.Injective (mixingRound · k) :=
  (Block.add_injective k).comp <| Block.mixColumns_injective.comp <|
    Block.shiftRows_injective.comp Block.substitute_injective

theorem foldl_mixingRound_injective (ks : List Block) :
    Function.Injective (ks.foldl mixingRound ·) := by
  induction ks with
  | nil => exact Function.injective_id
  | cons k ks ih => exact ih.comp (mixingRound_injective k)

/-- The cipher maps different blocks to different ones. -/
theorem RoundKeys.encrypt_injective (k : RoundKeys) : Function.Injective k.encrypt :=
  (Block.add_injective k.last).comp <| Block.shiftRows_injective.comp <|
    Block.substitute_injective.comp <| (foldl_mixingRound_injective k.middle).comp <|
      Block.add_injective k.first

/-! ## Octets of a block -/

theorem Block.toBytes_injective : Function.Injective Block.toBytes := by
  rintro ⟨⟨⟩, ⟨⟩, ⟨⟩, ⟨⟩⟩ ⟨⟨⟩, ⟨⟩, ⟨⟩, ⟨⟩⟩ h
  simpa only [Block.toBytes, List.cons.injEq, Block.mk.injEq, Column.mk.injEq, and_assoc,
    and_true] using h

theorem Block.toBytes_ofBytes {b : Bytes} (h : b.length = 16) : (ofBytes b).toBytes = b := by
  have hmap : (ofBytes b).toBytes = (List.range 16).map (b.getD · 0) := rfl
  rw [hmap]
  refine List.ext_getElem (by simp [h]) fun i _ hi => ?_
  simp [hi]

end SealedGateway.Aes
