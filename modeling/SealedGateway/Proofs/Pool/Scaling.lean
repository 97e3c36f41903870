import Mathlib.Algebra.GroupWithZero.Nat
import SealedGateway.Pool.Sizing

/-!
# The controller's rule

While the backlog stays what it is, the rule has an interval of numbers that it leaves alone. It
moves any other number by one towards that interval, and never across it, since its two branches
have thresholds that are two apart.

- **`Sizing.resting`**: the number in the interval that is nearest to a given one.
- **`Sizing.next_paced`**: one look goes one step further on the way there.
- **`Sizing.scaledWord?_eq`**: in machine words the rule is the same, and no sum or difference is
  out of their range.
-/

namespace SealedGateway

namespace Sizing

variable {s : Sizing} {b c : Nat}

/-! ## Resting -/

/-- The number of workers behind a look of the controller. -/
def next (s : Sizing) (b c : Nat) : Nat := (s.scaled b c).getD c

/-- The least number that the rule leaves alone while the backlog is `b`. -/
def low (s : Sizing) (b : Nat) : Nat := max s.minWorkers (min b s.maxWorkers)

/-- The greatest number that the rule leaves alone while the backlog is `b`. -/
def high (s : Sizing) (b : Nat) : Nat := min s.maxWorkers (max (b + 1) s.minWorkers)

/-- The number nearest to `c` that the rule leaves alone while the backlog is `b`. -/
def resting (s : Sizing) (b c : Nat) : Nat := min (max c (s.low b)) (s.high b)

/-- How far one comes from `c` towards `r` in `i` steps. -/
def paced (r c i : Nat) : Nat := min (c + i) (max r (c - i))

theorem low_le_high (h : s.minWorkers ≤ s.maxWorkers) : s.low b ≤ s.high b := by
  unfold low high
  omega

theorem next_eq (hmin : s.minWorkers ≤ c) (hmax : c ≤ s.maxWorkers) :
    s.next b c = if c < s.low b then c + 1 else if s.high b < c then c - 1 else c := by
  have hlow : c < s.low b ↔ c < b ∧ c < s.maxWorkers := by
    unfold low
    omega
  have hhigh : s.high b < c ↔ b + 1 < c ∧ s.minWorkers < c := by
    unfold high
    omega
  simp only [next, scaled, hlow, hhigh]
  split
  · rfl
  · split <;> rfl

/-- A look asks for one worker more or fewer at most. -/
theorem next_within (hmin : s.minWorkers ≤ c) (hmax : c ≤ s.maxWorkers) :
    s.next b c ≤ c + 1 ∧ c ≤ s.next b c + 1 := by
  rw [next_eq hmin hmax]
  split
  · omega
  · split <;> omega

theorem next_bounds (hmin : s.minWorkers ≤ c) (hmax : c ≤ s.maxWorkers) :
    s.minWorkers ≤ s.next b c ∧ s.next b c ≤ s.maxWorkers := by
  unfold next scaled
  split
  · rw [Option.getD_some]
    omega
  · split
    · rw [Option.getD_some]
      omega
    · exact ⟨hmin, hmax⟩

theorem clamp_next (hmin : s.minWorkers ≤ c) (hmax : c ≤ s.maxWorkers) :
    s.clamp (s.next b c) = s.next b c := by
  have hbounds := next_bounds (b := b) hmin hmax
  unfold clamp
  omega

theorem next_of_some {target : Nat} (h : s.scaled b c = some target) : s.next b c = target := by
  rw [next, h, Option.getD_some]

theorem next_of_none (h : s.scaled b c = none) : s.next b c = c := by
  rw [next, h, Option.getD_none]

theorem resting_bounds (hs : s.minWorkers ≤ s.maxWorkers) :
    s.minWorkers ≤ s.resting b c ∧ s.resting b c ≤ s.maxWorkers := by
  have hlow := low_le_high (b := b) hs
  have hmin : s.minWorkers ≤ s.low b := Nat.le_max_left ..
  have hmax : s.high b ≤ s.maxWorkers := Nat.min_le_left ..
  unfold resting
  omega

theorem paced_bounds {r i : Nat} (hr : s.minWorkers ≤ r ∧ r ≤ s.maxWorkers)
    (hmin : s.minWorkers ≤ c) (hmax : c ≤ s.maxWorkers) :
    s.minWorkers ≤ paced r c i ∧ paced r c i ≤ s.maxWorkers := by
  unfold paced
  omega

/-- A look goes one step further towards the resting place of the first number. -/
theorem next_paced (hmin : s.minWorkers ≤ c) (hmax : c ≤ s.maxWorkers) (i : Nat) :
    s.next b (paced (s.resting b c) c i) = paced (s.resting b c) c (i + 1) := by
  have hs : s.minWorkers ≤ s.maxWorkers := Nat.le_trans hmin hmax
  obtain ⟨hlo, hhi⟩ := paced_bounds (i := i) (resting_bounds (b := b) (c := c) hs) hmin hmax
  have hlow := low_le_high (b := b) hs
  rw [next_eq hlo hhi]
  unfold resting paced
  generalize s.low b = low at *
  generalize s.high b = high at *
  split
  · omega
  · split <;> omega

theorem paced_zero (r c : Nat) : paced r c 0 = c := by
  unfold paced
  omega

theorem paced_grows {r : Nat} (h : c ≤ r) (i : Nat) :
    paced r c i ≤ paced r c (i + 1) ∧ paced r c (i + 1) ≤ paced r c i + 1 := by
  unfold paced
  omega

theorem paced_shrinks {r : Nat} (h : r ≤ c) (i : Nat) :
    paced r c (i + 1) ≤ paced r c i ∧ paced r c i ≤ paced r c (i + 1) + 1 := by
  unfold paced
  omega

/-- The bounds are no further apart than the steps that are taken, so the way is at its end. -/
theorem paced_eq {r i : Nat} (hr : s.minWorkers ≤ r ∧ r ≤ s.maxWorkers) (hmin : s.minWorkers ≤ c)
    (hmax : c ≤ s.maxWorkers) (hi : s.maxWorkers - s.minWorkers ≤ i) : paced r c i = r := by
  unfold paced
  omega

/-! ## Machine words -/

theorem ofNat_lt_iff {m n : Nat} (hm : m < 2 ^ 64) (hn : n < 2 ^ 64) :
    UInt64.ofNat m < UInt64.ofNat n ↔ m < n := by
  rw [UInt64.lt_iff_toNat_lt, UInt64.toNat_ofNat_of_lt' hm, UInt64.toNat_ofNat_of_lt' hn]

theorem add?_ofNat {m n : Nat} (h : m + n < 2 ^ 64) :
    add? (.ofNat m) (.ofNat n) = some (.ofNat (m + n)) := by
  have hm : m < 2 ^ 64 := by omega
  have hn : n < 2 ^ 64 := by omega
  have hsize : m + n < UInt64.size := h
  rw [add?, UInt64.toNat_ofNat_of_lt' hm, UInt64.toNat_ofNat_of_lt' hn, if_pos hsize,
    UInt64.ofNat_add]

theorem sub?_ofNat {m n : Nat} (hm : m < 2 ^ 64) (h : n ≤ m) :
    sub? (.ofNat m) (.ofNat n) = some (.ofNat (m - n)) := by
  have hle : UInt64.ofNat n ≤ UInt64.ofNat m := by
    rw [UInt64.le_iff_toNat_le, UInt64.toNat_ofNat_of_lt' hm,
      UInt64.toNat_ofNat_of_lt' (by exact Nat.lt_of_le_of_lt h hm)]
    exact h
  rw [sub?, if_pos hle, UInt64.ofNat_sub h]

/-- With a queue that can be made, nothing that the rule computes is out of the range of words. -/
theorem scaledWord?_eq (hs : s.minWorkers ≤ s.maxWorkers) (hmax : s.maxWorkers < 2 ^ 64)
    (hqueue : Capacity.isValid s.queueSize = true) (hb : b ≤ s.queueSize) (hc : c ≤ s.maxWorkers) :
    scaledWord? (.ofNat s.minWorkers) (.ofNat s.maxWorkers) (.ofNat s.queueSize)
      (.ofNat (s.queueSize - b)) (.ofNat c) = some ((s.scaled b c).map .ofNat) := by
  have hlongest : s.queueSize ≤ 2 ^ 61 - 1 :=
    of_decide_eq_true (Bool.and_eq_true_iff.mp hqueue).2
  have hb64 : b + 1 < 2 ^ 64 := by omega
  have hc64 : c < 2 ^ 64 := by omega
  have hmin64 : s.minWorkers < 2 ^ 64 := by omega
  have hbacklog : sub? (.ofNat s.queueSize) (.ofNat (s.queueSize - b)) = some (.ofNat b) := by
    rw [sub?_ofNat (by omega) (by omega), Nat.sub_sub_self hb]
  have habove : add? (.ofNat b) 1 = some (.ofNat (b + 1)) := add?_ofNat hb64
  simp only [scaledWord?, hbacklog, habove, Option.bind_eq_bind, Option.bind_some,
    ofNat_lt_iff hc64 (Nat.lt_of_succ_lt hb64), ofNat_lt_iff hc64 hmax, ofNat_lt_iff hb64 hc64,
    ofNat_lt_iff hmin64 hc64, scaled]
  split
  case isTrue hgrows =>
    have hnext : c + 1 < 2 ^ 64 := by omega
    have htarget : add? (.ofNat c) 1 = some (.ofNat (c + 1)) := add?_ofNat hnext
    rw [htarget]
    rfl
  case isFalse =>
    split
    case isTrue hshrinks =>
      have hsome : 1 ≤ c := by omega
      have htarget : sub? (.ofNat c) 1 = some (.ofNat (c - 1)) := sub?_ofNat hc64 hsome
      rw [htarget]
      rfl
    case isFalse => rfl

end Sizing

end SealedGateway
