import Mathlib.Algebra.Ring.Nat

/-!
# `Lib.Mask` — masks as arithmetic

A mask keeps some bits of a word. `and_ones` is a mask with one run of ones, as a division and a remainder;
`and_two_runs` is one with two runs.
-/

namespace Mask

/-- The mask with `k` ones from bit `i` on. -/
def ones (i k : ℕ) : ℕ := (2 ^ k - 1) <<< i

/-- A mask with one run of ones. -/
theorem and_ones (w i k : ℕ) : w &&& ones i k = 2 ^ i * (w / 2 ^ i % 2 ^ k) := by
  apply Nat.eq_of_testBit_eq
  intro j
  rw [ones, Nat.testBit_and, Nat.testBit_shiftLeft, Nat.testBit_two_pow_sub_one, Nat.testBit_two_pow_mul,
    Nat.testBit_mod_two_pow, Nat.testBit_div_two_pow]
  by_cases hij : i ≤ j
  · rw [Nat.sub_add_cancel hij]
    simp [hij, Bool.and_comm]
  · simp [hij]

/-- A mask with two runs of ones, one behind the end of the other. -/
theorem and_two_runs (w : ℕ) {i k i' k' : ℕ} (h : i + k ≤ i') :
    w &&& (ones i' k' ||| ones i k) =
      2 ^ i' * (w / 2 ^ i' % 2 ^ k') + 2 ^ i * (w / 2 ^ i % 2 ^ k) := by
  have hlow : 2 ^ i * (w / 2 ^ i % 2 ^ k) < 2 ^ i' :=
    calc 2 ^ i * (w / 2 ^ i % 2 ^ k) < 2 ^ i * 2 ^ k :=
          Nat.mul_lt_mul_of_pos_left (Nat.mod_lt _ (Nat.two_pow_pos k)) (Nat.two_pow_pos i)
      _ = 2 ^ (i + k) := (Nat.pow_add 2 i k).symm
      _ ≤ 2 ^ i' := Nat.pow_le_pow_right (by decide) h
  rw [Nat.and_or_distrib_left, and_ones, and_ones, Nat.two_pow_add_eq_or_of_lt hlow]

end Mask
