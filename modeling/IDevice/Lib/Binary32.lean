import Mathlib.Data.Int.Log
import Mathlib.Data.Rat.Floor
import Mathlib.Tactic.Linarith
import Mathlib.Tactic.FieldSimp
import Mathlib.Tactic.NormNum
import Mathlib.Tactic.Positivity

/-!
# `Lib.Binary32` — rounding to single precision

`round x` is the nearest number with a 24-bit significand, ties to even: the result of a conversion or
an arithmetic operation on `float`s. The exponent is not bounded, so the model is exact for results in
the normal range.

The result a caller of `ceil` needs is `ceil_round_div`: below `2 ^ 24` the rounded quotient of two
naturals has the ceiling of the exact one. The quotient can come close to an integer from above, but
not closer than half the spacing of the floats there.
-/

namespace Binary32

/-- The nearest integer, ties to even. -/
def roundEven (x : ℚ) : ℤ :=
  if x - ⌊x⌋ < 1 / 2 then ⌊x⌋
  else if 1 / 2 < x - ⌊x⌋ then ⌊x⌋ + 1
  else if ⌊x⌋ % 2 = 0 then ⌊x⌋
  else ⌊x⌋ + 1

/-- The spacing of the floats around a positive `x`. -/
def ulp (x : ℚ) : ℚ := 2 ^ (Int.log 2 x - 23)

/-- The nearest float. -/
def round (x : ℚ) : ℚ := roundEven (x / ulp x) * ulp x

/-- The quotient of two `float`s. -/
def div (x y : ℚ) : ℚ := round (x / y)

/-! ## Rounding to an integer -/

theorem le_roundEven {x : ℚ} {n : ℤ} (h : (n : ℚ) ≤ x) : n ≤ roundEven x := by
  have hf : n ≤ ⌊x⌋ := Int.le_floor.mpr h
  unfold roundEven
  split_ifs <;> omega

theorem lt_roundEven {x : ℚ} {n : ℤ} (h : (n : ℚ) + 1 / 2 < x) : n < roundEven x := by
  have hf : n ≤ ⌊x⌋ := Int.le_floor.mpr (by linarith)
  rcases eq_or_lt_of_le hf with heq | hlt
  · -- above the middle of the unit interval at `n`
    have hfrac : 1 / 2 < x - ⌊x⌋ := by
      rw [← heq]
      linarith
    rw [roundEven, if_neg (not_lt.mpr hfrac.le), if_pos hfrac]
    omega
  · unfold roundEven
    split_ifs <;> omega

theorem roundEven_le {x : ℚ} {n : ℤ} (h : x ≤ n) : roundEven x ≤ n := by
  rcases eq_or_lt_of_le h with heq | hlt
  · have hfloor : ⌊x⌋ = n := by rw [heq, Int.floor_intCast]
    rw [roundEven, hfloor, heq, sub_self, if_pos (by norm_num)]
  · have hf : ⌊x⌋ < n := Int.floor_lt.mpr hlt
    unfold roundEven
    split_ifs <;> omega

theorem roundEven_mono {x y : ℚ} (h : x ≤ y) : roundEven x ≤ roundEven y := by
  rcases eq_or_lt_of_le (Int.floor_mono h) with heq | hlt
  · -- both lie in one unit interval
    unfold roundEven
    rw [← heq]
    split_ifs <;> first | omega | linarith
  · have hx : roundEven x ≤ ⌊x⌋ + 1 := roundEven_le (by exact_mod_cast (Int.lt_floor_add_one x).le)
    have hy : ⌊y⌋ ≤ roundEven y := le_roundEven (Int.floor_le y)
    omega

/-! ## Rounding to a float -/

theorem ulp_pos (x : ℚ) : 0 < ulp x := by
  unfold ulp
  exact zpow_pos (by norm_num) _

/-- Below `2 ^ 24` the spacing divides one, so every natural number is a multiple of it. -/
theorem exists_natCast_mul_ulp {x : ℚ} (hpos : 0 < x) (hlt : x < 2 ^ 24) (n : ℕ) :
    ∃ m : ℤ, (n : ℚ) = m * ulp x := by
  have hlog : Int.log 2 x < 24 := by
    have h := (Int.lt_zpow_iff_log_lt (b := 2) (by norm_num) (x := 24) hpos).mp
    exact h (by exact_mod_cast hlt)
  obtain ⟨k, hk⟩ : ∃ k : ℕ, Int.log 2 x - 23 = -k := ⟨(23 - Int.log 2 x).toNat, by omega⟩
  refine ⟨n * 2 ^ k, ?_⟩
  rw [ulp, hk, zpow_neg, zpow_natCast]
  push_cast
  field_simp

theorem round_le {x : ℚ} {k : ℕ} (hpos : 0 < x) (hlt : x < 2 ^ 24) (h : x ≤ k) : round x ≤ k := by
  obtain ⟨m, hm⟩ := exists_natCast_mul_ulp hpos hlt k
  have hu := ulp_pos x
  have hdiv : x / ulp x ≤ m := by
    rw [div_le_iff₀ hu, ← hm]
    exact h
  have hround : (roundEven (x / ulp x) : ℚ) ≤ m := by exact_mod_cast roundEven_le hdiv
  rw [round, hm]
  exact mul_le_mul_of_nonneg_right hround hu.le

theorem le_round {x : ℚ} {k : ℕ} (hpos : 0 < x) (hlt : x < 2 ^ 24) (h : k ≤ x) : k ≤ round x := by
  obtain ⟨m, hm⟩ := exists_natCast_mul_ulp hpos hlt k
  have hu := ulp_pos x
  have hdiv : (m : ℚ) ≤ x / ulp x := by
    rw [le_div_iff₀ hu, ← hm]
    exact h
  have hround : (m : ℚ) ≤ roundEven (x / ulp x) := by exact_mod_cast le_roundEven hdiv
  rw [round, hm]
  exact mul_le_mul_of_nonneg_right hround hu.le

/-- Natural numbers below `2 ^ 24` are floats. -/
theorem round_natCast {n : ℕ} (h : n < 2 ^ 24) : round n = n := by
  rcases Nat.eq_zero_or_pos n with rfl | hpos
  · simp [round, roundEven]
  · have hpos' : (0 : ℚ) < n := by exact_mod_cast hpos
    have hlt : (n : ℚ) < 2 ^ 24 := by exact_mod_cast h
    exact le_antisymm (round_le hpos' hlt le_rfl) (le_round hpos' hlt le_rfl)

/-- The spacing in terms of the power of two below `x`. -/
theorem mul_ulp (x : ℚ) : 2 ^ 23 * ulp x = 2 ^ Int.log 2 x := by
  have h23 : (2 : ℚ) ^ 23 = 2 ^ (23 : ℤ) := by norm_num
  rw [ulp, h23, ← zpow_add₀ (by norm_num)]
  congr 1
  omega

/-- Powers of two are floats, so a number is not rounded below the one under it .. -/
theorem zpow_log_le_round {x : ℚ} (hpos : 0 < x) : 2 ^ Int.log 2 x ≤ round x := by
  have hself : (2 : ℚ) ^ Int.log 2 x ≤ x := by
    exact_mod_cast Int.zpow_log_le_self (b := 2) (by norm_num) hpos
  have hu := ulp_pos x
  have hdiv : ((2 ^ 23 : ℤ) : ℚ) ≤ x / ulp x := by
    rw [le_div_iff₀ hu, Int.cast_pow, Int.cast_ofNat, mul_ulp]
    exact hself
  have hround : ((2 : ℚ) ^ 23) ≤ roundEven (x / ulp x) := by exact_mod_cast le_roundEven hdiv
  rw [← mul_ulp, round]
  exact mul_le_mul_of_nonneg_right hround hu.le

/-- .. and not above the next one. -/
theorem round_le_zpow_log (x : ℚ) : round x ≤ 2 ^ (Int.log 2 x + 1) := by
  have hnext : x < (2 : ℚ) ^ (Int.log 2 x + 1) := by
    exact_mod_cast Int.lt_zpow_succ_log_self (b := 2) (by norm_num) x
  have hu := ulp_pos x
  have hmul : (2 : ℚ) ^ 24 * ulp x = 2 ^ (Int.log 2 x + 1) := by
    rw [zpow_add_one₀ (by norm_num), ← mul_ulp]
    ring
  have hdiv : x / ulp x ≤ ((2 ^ 24 : ℤ) : ℚ) := by
    rw [div_le_iff₀ hu, Int.cast_pow, Int.cast_ofNat, hmul]
    exact hnext.le
  have hround : (roundEven (x / ulp x) : ℚ) ≤ 2 ^ 24 := by exact_mod_cast roundEven_le hdiv
  rw [← hmul, round]
  exact mul_le_mul_of_nonneg_right hround hu.le

theorem round_pos {x : ℚ} (hpos : 0 < x) : 0 < round x :=
  lt_of_lt_of_le (zpow_pos (by norm_num) _) (zpow_log_le_round hpos)

/-- **Rounding is monotone.** -/
theorem round_mono {x y : ℚ} (hpos : 0 < x) (h : x ≤ y) : round x ≤ round y := by
  have hlog : Int.log 2 x ≤ Int.log 2 y := Int.log_mono_right hpos h
  rcases eq_or_lt_of_le hlog with heq | hlt
  · have hulp : ulp x = ulp y := by rw [ulp, ulp, heq]
    have hu := ulp_pos y
    have hdiv : x / ulp y ≤ y / ulp y := div_le_div_of_nonneg_right h hu.le
    have hround : (roundEven (x / ulp y) : ℚ) ≤ roundEven (y / ulp y) := by
      exact_mod_cast roundEven_mono hdiv
    rw [round, round, hulp]
    exact mul_le_mul_of_nonneg_right hround hu.le
  · -- a power of two lies between them
    calc round x ≤ 2 ^ (Int.log 2 x + 1) := round_le_zpow_log x
      _ ≤ 2 ^ Int.log 2 y := zpow_le_zpow_right₀ (by norm_num) hlt
      _ ≤ round y := zpow_log_le_round (lt_of_lt_of_le hpos h)

/-- Numbers from `2 ^ 24` on are not rounded below it. -/
theorem le_round_of_le {x : ℚ} (h : 2 ^ 24 ≤ x) : 2 ^ 24 ≤ round x := by
  have hpos : 0 < x := lt_of_lt_of_le (by norm_num) h
  have hlog : 24 ≤ Int.log 2 x := by
    have hzpow := (Int.zpow_le_iff_le_log (b := 2) (by norm_num) (x := 24) hpos).mp
    exact hzpow (by exact_mod_cast h)
  calc (2 : ℚ) ^ 24 = 2 ^ (24 : ℤ) := by norm_num
    _ ≤ 2 ^ Int.log 2 x := zpow_le_zpow_right₀ (by norm_num) hlog
    _ ≤ round x := zpow_log_le_round hpos

/-- From `2 ^ 24` on the floats are even numbers. -/
theorem exists_round_eq_two_mul {x : ℚ} (h : 2 ^ 24 ≤ x) : ∃ k : ℕ, round x = 2 * k := by
  have hpos : 0 < x := lt_of_lt_of_le (by norm_num) h
  have hlog : 24 ≤ Int.log 2 x := by
    have hzpow := (Int.zpow_le_iff_le_log (b := 2) (by norm_num) (x := 24) hpos).mp
    exact hzpow (by exact_mod_cast h)
  obtain ⟨n, hn⟩ : ∃ n : ℕ, Int.log 2 x - 23 = n + 1 := ⟨(Int.log 2 x - 24).toNat, by omega⟩
  have hnonneg : 0 ≤ roundEven (x / ulp x) :=
    le_roundEven (by exact_mod_cast (div_pos hpos (ulp_pos x)).le)
  obtain ⟨m, hm⟩ := Int.eq_ofNat_of_zero_le hnonneg
  refine ⟨m * 2 ^ n, ?_⟩
  rw [round, hm, ulp, hn, zpow_add_one₀ (by norm_num), zpow_natCast]
  push_cast
  ring

/-! ## The ceiling of a quotient -/

/-- A quotient of `L < 2 ^ 24` that lies above a natural `j` by at least one part in the divisor stays
    above `j`: the gap is more than half the spacing. -/
theorem lt_round_div {L D : ℚ} {j : ℕ} (hD : 1 ≤ D) (hL : L < 2 ^ 24) (h : j * D + 1 ≤ L) :
    (j : ℚ) < round (L / D) := by
  have hD0 : 0 < D := by linarith
  have hj : (0 : ℚ) ≤ j * D := by positivity
  have hx : 0 < L / D := div_pos (by linarith) hD0
  have hxlt : L / D < 2 ^ 24 := lt_of_le_of_lt (div_le_self (by linarith) hD) hL
  have hu := ulp_pos (L / D)
  obtain ⟨m, hm⟩ := exists_natCast_mul_ulp hx hxlt j
  -- the spacing times the divisor is at most `L / 2 ^ 23`
  have hspacing : ulp (L / D) * D < 2 := by
    have hlog : (2 : ℚ) ^ Int.log 2 (L / D) ≤ L / D := by
      exact_mod_cast Int.zpow_log_le_self (b := 2) (by norm_num) hx
    have hulp : ulp (L / D) = 2 ^ Int.log 2 (L / D) / 2 ^ 23 := by
      rw [ulp, zpow_sub₀ (by norm_num)]
      norm_num
    have hmul : 2 ^ Int.log 2 (L / D) * D ≤ L := (le_div_iff₀ hD0).mp hlog
    rw [hulp, div_mul_eq_mul_div, div_lt_iff₀ (by norm_num)]
    calc 2 ^ Int.log 2 (L / D) * D ≤ L := hmul
      _ < 2 ^ 24 := hL
      _ = 2 * 2 ^ 23 := by norm_num
  have hgap : (m : ℚ) + 1 / 2 < L / D / ulp (L / D) := by
    rw [lt_div_iff₀ hu, lt_div_iff₀ hD0, add_mul, ← hm]
    linarith
  have hround : (m : ℚ) < roundEven (L / D / ulp (L / D)) := by exact_mod_cast lt_roundEven hgap
  rw [round, hm]
  exact mul_lt_mul_of_pos_right hround hu

/-- **The rounded quotient has the exact ceiling** for a dividend below `2 ^ 24`: `k` pieces of size `D`
    hold `L`, and `k - 1` do not. -/
theorem ceil_round_div {L D k : ℕ} (hL : L < 2 ^ 24) (hD : 0 < D) (hle : L ≤ k * D)
    (hlt : (k - 1) * D < L) : ⌈div (round L) (round D)⌉₊ = k := by
  have hk : k ≠ 0 := by
    rintro rfl
    omega
  have hLQ : (L : ℚ) < 2 ^ 24 := by exact_mod_cast hL
  have hD1 : (1 : ℚ) ≤ D := by exact_mod_cast hD
  rw [div, round_natCast hL, Nat.ceil_eq_iff hk]
  by_cases hsmall : D < 2 ^ 24
  · rw [round_natCast hsmall]
    have hleQ : (L : ℚ) ≤ k * D := by exact_mod_cast hle
    have hx : (0 : ℚ) < L / D := div_pos (by exact_mod_cast (Nat.zero_le _).trans_lt hlt) (by linarith)
    have hxlt : (L : ℚ) / D < 2 ^ 24 := lt_of_le_of_lt (div_le_self (by positivity) hD1) hLQ
    refine ⟨lt_round_div hD1 hLQ (by exact_mod_cast hlt), round_le hx hxlt ?_⟩
    rwa [div_le_iff₀ (by linarith)]
  · -- a divisor that may itself be rounded is larger than `L` anyway
    have hbig : (2 : ℚ) ^ 24 ≤ round D := le_round_of_le (by exact_mod_cast not_lt.mp hsmall)
    have hk1 : k = 1 := by
      by_contra hne
      have : 1 * D ≤ (k - 1) * D := Nat.mul_le_mul_right D (by omega)
      omega
    subst hk1
    have hL1 : (1 : ℚ) ≤ L := by exact_mod_cast (Nat.zero_le _).trans_lt hlt
    have hR1 : (1 : ℚ) ≤ round D := le_trans (by norm_num) hbig
    have hx : 0 < (L : ℚ) / round D := div_pos (by linarith) (by linarith)
    have hx1 : (L : ℚ) / round D ≤ 1 := by
      rw [div_le_one (by linarith)]
      linarith
    refine ⟨lt_round_div hR1 hLQ (by simpa using hL1), round_le hx (lt_of_le_of_lt hx1 (by norm_num)) ?_⟩
    exact_mod_cast hx1

/-- A dividend that is not larger than the divisor needs one piece, at any size. -/
theorem ceil_round_div_of_le {L D : ℕ} (hpos : 0 < L) (hle : L ≤ D) :
    ⌈div (round L) (round D)⌉₊ = 1 := by
  have hL : (0 : ℚ) < L := by exact_mod_cast hpos
  have hround : round L ≤ round D := round_mono hL (by exact_mod_cast hle)
  have hLr := round_pos hL
  have hquot : 0 < round L / round D := div_pos hLr (lt_of_lt_of_le hLr hround)
  have hone : round L / round D ≤ 1 := (div_le_one (lt_of_lt_of_le hLr hround)).mpr hround
  have hup : round (round L / round D) ≤ ((1 : ℕ) : ℚ) :=
    round_le hquot (lt_of_le_of_lt hone (by norm_num)) (by exact_mod_cast hone)
  rw [div, Nat.ceil_eq_iff one_ne_zero]
  exact ⟨by simpa using round_pos hquot, hup⟩

/-- A dividend from `2 ^ 24` on is never taken for one piece, not even by a counter of 32 bits. -/
theorem ceil_div_mod_ne_one {L D : ℕ} (hD : 0 < D) (hL : 2 ^ 24 ≤ L) (hsmall : 2 * D ≤ 2 ^ 24) :
    ⌈div (round L) (round D)⌉₊ % 2 ^ 32 ≠ 1 := by
  have hDQ : (0 : ℚ) < D := by exact_mod_cast hD
  have hbig : (2 : ℚ) ^ 24 ≤ round L := le_round_of_le (by exact_mod_cast hL)
  rw [div, round_natCast (show D < 2 ^ 24 by omega)]
  have htwo : ((2 : ℕ) : ℚ) ≤ round L / D := by
    rw [le_div_iff₀ hDQ]
    refine le_trans ?_ hbig
    exact_mod_cast hsmall
  have hpos : 0 < round L / D := lt_of_lt_of_le (by norm_num) htwo
  by_cases hlt : round L / D < 2 ^ 24
  · -- the quotient is rounded to a number between 2 and `2 ^ 24`
    have hlo : 2 ≤ ⌈round (round L / D)⌉₊ := by
      have hround := le_round hpos hlt htwo
      exact_mod_cast hround.trans (Nat.le_ceil _)
    have hhi : ⌈round (round L / D)⌉₊ ≤ 2 ^ 24 := by
      apply Nat.ceil_le.mpr
      exact round_le hpos hlt (by exact_mod_cast hlt.le)
    omega
  · obtain ⟨k, hk⟩ := exists_round_eq_two_mul (not_lt.mp hlt)
    have hceil : ⌈round (round L / D)⌉₊ = 2 * k := by
      rw [hk]
      exact_mod_cast Nat.ceil_natCast (R := ℚ) (2 * k)
    omega

example : ⌈div (round 100) (round 33)⌉₊ = 4 := by decide +kernel

end Binary32
