import AgentTelepathy.Foundation.Ecma

/-!
# Rounding up a quotient of integers

The quotient of two integers is rounded to a double, and the double is rounded up. If the numerator
is below `2 ^ 53` this is the quotient rounded up, or zero if the quotient is too small for any
double but zero.
-/

namespace Foundation

namespace Float64

variable {num den m : ℕ} {exp : ℤ}

/-! ### Rounding does not pass an integer -/

theorem roundHalfEven_le (positive : 0 < den) (bound : (num : ℚ) / den ≤ m) :
    roundHalfEven num den ≤ m := by
  have near := (roundHalfEven_near num positive).1
  have next : (roundHalfEven num den : ℚ) < m + 1 := by linarith
  exact Nat.lt_succ_iff.mp (by exact_mod_cast next)

theorem le_roundHalfEven (positive : 0 < den) (bound : (m : ℚ) ≤ num / den) :
    m ≤ roundHalfEven num den := by
  have near := (roundHalfEven_near num positive).2
  have next : (m : ℚ) < roundHalfEven num den + 1 := by linarith
  exact Nat.lt_succ_iff.mp (by exact_mod_cast next)

/-- What is more than one half above an integer is rounded above it. -/
theorem lt_roundHalfEven (positive : 0 < den) (bound : (m : ℚ) + 1 / 2 < num / den) :
    m < roundHalfEven num den := by
  have near := (roundHalfEven_near num positive).2
  have next : (m : ℚ) < roundHalfEven num den := by linarith
  exact_mod_cast next

/-- A ratio of some units is not rounded below a power of two that it reaches. -/
theorem pow_le_roundHalfEven (hden : den ≠ 0) (n : ℕ) (low : (2 : ℚ) ^ (exp + n) ≤ num / den) :
    2 ^ n ≤ roundHalfEven (num * 2 ^ (-exp).toNat) (den * 2 ^ exp.toNat) := by
  have positive : 0 < den * 2 ^ exp.toNat :=
    Nat.mul_pos (Nat.pos_of_ne_zero hden) (Nat.pow_pos (by decide))
  have scaled := scaled_ratio num den 2 exp
  rw [Nat.cast_ofNat] at scaled
  apply le_roundHalfEven positive
  rw [scaled, le_div_iff₀ (by positivity), mul_comm, Nat.cast_pow, Nat.cast_ofNat, ← two_zpow_add]
  exact low

/-- Rounding does not go below a power of two. -/
theorem zpow_le_ofRatio {neg : Bool} {k : ℤ} {b : Binary64} (hden : den ≠ 0) (least : -1074 ≤ k)
    (low : (2 : ℚ) ^ k ≤ num / den) (nearest : ofRatio neg num den = .finite b) :
    (2 : ℚ) ^ k ≤ b.mant * 2 ^ b.exp := by
  have hnum : num ≠ 0 := by
    rintro rfl
    have positive : (0 : ℚ) < 2 ^ k := by positivity
    simp only [Nat.cast_zero, zero_div] at low
    exact absurd low (not_le.mpr positive)
  obtain ⟨exp, hexp⟩ : ∃ exp, max (floorLog2 num den - 52) (-1074) = exp := ⟨_, rfl⟩
  -- The power of two and the unit of the exponent are both not above the ratio.
  have unit : (2 : ℚ) ^ max k exp ≤ num / den := by
    rcases le_total exp k with small | large
    · rwa [max_eq_left small]
    · rw [max_eq_right large]
      rcases eq_or_ne exp (-1074) with rfl | regular
      · exact (zpow_le_zpow_right₀ one_lt_two.le least).trans low
      · exact (zpow_le_zpow_right₀ one_lt_two.le (by omega)).trans (floorLog2_spec hnum hden).1
  obtain ⟨n, split⟩ : ∃ n : ℕ, max k exp = exp + n := ⟨(max k exp - exp).toNat, by omega⟩
  rw [split] at unit
  have rounded := pow_le_roundHalfEven hden n unit
  rw [ofRatio_eq neg hnum hexp rfl] at nearest
  generalize roundHalfEven (num * 2 ^ (-exp).toNat) (den * 2 ^ exp.toNat) = mant
    at rounded nearest
  have value : (2 : ℚ) ^ k ≤ mant * 2 ^ exp := by
    calc (2 : ℚ) ^ k ≤ 2 ^ (exp + n : ℤ) :=
          zpow_le_zpow_right₀ one_lt_two.le ((le_max_left _ _).trans_eq split)
      _ = 2 ^ n * 2 ^ exp := by rw [two_zpow_add, mul_comm]
      _ ≤ mant * 2 ^ exp := by gcongr; exact_mod_cast rounded
  dsimp only at nearest
  split_ifs at nearest with full
  · -- A significand that is carried over keeps its value.
    obtain rfl := Float64.finite.inj nearest
    rw [full] at value
    refine value.trans_eq ?_
    dsimp only
    rw [zpow_add_one₀ two_ne_zero]
    push_cast
    ring
  · obtain rfl := Float64.finite.inj nearest
    exact value

/-! ### The value of a quotient -/

section Value

variable (hnum : num ≠ 0) (hden : den ≠ 0) (small : (num : ℚ) / den < 2 ^ (53 : ℤ))
  (hexp : max (floorLog2 num den - 52) (-1074) = exp)
include hnum hden small hexp

/-- The exponent of a quotient below `2 ^ 53`. -/
theorem exponent_bounds : -1074 ≤ exp ∧ exp ≤ 0 ∧ (num : ℚ) / den < 2 ^ (exp + 53) ∧
    (exp ≠ -1074 → (2 : ℚ) ^ (exp + 52) ≤ num / den) := by
  obtain ⟨low, high⟩ := floorLog2_spec hnum hden
  have log := (zpow_lt_zpow_iff_right₀ one_lt_two).mp (low.trans_lt small)
  refine ⟨by omega, by omega, ?_, fun regular => ?_⟩
  · exact high.trans_le (zpow_le_zpow_right₀ one_lt_two.le (by omega))
  · exact (zpow_le_zpow_right₀ one_lt_two.le (by omega)).trans low

/-- A quotient below `2 ^ 53` is rounded to a multiple of a power of two. -/
theorem number_ofRatio : (ofRatio false num den).number = .rat
    (roundHalfEven (num * 2 ^ (-exp).toNat) (den * 2 ^ exp.toNat) * 2 ^ exp) := by
  obtain ⟨least, most, upper, lower⟩ := exponent_bounds hnum hden small hexp
  have unit : (0 : ℚ) < 2 ^ exp := by positivity
  have positive : 0 < den * 2 ^ exp.toNat :=
    Nat.mul_pos (Nat.pos_of_ne_zero hden) (Nat.pow_pos (by decide))
  have scaled := scaled_ratio num den 2 exp
  rw [Nat.cast_ofNat] at scaled
  -- Rounding stays between the powers of two that the exponent was chosen for.
  have above : roundHalfEven (num * 2 ^ (-exp).toNat) (den * 2 ^ exp.toNat) ≤ 2 ^ 53 := by
    apply roundHalfEven_le positive
    rw [scaled, div_le_iff₀ unit, mul_comm, Nat.cast_pow, Nat.cast_ofNat, ← two_zpow_add]
    exact upper.le
  have below : exp ≠ -1074 →
      2 ^ 52 ≤ roundHalfEven (num * 2 ^ (-exp).toNat) (den * 2 ^ exp.toNat) := by
    intro regular
    exact pow_le_roundHalfEven hden 52 (lower regular)
  rw [ofRatio_eq false hnum hexp rfl]
  generalize roundHalfEven (num * 2 ^ (-exp).toNat) (den * 2 ^ exp.toNat) = mant at above below ⊢
  by_cases full : mant = 2 ^ 53
  · -- The significand is carried over to the next exponent.
    subst full
    have normal : Binary64.Normal (2 ^ 52) (exp + 1) :=
      .inr ⟨le_rfl, by decide, by omega, by omega⟩
    have double := two_zpow_add exp 1
    rw [pow_one, Nat.cast_one] at double
    simp only [if_true, dif_pos normal]
    rw [number_finite]
    dsimp only
    rw [double]
    norm_num
    ring
  · have normal : Binary64.Normal mant exp := by
      by_cases regular : exp = -1074
      · rcases Nat.lt_or_ge mant (2 ^ 52) with subnormal | leading
        · exact .inl ⟨subnormal, regular⟩
        · exact .inr ⟨leading, Nat.lt_of_le_of_ne above full, by omega, by omega⟩
      · exact .inr ⟨below regular, Nat.lt_of_le_of_ne above full, by omega, by omega⟩
    simp only [if_neg full, dif_pos normal]
    rw [number_finite]
    simp

end Value

theorem ceil_eq {n : ℕ} {q : ℚ} (below : (n : ℚ) < q) (above : q ≤ n + 1) :
    (Number.rat q).ceil = some (n + 1 : ℤ) := by
  have low : (n : ℤ) < q.ceil := Rat.lt_ceil_iff.mpr (by exact_mod_cast below)
  have high : q.ceil ≤ (n + 1 : ℤ) := Rat.ceil_le_iff.mpr (by exact_mod_cast above)
  rw [Number.ceil, Option.some.injEq]
  omega

/-- `math.ceil(num / den)`, a division of floats that is not off by one. -/
theorem ceil_ofRatio {n : ℕ} (small : num < 2 ^ 53) (hden : 0 < den) (below : n * den < num)
    (above : num ≤ (n + 1) * den) :
    (ofRatio false num den).number.ceil = some (n + 1 : ℤ) ∨
      (ofRatio false num den).number.ceil = some 0 := by
  have hnum : num ≠ 0 := by omega
  have den' : (0 : ℚ) < den := Nat.cast_pos.mpr hden
  have low : (n : ℚ) < num / den := by
    rw [lt_div_iff₀ den']
    exact_mod_cast below
  have high : (num : ℚ) / den ≤ n + 1 := by
    rw [div_le_iff₀ den']
    exact_mod_cast above
  have small' : (num : ℚ) < 2 ^ 53 := by exact_mod_cast small
  have bound : (num : ℚ) / den < 2 ^ (53 : ℤ) := by
    have one : (1 : ℚ) ≤ den := by exact_mod_cast hden
    exact (div_le_self (Nat.cast_nonneg num) one).trans_lt small'
  obtain ⟨exp, hexp⟩ : ∃ exp, max (floorLog2 num den - 52) (-1074) = exp := ⟨_, rfl⟩
  obtain ⟨-, most, upper, lower⟩ := exponent_bounds hnum hden.ne' bound hexp
  rw [number_ofRatio hnum hden.ne' bound hexp]
  -- The exponent is not positive, so every integer is a multiple of the unit.
  obtain ⟨k, rfl⟩ := Int.exists_eq_neg_ofNat most
  have unit : (0 : ℚ) < 2 ^ (-(k : ℤ)) := by positivity
  have cancel : (2 : ℚ) ^ k * 2 ^ (-(k : ℤ)) = 1 := by
    rw [← zpow_natCast, ← zpow_add₀ two_ne_zero, add_neg_cancel, zpow_zero]
  have positive : 0 < den * 2 ^ (-(k : ℤ)).toNat := Nat.mul_pos hden (Nat.pow_pos (by decide))
  have scaled := scaled_ratio num den 2 (-(k : ℤ))
  rw [Nat.cast_ofNat] at scaled
  have most_units : roundHalfEven (num * 2 ^ (-(-(k : ℤ))).toNat) (den * 2 ^ (-(k : ℤ)).toNat) ≤
      (n + 1) * 2 ^ k := by
    apply roundHalfEven_le positive
    rw [scaled, div_le_iff₀ unit]
    push_cast
    rw [mul_assoc, cancel, mul_one]
    exact high
  have more_units : 1 ≤ n → n * 2 ^ k <
      roundHalfEven (num * 2 ^ (-(-(k : ℤ))).toNat) (den * 2 ^ (-(k : ℤ)).toNat) := by
    intro one
    -- The quotient is above one, so twice the unit is more than the denominator.
    have regular : -(k : ℤ) ≠ -1074 := by
      have one' : (2 : ℚ) ^ (0 : ℤ) < 2 ^ (-(k : ℤ) + 53) := by
        rw [zpow_zero]
        exact lt_of_le_of_lt (by exact_mod_cast one) (low.trans upper)
      have exponents := (zpow_lt_zpow_iff_right₀ one_lt_two).mp one'
      omega
    have fine : (2 : ℚ) ^ (-(k : ℤ)) * den < 2 := by
      have leading := lower regular
      rw [le_div_iff₀ den', show (52 : ℤ) = ((52 : ℕ) : ℤ) by rfl, two_zpow_add] at leading
      nlinarith
    have apart : (n : ℚ) * den + 1 ≤ num := by exact_mod_cast below
    apply lt_roundHalfEven positive
    rw [scaled, lt_div_iff₀ unit, lt_div_iff₀ den']
    push_cast
    calc ((n : ℚ) * 2 ^ k + 1 / 2) * 2 ^ (-(k : ℤ)) * den
        = n * (2 ^ k * 2 ^ (-(k : ℤ))) * den + 2 ^ (-(k : ℤ)) * den / 2 := by ring
      _ < n * den + 1 := by rw [cancel]; linarith
      _ ≤ num := apart
  generalize roundHalfEven (num * 2 ^ (-(-(k : ℤ))).toNat) (den * 2 ^ (-(k : ℤ)).toNat) = units
    at most_units more_units ⊢
  have top : (units : ℚ) * 2 ^ (-(k : ℤ)) ≤ n + 1 := by
    have cast : (units : ℚ) ≤ (n + 1) * 2 ^ k := by exact_mod_cast most_units
    calc (units : ℚ) * 2 ^ (-(k : ℤ)) ≤ (n + 1) * 2 ^ k * 2 ^ (-(k : ℤ)) := by gcongr
      _ = n + 1 := by rw [mul_assoc, cancel, mul_one]
  rcases Nat.lt_or_ge (n * 2 ^ k) units with more | less
  · refine .inl (ceil_eq ?_ top)
    have cast : (n : ℚ) * 2 ^ k < units := by exact_mod_cast more
    calc (n : ℚ) = n * 2 ^ k * 2 ^ (-(k : ℤ)) := by rw [mul_assoc, cancel, mul_one]
      _ < units * 2 ^ (-(k : ℤ)) := by gcongr
  · obtain rfl : n = 0 := by
      by_contra nonzero
      exact absurd (more_units (Nat.one_le_iff_ne_zero.mpr nonzero)) (Nat.not_lt.mpr less)
    obtain rfl : units = 0 := by simpa using less
    rw [Nat.cast_zero, zero_mul]
    exact .inr rfl

end Float64

end Foundation
